import AvatarPool.Proofs.Identicon.Painting
import Mathlib.Logic.Basic

/-! # When two identities look alike

A picture tells the fifteen bits of its pattern, each by a pixel of its block, and its colour,
unless no block is set.  So two digests look alike in one size exactly if they do in the other.

The pattern has more bits than a picture shows: cells on the right repeat those on the left, so that
fifteen bits decide about twenty-five cells.  Likewise a colour is halved before it is used, so that
two colours may show as one.  Both are settled by `IsLit`, the closed form of the pixels from
`Identicon.Painting`: a picture tells for each pixel whether it is lit, and each of the fifteen bits
has a pixel that shows it in either size. -/

namespace AvatarPool

/-- A square picture is known by its pixels.  Positions in the array and places in the square are
the same, as long as both pictures have all of their pixels. -/
theorem Picture.ext_pixel? {side : Nat} {p q : Picture} (hp : p.side = side) (hq : q.side = side)
    (hps : p.pixels.size = side * side) (hqs : q.pixels.size = side * side)
    (h : ∀ x y, x < side → y < side → p.pixel? x y = q.pixel? x y) : p = q := by
  suffices hpixels : p.pixels = q.pixels by
    cases p
    cases q
    -- The sides agree, so it is the arrays of pixels that are left.
    exact mk.injEq .. ▸ ⟨hp.trans hq.symm, hpixels⟩
  refine Array.ext (hps.trans hqs.symm) fun k hk hk' => ?_
  -- The pixel at a position is that at its column and row.
  rw [hps] at hk
  have hside : 0 < side := Nat.pos_of_ne_zero fun hzero => by simp [hzero] at hk
  have hx : k % side < side := Nat.mod_lt k hside
  have hy : k / side < side := Nat.div_lt_of_lt_mul hk
  have hindex : k / side * side + k % side = k := by
    rw [Nat.mul_comm]
    exact Nat.div_add_mod k side
  have hpixel := h (k % side) (k / side) hx hy
  simpa [pixel?, hp, hq, hx, hy, hindex, hps, hqs, hk] using hpixel

namespace Identicon

open Picture
open Sha256 (Digest digest)

variable {d e : Digest} {size : Size} {p q : Picture}

/-! ## What the pixels tell -/

/-- A lit pixel belongs to one of the fifteen bits, and shows that it is set.  The place of the
pixel decides on the bit, and not the digest; so any other digest with this bit lights it as well.
-/
theorem exists_testBit_of_isLit {x y : Nat} (h : IsLit d size x y) :
    ∃ i < 15, (pattern d).testBit i ∧ ∀ e : Digest, (pattern e).testBit i → IsLit e size x y := by
  obtain ⟨hx, hy, hset⟩ := h
  refine ⟨_, ?_, hset, fun e he => ⟨hx, hy, he⟩⟩
  -- Column and row of the cell are less than five, and of the columns only three differ.
  cases size <;> simp only [Size.pixels] at * <;> omega

/-- **Every bit has a pixel** that is lit exactly if the bit is set: the first of its block.  The
size does not matter, for a block has at least one pixel in both. -/
theorem exists_isLit_iff_testBit (size : Size) {i : Nat} (h : i < 15) :
    ∃ x < size.pixels, ∃ y < size.pixels, ∀ d : Digest,
      IsLit d size x y ↔ (pattern d).testBit i := by
  -- The first pixel of the block of column `i % 3` and row `i / 3`, for both sizes.
  have hplace : ∀ size : Size,
      let cell := size.pixels / 6
      let offset := (size.pixels - 5 * cell) / 2
      let x := offset + i % 3 * cell
      let y := offset + i / 3 * cell
      (offset ≤ x ∧ x < offset + 5 * cell) ∧ (offset ≤ y ∧ y < offset + 5 * cell) ∧
        (y - offset) / cell * 3 + min ((x - offset) / cell) (4 - (x - offset) / cell) = i ∧
        offset + 5 * cell ≤ size.pixels := by
    intro size
    cases size <;> simp only [Size.pixels] <;> omega
  obtain ⟨hx, hy, hbit, hfits⟩ := hplace size
  refine ⟨_, Nat.lt_of_lt_of_le hx.2 hfits, _, Nat.lt_of_lt_of_le hy.2 hfits, fun d => ?_⟩
  rw [IsLit, hbit]
  exact ⟨fun h => h.2.2, fun h => ⟨hx, hy, h⟩⟩

/-! ## Two pictures -/

/-- **Two digests are alike** if the fifteen bits of their patterns agree and, unless these are all
zero, so do their colours.  The pictures of two seeds with different digests can be the same only by
agreeing in all of these. -/
def Alike (d e : Digest) : Prop :=
  (∀ i < 15, (pattern d).testBit i = (pattern e).testBit i) ∧
    ((∀ i < 15, (pattern d).testBit i = false) ∨ ∀ (i : Nat) (_ : i < 3), d[i] / 2 = e[i] / 2)

/-- From equal pictures to likeness a pixel is chosen for each bit; the other way each pixel is
looked at. -/
theorem Shows.eq_iff (hp : Shows d size p) (hq : Shows e size q) : p = q ↔ Alike d e := by
  constructor
  -- The same picture shows both, so the same pixels are lit.
  · rintro rfl
    have hlit : ∀ x y, x < size.pixels → y < size.pixels → (IsLit d size x y ↔ IsLit e size x y) :=
      fun x y hx hy => not_iff_not.mp ((hp.unlit x y hx hy).symm.trans (hq.unlit x y hx hy))
    refine ⟨fun i hi => ?_, ?_⟩
    · obtain ⟨x, hx, y, hy, hbit⟩ := exists_isLit_iff_testBit size hi
      exact Bool.eq_iff_iff.mpr ((hbit d).symm.trans ((hlit x y hx hy).trans (hbit e)))
    · by_cases hnone : ∀ i < 15, (pattern d).testBit i = false
      · exact .inl hnone
      -- The first pixel of a block that is set has both colours.
      · right
        simp only [not_forall, Bool.not_eq_false] at hnone
        obtain ⟨i, hi, hset⟩ := hnone
        obtain ⟨x, hx, y, hy, hbit⟩ := exists_isLit_iff_testBit size hi
        have hd := (hp.lit x y hx hy).mpr ((hbit d).mpr hset)
        have he := (hq.lit x y hx hy).mpr ((hlit x y hx hy).mp ((hbit d).mpr hset))
        obtain ⟨hred, hgreen, hblue, -⟩ := Rgba.mk.inj (Option.some.inj (hd.symm.trans he))
        intro i hi
        obtain rfl | rfl | rfl : i = 0 ∨ i = 1 ∨ i = 2 := by omega
        · exact hred
        · exact hgreen
        · exact hblue
  -- Every pixel has the same colour in both: a lit one by the bit that lights it, any other one by
  -- its being unlit.
  · rintro ⟨hbits, hcolours⟩
    refine Picture.ext_pixel? hp.side hq.side hp.whole hq.whole fun x y hx hy => ?_
    by_cases hlit : IsLit d size x y
    · obtain ⟨i, hi, hset, hpixel⟩ := exists_testBit_of_isLit hlit
      rw [(hp.lit x y hx hy).mpr hlit, (hq.lit x y hx hy).mpr (hpixel e (hbits i hi ▸ hset))]
      rcases hcolours with hnone | hcolours
      · rw [hnone i hi] at hset
        cases hset
      · rw [hcolours 0 (by decide), hcolours 1 (by decide), hcolours 2 (by decide)]
    · have hunlit : ¬ IsLit e size x y := fun h => by
        obtain ⟨i, hi, hset, hpixel⟩ := exists_testBit_of_isLit h
        exact hlit (hpixel d ((hbits i hi).symm ▸ hset))
      rw [(hp.unlit x y hx hy).mpr hlit, (hq.unlit x y hx hy).mpr hunlit]

/-- A digest always has a picture, so that the equality is one of pictures. -/
theorem draw_eq_iff (d e : Digest) (size : Size) : draw d size = draw e size ↔ Alike d e := by
  obtain ⟨p, hdrawn, hp⟩ := draw_shows d size
  obtain ⟨q, hdrawn', hq⟩ := draw_shows e size
  rw [hdrawn, hdrawn', Option.some_inj, hp.eq_iff hq]

/-- **When two identities look alike.**  In either size every digest has a picture, and two pictures
are the same exactly if the digests are alike; so two seeds look alike in one size exactly if they
do in the other.  The last part speaks of seeds, of which the digests are taken of their UTF-8
bytes. -/
theorem pictures_alike :
    (∀ (d e : Digest) (size : Size), ∃ p q, draw d size = some p ∧ draw e size = some q ∧
      (p = q ↔ Alike d e)) ∧
    (∀ d e : Digest, draw d .small = draw e .small ↔ draw d .large = draw e .large) ∧
    ∀ seed seed' : String,
      (∀ size, picture? seed size = picture? seed' size ↔
        Alike (digest (Text.utf8 seed)) (digest (Text.utf8 seed'))) ∧
      (picture? seed .small = picture? seed' .small ↔
        picture? seed .large = picture? seed' .large) := by
  have hsizes : ∀ d e : Digest, draw d .small = draw e .small ↔ draw d .large = draw e .large :=
    fun d e => (draw_eq_iff d e .small).trans (draw_eq_iff d e .large).symm
  refine ⟨fun d e size => ?_, hsizes, fun seed seed' => ⟨fun size => draw_eq_iff _ _ size,
    hsizes _ _⟩⟩
  obtain ⟨p, hdrawn, hp⟩ := draw_shows d size
  obtain ⟨q, hdrawn', hq⟩ := draw_shows e size
  exact ⟨p, q, hdrawn, hdrawn', hp.eq_iff hq⟩

end Identicon

end AvatarPool
