import AvatarPool.Identicon.Engine

/-! # What painting leaves

A step of painting gives one colour to the pixels of a region and leaves all others as they were.
Steps that stay inside the picture follow one another without fail, and together they paint the
union of their regions; so the nested loops that draw an identity are one region, which is then
described pixel by pixel.

A painter may fail, since it is asked for a pixel or a bit by number.  So a step is described by
`Paints`, which says of every picture of the right size both that the step succeeds and what it
leaves.  Such steps compose: two regions one after the other paint their union, for the colour is
the same.  By `paints_foldlM` a loop is a union over its list, and the whole drawing, which is four
loops inside one another, becomes one existential statement about blocks.

The closed form, `IsLit`, is reached in two steps: the blocks are described by divisions, and the
reflected half of the pattern by the smaller of the two distances from the sides. -/

namespace AvatarPool

/-! ## Regions of a picture -/

namespace Picture

/-- From `p` to `q` the pixels of a region, and no others, have been given a colour. -/
structure Painted (c : Rgba) (region : Nat → Nat → Prop) (p q : Picture) : Prop where
  side : q.side = p.side
  size : q.pixels.size = p.pixels.size
  inside : ∀ x y, region x y → q.pixel? x y = some c
  outside : ∀ x y, ¬ region x y → q.pixel? x y = p.pixel? x y

/-- **A step of painting** on a picture of a given side: it succeeds and paints a region. -/
def Paints (side : Nat) (c : Rgba) (region : Nat → Nat → Prop) (step : Picture → Option Picture) :
    Prop :=
  ∀ p : Picture, p.side = side → p.pixels.size = side * side →
    ∃ q, step p = some q ∧ Painted c region p q

variable {side : Nat} {c : Rgba} {region region' : Nat → Nat → Prop}

/-- Where both regions lie over each other the second step has painted last, in the same colour. -/
theorem Painted.trans {p q r : Picture} (h : Painted c region p q) (h' : Painted c region' q r) :
    Painted c (fun x y => region x y ∨ region' x y) p r where
  side := h'.side.trans h.side
  size := h'.size.trans h.size
  inside x y hxy := by
    by_cases hr : region' x y
    · exact h'.inside x y hr
    · rw [h'.outside x y hr]
      exact h.inside x y (hxy.resolve_right hr)
  outside x y hxy := by
    rw [h'.outside x y fun hr => hxy (.inr hr), h.outside x y fun hr => hxy (.inl hr)]

theorem Paints.congr {step : Picture → Option Picture} (h : Paints side c region step)
    (heq : ∀ x y, region x y ↔ region' x y) : Paints side c region' step := by
  obtain rfl : region = region' := funext fun x => funext fun y => propext (heq x y)
  exact h

/-- The pixel in a column of a row is one of the square. -/
theorem index_lt {x y : Nat} (hx : x < side) (hy : y < side) : y * side + x < side * side := by
  have hrow : (y + 1) * side ≤ side * side := Nat.mul_le_mul_right side hy
  rw [Nat.add_mul] at hrow
  omega

/-- Nothing is painted by leaving a picture as it is. -/
theorem paints_none : Paints side c (fun _ _ => False) some := fun p _ _ =>
  ⟨p, rfl, rfl, rfl, fun _ _ h => h.elim, fun _ _ _ => rfl⟩

/-- **Setting a pixel paints that pixel.** -/
theorem paints_put {x y : Nat} (hx : x < side) (hy : y < side) :
    Paints side c (fun u v => u = x ∧ v = y) fun p => p.put c x y := by
  rintro p rfl hsize
  have hindex : y * p.side + x < p.pixels.size := hsize ▸ index_lt hx hy
  refine ⟨_, if_pos ⟨hx, hy⟩, rfl, Array.size_setIfInBounds, ?_, ?_⟩
  · rintro u v ⟨rfl, rfl⟩
    simp [pixel?, hx, hy, hindex]
  · intro u v hne
    simp only [pixel?]
    split
    · rename_i hin
      refine Array.getElem?_setIfInBounds_ne fun heq => hne ?_
      -- A pixel is found at one place alone, since its column is less than the side.
      have hrows : v = y := by
        have h := congrArg (· / p.side) heq
        simpa [Nat.mul_comm _ p.side, Nat.mul_add_div (Nat.zero_lt_of_lt hx),
          Nat.div_eq_of_lt hx, Nat.div_eq_of_lt hin.1] using h.symm
      subst hrows
      exact ⟨by omega, rfl⟩
    · rfl

/-- **Steps one after the other paint the union of their regions.**  Each step keeps the size of the
picture, so that the next one may rely on it. -/
theorem paints_foldlM {α : Type} {step : Picture → α → Option Picture}
    {region : α → Nat → Nat → Prop} (l : List α)
    (h : ∀ a ∈ l, Paints side c (region a) fun p => step p a) :
    Paints side c (fun x y => ∃ a ∈ l, region a x y) fun p => l.foldlM step p := by
  induction l with
  | nil => exact paints_none.congr fun x y => by simp
  | cons a l ih =>
      intro p hside hsize
      obtain ⟨q, hq, hpq⟩ := h a List.mem_cons_self p hside hsize
      obtain ⟨r, hr, hqr⟩ := ih (fun b hb => h b (List.mem_cons_of_mem a hb)) q
        (hpq.side.trans hside) (hpq.size.trans hsize)
      refine ⟨r, ?_, ?_⟩
      · show (step p a).bind (fun q => l.foldlM step q) = some r
        have hfirst : step p a = some q := hq
        rw [hfirst]
        exact hr
      · have hunion := hpq.trans hqr
        simpa only [List.mem_cons, exists_eq_or_imp] using hunion

end Picture

namespace Identicon

open Picture
open Sha256 (Digest digest)

/-! ## The blocks of a pattern -/

/-- Filling a square paints it.  It is two loops, over the rows and the columns of the square. -/
theorem paints_fillSquare {side : Nat} {c : Rgba} {edge x0 y0 : Nat} (hx : x0 + edge ≤ side)
    (hy : y0 + edge ≤ side) :
    Paints side c (fun x y => (x0 ≤ x ∧ x < x0 + edge) ∧ y0 ≤ y ∧ y < y0 + edge)
      (fillSquare c edge x0 y0) := by
  have hrows : Paints side c (fun x y => ∃ v ∈ List.range edge, ∃ u ∈ List.range edge,
      x = x0 + u ∧ y = y0 + v) (fillSquare c edge x0 y0) :=
    paints_foldlM (List.range edge) fun v hv => paints_foldlM (List.range edge) fun u hu =>
      paints_put (by have := List.mem_range.mp hu; omega) (by have := List.mem_range.mp hv; omega)
  -- The union of the single pixels is the square.
  refine Paints.congr hrows fun x y => ?_
  simp only [List.mem_range]
  constructor
  · rintro ⟨v, hv, u, hu, rfl, rfl⟩
    omega
  · rintro ⟨hxs, hys⟩
    exact ⟨y - y0, by omega, x - x0, by omega, by omega, by omega⟩

/-- The pixels of the block in a row and a column of the pattern. -/
def InBlock (size : Size) (row column x y : Nat) : Prop :=
  (margin size + column * blockSide size ≤ x ∧
      x < margin size + column * blockSide size + blockSide size) ∧
    margin size + row * blockSide size ≤ y ∧
      y < margin size + row * blockSide size + blockSide size

/-- A block lies inside the picture. -/
theorem block_le_pixels (size : Size) {i : Nat} (h : i < grid) :
    margin size + i * blockSide size + blockSide size ≤ size.pixels := by
  simp only [grid] at h
  cases size <;> simp only [margin, blockSide, grid, Size.pixels] <;> omega

/-- A pixel lies in the block that the distances from the margins tell. -/
theorem inBlock_iff (size : Size) {row column x y : Nat} (hrow : row < 5) (hcolumn : column < 5) :
    InBlock size row column x y ↔
      (margin size ≤ x ∧ x < margin size + 5 * blockSide size) ∧
        (margin size ≤ y ∧ y < margin size + 5 * blockSide size) ∧
        row = (y - margin size) / blockSide size ∧ column = (x - margin size) / blockSide size := by
  cases size <;> simp only [InBlock, margin, blockSide, grid, Size.pixels] <;> omega

/-! ## The pattern

The pattern is one number here, so that its bits have indices.  The model finds a bit in a byte of
the digest instead; that it is the same bit is shown by induction on the bytes. -/

/-- **The bits of the pattern**, as one number: the bytes of the digest from the fourth on, the
lowest first. -/
def pattern (d : Digest) : Nat := (d.toList.drop 3).foldr (fun b n => b.toNat + 256 * n) 0

/-- A bit of bytes as a number is a bit of one of the bytes. -/
theorem testBit_foldr_bytes (bytes : List UInt8) (i : Nat) :
    (bytes.foldr (fun (b : UInt8) n => b.toNat + 256 * n) 0).testBit i =
      (bytes[i / 8]?.map fun b => b.toNat.testBit (i % 8)).getD false := by
  -- By induction on the bytes: the first eight bits are those of the first one.
  induction bytes generalizing i with
  | nil => simp
  | cons b bytes ih =>
      have hsplit : ∀ n, (b.toNat + 256 * n).testBit i =
          if i < 8 then b.toNat.testBit i else n.testBit (i - 8) := by
        intro n
        rw [Nat.add_comm]
        exact Nat.testBit_two_pow_mul_add n b.toNat_lt i
      rw [List.foldr_cons, hsplit]
      split
      · rename_i hlow
        rw [Nat.div_eq_of_lt hlow, Nat.mod_eq_of_lt hlow]
        rfl
      · rename_i hhigh
        have hindex : i / 8 = (i - 8) / 8 + 1 := by omega
        have hbit : i % 8 = (i - 8) % 8 := by omega
        rw [ih, hindex, hbit, List.getElem?_cons_succ]

/-- The digest holds every bit that is asked for.  A digest has thirty-two bytes, three of which are
the colour. -/
theorem bit?_eq (d : Digest) {i : Nat} (h : 3 + i / 8 < 32) :
    bit? d i = some ((pattern d).testBit i) := by
  have hbyte : (d.toList.drop 3)[i / 8]? = some d[3 + i / 8] := by
    rw [List.getElem?_drop, Vector.getElem?_toList, Vector.getElem?_eq_getElem h]
  rw [bit?, pattern, testBit_foldr_bytes, hbyte, Vector.getElem?_eq_getElem h]
  rfl

/-! ## The whole picture -/

/-- A block of the left half is painted with its reflection, if its bit is set. -/
theorem paints_drawBlock (d : Digest) (size : Size) {row col : Nat} (hrow : row < grid)
    (hcol : col < half) :
    Paints size.pixels (colour d)
      (fun x y => (pattern d).testBit (bitIndex row col) ∧
        ∃ column ∈ [col, grid - 1 - col], InBlock size row column x y)
      fun p => drawBlock d size row p col := by
  have hbit : bit? d (bitIndex row col) = some ((pattern d).testBit (bitIndex row col)) := by
    apply bit?_eq
    simp only [grid, half, bitIndex] at *
    omega
  have hcolumns : ∀ column ∈ [col, grid - 1 - col], column < grid := by
    simp only [List.mem_cons, List.not_mem_nil, or_false, grid, half] at *
    omega
  -- A block whose bit is not set is left out, and so nothing is painted.
  cases hset : (pattern d).testBit (bitIndex row col) with
  | false =>
      have hskip : (fun p => drawBlock d size row p col) = some := by
        funext p
        simp [drawBlock, hbit, hset]
      rw [hskip]
      exact paints_none.congr fun x y => by simp
  -- A block whose bit is set is filled, and so is its reflection.
  | true =>
      have hdraw : (fun p => drawBlock d size row p col) = fun p =>
          [col, grid - 1 - col].foldlM (fun p column => fillSquare (colour d) (blockSide size)
            (margin size + column * blockSide size) (margin size + row * blockSide size) p) p := by
        funext p
        simp [drawBlock, hbit, hset]
      rw [hdraw]
      refine (paints_foldlM _ fun column hmem => paints_fillSquare
        (block_le_pixels size (hcolumns column hmem)) (block_le_pixels size hrow)).congr
        fun x y => ?_
      simp [InBlock]

/-- Whether a pixel belongs to a block that is set: it lies in the pattern, and the bit of its row
and of its column, counted from the nearer side, is set.  It is put in terms of the edge length
alone, without the names of the model, so that it can be read by itself. -/
def IsLit (d : Digest) (size : Size) (x y : Nat) : Prop :=
  let cell := size.pixels / 6
  let offset := (size.pixels - 5 * cell) / 2
  (offset ≤ x ∧ x < offset + 5 * cell) ∧ (offset ≤ y ∧ y < offset + 5 * cell) ∧
    (pattern d).testBit
      ((y - offset) / cell * 3 + min ((x - offset) / cell) (4 - (x - offset) / cell))

/-- The loops paint the pixels of the blocks that are set.  The middle column is its own reflection,
and is filled twice. -/
theorem exists_block_iff_isLit (d : Digest) (size : Size) (x y : Nat) :
    (∃ row ∈ List.range grid, ∃ col ∈ List.range half, (pattern d).testBit (bitIndex row col) ∧
        ∃ column ∈ [col, grid - 1 - col], InBlock size row column x y) ↔ IsLit d size x y := by
  have hcell : blockSide size = size.pixels / 6 := rfl
  have hoffset : margin size = (size.pixels - 5 * (size.pixels / 6)) / 2 := by
    rw [margin, hcell, grid, Nat.mul_comm]
  simp only [List.mem_range, List.mem_cons, List.not_mem_nil, or_false, bitIndex, IsLit]
  rw [← hcell] at hoffset ⊢
  rw [← hoffset]
  simp only [grid, half]
  constructor
  · rintro ⟨row, hrow, col, hcol, hset, column, hcolumn, hblock⟩
    -- The distances from the margins tell row and column, of which the nearer side's is the bit's.
    obtain ⟨hx, hy, rfl, heq⟩ := (inBlock_iff size hrow (by omega)).mp hblock
    refine ⟨hx, hy, ?_⟩
    have hnearer : min ((x - margin size) / blockSide size) (4 - (x - margin size) / blockSide size)
        = col := by omega
    rw [hnearer]
    exact hset
  · rintro ⟨hx, hy, hset⟩
    -- Conversely, the block is found by dividing the distances.
    have hwithin : ∀ z, z < margin size + 5 * blockSide size →
        (z - margin size) / blockSide size < 5 := by
      intro z hz
      refine Nat.div_lt_of_lt_mul ?_
      cases size <;> simp [blockSide, grid, Size.pixels] at * <;> omega
    have hcolumn := hwithin x hx.2
    have hrow := hwithin y hy.2
    exact ⟨_, hrow, _, by omega, hset, (x - margin size) / blockSide size, by omega,
      (inBlock_iff size hrow hcolumn).mpr ⟨hx, hy, rfl, rfl⟩⟩

/-- A block is darker than the ground.  It is by this that a lit pixel can be told from the ground.
-/
theorem colour_ne_ground (d : Digest) : colour d ≠ ground := by
  intro h
  have hred : (d[0] / 2).toNat = 240 := congrArg (fun c : Rgba => c.red.toNat) h
  have hbyte := d[0].toNat_lt
  rw [UInt8.toNat_div, show UInt8.toNat 2 = 2 from rfl] at hred
  omega

/-- **A picture shows the pattern of a digest**: it is a whole square, whose pixels have the colour
of the first three bytes where a block is set and are ground everywhere else.  Both colours are
given with an equivalence, so that a picture also tells its pattern. -/
structure Shows (d : Digest) (size : Size) (p : Picture) : Prop where
  side : p.side = size.pixels
  whole : p.pixels.size = size.pixels * size.pixels
  lit : ∀ x y, x < size.pixels → y < size.pixels →
    (p.pixel? x y = some ⟨d[0] / 2, d[1] / 2, d[2] / 2, 255⟩ ↔ IsLit d size x y)
  unlit : ∀ x y, x < size.pixels → y < size.pixels →
    (p.pixel? x y = some ⟨240, 240, 240, 255⟩ ↔ ¬ IsLit d size x y)

/-- Drawing never leaves the picture or the digest, and what it draws shows the pattern. -/
theorem draw_shows (d : Digest) (size : Size) : ∃ p, draw d size = some p ∧ Shows d size p := by
  have hpaints : Paints size.pixels (colour d) (IsLit d size) fun p =>
      (List.range grid).foldlM (fun p row => (List.range half).foldlM (drawBlock d size row) p) p :=
    (paints_foldlM _ fun row hrow => paints_foldlM _ fun col hcol =>
      paints_drawBlock d size (List.mem_range.mp hrow) (List.mem_range.mp hcol)).congr
        (exists_block_iff_isLit d size)
  have hsize : (Picture.filled size.pixels ground).pixels.size = size.pixels * size.pixels :=
    Array.size_replicate
  obtain ⟨p, hdraw, hp⟩ := hpaints (Picture.filled size.pixels ground) rfl hsize
  -- What has not been painted is what the picture was filled with.
  have hground : ∀ x y, x < size.pixels → y < size.pixels → ¬ IsLit d size x y →
      p.pixel? x y = some ground := by
    intro x y hx hy hunlit
    rw [hp.outside x y hunlit]
    simp [pixel?, filled, hx, hy, index_lt hx hy]
  refine ⟨p, hdraw, hp.side, hp.size.trans hsize,
    fun x y hx hy => ⟨fun hpixel => ?_, hp.inside x y⟩,
    fun x y hx hy => ⟨fun hpixel hlit => ?_, hground x y hx hy⟩⟩
  -- A pixel of one colour cannot be of the other kind, as the two colours differ.
  · refine Classical.byContradiction fun hunlit => ?_
    exact colour_ne_ground d (Option.some.inj (hpixel.symm.trans (hground x y hx hy hunlit)))
  · exact colour_ne_ground d (Option.some.inj ((hp.inside x y hlit).symm.trans hpixel))

/-- **Pictures show patterns.**  Whatever the digest and the size, drawing succeeds at every pixel
and every bit that it touches, and what it draws shows the pattern of the digest; so every seed has
a picture, which is what the engine puts out for it.  The engine's own fall-back for a picture that
cannot be drawn is therefore never used. -/
theorem pictures_show_patterns :
    (∀ (d : Digest) (size : Size), ∃ p, draw d size = some p ∧ Shows d size p) ∧
      ∀ (seed : String) (size : Size), ∃ p, picture? seed size = some p ∧
        serve (.image seed size) = .image (Png.encode p) ∧
        Shows (digest (Text.utf8 seed)) size p := by
  refine ⟨draw_shows, fun seed size => ?_⟩
  obtain ⟨p, hdraw, hp⟩ := draw_shows (digest (Text.utf8 seed)) size
  have hpicture : picture? seed size = some p := hdraw
  exact ⟨p, hpicture, by rw [serve, hpicture], hp⟩

end Identicon

end AvatarPool
