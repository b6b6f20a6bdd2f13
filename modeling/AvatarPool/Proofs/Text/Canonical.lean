import AvatarPool.Proofs.Checked
import AvatarPool.Proofs.Text.Base64
import Mathlib.Algebra.Ring.Nat

/-! # The one text of a byte string

The standard says what the base64 text of a byte string is: its bits in groups of six, a symbol for
each group, the last one filled with zeros, and padding up to a multiple of four.  `Base64.encode`
writes that text, and `Base64.decode` takes no other: what it takes is what would have been written
for the bytes that it gives.

The standard is stated over bits, and the program computes with whole numbers.  The two meet in
`values_single`, `values_pair` and `values_triple`: one, two or three bytes read as one number have
the digits to the base 64 that their bits make in groups of six.  From there `encode_eq_standard` is
an induction along the encoder.

The way back does not invert the arithmetic again.  It shows of each group that is taken that it is
what `signs` would write for the bytes that come out (`signs_single` and its two companions), so the
text as a whole is the written one; the checks of the decoder, namely no surplus bits and full
padding, are just what these lemmas ask for. -/

namespace AvatarPool.Base64

/-! ## The standard -/

/-- The symbols, in the order of their values. -/
def alphabet : String := "ABCDEFGHIJKLMNOPQRSTUVWXYZabcdefghijklmnopqrstuvwxyz0123456789+/"

/-- The lowest bits of a number, the highest of them first.  By recursion on the width and not on
the number, so that leading zeros are kept. -/
def bits : Nat → Nat → List Bool
  | 0, _ => []
  | width + 1, n => bits width (n / 2) ++ [n % 2 == 1]

/-- The number that bits stand for, the highest first. -/
def ofBits (bs : List Bool) : Nat := bs.foldl (fun n b => 2 * n + b.toNat) 0

/-- The values of groups of six bits.  A last group that is short is filled with zeros.  The third
case has at most five bits, since the second one takes any six. -/
def sextets : List Bool → List Nat
  | [] => []
  | a :: b :: c :: d :: e :: f :: rest => ofBits [a, b, c, d, e, f] :: sextets rest
  | short => [ofBits (short ++ List.replicate (6 - short.length) false)]

/-- The values of the symbols that a byte string needs. -/
def values (bytes : List UInt8) : List Nat := sextets (bytes.flatMap fun b => bits 8 b.toNat)

/-- Symbols, with padding up to a multiple of four.  The outer remainder makes no padding of a text
whose last group is full. -/
def padded (symbols : List Char) : List Char :=
  symbols ++ List.replicate ((4 - symbols.length % 4) % 4) '='

/-- **The standard text of a byte string.** -/
def standard (bytes : List UInt8) : String :=
  String.ofList (padded ((values bytes).map fun n => alphabet.toList.getD n '='))

/-! ## Bits -/

@[simp] theorem length_bits (width n : Nat) : (bits width n).length = width := by
  induction width generalizing n with
  | zero => rfl
  | succ width ih => simp [bits, ih]

/-- The bits of a number, cut in two. -/
theorem bits_add (width width' n : Nat) :
    bits (width + width') n = bits width (n / 2 ^ width') ++ bits width' n := by
  induction width' generalizing n with
  | zero => simp [bits]
  | succ width' ih =>
      rw [← Nat.add_assoc, bits, bits, ih, Nat.div_div_eq_div_mul, Nat.pow_succ', List.append_assoc]

/-- Only the lowest bits count. -/
theorem bits_mod (width n : Nat) : bits width (n % 2 ^ width) = bits width n := by
  induction width generalizing n with
  | zero => rfl
  | succ width ih =>
      rw [bits, bits, Nat.pow_succ', Nat.mod_mul_right_mod, Nat.mod_mul_right_div_self, ih]

theorem ofBits_concat (bs : List Bool) (b : Bool) :
    ofBits (bs ++ [b]) = 2 * ofBits bs + b.toNat :=
  List.foldl_append

/-- Bits are read back up to the width. -/
theorem ofBits_bits (width n : Nat) : ofBits (bits width n) = n % 2 ^ width := by
  induction width generalizing n with
  | zero => rw [Nat.pow_zero, Nat.mod_one]; rfl
  | succ width ih =>
      have hbit : (n % 2 == 1).toNat = n % 2 := by
        rcases Nat.mod_two_eq_zero_or_one n with h | h <;> rw [h] <;> rfl
      -- The lowest bit is the remainder, and the others are the bits of the half.
      rw [bits, ofBits_concat, ih, hbit, Nat.pow_succ', Nat.mod_mul]
      omega

/-- Filling up with zeros multiplies by a power of two; a last group that is short is filled so. -/
theorem ofBits_append_zeros (bs : List Bool) (k : Nat) :
    ofBits (bs ++ List.replicate k false) = ofBits bs * 2 ^ k := by
  induction k with
  | zero => simp
  | succ k ih =>
      rw [List.replicate_succ', ← List.append_assoc, ofBits_concat, ih, Nat.pow_succ',
        Nat.mul_left_comm]
      rfl

/-! ## Groups of six bits -/

/-- A full group. -/
theorem sextets_bits (n : Nat) (rest : List Bool) :
    sextets (bits 6 n ++ rest) = n % 64 :: sextets rest := by
  have hvalue : ofBits (bits 6 n) = n % 64 := ofBits_bits 6 n
  simp only [bits, List.nil_append, List.cons_append] at hvalue ⊢
  rw [sextets, hvalue]

/-- A short group is filled with zeros. -/
theorem sextets_short {width : Nat} (hpos : 0 < width) (hshort : width < 6) (n : Nat) :
    sextets (bits width n) = [n % 2 ^ width * 2 ^ (6 - width)] := by
  -- `sextets` matches on six bits, so a short list is taken apart to see that it does not match.
  have hfill : ∀ bs : List Bool, bs ≠ [] → bs.length < 6 →
      sextets bs = [ofBits (bs ++ List.replicate (6 - bs.length) false)] := by
    intro bs hsome hless
    match bs with
    | [_] | [_, _] | [_, _, _] | [_, _, _, _] | [_, _, _, _, _] => rfl
  have hlength := length_bits width n
  have hsome : bits width n ≠ [] := List.ne_nil_of_length_pos (by omega)
  rw [hfill _ hsome (by omega), hlength, ofBits_append_zeros, ofBits_bits]

/-- The bits of two bytes are those of one number. -/
theorem bits_byte (width n : Nat) (b : UInt8) :
    bits width n ++ bits 8 b.toNat = bits (width + 8) (n * 256 + b.toNat) := by
  have hb := b.toNat_lt
  have hhigh : (n * 256 + b.toNat) / 2 ^ 8 = n := by omega
  have hlow : (n * 256 + b.toNat) % 2 ^ 8 = b.toNat := by omega
  rw [bits_add, hhigh, ← bits_mod 8 (n * 256 + b.toNat), hlow]

/-- One byte has eight bits: six for the first symbol, two for the second one, and four zeros. -/
theorem values_single {a : UInt8} {n : Nat} (hn : n = a.toNat * 16) :
    values [a] = [n / 64, n % 64] := by
  have ha := a.toNat_lt
  have hcut : bits 8 a.toNat = bits 6 (a.toNat / 4) ++ bits 2 a.toNat := bits_add 6 2 _
  have hfirst : a.toNat / 4 % 64 = n / 64 := by omega
  have hlast : a.toNat % 2 ^ 2 * 2 ^ (6 - 2) = n % 64 := by omega
  rw [values, List.flatMap_singleton, hcut, sextets_bits, sextets_short (by decide) (by decide),
    hfirst, hlast]

/-- Two bytes have sixteen bits: two full symbols, four bits for the third one, and two zeros. -/
theorem values_pair {a b : UInt8} {n : Nat} (hn : n = (a.toNat * 256 + b.toNat) * 4) :
    values [a, b] = [n / 4096, n / 64 % 64, n % 64] := by
  have ha := a.toNat_lt
  have hb := b.toNat_lt
  have hjoined : values [a, b] = sextets (bits 16 (n / 4)) := by
    have hquarter : n / 4 = a.toNat * 256 + b.toNat := by omega
    rw [hquarter]
    exact congrArg sextets (bits_byte 8 a.toNat b)
  -- Cut from the front: six bits, six bits, and the four that are left.
  have hcut : bits 16 (n / 4) =
      bits 6 (n / 4 / 1024) ++ (bits 6 (n / 4 / 16) ++ bits 4 (n / 4)) :=
    (bits_add 6 10 _).trans (congrArg _ (bits_add 6 4 _))
  have hfirst : n / 4 / 1024 % 64 = n / 4096 := by omega
  have hsecond : n / 4 / 16 % 64 = n / 64 % 64 := by omega
  have hlast : n / 4 % 2 ^ 4 * 2 ^ (6 - 4) = n % 64 := by omega
  rw [hjoined, hcut, sextets_bits, sextets_bits, sextets_short (by decide) (by decide), hfirst,
    hsecond, hlast]

/-- The bits of three bytes are those of one number, which four groups share. -/
theorem values_triple {a b c : UInt8} {n : Nat}
    (hn : n = a.toNat * 65536 + b.toNat * 256 + c.toNat) (rest : List UInt8) :
    values (a :: b :: c :: rest) =
      n / 262144 :: n / 4096 % 64 :: n / 64 % 64 :: n % 64 :: values rest := by
  have ha := a.toNat_lt
  have hb := b.toNat_lt
  have hc := c.toNat_lt
  have hjoined : bits 8 a.toNat ++ bits 8 b.toNat ++ bits 8 c.toNat = bits 24 n := by
    have hnested : (a.toNat * 256 + b.toNat) * 256 + c.toNat = n := by omega
    rw [bits_byte, bits_byte, hnested]
  have hvalues : values (a :: b :: c :: rest) =
      sextets (bits 24 n ++ rest.flatMap fun b => bits 8 b.toNat) := by
    rw [← hjoined, List.append_assoc, List.append_assoc]
    rfl
  have hcut : bits 24 n =
      bits 6 (n / 262144) ++ (bits 6 (n / 4096) ++ (bits 6 (n / 64) ++ bits 6 n)) :=
    (bits_add 6 18 n).trans (congrArg _ ((bits_add 6 12 n).trans (congrArg _ (bits_add 6 6 n))))
  have hfirst : n / 262144 % 64 = n / 262144 := by omega
  rw [hvalues, hcut, List.append_assoc, List.append_assoc, List.append_assoc, sextets_bits,
    sextets_bits, sextets_bits, sextets_bits, hfirst]
  rfl

/-! ## What is written -/

/-- A full group does not change the padding. -/
theorem padded_append {symbols : List Char} (h : symbols.length = 4) (rest : List Char) :
    padded (symbols ++ rest) = symbols ++ padded rest := by
  have hlength : (symbols ++ rest).length % 4 = rest.length % 4 := by
    rw [List.length_append, h, Nat.add_mod_left]
  rw [padded, hlength, List.append_assoc]
  rfl

/-- Along the recursion of the encoder, whose first argument is the text so far in reverse. -/
theorem encodeOnto_eq (done : List Char) (bytes : List UInt8) :
    encodeOnto done bytes = done.reverse ++ padded ((values bytes).map symbol) := by
  induction done, bytes using encodeOnto.induct with
  | case1 done => simp [encodeOnto, values, sextets, padded]
  | case2 done a => simp [encodeOnto, values_single rfl, padded]
  | case3 done a b => simp [encodeOnto, values_pair rfl, padded]
  | case4 done a b c rest ih =>
      rw [encodeOnto, ih, List.reverse_append, List.reverse_reverse, List.append_assoc,
        ← padded_append (by rfl), values_triple rfl]
      rfl

/-- So every symbol that is written is one of the alphabet. -/
theorem values_lt (bytes : List UInt8) : ∀ n ∈ values bytes, n < 64 := by
  have hmod : ∀ n : Nat, n % 64 < 64 := fun n => Nat.mod_lt n (by decide)
  fun_induction signs bytes with
  | case1 => simp [values, sextets]
  | case2 a =>
      have ha := a.toNat_lt
      rw [values_single rfl]
      simp only [List.forall_mem_cons, List.not_mem_nil, false_imp_iff, implies_true, and_true]
      exact ⟨by omega, hmod _⟩
  | case3 a b n =>
      have ha := a.toNat_lt
      have hb := b.toNat_lt
      rw [values_pair rfl]
      simp only [List.forall_mem_cons, List.not_mem_nil, false_imp_iff, implies_true, and_true]
      exact ⟨by omega, hmod _, hmod _⟩
  | case4 a b c rest n ih =>
      have ha := a.toNat_lt
      have hb := b.toNat_lt
      have hc := c.toNat_lt
      rw [values_triple rfl]
      simp only [List.forall_mem_cons]
      exact ⟨by omega, hmod _, hmod _, hmod _, ih⟩

/-- **What is written is the standard text.** -/
theorem encode_eq_standard (bytes : List UInt8) : encode bytes = standard bytes := by
  -- The formula of the program and the table of the standard agree value by value.
  have hall : ∀ n < 64, symbol n = alphabet.toList.getD n '=' := by decide +kernel
  have hsymbols : (values bytes).map symbol =
      (values bytes).map fun n => alphabet.toList.getD n '=' :=
    List.map_congr_left fun n hn => hall n (values_lt bytes n hn)
  rw [encode, encodeOnto_eq, hsymbols]
  rfl

/-! ## What is taken -/

/-- Every value is that of one symbol. -/
theorem value?_eq_some {b : UInt8} {n : Nat} (h : value? b = some n) : n < 64 ∧ b = sign n := by
  -- All 256 bytes are tried.
  have hall : ∀ k < 256, (value? (UInt8.ofNat k)).all fun n =>
      decide (n < 64 ∧ UInt8.ofNat k = sign n) := by
    decide +kernel
  have hb := hall b.toNat b.toNat_lt
  rw [UInt8.ofNat_toNat, h] at hb
  exact of_decide_eq_true hb

/-- A symbol that is accepted is the sign of its value. -/
theorem symbolAt_eq_ok {offset n : Nat} {b : UInt8} (h : symbolAt offset b = .ok n) :
    n < 64 ∧ b = sign n := by
  unfold symbolAt at h
  split at h
  · rename_i hvalue
    cases h
    exact value?_eq_some hvalue
  · cases h

theorem toNat_ofNat_byte {m : Nat} (h : m < 256) : (UInt8.ofNat m).toNat = m :=
  UInt8.toNat_ofNat_of_lt' h

/-- Two symbols without surplus bits are those of the byte that they make. -/
theorem signs_single {w x n : Nat} (hw : w < 64) (hx : x < 64) (hn : n = w * 64 + x)
    (hzero : n % 16 = 0) : signs [UInt8.ofNat (n / 16)] = [sign w, sign x, pad, pad] := by
  have hfirst : n / 16 * 16 / 64 = w := by omega
  have hlast : n / 16 * 16 % 64 = x := by omega
  rw [signs, toNat_ofNat_byte (by omega), hfirst, hlast]

/-- Three symbols without surplus bits are those of the two bytes that they make. -/
theorem signs_pair {w x y n : Nat} (hw : w < 64) (hx : x < 64) (hy : y < 64)
    (hn : n = (w * 64 + x) * 64 + y) (hzero : n % 4 = 0) :
    signs [UInt8.ofNat (n / 1024), UInt8.ofNat (n / 4 % 256)] =
      [sign w, sign x, sign y, pad] := by
  have hjoined : (n / 1024 * 256 + n / 4 % 256) * 4 = n := by omega
  have hfirst : n / 4096 = w := by omega
  have hsecond : n / 64 % 64 = x := by omega
  have hlast : n % 64 = y := by omega
  rw [signs]
  simp only [toNat_ofNat_byte (show n / 1024 < 256 by omega),
    toNat_ofNat_byte (show n / 4 % 256 < 256 by omega), hjoined, hfirst, hsecond, hlast]

/-- Four symbols are those of the three bytes that they make. -/
theorem signs_triple {w x y z n : Nat} (hw : w < 64) (hx : x < 64) (hy : y < 64) (hz : z < 64)
    (hn : n = ((w * 64 + x) * 64 + y) * 64 + z) (rest : List UInt8) :
    signs
        (UInt8.ofNat (n / 65536) :: UInt8.ofNat (n / 256 % 256) :: UInt8.ofNat (n % 256) :: rest) =
      sign w :: sign x :: sign y :: sign z :: signs rest := by
  have hjoined : n / 65536 * 65536 + n / 256 % 256 * 256 + n % 256 = n := by omega
  have hfirst : n / 262144 = w := by omega
  have hsecond : n / 4096 % 64 = x := by omega
  have hthird : n / 64 % 64 = y := by omega
  have hlast : n % 64 = z := by omega
  rw [signs]
  simp only [toNat_ofNat_byte (show n / 65536 < 256 by omega),
    toNat_ofNat_byte (show n / 256 % 256 < 256 by omega),
    toNat_ofNat_byte (show n % 256 < 256 by omega), hjoined, hfirst, hsecond, hthird, hlast]

/-- Symbols that stand with their values. -/
def Valued (symbols : List (UInt8 × Nat)) : Prop :=
  ∀ p ∈ symbols, p.2 < 64 ∧ p.1 = sign p.2

theorem valued_cons {s : UInt8} {n : Nat} {symbols : List (UInt8 × Nat)} :
    Valued ((s, n) :: symbols) ↔ (n < 64 ∧ s = sign n) ∧ Valued symbols :=
  List.forall_mem_cons

/-- What has been read of a last group is what stands there: its symbols, each with its value, and
padding after them. -/
theorem readTail_eq_ok {start index pads : Nat} {symbols : List (UInt8 × Nat)}
    {bytes : List UInt8} {tail : Tail} (hs : Valued symbols)
    (h : readTail start index symbols pads bytes = .ok tail) :
    Valued tail.symbols ∧
      tail.symbols.map Prod.fst ++ List.replicate tail.pads pad =
        symbols.reverse.map Prod.fst ++ List.replicate pads pad ++ bytes := by
  -- By induction on the bytes, with what has been collected so far: symbols first, then padding
  -- only.
  induction bytes generalizing index symbols pads with
  | nil =>
      rw [readTail] at h
      cases h
      exact ⟨fun p hp => hs p (List.mem_reverse.mp hp), (List.append_nil _).symm⟩
  | cons b rest ih =>
      rw [readTail] at h
      by_cases hb : b = pad
      · rw [if_pos hb] at h
        split at h
        · cases h
        · obtain ⟨hvalued, hread⟩ := ih hs h
          refine ⟨hvalued, ?_⟩
          rw [hb, hread, List.replicate_succ', ← List.append_assoc, List.append_assoc _ [pad]]
          rfl
      · rw [if_neg hb] at h
        split at h
        · cases h
        -- A symbol behind padding has been refused above, so there has been none yet.
        · rename_i hpads
          obtain rfl : pads = 0 := Nat.eq_zero_of_not_pos hpads
          obtain ⟨n, hsymbol, h⟩ := bind_eq_ok.mp h
          obtain ⟨hvalued, hread⟩ := ih (valued_cons.mpr ⟨symbolAt_eq_ok hsymbol, hs⟩) h
          refine ⟨hvalued, ?_⟩
          rw [hread]
          simp

/-- A last group of at most four signs that is taken is that of its bytes. -/
theorem closeTail_eq_ok {start : Nat} {tail : Tail} {bytes : List UInt8}
    (hvalued : Valued tail.symbols) (hshort : tail.symbols.length + tail.pads ≤ 4)
    (h : closeTail start tail = .ok bytes) :
    tail.symbols.map Prod.fst ++ List.replicate tail.pads pad = signs bytes := by
  obtain ⟨symbols, pads⟩ := tail
  dsimp only at hvalued hshort ⊢
  -- By the number of symbols: none, one, which is refused, or two to four with their padding.
  match symbols with
  | [] =>
      simp only [closeTail] at h
      split at h
      · rename_i hpads
        cases h
        rw [hpads]
        rfl
      · cases h
  | [_] => cases h
  | [(s, w), (t, x)] =>
      simp only [valued_cons] at hvalued
      obtain ⟨⟨hw, rfl⟩, ⟨hx, rfl⟩, -⟩ := hvalued
      simp only [closeTail] at h
      split at h
      · cases h
      · rename_i hpads
        split at h
        · cases h
        · rename_i hzero
          cases h
          rw [Decidable.not_not.mp hpads, signs_single hw hx rfl (Decidable.not_not.mp hzero)]
          rfl
  | [(s, w), (t, x), (u, y)] =>
      simp only [valued_cons] at hvalued
      obtain ⟨⟨hw, rfl⟩, ⟨hx, rfl⟩, ⟨hy, rfl⟩, -⟩ := hvalued
      simp only [closeTail] at h
      split at h
      · cases h
      · rename_i hpads
        split at h
        · cases h
        · rename_i hzero
          cases h
          rw [Decidable.not_not.mp hpads, signs_pair hw hx hy rfl (Decidable.not_not.mp hzero)]
          rfl
  | (s, w) :: (t, x) :: (u, y) :: (v, z) :: rest =>
      simp only [valued_cons] at hvalued
      obtain ⟨⟨hw, rfl⟩, ⟨hx, rfl⟩, ⟨hy, rfl⟩, ⟨hz, rfl⟩, -⟩ := hvalued
      -- With four symbols the group is full, and nothing else stands in it.
      obtain rfl : rest = [] := List.eq_nil_of_length_eq_zero (by simp at hshort; omega)
      obtain rfl : pads = 0 := by simp at hshort; omega
      simp only [closeTail] at h
      cases h
      rw [signs_triple hw hx hy hz rfl]
      rfl

/-- The decoder takes a group as full only if a fifth byte follows it. -/
theorem exists_cons_of_length {bytes : List UInt8} (h : 4 < bytes.length) :
    ∃ a b c d e rest, bytes = a :: b :: c :: d :: e :: rest := by
  rcases bytes with _ | ⟨a, _ | ⟨b, _ | ⟨c, _ | ⟨d, _ | ⟨e, rest⟩⟩⟩⟩⟩
  case cons.cons.cons.cons.cons => exact ⟨a, b, c, d, e, rest, rfl⟩
  all_goals simp at h

/-- Groups that are taken are those of the bytes that they give. -/
theorem decodeGroups_eq_ok {offset : Nat} {done bytes out : List UInt8}
    (h : decodeGroups offset done bytes = .ok out) :
    ∃ rest, bytes = signs rest ∧ out = done.reverse ++ rest := by
  induction offset, done, bytes using decodeGroups.induct with
  | case1 offset done a b c d e rest ih =>
      rw [decodeGroups] at h
      obtain ⟨w, hw, h⟩ := bind_eq_ok.mp h
      obtain ⟨x, hx, h⟩ := bind_eq_ok.mp h
      obtain ⟨y, hy, h⟩ := bind_eq_ok.mp h
      obtain ⟨z, hz, h⟩ := bind_eq_ok.mp h
      -- What follows is a written text by induction, and the four symbols are written in front of
      -- it.
      obtain ⟨after, hrest, hout⟩ := ih w x y z h
      obtain ⟨hwlt, rfl⟩ := symbolAt_eq_ok hw
      obtain ⟨hxlt, rfl⟩ := symbolAt_eq_ok hx
      obtain ⟨hylt, rfl⟩ := symbolAt_eq_ok hy
      obtain ⟨hzlt, rfl⟩ := symbolAt_eq_ok hz
      have htriple := signs_triple hwlt hxlt hylt hzlt rfl after
      rw [← hrest] at htriple
      refine ⟨_, htriple.symm, ?_⟩
      rw [hout]
      simp
  | case2 offset done last hlast =>
      have hshort : last.length ≤ 4 := by
        refine Nat.le_of_not_lt fun hlong => ?_
        obtain ⟨a, b, c, d, e, rest, rfl⟩ := exists_cons_of_length hlong
        exact hlast a b c d e rest rfl
      rw [decodeGroups_of_length_le hshort] at h
      obtain ⟨tail, hread, h⟩ := bind_eq_ok.mp h
      obtain ⟨rest, hclose, h⟩ := bind_eq_ok.mp h
      cases h
      -- The last group starts with nothing collected, so what has been read is all that stands
      -- there.
      obtain ⟨hvalued, hstood⟩ := readTail_eq_ok (List.forall_mem_nil _) hread
      have hlength := congrArg List.length hstood
      simp only [List.length_append, List.length_map, List.length_replicate, List.reverse_nil,
        List.map_nil, List.length_nil, Nat.zero_add] at hlength
      refine ⟨rest, ?_, rfl⟩
      rw [← closeTail_eq_ok hvalued (hlength ▸ hshort) hclose, hstood]
      rfl

/-- **A text is taken exactly if it is the one that is written for the bytes that it gives.** -/
theorem decode_eq_ok_iff {text : String} {bytes : List UInt8} :
    decode text = .ok bytes ↔ text = encode bytes := by
  constructor
  · intro h
    unfold decode decodeBytes at h
    split at h
    · cases h
    · obtain ⟨rest, htext, hbytes⟩ := decodeGroups_eq_ok h
      rw [List.reverse_nil, List.nil_append] at hbytes
      rw [hbytes]
      exact Text.utf8_injective (htext.trans (utf8_encode rest).symm)
  · rintro rfl
    exact decode_encode bytes

end AvatarPool.Base64
