import AvatarPool.Base64
import AvatarPool.Proofs.Text.Utf8

/-! # Base64 text is read back

The text of a byte string holds one symbol for every six bits, and padding after the last of them.
Every symbol has its value, so `Base64.decode` gives back what `Base64.encode` has been given.

The proof goes through the bytes of the text.  `signs` says what they are, group by group, by
arithmetic on whole numbers; `utf8_encode` shows that the encoder writes them, though it collects
its characters in reverse; and `decodeGroups_signs` shows that the decoder reads them, though it
treats the last group apart.  That no other text is decoded is the subject of
`Proofs/Text/Canonical`. -/

namespace AvatarPool.Base64

/-! ## Symbols -/

/-- The byte of the symbol of a value.  Defined through `symbol`, and not by cases of its own, so
that the two agree by definition. -/
def sign (n : Nat) : UInt8 := UInt8.ofNat (symbol n).toNat

/-- A symbol is one byte.  The four facts about single symbols are checked value by value, which is
all that there is to know about the alphabet here. -/
theorem utf8_symbol {n : Nat} (h : n < 64) : String.utf8EncodeChar (symbol n) = [sign n] := by
  have hall : ∀ n < 64, String.utf8EncodeChar (symbol n) = [sign n] := by decide
  exact hall n h

theorem value?_sign {n : Nat} (h : n < 64) : value? (sign n) = some n := by
  have hall : ∀ n < 64, value? (sign n) = some n := by decide
  exact hall n h

theorem sign_ne_pad {n : Nat} (h : n < 64) : sign n ≠ pad := by
  have hall : ∀ n < 64, sign n ≠ pad := by decide
  exact hall n h

theorem symbolAt_sign {n : Nat} (h : n < 64) (offset : Nat) :
    symbolAt offset (sign n) = .ok n := by
  rw [symbolAt, value?_sign h]

/-! ## The bytes of a text -/

/-- The bytes of the text of a byte string. -/
def signs : List UInt8 → List UInt8
  | [] => []
  | [a] => [sign (a.toNat * 16 / 64), sign (a.toNat * 16 % 64), pad, pad]
  | [a, b] =>
    let n := (a.toNat * 256 + b.toNat) * 4
    [sign (n / 4096), sign (n / 64 % 64), sign (n % 64), pad]
  | a :: b :: c :: rest =>
    let n := a.toNat * 65536 + b.toNat * 256 + c.toNat
    sign (n / 262144) :: sign (n / 4096 % 64) :: sign (n / 64 % 64) :: sign (n % 64) :: signs rest

/-- The encoder writes the bytes of the text behind those that it has written. -/
theorem encode_encodeOnto (done : List Char) (bytes : List UInt8) :
    Text.encode (encodeOnto done bytes) = Text.encode done.reverse ++ signs bytes := by
  have hmod : ∀ n : Nat, n % 64 < 64 := fun n => Nat.mod_lt n (by decide)
  have hpad : String.utf8EncodeChar '=' = [pad] := by decide
  -- Along the recursion of the encoder: three bytes at a time, with one or two left in the end.
  induction done, bytes using encodeOnto.induct with
  | case1 done => simp [encodeOnto, signs]
  | case2 done a =>
      have hlt : a.toNat * 16 / 64 < 64 := by
        have := a.toNat_lt
        omega
      simp [encodeOnto, signs, Text.encode_append, utf8_symbol hlt, utf8_symbol (hmod _), hpad]
  | case3 done a b =>
      have hlt : (a.toNat * 256 + b.toNat) * 4 / 4096 < 64 := by
        have := a.toNat_lt
        have := b.toNat_lt
        omega
      simp [encodeOnto, signs, Text.encode_append, utf8_symbol hlt, utf8_symbol (hmod _), hpad]
  | case4 done a b c rest ih =>
      have hlt : (a.toNat * 65536 + b.toNat * 256 + c.toNat) / 262144 < 64 := by
        have := a.toNat_lt
        have := b.toNat_lt
        have := c.toNat_lt
        omega
      rw [encodeOnto, ih, List.reverse_append, List.reverse_reverse, Text.encode_append, signs]
      simp [encodeTriple, utf8_symbol hlt, utf8_symbol (hmod _)]

theorem utf8_encode (bytes : List UInt8) : Text.utf8 (encode bytes) = signs bytes := by
  rw [encode, Text.utf8_ofList, encode_encodeOnto]
  rfl

/-! ## Reading back -/

/-- The text fills its last group, so the decoder finds no stray byte behind it. -/
theorem length_signs (bytes : List UInt8) : (signs bytes).length % 4 = 0 := by
  fun_induction signs bytes with
  | case1 | case2 | case3 => simp
  | case4 a b c rest n ih =>
      simp only [List.length_cons]
      omega

/-- The reader of the last group takes a symbol while it has seen no padding. -/
theorem readTail_sign {n : Nat} (h : n < 64) (start index : Nat) (symbols : List (UInt8 × Nat))
    (rest : List UInt8) :
    readTail start index symbols 0 (sign n :: rest) =
      readTail start (index + 1) ((sign n, n) :: symbols) 0 rest := by
  rw [readTail, if_neg (sign_ne_pad h), if_neg (Nat.lt_irrefl 0), symbolAt_sign h]
  rfl

/-- The end of a text may be padding from the third place on. -/
theorem readTail_pad {index : Nat} (h : 2 ≤ index) (start pads : Nat)
    (symbols : List (UInt8 × Nat)) (rest : List UInt8) :
    readTail start index symbols pads (pad :: rest) =
      readTail start (index + 1) symbols (pads + 1) rest := by
  rw [readTail, if_pos rfl, if_neg (Nat.not_lt.mpr h)]

/-- A byte of a number, as it comes out of the bits before it.  Comes in where the decoder divides a
number into bytes and `omega` shows which byte it gets. -/
theorem ofNat_eq {n : Nat} {a : UInt8} (h : n = a.toNat) : UInt8.ofNat n = a := by
  rw [h, UInt8.ofNat_toNat]

/-- A rest of at most four bytes is the last group. -/
theorem decodeGroups_of_length_le {last : List UInt8} (h : last.length ≤ 4) (offset : Nat)
    (done : List UInt8) :
    decodeGroups offset done last =
      (do
        let tail ← readTail offset 0 [] 0 last
        let bytes ← closeTail offset tail
        .ok (done.reverse ++ bytes)) := by
  rw [decodeGroups]
  -- The only other equation of the decoder is for five bytes and more.
  rintro a b c d e rest rfl
  simp only [List.length_cons] at h
  omega

/-- Four symbols are read alike, whether a further group follows them or not. -/
theorem decodeGroups_full {w x y z : Nat} (hw : w < 64) (hx : x < 64) (hy : y < 64) (hz : z < 64)
    (offset : Nat) (done rest : List UInt8) :
    decodeGroups offset done (sign w :: sign x :: sign y :: sign z :: rest) =
      decodeGroups (offset + 4)
        (UInt8.ofNat ((((w * 64 + x) * 64 + y) * 64 + z) % 256) ::
          UInt8.ofNat ((((w * 64 + x) * 64 + y) * 64 + z) / 256 % 256) ::
          UInt8.ofNat ((((w * 64 + x) * 64 + y) * 64 + z) / 65536) :: done) rest := by
  -- With nothing behind them the four symbols are the last group, which is read by another
  -- function, and to the same bytes.
  cases rest with
  | nil =>
      rw [decodeGroups_of_length_le (by simp), readTail_sign hw, readTail_sign hx,
        readTail_sign hy, readTail_sign hz, readTail, decodeGroups_of_length_le (by simp),
        readTail]
      simp [closeTail, bind, Except.bind]
  | cons e rest =>
      rw [decodeGroups, symbolAt_sign hw, symbolAt_sign hx, symbolAt_sign hy, symbolAt_sign hz]
      rfl

/-- The text of a byte string is read group by group.  The cases are those of `signs`: the two short
ones end in padding, and the long one is followed by further groups. -/
theorem decodeGroups_signs (offset : Nat) (done bytes : List UInt8) :
    decodeGroups offset done (signs bytes) = .ok (done.reverse ++ bytes) := by
  have hmod : ∀ n : Nat, n % 64 < 64 := fun n => Nat.mod_lt n (by decide)
  fun_induction signs bytes generalizing offset done with
  | case1 =>
      rw [decodeGroups_of_length_le (by simp), readTail]
      rfl
  | case2 a =>
      have ha := a.toNat_lt
      have hlt : a.toNat * 16 / 64 < 64 := by omega
      have hbyte : UInt8.ofNat ((a.toNat * 16 / 64 * 64 + a.toNat * 16 % 64) / 16) = a :=
        ofNat_eq (by omega)
      -- The bits beyond the last byte are zero, as the decoder demands.
      have hbits : (a.toNat * 16 / 64 * 64 + a.toNat * 16 % 64) % 16 = 0 := by omega
      rw [decodeGroups_of_length_le (by simp),
        readTail_sign hlt, readTail_sign (hmod _),
        readTail_pad (by decide), readTail_pad (by decide), readTail]
      simp [closeTail, bind, Except.bind, hbits, hbyte]
  | case3 a b n =>
      have ha := a.toNat_lt
      have hb := b.toNat_lt
      have hlt : n / 4096 < 64 := by omega
      have hjoined : (n / 4096 * 64 + n / 64 % 64) * 64 + n % 64 = n := by omega
      have hbits : n % 4 = 0 := by omega
      have hfirst : UInt8.ofNat (n / 1024) = a := ofNat_eq (by omega)
      have hsecond : UInt8.ofNat (n / 4 % 256) = b := ofNat_eq (by omega)
      rw [decodeGroups_of_length_le (by simp),
        readTail_sign hlt, readTail_sign (hmod _),
        readTail_sign (hmod _), readTail_pad (by decide), readTail]
      simp [closeTail, bind, Except.bind, hjoined, hbits, hfirst, hsecond]
  | case4 a b c rest n ih =>
      have ha := a.toNat_lt
      have hb := b.toNat_lt
      have hc := c.toNat_lt
      have hlt : n / 262144 < 64 := by omega
      have hjoined : ((n / 262144 * 64 + n / 4096 % 64) * 64 + n / 64 % 64) * 64 + n % 64 = n := by
        omega
      have hfirst : UInt8.ofNat (n / 65536) = a := ofNat_eq (by omega)
      have hsecond : UInt8.ofNat (n / 256 % 256) = b := ofNat_eq (by omega)
      -- Each byte of the group comes out of the number that the four symbols make together.
      have hthird : UInt8.ofNat (n % 256) = c := ofNat_eq (by omega)
      rw [decodeGroups_full hlt (hmod _) (hmod _) (hmod _),
        hjoined, hfirst, hsecond, hthird, ih]
      simp

/-- **What has been encoded is decoded.** -/
theorem decode_encode (bytes : List UInt8) : decode (encode bytes) = .ok bytes := by
  have hstray : strayLast? (signs bytes) = none := by
    rw [strayLast?, length_signs]
    rfl
  rw [decode, utf8_encode, decodeBytes, hstray]
  exact decodeGroups_signs 0 [] bytes

end AvatarPool.Base64
