import AvatarPool.Json.Printer
import AvatarPool.Json.Value

/-! # Printed JSON read back

A printed string is one token whose pieces spell the string, a printed number below `2 ^ 64` is one
token of that value, and a printed object is the tokens of its members between braces.

This is the printer's half of a round trip, stated for the forms that are in fact printed: strings
escaped in one way, numbers in digits alone, objects without blanks.  It does not go through the
grammar, since a printed text determines its tokens directly.  The last part is about framing: a
printed object is a single line, for a line feed in a string is printed as an escape. -/

namespace AvatarPool.Json

/-! ## Strings -/

/-- The piece that a printed character is read as.  The five letters that have an escape of their
own come back as characters, and other control characters as units. -/
def pieceOf (c : Char) : Piece :=
  match c with
  | '\x08' | '\x0c' | '\n' | '\r' | '\t' => .plain c
  | c => if c.toNat < 0x20 then .unit c.toNat else .plain c

/-- The token that a printed string is read as. -/
def textToken (s : String) : Token := .text (s.toList.map pieceOf)

theorem hexValue?_hexDigit {n : Nat} (h : n < 16) : hexValue? (hexDigit n) = some n := by
  have hall : ∀ n < 16, hexValue? (hexDigit n) = some n := by decide
  exact hall n h

/-- A character that needs no escape is a piece of its own. -/
theorem scanText_plain {c : Char} (hquote : c ≠ '"') (hslash : c ≠ '\\') (hc : ¬ c.toNat < 0x20)
    (done : List Piece) (rest : List Char) :
    scanText done (c :: rest) = scanText (.plain c :: done) rest := by
  rw [scanText.eq_def]
  split
  case h_5 =>
    rename_i heq
    obtain ⟨rfl, rfl⟩ := List.cons.inj heq
    exact if_neg (not_or.mpr ⟨hslash, hc⟩)
  all_goals simp_all

/-- However a character is printed, it is read as one piece. -/
theorem scanText_escapeChar (done : List Piece) (c : Char) (rest : List Char) :
    scanText done (escapeChar c ++ rest) = scanText (pieceOf c :: done) rest := by
  unfold escapeChar
  split
  -- Every case but the last one is a fixed escape, and the scanner computes on it.
  case h_8 hquote hslash h08 h0c hn hr ht =>
    have hpiece : pieceOf c = if c.toNat < 0x20 then .unit c.toNat else .plain c := by
      unfold pieceOf
      split <;> simp_all
    rw [hpiece]
    split
    · rename_i hlow
      have hunit : unit? '0' '0' (hexDigit (c.toNat / 16)) (hexDigit (c.toNat % 16)) =
          some c.toNat := by
        unfold unit?
        rw [hexValue?_hexDigit (by omega), hexValue?_hexDigit (by omega)]
        show some (((0 * 16 + 0) * 16 + c.toNat / 16) * 16 + c.toNat % 16) = _
        congr 1
        omega
      simp only [List.cons_append, List.nil_append, scanText, hunit]
    · rename_i hhigh
      exact scanText_plain hquote hslash hhigh done rest
  all_goals rfl

/-- The scanner collects the pieces of a printed string and stops at its quote. -/
theorem scanText_escaped (done : List Piece) (cs rest : List Char) :
    scanText done (cs.flatMap escapeChar ++ '"' :: rest) =
      some (done.reverse ++ cs.map pieceOf, rest) := by
  induction cs generalizing done with
  | nil => simp [scanText]
  | cons c cs ih =>
      rw [List.flatMap_cons, List.append_assoc, scanText_escapeChar, ih, List.reverse_cons,
        List.append_assoc, List.singleton_append, List.map_cons]

/-- A piece is joined back to the character that was printed, for no control character is a
surrogate. -/
theorem joinOnto_pieceOf (done : List Char) (c : Char) (rest : List Piece) :
    joinOnto done (pieceOf c :: rest) = joinOnto (c :: done) rest := by
  unfold pieceOf
  split
  all_goals try rfl
  split
  · rename_i hlow
    have hhigh : isHighSurrogate c.toNat = false := by
      simp [isHighSurrogate]
      omega
    have hlow : isLowSurrogate c.toNat = false := by
      simp [isLowSurrogate]
      omega
    cases rest with
    | nil => simp [joinOnto, hhigh, hlow, Char.ofNat_toNat]
    | cons p rest => cases p <;> simp [joinOnto, hhigh, hlow, Char.ofNat_toNat]
  · rfl

/-- **A printed string spells itself.** -/
theorem joined?_pieceOf (s : String) : joined? (s.toList.map pieceOf) = some s := by
  -- Joining keeps what it has in reverse, hence the more general statement.
  have hjoin : ∀ (done cs : List Char), joinOnto done (cs.map pieceOf) = some (done.reverse ++ cs) := by
    intro done cs
    induction cs generalizing done with
    | nil => simp [joinOnto]
    | cons c cs ih => rw [List.map_cons, joinOnto_pieceOf, ih, List.reverse_cons]; simp
  rw [joined?, hjoin]
  simp

/-! ## What a text is read as -/

/-- A text is read as one token, whatever separator follows.  A comma or a closing brace is all that
follows a value within a printed object. -/
def Spells (v : String) (t : Token) : Prop :=
  ∀ (done : List Token) (c : Char) (rest : List Char), c = ',' ∨ c = '}' →
    tokensOnto done (v.toList ++ c :: rest) = tokensOnto (t :: done) (c :: rest)

/-- One token more has been read. -/
theorem tokensOnto_of_scanToken {c : Char} {cs after : List Char} {t : Token} (hc : ¬ isBlank c)
    (h : scanToken c cs = some (t, after)) (done : List Token) :
    tokensOnto done (c :: cs) = tokensOnto (t :: done) after := by
  rw [tokensOnto, if_neg hc]
  split
  · rename_i h'
    rw [h] at h'
    cases h'
    rfl
  · rename_i h'
    rw [h] at h'
    cases h'

/-- A string may stand anywhere, since its closing quote ends it. -/
theorem tokensOnto_quote (done : List Token) (s : String) (rest : List Char) :
    tokensOnto done ((quote s).toList ++ rest) = tokensOnto (textToken s :: done) rest := by
  have hlist : (quote s).toList ++ rest = '"' :: (s.toList.flatMap escapeChar ++ '"' :: rest) := by
    simp [quote]
  rw [hlist]
  refine tokensOnto_of_scanToken (by decide) ?_ done
  show (scanText [] _).map _ = _
  rw [scanText_escaped]
  rfl

theorem spells_quote (s : String) : Spells (quote s) (textToken s) :=
  fun done c rest _ => tokensOnto_quote done s (c :: rest)

/-! ## Numbers -/

/-- The digits of a printed number. -/
def digits (n : Nat) : List Nat := (Nat.toDigits 10 n).map digitValue

/-- The token that a printed number is read as. -/
def numberToken (n : Nat) : Token := .number ⟨false, digits n, [], none⟩

/-- The digits of the library are digits of JSON. -/
theorem isDigit_of_mem_toDigits {n : Nat} {c : Char} (h : c ∈ Nat.toDigits 10 n) : isDigit c := by
  have hdigit := Nat.isDigit_of_mem_toDigits (by decide) (by decide) h
  simp only [Char.isDigit, Bool.and_eq_true, decide_eq_true_eq] at hdigit
  unfold isDigit
  rw [Bool.and_eq_true, decide_eq_true_eq, decide_eq_true_eq]
  exact hdigit

theorem digits_eq_append {n : Nat} (h : 10 ≤ n) : digits n = digits (n / 10) ++ digits (n % 10) := by
  rw [digits, Nat.toDigits_of_base_le (by decide) h, List.map_append, digits, digits,
    Nat.toDigits_of_lt_base (Nat.mod_lt n (by decide))]

/-- A number has no leading zero. -/
theorem head_digits_ne_zero {n : Nat} (h : 0 < n) : ∃ d ds, digits n = d :: ds ∧ d ≠ 0 := by
  induction n using Nat.strongRecOn with
  | ind n ih =>
      by_cases hn : n < 10
      · have hall : ∀ n < 10, 0 < n → digitValue n.digitChar ≠ 0 := by decide
        refine ⟨_, [], ?_, hall n hn h⟩
        rw [digits, Nat.toDigits_of_lt_base hn, List.map_singleton]
      · obtain ⟨d, ds, hds, hd⟩ := ih (n / 10) (by omega) (by omega)
        exact ⟨d, ds ++ digits (n % 10), by rw [digits_eq_append (by omega), hds]; rfl, hd⟩

/-- Digits are read back as their number. -/
theorem foldl_digits (n : Nat) : (digits n).foldl (fun n d => n * 10 + d) 0 = n := by
  have hsame := Nat.ofDigitChars_ten_toDigits (n := n)
  rw [Nat.ofDigitChars_eq_foldl] at hsame
  rw [digits, List.foldl_map]
  simpa only [Nat.mul_comm] using! hsame

/-- A printed number is read up to its separator. -/
theorem scanDigits_toDigits (n : Nat) {c : Char} (hc : ¬ isDigit c) (rest : List Char) :
    scanDigits (Nat.toDigits 10 n ++ c :: rest) = (digits n, c :: rest) := by
  have hall : ∀ d ∈ Nat.toDigits 10 n, isDigit d := fun d hd => isDigit_of_mem_toDigits hd
  rw [scanDigits, List.takeWhile_append_of_pos hall, List.dropWhile_append_of_pos hall,
    List.takeWhile_cons_of_neg hc, List.dropWhile_cons_of_neg hc, List.append_nil]
  rfl

/-- A printed number is a number of the grammar: it has a digit, and no zero in front of another
one. -/
theorem scanNumeral_toDigits (n : Nat) {c : Char} (hc : c = ',' ∨ c = '}') (rest : List Char) :
    scanNumeral false (Nat.toDigits 10 n ++ c :: rest) =
      some (⟨false, digits n, [], none⟩, c :: rest) := by
  have hdigits : digits n ≠ [] := by simp [digits]
  -- A number that is not zero does not begin with it, and zero has one digit.
  have hzero : ∀ d ds, digits n ≠ 0 :: d :: ds := by
    intro d ds heq
    rcases Nat.eq_zero_or_pos n with rfl | hpos
    · cases heq
    · obtain ⟨d', ds', hds, hd⟩ := head_digits_ne_zero hpos
      rw [hds] at heq
      exact hd (List.head_eq_of_cons_eq heq)
  have hscan : scanDigits (Nat.toDigits 10 n ++ c :: rest) = (digits n, c :: rest) :=
    scanDigits_toDigits n (by rcases hc with rfl | rfl <;> decide) rest
  -- Behind the digits comes neither a point nor an exponent.
  have hfraction : scanFraction (c :: rest) = some ([], c :: rest) := by
    rcases hc with rfl | rfl <;> rfl
  have hexponent : scanExponent (c :: rest) = some (none, c :: rest) := by
    rcases hc with rfl | rfl <;> rfl
  unfold scanNumeral
  rw [hscan]
  split
  · rename_i heq
    exact absurd (congrArg Prod.fst heq) hdigits
  · rename_i heq
    exact absurd (congrArg Prod.fst heq) (hzero _ _)
  · rename_i heq
    cases heq
    rw [hfraction]
    dsimp only
    rw [hexponent]

/-- A number is found by its first digit. -/
theorem scanToken_of_isDigit {c : Char} (hc : isDigit c) (rest : List Char) :
    scanToken c rest =
      (scanNumeral false (c :: rest)).map fun (n, rest) => (Token.number n, rest) := by
  unfold scanToken
  split
  case h_12 => exact if_pos hc
  all_goals exact absurd hc (by decide)

/-- A printed number is read as its token. -/
theorem spells_number (n : Nat) : Spells (toString n) (numberToken n) := by
  intro done c rest hc
  have hlist : (toString n).toList = Nat.toDigits 10 n := Nat.toList_repr
  have hscan := scanNumeral_toDigits n hc rest
  obtain ⟨d, ds, hds⟩ := List.exists_cons_of_ne_nil (Nat.toDigits_ne_nil (n := n) (b := 10))
  have hdigit : isDigit d := isDigit_of_mem_toDigits (hds ▸ List.mem_cons_self)
  have hblank : ¬ isBlank d := by
    unfold isBlank
    simp only [Bool.or_eq_true, beq_iff_eq]
    rintro (((rfl | rfl) | rfl) | rfl) <;> exact absurd hdigit (by decide)
  rw [hlist, hds, List.cons_append]
  refine tokensOnto_of_scanToken hblank ?_ done
  rw [scanToken_of_isDigit hdigit, ← List.cons_append, ← hds, hscan]
  rfl

/-- A number only grows with further digits. -/
theorem le_foldl_digits (ds : List Nat) (value : Nat) :
    value ≤ ds.foldl (fun n d => n * 10 + d) value := by
  induction ds generalizing value with
  | nil => exact Nat.le_refl value
  | cons d ds ih => exact Nat.le_trans (by omega) (ih (value * 10 + d))

/-- As long as the number fits, no digit of it is dropped. -/
theorem gather_eq (ds : List Nat) {value : Nat} (taken : Nat)
    (h : ds.foldl (fun n d => n * 10 + d) value ≤ Significand.limit) :
    gather value taken ds =
      ⟨ds.foldl (fun n d => n * 10 + d) value, taken + ds.length, 0⟩ := by
  induction ds generalizing value taken with
  | nil => rfl
  | cons d ds ih =>
      rw [gather, if_pos (Nat.le_trans (le_foldl_digits ds _) h), ih (taken + 1) h,
        List.length_cons, Nat.add_right_comm, Nat.add_assoc]
      rfl

/-- **A printed number has its value**, as long as it fits. -/
theorem value?_digits {n : Nat} (h : n < UInt64.size) :
    Numeral.value? ⟨false, digits n, [], none⟩ = some (.natural n) := by
  have hgather := gather_eq (digits n) 0 (by
    rw [foldl_digits]
    show n ≤ UInt64.size - 1
    exact Nat.le_sub_one_of_lt h)
  rw [foldl_digits] at hgather
  simp [Numeral.value?, hgather]

/-! ## Objects -/

/-- The tokens of members, up to the end of their object. -/
def memberTokens : List (String × Token) → List Token
  | [] => [.closeBrace]
  | [(key, t)] => [textToken key, .colon, t, .closeBrace]
  | (key, t) :: m :: rest => textToken key :: .colon :: t :: .comma :: memberTokens (m :: rest)

/-- A member with its separator. -/
theorem tokensOnto_member {v : String} {t : Token} (hv : Spells v t) (done : List Token)
    (key : String) {c : Char} (hc : c = ',' ∨ c = '}') (rest : List Char) :
    tokensOnto done ((quote key ++ ":" ++ v).toList ++ c :: rest) =
      tokensOnto (t :: .colon :: textToken key :: done) (c :: rest) := by
  have hlist : (quote key ++ ":" ++ v).toList ++ c :: rest =
      (quote key).toList ++ ':' :: (v.toList ++ c :: rest) := by
    simp [String.toList_append]
  rw [hlist, tokensOnto_quote, tokensOnto_of_scanToken (by decide) rfl, hv _ _ _ hc]

/-- **A printed object is read as its members.**  The members are given with the tokens that their
values are read as, whatever kind of value they are. -/
theorem tokens_object (ms : List (String × String × Token)) (h : ∀ m ∈ ms, Spells m.2.1 m.2.2) :
    tokens (object (ms.map fun m => (m.1, m.2.1))) =
      .openBrace :: memberTokens (ms.map fun m => (m.1, m.2.2)) := by
  -- By induction on the members, with the tokens read so far; the last member has a brace behind
  -- it, and every other one a comma.
  have hmembers : ∀ (ms : List (String × String × Token)) (done : List Token),
      (∀ m ∈ ms, Spells m.2.1 m.2.2) →
        tokensOnto done ((String.intercalate ","
            (ms.map fun m => quote m.1 ++ ":" ++ m.2.1)).toList ++ ['}']) =
          done.reverse ++ memberTokens (ms.map fun m => (m.1, m.2.2)) := by
    have hclose : ∀ done : List Token,
        tokensOnto done ['}'] = done.reverse ++ [.closeBrace] := fun done => by
      rw [tokensOnto_of_scanToken (by decide) rfl, tokensOnto, List.reverse_cons]
    intro ms
    induction ms with
    | nil => exact fun done _ => hclose done
    | cons m ms ih =>
        intro done hms
        have hm := hms m List.mem_cons_self
        cases ms with
        | nil =>
            rw [List.map_singleton, String.intercalate_singleton,
              tokensOnto_member hm done m.1 (.inr rfl) [], hclose]
            simp [memberTokens]
        | cons m' ms =>
            have hrest := ih (.comma :: m.2.2 :: .colon :: textToken m.1 :: done)
              fun x hx => hms x (List.mem_cons_of_mem _ hx)
            rw [List.map_cons, List.map_cons, String.intercalate_cons_cons, String.toList_append,
              String.toList_append, List.append_assoc, List.append_assoc]
            show tokensOnto done ((quote m.1 ++ ":" ++ m.2.1).toList ++ ',' :: _) = _
            rw [tokensOnto_member hm done m.1 (.inl rfl), tokensOnto_of_scanToken (by decide) rfl]
            refine hrest.trans ?_
            simp [memberTokens]
  have hbody : (object (ms.map fun m => (m.1, m.2.1))).toList =
      '{' :: ((String.intercalate "," (ms.map fun m => quote m.1 ++ ":" ++ m.2.1)).toList ++
        ['}']) := by
    simp [object, String.toList_append, Function.comp_def]
  rw [tokens, hbody, tokensOnto_of_scanToken (by decide) rfl, hmembers ms _ h]
  rfl

/-! ## Control characters -/

/-- Whether a text holds no character below space. -/
def IsShown (v : String) : Prop := ∀ c ∈ v.toList, 0x20 ≤ c.toNat

instance (v : String) : Decidable (IsShown v) :=
  List.decidableBAll (fun c : Char => 0x20 ≤ c.toNat) v.toList

theorem isShown_append {v w : String} (hv : IsShown v) (hw : IsShown w) : IsShown (v ++ w) := by
  intro c hc
  rw [String.toList_append] at hc
  exact (List.mem_append.mp hc).elim (hv c) (hw c)

/-- A printed string holds no control character, for these are escaped. -/
theorem isShown_quote (s : String) : IsShown (quote s) := by
  have hdigit : ∀ n < 16, 0x20 ≤ (hexDigit n).toNat := by decide
  -- Escapes are made of characters that can be shown, and others stand for themselves.
  have hescape : ∀ c, ∀ d ∈ escapeChar c, 0x20 ≤ d.toNat := by
    intro c d hd
    unfold escapeChar at hd
    split at hd
    case h_8 =>
      split at hd
      · simp only [List.mem_cons, List.not_mem_nil, or_false] at hd
        rcases hd with rfl | rfl | rfl | rfl | rfl | rfl
        all_goals first | decide | exact hdigit _ (by omega)
      · rename_i hhigh
        rw [List.mem_singleton.mp hd]
        omega
    all_goals
      simp only [List.mem_cons, List.not_mem_nil, or_false] at hd
      rcases hd with rfl | rfl <;> decide
  intro c hc
  have hmem : c = '"' ∨ c ∈ s.toList.flatMap escapeChar := by
    simp only [quote, String.toList_ofList, List.mem_append, List.mem_cons, List.not_mem_nil,
      or_false] at hc
    exact hc.elim id .inl
  rcases hmem with rfl | hmem
  · decide
  · obtain ⟨d, -, hd⟩ := List.mem_flatMap.mp hmem
    exact hescape d c hd

/-- A printed number holds digits alone. -/
theorem isShown_number (n : Nat) : IsShown (toString n) := by
  intro c hc
  have hlist : (toString n).toList = Nat.toDigits 10 n := Nat.toList_repr
  have hdigit := isDigit_of_mem_toDigits (hlist ▸ hc)
  simp only [isDigit, Bool.and_eq_true, decide_eq_true_eq] at hdigit
  have hle : '0'.toNat ≤ c.toNat := hdigit.1
  exact Nat.le_trans (by decide) hle

/-- **A printed object is one line**: it holds no control character if its values hold none. -/
theorem isShown_object {members : List (String × String)} (h : ∀ m ∈ members, IsShown m.2) :
    IsShown (object members) := by
  have hcomma : IsShown "," := by decide
  have hcolon : IsShown ":" := by decide
  -- Commas between shown texts keep them shown.
  have hjoined : ∀ ts : List String, (∀ t ∈ ts, IsShown t) → IsShown (String.intercalate "," ts) := by
    intro ts hts
    induction ts with
    | nil => exact nofun
    | cons t ts ih =>
        have ht := hts t List.mem_cons_self
        cases ts with
        | nil => rwa [String.intercalate_singleton]
        | cons u ts =>
            rw [String.intercalate_cons_cons]
            exact isShown_append (isShown_append ht hcomma)
              (ih fun x hx => hts x (List.mem_cons_of_mem _ hx))
  refine isShown_append (isShown_append (by decide) ?_) (by decide)
  refine hjoined _ (List.forall_mem_map.mpr fun m hm => ?_)
  exact isShown_append (isShown_append (isShown_quote m.1) hcolon) (h m hm)

theorem object_ne_empty (members : List (String × String)) : object members ≠ "" := by
  intro hempty
  have hlist := congrArg String.toList hempty
  simp [object, String.toList_append] at hlist

end AvatarPool.Json
