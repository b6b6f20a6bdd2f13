/-! # Tokens of a JSON text

A text is read as a list of tokens.  Where the text stops being one, the list ends in `Token.wrong`,
so that a reader working from left to right meets the fault exactly where it stands, after
everything before it.  Numbers and strings keep their written parts: whether a number is in range
and whether escaped surrogates pair up is asked only of values that are built. -/

namespace AvatarPool.Json

/-- A number as written: digits before the point, after it, and in the exponent. -/
structure Numeral where
  negative : Bool
  whole : List Nat
  fraction : List Nat
  /-- The sign (`true` for positive) and digits of the exponent. -/
  exponent : Option (Bool × List Nat)
  deriving DecidableEq, Repr

/-- One piece of a string: a character, or a sixteen-bit unit written as an escape. -/
inductive Piece where
  | plain (c : Char)
  | unit (n : Nat)
  deriving DecidableEq, Repr

inductive Token where
  | openBrace
  | closeBrace
  | openBracket
  | closeBracket
  | comma
  | colon
  | null
  | truth (b : Bool)
  | number (n : Numeral)
  | text (pieces : List Piece)
  /-- The place where the text stops being made of tokens. -/
  | wrong
  deriving DecidableEq, Repr

/-- Space, tab, line feed and carriage return may stand between tokens. -/
def isBlank (c : Char) : Bool := c == ' ' || c == '\n' || c == '\t' || c == '\r'

def isDigit (c : Char) : Bool := '0' ≤ c && c ≤ '9'

def digitValue (c : Char) : Nat := c.toNat - '0'.toNat

/-- The value of a hexadecimal digit of either case. -/
def hexValue? (c : Char) : Option Nat :=
  if isDigit c then some (digitValue c)
  else if 'a' ≤ c && c ≤ 'f' then some (c.toNat - 'a'.toNat + 10)
  else if 'A' ≤ c && c ≤ 'F' then some (c.toNat - 'A'.toNat + 10)
  else none

/-- The unit written by four hexadecimal digits. -/
def unit? (a b c d : Char) : Option Nat :=
  match hexValue? a, hexValue? b, hexValue? c, hexValue? d with
  | some w, some x, some y, some z => some (((w * 16 + x) * 16 + y) * 16 + z)
  | _, _, _, _ => none

/-- The character meant by a one-letter escape. -/
def unescape? : Char → Option Char
  | '"' => some '"'
  | '\\' => some '\\'
  | '/' => some '/'
  | 'b' => some '\x08'
  | 'f' => some '\x0c'
  | 'n' => some '\n'
  | 'r' => some '\r'
  | 't' => some '\t'
  | _ => none

/-- Reads a string after its opening quote, up to and including the closing one.  Characters below
space must be escaped. -/
def scanText (done : List Piece) : List Char → Option (List Piece × List Char)
  | [] => none
  | '"' :: rest => some (done.reverse, rest)
  | '\\' :: 'u' :: a :: b :: c :: d :: rest =>
    match unit? a b c d with
    | some n => scanText (.unit n :: done) rest
    | none => none
  | '\\' :: e :: rest =>
    match unescape? e with
    | some c => scanText (.plain c :: done) rest
    | none => none
  | c :: rest =>
    if c = '\\' ∨ c.toNat < 0x20 then none else scanText (.plain c :: done) rest

/-- The leading digits of a text, as values, and what follows them. -/
def scanDigits (cs : List Char) : List Nat × List Char :=
  ((cs.takeWhile isDigit).map digitValue, cs.dropWhile isDigit)

/-- Reads an optional fraction: a point and at least one digit. -/
def scanFraction : List Char → Option (List Nat × List Char)
  | '.' :: rest =>
    match scanDigits rest with
    | ([], _) => none
    | (ds, rest) => some (ds, rest)
  | rest => some ([], rest)

/-- The sign of an exponent, `true` for positive, and what follows it. -/
def scanSign : List Char → Bool × List Char
  | '+' :: rest => (true, rest)
  | '-' :: rest => (false, rest)
  | rest => (true, rest)

/-- Reads an optional exponent: the letter, an optional sign and at least one digit. -/
def scanExponent : List Char → Option (Option (Bool × List Nat) × List Char)
  | [] => some (none, [])
  | c :: rest =>
    if c = 'e' ∨ c = 'E' then
      match scanDigits (scanSign rest).2 with
      | ([], _) => none
      | (ds, after) => some (some ((scanSign rest).1, ds), after)
    else some (none, c :: rest)

/-- Reads a number without its sign.  A leading zero stands alone. -/
def scanNumeral (negative : Bool) (cs : List Char) : Option (Numeral × List Char) :=
  match scanDigits cs with
  | ([], _) => none
  | (0 :: _ :: _, _) => none
  | (whole, rest) =>
    match scanFraction rest with
    | none => none
    | some (fraction, rest) =>
      match scanExponent rest with
      | none => none
      | some (exponent, rest) => some (⟨negative, whole, fraction, exponent⟩, rest)

/-- What follows a word at the head of a text. -/
def afterWord : List Char → List Char → Option (List Char)
  | [], rest => some rest
  | w :: ws, c :: cs => if w = c then afterWord ws cs else none
  | _ :: _, [] => none

/-- Reads the token that starts with the character `c`. -/
def scanToken (c : Char) (rest : List Char) : Option (Token × List Char) :=
  match c with
  | '{' => some (.openBrace, rest)
  | '}' => some (.closeBrace, rest)
  | '[' => some (.openBracket, rest)
  | ']' => some (.closeBracket, rest)
  | ',' => some (.comma, rest)
  | ':' => some (.colon, rest)
  | '"' => (scanText [] rest).map fun (pieces, rest) => (.text pieces, rest)
  | 'n' => (afterWord ['u', 'l', 'l'] rest).map fun rest => (.null, rest)
  | 't' => (afterWord ['r', 'u', 'e'] rest).map fun rest => (.truth true, rest)
  | 'f' => (afterWord ['a', 'l', 's', 'e'] rest).map fun rest => (.truth false, rest)
  | '-' => (scanNumeral true rest).map fun (n, rest) => (.number n, rest)
  | c =>
    if isDigit c then (scanNumeral false (c :: rest)).map fun (n, rest) => (.number n, rest)
    else none

theorem scanText_length {done : List Piece} {cs : List Char} {r : List Piece × List Char}
    (h : scanText done cs = some r) : r.2.length < cs.length := by
  fun_induction scanText done cs with
  | case1 => simp at h
  | case2 done rest =>
    simp only [Option.some.injEq] at h
    subst h
    simp
  | case3 done a b c d rest n hn ih =>
    have := ih h
    simp only [List.length_cons]
    omega
  | case4 => simp at h
  | case5 done e rest hne c hc ih =>
    have := ih h
    simp only [List.length_cons]
    omega
  | case6 => simp at h
  | case7 => simp at h
  | case8 done c rest _ _ _ hc ih =>
    have := ih h
    simp only [List.length_cons]
    omega

theorem scanDigits_length (cs : List Char) : (scanDigits cs).2.length ≤ cs.length :=
  (List.dropWhile_sublist isDigit).length_le

theorem scanDigits_length_lt {cs : List Char} (h : (scanDigits cs).1 ≠ []) :
    (scanDigits cs).2.length < cs.length := by
  cases cs with
  | nil => simp [scanDigits] at h
  | cons c rest =>
    by_cases hc : isDigit c = true
    · have := (List.dropWhile_sublist isDigit (l := rest)).length_le
      simp only [scanDigits, List.dropWhile_cons, hc, if_true, List.length_cons]
      omega
    · simp [scanDigits, hc] at h

theorem scanFraction_length {cs : List Char} {r : List Nat × List Char}
    (h : scanFraction cs = some r) : r.2.length ≤ cs.length := by
  unfold scanFraction at h
  split at h
  · rename_i rest
    have := scanDigits_length rest
    split at h
    · simp at h
    · rename_i heq
      simp only [Option.some.injEq] at h
      subst h
      rw [heq] at this
      simp only [List.length_cons] at this ⊢
      omega
  · simp only [Option.some.injEq] at h
    subst h
    simp

theorem scanSign_length (cs : List Char) : (scanSign cs).2.length ≤ cs.length := by
  unfold scanSign
  split <;> simp

theorem scanExponent_length {cs : List Char} {r : Option (Bool × List Nat) × List Char}
    (h : scanExponent cs = some r) : r.2.length ≤ cs.length := by
  cases cs with
  | nil => simp only [scanExponent, Option.some.injEq] at h; subst h; simp
  | cons c rest =>
    simp only [scanExponent] at h
    have h1 := scanSign_length rest
    have h2 := scanDigits_length (scanSign rest).2
    split at h
    · split at h
      · simp at h
      · rename_i heq
        simp only [Option.some.injEq] at h
        subst h
        rw [heq] at h2
        simp only [List.length_cons] at *
        omega
    · simp only [Option.some.injEq] at h
      subst h
      simp

theorem scanNumeral_length {negative : Bool} {cs : List Char} {r : Numeral × List Char}
    (h : scanNumeral negative cs = some r) : r.2.length < cs.length := by
  unfold scanNumeral at h
  split at h
  · simp at h
  · simp at h
  · rename_i whole rest hne _ heq
    have h0 : (scanDigits cs).1 ≠ [] := by
      rw [heq]
      exact hne
    have h1 := scanDigits_length_lt h0
    rw [heq] at h1
    split at h
    · simp at h
    · rename_i heq2
      have h2 := scanFraction_length heq2
      split at h
      · simp at h
      · rename_i heq3
        have h3 := scanExponent_length heq3
        simp only [Option.some.injEq] at h
        subst h
        simp only at *
        omega

theorem afterWord_length {word cs rest : List Char} (h : afterWord word cs = some rest) :
    rest.length ≤ cs.length := by
  induction word generalizing cs with
  | nil => simp_all [afterWord]
  | cons w ws ih =>
    cases cs with
    | nil => simp [afterWord] at h
    | cons c cs =>
      simp only [afterWord] at h
      split at h
      · have := ih h
        simp only [List.length_cons]
        omega
      · simp at h

/-- A token is followed by no more text than stood after its first character. -/
theorem scanToken_length {c : Char} {cs : List Char} {r : Token × List Char}
    (h : scanToken c cs = some r) : r.2.length ≤ cs.length := by
  unfold scanToken at h
  split at h
  case h_7 =>
    obtain ⟨p, hp, rfl⟩ := Option.map_eq_some_iff.1 h
    exact Nat.le_of_lt (scanText_length hp)
  case h_8 | h_9 | h_10 =>
    obtain ⟨p, hp, rfl⟩ := Option.map_eq_some_iff.1 h
    exact afterWord_length hp
  case h_11 =>
    obtain ⟨p, hp, rfl⟩ := Option.map_eq_some_iff.1 h
    exact Nat.le_of_lt (scanNumeral_length hp)
  case h_12 =>
    split at h
    · obtain ⟨p, hp, rfl⟩ := Option.map_eq_some_iff.1 h
      have := scanNumeral_length hp
      simp only [List.length_cons] at this
      exact Nat.lt_succ_iff.1 this
    · simp at h
  all_goals
    simp only [Option.some.injEq] at h
    subst h
    exact Nat.le_refl _

/-- Adds the tokens of a text to `done`, the tokens so far in reverse. -/
def tokensOnto (done : List Token) : List Char → List Token
  | [] => done.reverse
  | c :: rest =>
    if isBlank c then tokensOnto done rest
    else
      match _h : scanToken c rest with
      | some (t, after) => tokensOnto (t :: done) after
      | none => (.wrong :: done).reverse
termination_by cs => cs.length
decreasing_by
  · simp
  · have := scanToken_length _h
    simp only [List.length_cons] at *
    omega

/-- **The tokens of a text**, ending in `Token.wrong` where it stops being made of tokens. -/
def tokens (text : String) : List Token := tokensOnto [] text.toList

end AvatarPool.Json
