import AvatarPool.Json.Value

/-! # What is a JSON text

The grammar, said on its own: how the parts of a number and of a string are written, how tokens
stand in a text with blanks between them, and which tokens a value has.  A string is kept as it is
written, since the grammar allows escaped surrogates without a partner; in a *paired* value every
string is a text.

The grammar has two levels, as the reader has.  Below, `TokenText` and `Layout` say which characters
make which tokens; above, `Value.tokens` says which tokens make which values, and so `Value.IsText`
puts the two together.  Neither mentions a reader.  What a program may accept beyond or below the
grammar is said by predicates on values, namely `IsPaired` and `Fits`, and never by another grammar.

One thing needs care where the levels meet: a number has no sign of its end, so tokens can be told
apart only where no number runs into the next token.  `Apart` states that, and every value satisfies
it. -/

namespace AvatarPool.Json

/-! ## Numbers and strings -/

/-- One digit or more, written down.  The values are kept in a list, since leading zeros and the
length of a fraction count. -/
structure DigitsText (ds : List Nat) (cs : List Char) : Prop where
  nonempty : cs ≠ []
  digits : ∀ c ∈ cs, isDigit c
  values : cs.map digitValue = ds

/-- A fraction: nothing, or a point and digits. -/
inductive FractionText : List Nat → List Char → Prop
  | none : FractionText [] []
  | point {ds : List Nat} {cs : List Char} (h : DigitsText ds cs) : FractionText ds ('.' :: cs)

/-- The sign of an exponent, `true` for positive. -/
inductive SignText : Bool → List Char → Prop
  | none : SignText true []
  | plus : SignText true ['+']
  | minus : SignText false ['-']

/-- An exponent: nothing, or a letter, a sign and digits. -/
inductive ExponentText : Option (Bool × List Nat) → List Char → Prop
  | none : ExponentText none []
  | power {e : Char} {positive : Bool} {s cs : List Char} {ds : List Nat} (he : e = 'e' ∨ e = 'E')
      (hs : SignText positive s) (h : DigitsText ds cs) :
      ExponentText (some (positive, ds)) (e :: (s ++ cs))

/-- A number without its sign.  A leading zero stands alone.  The sign is kept in the numeral,
though it is written before it. -/
inductive NumeralText (negative : Bool) : Numeral → List Char → Prop
  | mk {whole fraction : List Nat} {exponent : Option (Bool × List Nat)} {w f e : List Char}
      (hw : DigitsText whole w) (hzero : ∀ ds, whole = 0 :: ds → ds = [])
      (hf : FractionText fraction f) (he : ExponentText exponent e) :
      NumeralText negative ⟨negative, whole, fraction, exponent⟩ (w ++ (f ++ e))

/-- A piece of a string: a character that stands for itself, or an escape.  Characters below space
must be escaped, and the quote and the backslash too. -/
inductive PieceText : Piece → List Char → Prop
  | plain {c : Char} (hquote : c ≠ '"') (hslash : c ≠ '\\') (h : ¬ c.toNat < 0x20) :
      PieceText (.plain c) [c]
  | letter {e c : Char} (h : unescape? e = some c) : PieceText (.plain c) ['\\', e]
  | unit {a b c d : Char} {n : Nat} (h : unit? a b c d = some n) :
      PieceText (.unit n) ['\\', 'u', a, b, c, d]

/-- The pieces of a string, one after the other. -/
inductive PiecesText : List Piece → List Char → Prop
  | nil : PiecesText [] []
  | cons {p : Piece} {ps : List Piece} {w cs : List Char} (hp : PieceText p w)
      (hps : PiecesText ps cs) : PiecesText (p :: ps) (w ++ cs)

/-- A string written without escapes. -/
def plain (s : String) : List Piece := s.toList.map .plain

/-! ## Tokens -/

/-- A token, written down.  Words and punctuation have one text each; a number and a string have
many. -/
inductive TokenText : Token → List Char → Prop
  | openBrace : TokenText .openBrace ['{']
  | closeBrace : TokenText .closeBrace ['}']
  | openBracket : TokenText .openBracket ['[']
  | closeBracket : TokenText .closeBracket [']']
  | comma : TokenText .comma [',']
  | colon : TokenText .colon [':']
  | null : TokenText .null ['n', 'u', 'l', 'l']
  | yes : TokenText (.truth true) ['t', 'r', 'u', 'e']
  | no : TokenText (.truth false) ['f', 'a', 'l', 's', 'e']
  | number {n : Numeral} {cs : List Char} (h : NumeralText false n cs) : TokenText (.number n) cs
  | minus {n : Numeral} {cs : List Char} (h : NumeralText true n cs) :
      TokenText (.number n) ('-' :: cs)
  | text {ps : List Piece} {cs : List Char} (h : PiecesText ps cs) :
      TokenText (.text ps) ('"' :: (cs ++ ['"']))

/-- **Tokens laid out in a text**: one after the other, with any blanks before, between and after
them. -/
inductive Layout : List Token → List Char → Prop
  | nil : Layout [] []
  | blank {c : Char} {ts : List Token} {cs : List Char} (hc : isBlank c) (h : Layout ts cs) :
      Layout ts (c :: cs)
  | token {t : Token} {ts : List Token} {w cs : List Char} (ht : TokenText t w) (h : Layout ts cs) :
      Layout (t :: ts) (w ++ cs)

/-! ## Values -/

/-- A value as it is written: numbers and strings are kept in their parts, and the members of an
object in their order, the same name as often as it comes.  No rule says that names differ: what a
repeated name means is for the reader to decide. -/
inductive Value where
  | null
  | truth (b : Bool)
  | number (n : Numeral)
  | text (pieces : List Piece)
  | array (elements : List Value)
  | object (members : List (List Piece × Value))

namespace Value

mutual

/-- **The tokens of a value.** -/
def tokens : Value → List Token
  | .null => [.null]
  | .truth b => [.truth b]
  | .number n => [.number n]
  | .text ps => [.text ps]
  | .array [] => [.openBracket, .closeBracket]
  | .array (v :: vs) => .openBracket :: (v.tokens ++ moreElements vs)
  | .object [] => [.openBrace, .closeBrace]
  | .object ((key, v) :: ms) =>
    .openBrace :: .text key :: .colon :: (v.tokens ++ moreMembers ms)

/-- The tokens of an array after an element. -/
def moreElements : List Value → List Token
  | [] => [.closeBracket]
  | v :: vs => .comma :: (v.tokens ++ moreElements vs)

/-- The tokens of an object after a member. -/
def moreMembers : List (List Piece × Value) → List Token
  | [] => [.closeBrace]
  | (key, v) :: ms => .comma :: .text key :: .colon :: (v.tokens ++ moreMembers ms)

end

/-- The token that a value starts with.  Readers decide by this token which kind of value comes. -/
def firstToken : Value → Token
  | .null => .null
  | .truth b => .truth b
  | .number n => .number n
  | .text ps => .text ps
  | .array _ => .openBracket
  | .object _ => .openBrace

theorem exists_tokens_eq_cons (v : Value) : ∃ ts, v.tokens = v.firstToken :: ts := by
  match v with
  | .null | .truth _ | .number _ | .text _ | .array [] | .array (_ :: _) | .object []
  | .object ((_, _) :: _) => exact ⟨_, rfl⟩

mutual

/-- A value is made of tokens to the end. -/
theorem wrong_notMem_tokens (v : Value) : .wrong ∉ v.tokens := by
  match v with
  | .null | .truth _ | .number _ | .text _ | .array [] | .object [] => simp [tokens]
  | .array (v :: vs) => simp [tokens, wrong_notMem_tokens v, wrong_notMem_moreElements vs]
  | .object ((_, v) :: ms) => simp [tokens, wrong_notMem_tokens v, wrong_notMem_moreMembers ms]

theorem wrong_notMem_moreElements (vs : List Value) : .wrong ∉ moreElements vs := by
  match vs with
  | [] => simp [moreElements]
  | v :: vs => simp [moreElements, wrong_notMem_tokens v, wrong_notMem_moreElements vs]

theorem wrong_notMem_moreMembers (ms : List (List Piece × Value)) : .wrong ∉ moreMembers ms := by
  match ms with
  | [] => simp [moreMembers]
  | (_, v) :: ms => simp [moreMembers, wrong_notMem_tokens v, wrong_notMem_moreMembers ms]

end

/-- **A JSON text of a value.** -/
def IsText (v : Value) (text : String) : Prop := Layout v.tokens text.toList

/-- **A value without lone surrogates**: every string in it is a text.  Names of members count as
strings of it. -/
inductive IsPaired : Value → Prop
  | null : IsPaired .null
  | truth (b : Bool) : IsPaired (.truth b)
  | number (n : Numeral) : IsPaired (.number n)
  | text {ps : List Piece} (h : (joined? ps).isSome) : IsPaired (.text ps)
  | array {vs : List Value} (h : ∀ v ∈ vs, IsPaired v) : IsPaired (.array vs)
  | object {ms : List (List Piece × Value)} (hnames : ∀ m ∈ ms, (joined? m.1).isSome)
      (h : ∀ m ∈ ms, IsPaired m.2) : IsPaired (.object ms)

/-- **A value within limits**: no more than so many containers inside one another, and no number
that is out of range.  These are limits of readers, not of the grammar. -/
inductive Fits : Nat → Value → Prop
  | null {room : Nat} : Fits room .null
  | truth {room : Nat} (b : Bool) : Fits room (.truth b)
  | number {room : Nat} {n : Numeral} (h : n.value?.isSome) : Fits room (.number n)
  | text {room : Nat} (ps : List Piece) : Fits room (.text ps)
  | array {room : Nat} {vs : List Value} (h : ∀ v ∈ vs, Fits room v) : Fits (room + 1) (.array vs)
  | object {room : Nat} {ms : List (List Piece × Value)} (h : ∀ m ∈ ms, Fits room m.2) :
      Fits (room + 1) (.object ms)

end Value

/-- A member of an object: its name as it is written, and its value. -/
abbrev Member := List Piece × Value

/-- **A text that is a JSON object.** -/
def IsObjectText (text : String) : Prop := ∃ ms, (Value.object ms).IsText text

/-! ## How far a number goes -/

/-- A token that may follow a number. -/
def Token.EndsNumber : Token → Prop
  | .comma | .closeBracket | .closeBrace => True
  | _ => False

/-- Numbers are followed by punctuation or by nothing, so that none runs into what comes next.  Only
a number can run on; every other token ends where it ends. -/
def Apart : List Token → Prop
  | [] => True
  | .number _ :: rest => (∀ t ∈ rest.head?, t.EndsNumber) ∧ Apart rest
  | _ :: rest => Apart rest

namespace Value

theorem endsNumber_moreElements (vs : List Value) (rest : List Token) :
    ∀ t ∈ (moreElements vs ++ rest).head?, t.EndsNumber := by
  cases vs <;> simp [moreElements, Token.EndsNumber]

theorem endsNumber_moreMembers (ms : List (List Piece × Value)) (rest : List Token) :
    ∀ t ∈ (moreMembers ms ++ rest).head?, t.EndsNumber := by
  cases ms <;> simp [moreMembers, Token.EndsNumber]

mutual

/-- **In a value numbers stand apart.** -/
theorem apart_tokens (v : Value) {rest : List Token} (hends : ∀ t ∈ rest.head?, t.EndsNumber)
    (hrest : Apart rest) : Apart (v.tokens ++ rest) := by
  match v with
  | .null | .truth _ | .text _ | .array [] | .object [] => simpa [tokens, Apart] using hrest
  | .number _ => exact ⟨hends, hrest⟩
  | .array (v :: vs) =>
      simpa [tokens, Apart] using
        apart_tokens v (endsNumber_moreElements vs rest) (apart_moreElements vs hrest)
  | .object ((_, v) :: ms) =>
      simpa [tokens, Apart] using
        apart_tokens v (endsNumber_moreMembers ms rest) (apart_moreMembers ms hrest)

/-- The elements after the first one. -/
theorem apart_moreElements (vs : List Value) {rest : List Token} (hrest : Apart rest) :
    Apart (moreElements vs ++ rest) := by
  match vs with
  | [] => simpa [moreElements, Apart] using hrest
  | v :: vs =>
      simpa [moreElements, Apart] using
        apart_tokens v (endsNumber_moreElements vs rest) (apart_moreElements vs hrest)

/-- The members after the first one. -/
theorem apart_moreMembers (ms : List (List Piece × Value)) {rest : List Token}
    (hrest : Apart rest) : Apart (moreMembers ms ++ rest) := by
  match ms with
  | [] => simpa [moreMembers, Apart] using hrest
  | (_, v) :: ms =>
      simpa [moreMembers, Apart] using
        apart_tokens v (endsNumber_moreMembers ms rest) (apart_moreMembers ms hrest)

end

end Value

end AvatarPool.Json
