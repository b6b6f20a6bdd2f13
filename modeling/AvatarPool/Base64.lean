import AvatarPool.Text.Utf8

/-! # Base64

The standard alphabet with padding.  `encode` writes the one canonical text of a byte string;
`decode` takes exactly the canonical texts and says of any other what is wrong with it, and
where. -/

namespace AvatarPool.Base64

/-- The symbol of a six-bit value. -/
def symbol (n : Nat) : Char :=
  if n < 26 then Char.ofNat (65 + n)
  else if n < 52 then Char.ofNat (97 + (n - 26))
  else if n < 62 then Char.ofNat (48 + (n - 52))
  else if n = 62 then '+'
  else '/'

/-- The six-bit value of a symbol, read from its byte. -/
def value? (b : UInt8) : Option Nat :=
  let n := b.toNat
  if 65 ≤ n ∧ n ≤ 90 then some (n - 65)
  else if 97 ≤ n ∧ n ≤ 122 then some (n - 97 + 26)
  else if 48 ≤ n ∧ n ≤ 57 then some (n - 48 + 52)
  else if n = 43 then some 62
  else if n = 47 then some 63
  else none

/-- The padding sign, as a byte. -/
def pad : UInt8 := 61

/-- The four symbols of three bytes. -/
def encodeTriple (a b c : UInt8) : List Char :=
  let n := a.toNat * 65536 + b.toNat * 256 + c.toNat
  [symbol (n / 262144), symbol (n / 4096 % 64), symbol (n / 64 % 64), symbol (n % 64)]

/-- Encodes after `done`, which holds the text so far in reverse. -/
def encodeOnto (done : List Char) : List UInt8 → List Char
  | [] => done.reverse
  | [a] =>
    let n := a.toNat * 16
    (['=', '=', symbol (n % 64), symbol (n / 64)] ++ done).reverse
  | [a, b] =>
    let n := (a.toNat * 256 + b.toNat) * 4
    (['=', symbol (n % 64), symbol (n / 64 % 64), symbol (n / 4096)] ++ done).reverse
  | a :: b :: c :: rest => encodeOnto ((encodeTriple a b c).reverse ++ done) rest

/-- The canonical text of a byte string. -/
def encode (bytes : List UInt8) : String :=
  String.ofList (encodeOnto [] bytes)

/-- What is wrong with a text that is no canonical encoding. -/
inductive DecodeError where
  /-- A byte outside the alphabet, or a padding sign where none may stand. -/
  | invalidSymbol (byte : UInt8) (offset : Nat)
  /-- One symbol alone in its group of four. -/
  | invalidLength (length : Nat)
  /-- The last symbol holds bits beyond the last byte. -/
  | invalidLastSymbol (byte : UInt8) (offset : Nat)
  /-- Padding is missing or short. -/
  | invalidPadding
  deriving DecidableEq, Repr

def DecodeError.message : DecodeError → String
  | invalidSymbol byte offset =>
    "Invalid symbol " ++ toString byte.toNat ++ ", offset " ++ toString offset ++ "."
  | invalidLength length => "Invalid input length: " ++ toString length
  | invalidLastSymbol byte offset =>
    "Invalid last symbol " ++ toString byte.toNat ++ ", offset " ++ toString offset ++ "."
  | invalidPadding => "Invalid padding"

/-- The value of the symbol at `offset`. -/
def symbolAt (offset : Nat) (b : UInt8) : Except DecodeError Nat :=
  match value? b with
  | some n => .ok n
  | none => .error (.invalidSymbol b offset)

/-- What the last group of a text holds: its symbols, each with its value, and how many padding
signs follow them. -/
structure Tail where
  symbols : List (UInt8 × Nat)
  pads : Nat

/-- Reads the last group, at most four bytes starting at `start`.  A padding sign may only stand
after two or three symbols and only before further padding signs; a fault of that kind is reported
at the first padding sign. -/
def readTail (start : Nat) : Nat → List (UInt8 × Nat) → Nat → List UInt8 → Except DecodeError Tail
  | _, symbols, pads, [] => .ok ⟨symbols.reverse, pads⟩
  | index, symbols, pads, b :: rest =>
    if b = pad then
      if index < 2 then .error (.invalidSymbol b (start + index))
      else readTail start (index + 1) symbols (pads + 1) rest
    else if pads > 0 then .error (.invalidSymbol pad (start + symbols.length))
    else do
      let n ← symbolAt (start + index) b
      readTail start (index + 1) ((b, n) :: symbols) 0 rest

/-- The bytes of the last group: `s` symbols make `s * 6 / 8` bytes, whose surplus bits must be
zero, and symbols and padding fill the group. -/
def closeTail (start : Nat) (tail : Tail) : Except DecodeError (List UInt8) :=
  match tail.symbols with
  | [] => if tail.pads = 0 then .ok [] else .error .invalidPadding
  | [_] => .error (.invalidLength (start + 1))
  | [(_, a), (s, b)] =>
    if tail.pads ≠ 2 then .error .invalidPadding
    else
      let n := a * 64 + b
      if n % 16 ≠ 0 then .error (.invalidLastSymbol s (start + 1))
      else .ok [UInt8.ofNat (n / 16)]
  | [(_, a), (_, b), (s, c)] =>
    if tail.pads ≠ 1 then .error .invalidPadding
    else
      let n := (a * 64 + b) * 64 + c
      if n % 4 ≠ 0 then .error (.invalidLastSymbol s (start + 2))
      else .ok [UInt8.ofNat (n / 1024), UInt8.ofNat (n / 4 % 256)]
  | (_, a) :: (_, b) :: (_, c) :: (_, d) :: _ =>
    let n := ((a * 64 + b) * 64 + c) * 64 + d
    .ok [UInt8.ofNat (n / 65536), UInt8.ofNat (n / 256 % 256), UInt8.ofNat (n % 256)]

/-- Decodes group by group after `done`, the bytes so far in reverse.  A group is full and not the
last when a fifth byte follows it. -/
def decodeGroups (offset : Nat) (done : List UInt8) : List UInt8 → Except DecodeError (List UInt8)
  | a :: b :: c :: d :: e :: rest => do
    let w ← symbolAt offset a
    let x ← symbolAt (offset + 1) b
    let y ← symbolAt (offset + 2) c
    let z ← symbolAt (offset + 3) d
    let n := ((w * 64 + x) * 64 + y) * 64 + z
    decodeGroups (offset + 4)
      (UInt8.ofNat (n % 256) :: UInt8.ofNat (n / 256 % 256) :: UInt8.ofNat (n / 65536) :: done)
      (e :: rest)
  | last => do
    let tail ← readTail offset 0 [] 0 last
    let bytes ← closeTail offset tail
    .ok (done.reverse ++ bytes)

/-- A single byte after the last full group that is neither a symbol nor padding, such as a line
end, is reported before any other fault. -/
def strayLast? (bytes : List UInt8) : Option DecodeError :=
  if bytes.length % 4 = 1 then
    match bytes.getLast? with
    | some b =>
      if b ≠ pad ∧ value? b = none then some (.invalidSymbol b (bytes.length - 1)) else none
    | none => none
  else none

/-- Decodes the bytes of a text. -/
def decodeBytes (bytes : List UInt8) : Except DecodeError (List UInt8) :=
  match strayLast? bytes with
  | some e => .error e
  | none => decodeGroups 0 [] bytes

/-- The bytes a canonical text stands for. -/
def decode (text : String) : Except DecodeError (List UInt8) :=
  decodeBytes (Text.utf8 text)

example : encode [0x89, 0x50, 0x4e, 0x47] = "iVBORw==" := by decide

end AvatarPool.Base64
