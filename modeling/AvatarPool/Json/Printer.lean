/-! # Writing JSON text

Strings between quotes.  The quote, the backslash and the characters below space are escaped, the
usual controls by a letter and the others by number; every other character stands for itself. -/

namespace AvatarPool.Json

/-- The lower-case hexadecimal digit of a value below sixteen. -/
def hexDigit (n : Nat) : Char :=
  if n < 10 then Char.ofNat (48 + n) else Char.ofNat (87 + n)

/-- One character of a string. -/
def escapeChar (c : Char) : List Char :=
  match c with
  | '"' => ['\\', '"']
  | '\\' => ['\\', '\\']
  | '\x08' => ['\\', 'b']
  | '\x0c' => ['\\', 'f']
  | '\n' => ['\\', 'n']
  | '\r' => ['\\', 'r']
  | '\t' => ['\\', 't']
  | c =>
    if c.toNat < 0x20 then ['\\', 'u', '0', '0', hexDigit (c.toNat / 16), hexDigit (c.toNat % 16)]
    else [c]

/-- A string between quotes. -/
def quote (s : String) : String := String.ofList ('"' :: s.toList.flatMap escapeChar ++ ['"'])

/-- An object of written members, in order and without blanks. -/
def object (members : List (String × String)) : String :=
  let shown := members.map fun (key, value) => quote key ++ ":" ++ value
  "\x7b" ++ String.intercalate "," shown ++ "\x7d"

end AvatarPool.Json
