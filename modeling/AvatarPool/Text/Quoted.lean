import AvatarPool.Text.Graphic

/-! # Quoted text for people

How a message shows a string it found: between double quotes, with short escapes for the usual
controls and the code point of any character that does not show on its own. -/

namespace AvatarPool.Text

/-- Hexadecimal digits without leading zeros. -/
def hexadecimal (n : Nat) : List Char := Nat.toDigits 16 n

/-- A character by its code point. -/
def byNumber (c : Char) : List Char :=
  ['\\', 'u', '\x7b'] ++ hexadecimal c.toNat ++ ['\x7d']

/-- One character inside double quotes. -/
def quotedChar (c : Char) : List Char :=
  match c with
  | '"' => ['\\', '"']
  | '\\' => ['\\', '\\']
  | '\n' => ['\\', 'n']
  | '\r' => ['\\', 'r']
  | '\t' => ['\\', 't']
  | '\x00' => ['\\', '0']
  | c =>
    if c.toNat < 0x20 ∨ c.toNat = 0x7f then byNumber c
    else if c.toNat < 0x7f then [c]
    else if isHidden c then byNumber c
    else [c]

/-- A string between double quotes. -/
def quoted (s : String) : String :=
  String.ofList ('"' :: s.toList.flatMap quotedChar ++ ['"'])

end AvatarPool.Text
