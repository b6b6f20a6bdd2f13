/-! # Bounded decimal numbers

The written numbers that settings and picture sizes use: an optional plus sign and at least one
ASCII digit, leading zeros allowed, up to a limit. -/

namespace AvatarPool.Text

/-- The value of an ASCII digit. -/
def digit? (c : Char) : Option Nat :=
  if '0' ≤ c ∧ c ≤ '9' then some (c.toNat - '0'.toNat) else none

/-- Reads digits after the value `n`, as long as the number stays within the limit. -/
def digitsWithin (limit n : Nat) : List Char → Option Nat
  | [] => some n
  | c :: rest =>
    match digit? c with
    | some d => if n * 10 + d ≤ limit then digitsWithin limit (n * 10 + d) rest else none
    | none => none

/-- What follows a plus sign, if one stands in front. -/
def dropPlus : List Char → List Char
  | '+' :: rest => rest
  | cs => cs

/-- **Reads a number** up to `limit`. -/
def number? (limit : Nat) (text : String) : Option Nat :=
  match dropPlus text.toList with
  | [] => none
  | ds => digitsWithin limit 0 ds

end AvatarPool.Text
