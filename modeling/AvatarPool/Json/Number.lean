import AvatarPool.Json.Binary64
import AvatarPool.Json.Token

/-! # The value of a number

A numeral is a natural number, a negative integer or a double.  A double is built from its first
significant digits, as many as fit in sixty-four bits, and one rounded multiplication or division by
a power of ten; a value beyond the largest double is out of range. -/

namespace AvatarPool.Json

inductive Number where
  | natural (n : Nat)
  /-- The integer `-n`. -/
  | negative (n : Nat)
  | real (negative : Bool) (magnitude : Binary64)
  deriving DecidableEq, Repr

/-- Leading digits gathered into a significand, which stops growing at the first digit that does not
fit; `dropped` counts the digits from there on and `taken` the digits before. -/
structure Significand where
  value : Nat
  taken : Nat
  dropped : Nat

def Significand.limit : Nat := Nat.pow 2 64 - 1

/-- Gathers digits after a significand that has already some. -/
def gather (value : Nat) : Nat → List Nat → Significand
  | taken, [] => ⟨value, taken, 0⟩
  | taken, d :: ds =>
    if value * 10 + d ≤ Significand.limit then gather (value * 10 + d) (taken + 1) ds
    else ⟨value, taken, (d :: ds).length⟩

/-- The largest power of ten that is a double. -/
def topPower : Nat := 308

/-- Divides by the largest power of ten, so many times over. -/
def divideByTop : Nat → Binary64 → Option Binary64
  | 0, f => some f
  | n + 1, f =>
    if f.units = 0 then some f
    else ((Binary64.powerOfTen topPower).bind f.div).bind (divideByTop n)

/-- Divides by a power of ten, one beyond the doubles in steps. -/
def divideBy (f : Binary64) (k : Nat) : Option Binary64 :=
  let steps := (k - 1) / topPower
  (divideByTop steps f).bind fun g => (Binary64.powerOfTen (k - steps * topPower)).bind g.div

/-- Multiplies by a power of ten. -/
def multiplyBy (f : Binary64) (k : Nat) : Option Binary64 :=
  if k ≤ topPower then (Binary64.powerOfTen k).bind f.mul
  else if f.units = 0 then some f
  else none

/-- The double of a significand scaled by a power of ten. -/
def scaled (significand : Nat) (exponent : Int) : Option Binary64 :=
  match Binary64.round significand 1 with
  | some f => if exponent < 0 then divideBy f exponent.natAbs else multiplyBy f exponent.natAbs
  | none => none

/-- Exponents are kept in thirty-two bits and stay at the ends of that range. -/
def clampExponent (e : Int) : Int := max (-2147483648) (min 2147483647 e)

def ofDigits (ds : List Nat) : Nat := ds.foldl (fun n d => n * 10 + d) 0

/-- The double a numeral means, with `shift` the power of ten from its significand. -/
def Numeral.real? (n : Numeral) (significand : Nat) (shift : Int) : Option Binary64 :=
  match n.exponent with
  | none => scaled significand shift
  | some (positive, ds) =>
    let e := ofDigits ds
    if e > 2147483647 then if positive && significand != 0 then none else some ⟨0⟩
    else scaled significand (clampExponent (if positive then shift + e else shift - e))

/-- **The value of a numeral**, or none if it is out of range.  Integers outside the sixty-four-bit
ranges, and a negative zero, are doubles. -/
def Numeral.value? (n : Numeral) : Option Number :=
  let whole := gather 0 0 n.whole
  if n.fraction.isEmpty && n.exponent.isNone && whole.dropped == 0 then
    if !n.negative then some (.natural whole.value)
    else if whole.value ≠ 0 ∧ whole.value ≤ Nat.pow 2 63 then some (.negative whole.value)
    else (Binary64.round whole.value 1).map (.real true)
  else
    let all := gather whole.value 0 n.fraction
    (n.real? all.value (Int.ofNat whole.dropped - Int.ofNat all.taken)).map (.real n.negative)

end AvatarPool.Json
