/-! # Double-precision numbers

Magnitudes of finite double-precision numbers in exact arithmetic.  Every such magnitude is a whole
multiple of the smallest one, `2 ^ -1074`, and is kept as that multiple.  `round` takes any
non-negative fraction to the nearest double, a tie to the even one; `shortest` finds the fewest
decimal digits that read back as the same double. -/

namespace AvatarPool.Json

/-- A finite magnitude, as a multiple of `2 ^ -1074`. -/
structure Binary64 where
  units : Nat
  deriving DecidableEq, Repr

namespace Binary64

/-- The number of units in one. -/
def one : Nat := Nat.pow 2 1074

/-- The nearest whole number to `num / den`, a half going to the even neighbour. -/
def nearest (num den : Nat) : Nat :=
  let q := num / den
  let twice := 2 * (num % den)
  if twice < den then q
  else if twice = den then q + q % 2
  else q + 1

/-- The distance, in units, between neighbouring doubles of the size of `units`: doubles have
fifty-three significant bits. -/
def spacing (units : Nat) : Nat := Nat.pow 2 (units.log2 - 52)

/-- The double nearest to `num / den` units, or none beyond the largest finite one. -/
def roundUnits (num den : Nat) : Option Binary64 :=
  let gap := spacing (num / den)
  let units := nearest num (den * gap) * gap
  if units < Nat.pow 2 1024 * one then some ⟨units⟩ else none

/-- The double nearest to the fraction `num / den`. -/
def round (num den : Nat) : Option Binary64 := roundUnits (num * one) den

/-- The rounded product. -/
def mul (a b : Binary64) : Option Binary64 := roundUnits (a.units * b.units) one

/-- The rounded quotient. -/
def div (a b : Binary64) : Option Binary64 := roundUnits (a.units * one) b.units

/-- The double nearest to a power of ten. -/
def powerOfTen (k : Nat) : Option Binary64 := round (Nat.pow 10 k) 1

/-- The decimal digits of a value, and the power of ten of the first of them. -/
structure Decimal where
  digits : List Nat
  exponent : Int
  deriving DecidableEq, Repr

def digitsOf (n : Nat) : List Nat := (toString n).toList.map fun c => c.toNat - '0'.toNat

/-- Whether `n * 10 ^ k` lies among the reals that round to `b`: within half the spacing on either
side, the ends included if the last bit of `b` is zero.  Quarters of a unit keep both half spacings
whole. -/
def readsBack (b : Binary64) (n : Nat) (k : Int) : Bool :=
  let gap := spacing b.units
  let below := if b.units = Nat.pow 2 b.units.log2 ∧ 1 < gap then gap else 2 * gap
  let even := b.units / gap % 2 = 0
  let num := n * Nat.pow 10 k.toNat * one * 4
  let den := Nat.pow 10 (-k).toNat
  let low := (b.units * 4 - below) * den
  let high := (b.units * 4 + 2 * gap) * den
  if even then low ≤ num ∧ num ≤ high else low < num ∧ num < high

/-- The power of ten of the first decimal digit. -/
def leadingPower (b : Binary64) : Int :=
  if one ≤ b.units then (Int.ofNat (toString (b.units / one)).length) - 1
  else
    match (List.range 330).find? fun q => one ≤ b.units * Nat.pow 10 q with
    | some q => -Int.ofNat q
    | none => 0

/-- The two neighbours of `b` on the grid of multiples of `10 ^ k`, the nearer first. -/
def gridNeighbours (b : Binary64) (k : Int) : List Nat :=
  let num := b.units * Nat.pow 10 (-k).toNat
  let den := one * Nat.pow 10 k.toNat
  let n := num / den
  if nearest num den = n then [n, n + 1] else [n + 1, n]

/-- **The fewest digits that read back** as `b`, and of those the nearest. -/
def shortest (b : Binary64) : Decimal :=
  if b.units = 0 then ⟨[0], 0⟩
  else
    let p := b.leadingPower
    let tries := (List.range 17).flatMap fun (i : Nat) =>
      (b.gridNeighbours (p - Int.ofNat i)).map fun n => (n, p - Int.ofNat i)
    match tries.find? fun (n, k) => b.readsBack n k with
    | some (n, k) =>
      let digits := digitsOf n
      ⟨(digits.reverse.dropWhile (· == 0)).reverse, k + Int.ofNat digits.length - 1⟩
    | none => ⟨[0], 0⟩

def digitText (ds : List Nat) : String := String.join (ds.map toString)

/-- An exponent with its sign, and no more digits than it needs. -/
def exponentText (e : Int) : String := (if e < 0 then "-" else "+") ++ toString e.natAbs

/-- The written form: positional from `1e-5` up to below `1e16` with at least one digit after the
point, and otherwise one digit before the point and an exponent. -/
def text (b : Binary64) : String :=
  let d := b.shortest
  let count := d.digits.length
  if -5 ≤ d.exponent ∧ d.exponent < 16 then
    if d.exponent < 0 then
      "0." ++ String.ofList (List.replicate (d.exponent.natAbs - 1) '0') ++ digitText d.digits
    else
      let whole := d.exponent.toNat + 1
      if count ≤ whole then
        digitText d.digits ++ String.ofList (List.replicate (whole - count) '0') ++ ".0"
      else digitText (d.digits.take whole) ++ "." ++ digitText (d.digits.drop whole)
  else
    digitText (d.digits.take 1) ++ (if count = 1 then "" else "." ++ digitText (d.digits.drop 1))
      ++ "e" ++ exponentText d.exponent

end Binary64

end AvatarPool.Json
