/-! # Pictures

A square of pixels, row by row. -/

namespace AvatarPool

/-- A pixel's colour and opacity. -/
structure Rgba where
  red : UInt8
  green : UInt8
  blue : UInt8
  alpha : UInt8
  deriving DecidableEq, Repr, Inhabited

/-- A square picture: `side * side` pixels, the top row first. -/
structure Picture where
  side : Nat
  pixels : Array Rgba
  deriving DecidableEq, Repr, Inhabited

namespace Picture

/-- A picture of one colour. -/
def filled (side : Nat) (colour : Rgba) : Picture := ⟨side, Array.replicate (side * side) colour⟩

/-- The pixel in column `x` of row `y`, if there is one. -/
def pixel? (p : Picture) (x y : Nat) : Option Rgba :=
  if x < p.side ∧ y < p.side then p.pixels[y * p.side + x]? else none

/-- Sets one pixel; there is no picture if it lies outside. -/
def put (p : Picture) (colour : Rgba) (x y : Nat) : Option Picture :=
  if x < p.side ∧ y < p.side then
    some { p with pixels := p.pixels.setIfInBounds (y * p.side + x) colour }
  else none

/-- The rows of pixels from top to bottom. -/
def rows (p : Picture) : List (List Rgba) :=
  (List.range p.side).map fun y => (p.pixels.extract (y * p.side) ((y + 1) * p.side)).toList

end Picture

end AvatarPool
