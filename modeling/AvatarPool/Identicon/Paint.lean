import AvatarPool.Job
import AvatarPool.Picture
import AvatarPool.Sha256
import AvatarPool.Text.Utf8

/-! # The block pattern of a seed

Five by five blocks on a light ground, the right half reflecting the left.  The digest of the seed
gives the colour by its first three bytes, halved so that it is always darker than the ground, and
the pattern by the bits from its fourth byte on, lowest bit first.  Drawing sets pixel after pixel
and asks for every one whether it lies in the picture. -/

namespace AvatarPool.Identicon

open Sha256 (Digest digest)

/-- Blocks along each side. -/
def grid : Nat := 5

/-- Columns drawn from the digest: the left half and the middle. -/
def half : Nat := 3

/-- The ground. -/
def ground : Rgba := ⟨240, 240, 240, 255⟩

/-- The colour of the blocks. -/
def colour (d : Digest) : Rgba :=
  let (r, g, b, _) := Sha256.firstBytes d
  ⟨r / 2, g / 2, b / 2, 255⟩

/-- Edge length of a block. -/
def blockSide (size : Size) : Nat := size.pixels / (grid + 1)

/-- Distance of the pattern from the edges. -/
def margin (size : Size) : Nat := (size.pixels - blockSide size * grid) / 2

/-- The bit of the digest that decides the block in this row and column of the left half. -/
def bitIndex (row col : Nat) : Nat := row * half + col

/-- Whether a bit of the digest, counted from its fourth byte, is set; none beyond its end. -/
def bit? (d : Digest) (index : Nat) : Option Bool :=
  d[3 + index / 8]?.map fun byte => byte.toNat.testBit (index % 8)

/-- Fills a square of pixels. -/
def fillSquare (c : Rgba) (side x0 y0 : Nat) (p : Picture) : Option Picture :=
  (List.range side).foldlM
    (fun p y => (List.range side).foldlM (fun p x => p.put c (x0 + x) (y0 + y)) p) p

/-- Draws one block of the left half, if its bit is set, together with its reflection. -/
def drawBlock (d : Digest) (size : Size) (row : Nat) (p : Picture) (col : Nat) :
    Option Picture := do
  if ← bit? d (bitIndex row col) then
    let y0 := margin size + row * blockSide size
    [col, grid - 1 - col].foldlM
      (fun p column =>
        fillSquare (colour d) (blockSide size) (margin size + column * blockSide size) y0 p) p
  else some p

/-- **The picture of a digest**, or none if drawing left the picture or the digest. -/
def draw (d : Digest) (size : Size) : Option Picture :=
  (List.range grid).foldlM
    (fun p row => (List.range half).foldlM (drawBlock d size row) p)
    (Picture.filled size.pixels ground)

/-- The picture of a seed. -/
def picture? (seed : String) (size : Size) : Option Picture := draw (digest (Text.utf8 seed)) size

end AvatarPool.Identicon
