import AvatarPool.Picture
import AvatarPool.Text.Utf8

/-! # PNG files

Pictures as PNG files of eight-bit red, green, blue and alpha samples.  Rows are unfiltered and the
pixel data is stored without compression, in blocks of at most 65535 bytes.  `decode?` reads the
files that `encode` writes. -/

namespace AvatarPool.Png

/-- The eight bytes every file starts with. -/
def signature : List UInt8 := [0x89, 0x50, 0x4e, 0x47, 0x0d, 0x0a, 0x1a, 0x0a]

/-- A thirty-two bit number, the highest byte first. -/
def bytes32 (n : Nat) : List UInt8 :=
  [UInt8.ofNat (n / 16777216), UInt8.ofNat (n / 65536), UInt8.ofNat (n / 256), UInt8.ofNat n]

/-- A sixteen-bit number, the lowest byte first. -/
def bytes16 (n : Nat) : List UInt8 := [UInt8.ofNat n, UInt8.ofNat (n / 256)]

/-- One bit of the cyclic checksum. -/
def crcBit (c : UInt32) : UInt32 :=
  if c &&& 1 = 1 then (0xedb88320 : UInt32) ^^^ (c >>> 1) else c >>> 1

/-- The checksum's change for each byte. -/
def crcTable : Array UInt32 :=
  (Array.range 256).map fun n => (List.range 8).foldl (fun c _ => crcBit c) (UInt32.ofNat n)

/-- The cyclic checksum of a chunk. -/
def crc (bytes : List UInt8) : Nat :=
  let step (c : UInt32) (b : UInt8) : UInt32 :=
    crcTable[((c ^^^ b.toUInt32) &&& 0xff).toNat]! ^^^ (c >>> 8)
  (bytes.foldl step 0xffffffff ^^^ (0xffffffff : UInt32)).toNat

/-- The checksum of the pixel data. -/
def adler (bytes : List UInt8) : Nat :=
  let step (s : Nat × Nat) (b : UInt8) : Nat × Nat :=
    let a := (s.1 + b.toNat) % 65521
    (a, (s.2 + a) % 65521)
  let s := bytes.foldl step (1, 0)
  s.2 * 65536 + s.1

/-- A chunk: its length, its name, its data and their checksum. -/
def chunk (name : String) (data : List UInt8) : List UInt8 :=
  let body := Text.utf8 name ++ data
  bytes32 data.length ++ (body ++ bytes32 (crc body))

/-- Stored blocks for the data, after `done` in reverse; `blocks` bounds their number. -/
def storedOnto (done : List UInt8) : Nat → List UInt8 → List UInt8
  | 0, _ => done.reverse
  | blocks + 1, data =>
    let part := data.take 65535
    let rest := data.drop 65535
    let size := part.length
    let head := (if rest.isEmpty then 1 else 0) :: (bytes16 size ++ bytes16 (65535 - size))
    let done := part.reverse ++ (head.reverse ++ done)
    if rest.isEmpty then done.reverse else storedOnto done blocks rest

/-- The data as a stream of stored blocks. -/
def stream (data : List UInt8) : List UInt8 :=
  [0x78, 0x01] ++ (storedOnto [] (data.length / 65535 + 1) data ++ bytes32 (adler data))

def samples (c : Rgba) : List UInt8 := [c.red, c.green, c.blue, c.alpha]

/-- The rows of a picture, each behind the number of its filter, which is none. -/
def pixelData (p : Picture) : List UInt8 := p.rows.flatMap fun row => 0 :: row.flatMap samples

/-- **The file** of a picture. -/
def encode (p : Picture) : List UInt8 :=
  signature ++
    (chunk "IHDR" (bytes32 p.side ++ bytes32 p.side ++ [8, 6, 0, 0, 0]) ++
      (chunk "IDAT" (stream (pixelData p)) ++ chunk "IEND" []))

def number (bytes : List UInt8) : Nat := bytes.foldl (fun n b => n * 256 + b.toNat) 0

/-- The bytes of stored blocks, after `done` in reverse; `blocks` bounds their number. -/
def unstoreOnto (done : List UInt8) : Nat → List UInt8 → Option (List UInt8)
  | 0, _ => none
  | blocks + 1, last :: a :: b :: _ :: _ :: rest =>
    let size := number [b, a]
    if rest.length < size then none
    else
      let done := (rest.take size).reverse ++ done
      if last = 1 then some done.reverse else unstoreOnto done blocks (rest.drop size)
  | _, _ => none

/-- Pixels of sample bytes, after `done` in reverse. -/
def pixelsOnto (done : List Rgba) : List UInt8 → List Rgba
  | r :: g :: b :: a :: rest => pixelsOnto (⟨r, g, b, a⟩ :: done) rest
  | _ => done.reverse

/-- The pixels of `rows` rows, each of `width` bytes behind a zero. -/
def rowsOnto (width : Nat) (done : List Rgba) : Nat → List UInt8 → Option (List Rgba)
  | 0, _ => some done.reverse
  | rows + 1, 0 :: rest =>
    if rest.length < width then none
    else rowsOnto width ((pixelsOnto [] (rest.take width)).reverse ++ done) rows (rest.drop width)
  | _, _ => none

/-- The data of a chunk of the given name at the head of a file, and what follows the chunk. -/
def takeChunk (name : String) (bytes : List UInt8) : Option (List UInt8 × List UInt8) :=
  let size := number (bytes.take 4)
  let rest := bytes.drop 4
  if rest.take 4 = Text.utf8 name ∧ size + 8 ≤ rest.length then
    some ((rest.drop 4).take size, rest.drop (size + 8))
  else none

/-- Reads a file that `encode` has written. -/
def decode? (bytes : List UInt8) : Option Picture := do
  guard (bytes.take 8 = signature)
  let (header, rest) ← takeChunk "IHDR" (bytes.drop 8)
  let (data, _) ← takeChunk "IDAT" rest
  let side := number (header.take 4)
  let rows ← unstoreOnto [] (data.length / 65535 + 1) (data.drop 2)
  let pixels ← rowsOnto (4 * side) [] side rows
  some ⟨side, pixels.toArray⟩

end AvatarPool.Png
