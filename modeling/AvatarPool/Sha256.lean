/-! # SHA-256

The digest of a byte string: the padded message is folded, block by block, into eight words. -/

namespace AvatarPool.Sha256

/-- A digest: thirty-two bytes. -/
abbrev Digest := Vector UInt8 32

/-- The round constants. -/
def roundConstants : Array UInt32 := #[
  0x428a2f98, 0x71374491, 0xb5c0fbcf, 0xe9b5dba5, 0x3956c25b, 0x59f111f1, 0x923f82a4, 0xab1c5ed5,
  0xd807aa98, 0x12835b01, 0x243185be, 0x550c7dc3, 0x72be5d74, 0x80deb1fe, 0x9bdc06a7, 0xc19bf174,
  0xe49b69c1, 0xefbe4786, 0x0fc19dc6, 0x240ca1cc, 0x2de92c6f, 0x4a7484aa, 0x5cb0a9dc, 0x76f988da,
  0x983e5152, 0xa831c66d, 0xb00327c8, 0xbf597fc7, 0xc6e00bf3, 0xd5a79147, 0x06ca6351, 0x14292967,
  0x27b70a85, 0x2e1b2138, 0x4d2c6dfc, 0x53380d13, 0x650a7354, 0x766a0abb, 0x81c2c92e, 0x92722c85,
  0xa2bfe8a1, 0xa81a664b, 0xc24b8b70, 0xc76c51a3, 0xd192e819, 0xd6990624, 0xf40e3585, 0x106aa070,
  0x19a4c116, 0x1e376c08, 0x2748774c, 0x34b0bcb5, 0x391c0cb3, 0x4ed8aa4a, 0x5b9cca4f, 0x682e6ff3,
  0x748f82ee, 0x78a5636f, 0x84c87814, 0x8cc70208, 0x90befffa, 0xa4506ceb, 0xbef9a3f7, 0xc67178f2]

/-- The eight words of the running hash. -/
structure Words where
  a : UInt32
  b : UInt32
  c : UInt32
  d : UInt32
  e : UInt32
  f : UInt32
  g : UInt32
  h : UInt32

def start : Words :=
  ⟨0x6a09e667, 0xbb67ae85, 0x3c6ef372, 0xa54ff53a, 0x510e527f, 0x9b05688c, 0x1f83d9ab, 0x5be0cd19⟩

def rotateRight (x n : UInt32) : UInt32 := (x >>> n) ||| (x <<< (32 - n))

/-- The big-endian word of four bytes. -/
def word (a b c d : UInt8) : UInt32 :=
  (a.toUInt32 <<< 24) ||| (b.toUInt32 <<< 16) ||| (c.toUInt32 <<< 8) ||| d.toUInt32

/-- The big-endian bytes of a number, `count` of them. -/
def bytesOf (n : Nat) (count : Nat) : List UInt8 :=
  (List.range count).map fun i => UInt8.ofNat (n / Nat.pow 256 (count - 1 - i))

/-- The message followed by one set bit, zeros, and its length in bits, so that whole blocks of
sixty-four bytes come out. -/
def padded (message : List UInt8) : List UInt8 :=
  let length := message.length
  let zeros := (119 - length % 64) % 64
  message ++ 0x80 :: List.replicate zeros 0 ++ bytesOf (length * 8) 8

/-- The words of a block, after `done` in reverse. -/
def wordsOnto (done : List UInt32) : List UInt8 → List UInt32
  | a :: b :: c :: d :: rest => wordsOnto (word a b c d :: done) rest
  | _ => done.reverse

/-- One further word of the message schedule. -/
def extend (w : Array UInt32) (i : Nat) : Array UInt32 :=
  let x := w[i - 15]!
  let y := w[i - 2]!
  let s0 := rotateRight x 7 ^^^ rotateRight x 18 ^^^ (x >>> 3)
  let s1 := rotateRight y 17 ^^^ rotateRight y 19 ^^^ (y >>> 10)
  w.push (w[i - 16]! + s0 + w[i - 7]! + s1)

/-- The sixty-four words of the message schedule. -/
def schedule (block : List UInt32) : Array UInt32 :=
  (List.range' 16 48).foldl extend block.toArray

/-- One round. -/
def step (w : Array UInt32) (v : Words) (i : Nat) : Words :=
  let s1 := rotateRight v.e 6 ^^^ rotateRight v.e 11 ^^^ rotateRight v.e 25
  let choice := (v.e &&& v.f) ^^^ (~~~v.e &&& v.g)
  let t1 := v.h + s1 + choice + roundConstants[i]! + w[i]!
  let s0 := rotateRight v.a 2 ^^^ rotateRight v.a 13 ^^^ rotateRight v.a 22
  let majority := (v.a &&& v.b) ^^^ (v.a &&& v.c) ^^^ (v.b &&& v.c)
  ⟨t1 + s0 + majority, v.a, v.b, v.c, v.d + t1, v.e, v.f, v.g⟩

/-- The first four bytes of a digest. -/
def firstBytes (d : Digest) : UInt8 × UInt8 × UInt8 × UInt8 := (d[0], d[1], d[2], d[3])

/-- Folds one block into the running hash. -/
def compress (v : Words) (block : List UInt32) : Words :=
  let r := (List.range 64).foldl (step (schedule block)) v
  ⟨v.a + r.a, v.b + r.b, v.c + r.c, v.d + r.d, v.e + r.e, v.f + r.f, v.g + r.g, v.h + r.h⟩

/-- Folds `blocks` blocks of sixteen words. -/
def fold (v : Words) : Nat → List UInt32 → Words
  | 0, _ => v
  | blocks + 1, ws => fold (compress v (ws.take 16)) blocks (ws.drop 16)

/-- **The digest** of a byte string. -/
def digest (message : List UInt8) : Digest :=
  let ws := wordsOnto [] (padded message)
  let v := fold start (ws.length / 16) ws
  let words := #[v.a, v.b, v.c, v.d, v.e, v.f, v.g, v.h]
  Vector.ofFn fun i => (words[i.val / 4]! >>> (UInt32.ofNat (24 - 8 * (i.val % 4)))).toUInt8

end AvatarPool.Sha256
