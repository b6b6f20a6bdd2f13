import AvatarPool.Sha256
import AvatarPool.Text.Utf8
import AvatarPool.Wire.RequestId

/-! # Minting correlation ids

A client numbers its requests, or gives each a text from a stream of its own.  The version-4 UUIDs
come from a stream of digests, so that they are as good as random and the same for the same place in
the stream. -/

namespace AvatarPool

/-- How a bridge client mints its ids. -/
inductive Minting where
  /-- The numbers from one on. -/
  | counter
  /-- The texts of a stream, by their places. -/
  | texts (stream : Nat → String)
  deriving Inhabited

namespace Minting

/-- The text of sixteen bytes in groups, with the marks of version 4. -/
def uuidText (bytes : List Nat) : String :=
  let digits (n : Nat) : List Char := [Json.hexDigit (n / 16), Json.hexDigit (n % 16)]
  let byte (i : Nat) : List Char :=
    let b := bytes.getD i 0
    digits (if i = 6 then 0x40 + b % 16 else if i = 8 then 0x80 + b % 64 else b)
  let group (first count : Nat) : List Char := (List.range' first count).flatMap byte
  String.ofList (List.intercalate ['-'] [group 0 4, group 4 2, group 6 2, group 8 2, group 10 6])

/-- Version-4 UUIDs. -/
def uuid : Minting :=
  .texts fun n => uuidText ((Sha256.digest (Text.utf8 (toString n))).toList.map fun b => b.toNat)

/-- The id of the request minted after `n` others. -/
def mint (c : Minting) (n : Nat) : RequestId :=
  match c with
  | counter => .counter (UInt64.ofNat (n + 1))
  | texts stream => .text (stream n)

end Minting

end AvatarPool
