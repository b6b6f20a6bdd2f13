import AvatarPool.Json.Decode
import AvatarPool.Json.Printer

/-! # Request ids

A response finds its request by an id alone.  An id is a counter, written as a number, or a text,
written as a string; a text of digits stays a text. -/

namespace AvatarPool

open Json

inductive RequestId where
  | counter (n : UInt64)
  | text (s : String)
  deriving DecidableEq, Repr, Inhabited

namespace RequestId

/-- The shown form. -/
def label : RequestId → String
  | counter n => toString n.toNat
  | text s => s

/-- The JSON form. -/
def json : RequestId → String
  | counter n => toString n.toNat
  | text s => quote s

/-- The id that a sound value starting with this token is: a number below `2 ^ 64` or a string. -/
def ofToken? : Token → Option RequestId
  | .number n =>
    match n.value? with
    | some (.natural v) => some (counter (UInt64.ofNat v))
    | _ => none
  | .text pieces => (joined? pieces).map text
  | _ => none

/-- The id that a sound value starting with this token must be. -/
def ofToken (t : Token) : Except DecodeError RequestId :=
  match ofToken? t with
  | some id => .ok id
  | none => .error (.noVariant "CorrelationId")

/-- Containers that an id may nest when it stands alone. -/
def room : Nat := 127

/-- Reads an id.  The whole value is built, with `room` containers allowed inside one another,
before its kind is asked. -/
def read (room : Nat) (ts : List Token) : Except DecodeError (RequestId × List Token) :=
  match ts with
  | [] => .error .malformed
  | t :: _ =>
    match skim room ts with
    | some (true, rest) => (ofToken t).map fun id => (id, rest)
    | _ => .error .malformed

theorem read_length {room : Nat} {ts : List Token} {r : RequestId × List Token}
    (h : read room ts = .ok r) : r.2.length < ts.length := by
  unfold read at h
  split at h
  · cases h
  · rename_i t ts'
    split at h
    · rename_i rest hs
      have := skim_length hs
      cases hid : ofToken t with
      | error e => rw [hid] at h; cases h
      | ok id => rw [hid] at h; cases h; exact this
    · cases h

end RequestId

end AvatarPool
