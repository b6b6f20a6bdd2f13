import AvatarPool.Json.Number

/-! # Passing over a value

A value is read from the tokens by a cursor that knows what must come next and which containers are
open.  `skim` yields the tokens after the value and whether it is *sound*: its numbers are in range,
the surrogates in its strings pair up, and its containers nest no deeper than allowed.  A value that
is only skipped need not be sound. -/

namespace AvatarPool.Json

/-- The first sixteen-bit units of surrogate pairs. -/
def isHighSurrogate (n : Nat) : Bool := 0xD800 ≤ n && n < 0xDC00

/-- The second units of surrogate pairs. -/
def isLowSurrogate (n : Nat) : Bool := 0xDC00 ≤ n && n < 0xE000

/-- Joins the pieces of a string after `done`, its characters so far in reverse.  Surrogate units
must come in pairs. -/
def joinOnto (done : List Char) : List Piece → Option (List Char)
  | [] => some done.reverse
  | .plain c :: rest => joinOnto (c :: done) rest
  | .unit n :: .unit m :: rest =>
    if isHighSurrogate n then
      if isLowSurrogate m then
        joinOnto (Char.ofNat (0x10000 + (n - 0xD800) * 0x400 + (m - 0xDC00)) :: done) rest
      else none
    else if isLowSurrogate n then none
    else joinOnto (Char.ofNat n :: done) (.unit m :: rest)
  | .unit n :: rest =>
    if isHighSurrogate n || isLowSurrogate n then none
    else joinOnto (Char.ofNat n :: done) rest

/-- The string that the pieces spell, if surrogates pair up. -/
def joined? (pieces : List Piece) : Option String := (joinOnto [] pieces).map String.ofList

inductive Container where
  | array
  | object
  deriving DecidableEq, Repr

/-- What may come next inside a value. -/
inductive Need where
  /-- A value. -/
  | value
  /-- The first element of an array, or its end. -/
  | elementOrEnd
  /-- The first key of an object, or its end. -/
  | keyOrEnd
  /-- A further key. -/
  | key
  /-- The colon after a key. -/
  | colon
  /-- A comma, or the end of the innermost container. -/
  | more
  deriving DecidableEq, Repr

/-- A place inside a value: what may come next, the open containers from the innermost out, and
their number. -/
structure Cursor where
  need : Need
  containers : List Container
  depth : Nat

/-- The place before a value. -/
def Cursor.start : Cursor := ⟨.value, [], 0⟩

/-- The place after a value inside the given containers, or none if none is open. -/
def Cursor.after (containers : List Container) (depth : Nat) : Option Cursor :=
  match containers with
  | [] => none
  | _ :: _ => some ⟨.more, containers, depth⟩

/-- What one token leads to. -/
inductive Progress where
  | wrong
  /-- The value is complete. -/
  | complete
  | inside (c : Cursor)

/-- The place after a value that has just been completed. -/
def Progress.afterValue (containers : List Container) (depth : Nat) : Progress :=
  match Cursor.after containers depth with
  | none => .complete
  | some c => .inside c

/-- Steps over a token that starts or is a value. -/
def Cursor.stepValue (c : Cursor) : Token → Progress
  | .null | .truth _ | .number _ | .text _ => .afterValue c.containers c.depth
  | .openBracket => .inside ⟨.elementOrEnd, .array :: c.containers, c.depth + 1⟩
  | .openBrace => .inside ⟨.keyOrEnd, .object :: c.containers, c.depth + 1⟩
  | _ => .wrong

/-- Steps over one token. -/
def Cursor.step (c : Cursor) (t : Token) : Progress :=
  match c.need, t with
  | .value, t => c.stepValue t
  | .elementOrEnd, .closeBracket => .afterValue c.containers.tail (c.depth - 1)
  | .elementOrEnd, t => c.stepValue t
  | .keyOrEnd, .closeBrace => .afterValue c.containers.tail (c.depth - 1)
  | .keyOrEnd, .text _ => .inside { c with need := .colon }
  | .key, .text _ => .inside { c with need := .colon }
  | .colon, .colon => .inside { c with need := .value }
  | .more, .comma =>
    match c.containers with
    | .array :: _ => .inside { c with need := .value }
    | .object :: _ => .inside { c with need := .key }
    | [] => .wrong
  | .more, .closeBracket =>
    match c.containers with
    | .array :: outer => .afterValue outer (c.depth - 1)
    | _ => .wrong
  | .more, .closeBrace =>
    match c.containers with
    | .object :: outer => .afterValue outer (c.depth - 1)
    | _ => .wrong
  | _, _ => .wrong

/-- Whether a token met at the given depth is sound, with `room` containers allowed inside one
another. -/
def Token.isSound (room depth : Nat) : Token → Bool
  | .number n => n.value?.isSome
  | .text pieces => (joined? pieces).isSome
  | .openBracket | .openBrace => depth < room
  | _ => true

/-- Steps over tokens until the value is complete. -/
def skimFrom (room : Nat) (c : Cursor) (sound : Bool) : List Token → Option (Bool × List Token)
  | [] => none
  | t :: rest =>
    match c.step t with
    | .wrong => none
    | .complete => some (sound && t.isSound room c.depth, rest)
    | .inside c' => skimFrom room c' (sound && t.isSound room c.depth) rest

/-- **Passes over one value**: whether it is sound, and the tokens after it. -/
def skim (room : Nat) (ts : List Token) : Option (Bool × List Token) :=
  skimFrom room .start true ts

theorem skimFrom_length {room : Nat} {c : Cursor} {sound : Bool} {ts : List Token}
    {r : Bool × List Token} (h : skimFrom room c sound ts = some r) : r.2.length < ts.length := by
  induction ts generalizing c sound with
  | nil => simp [skimFrom] at h
  | cons t rest ih =>
    simp only [skimFrom] at h
    split at h
    · simp at h
    · simp only [Option.some.injEq] at h
      subst h
      simp
    · have := ih h
      simp only [List.length_cons]
      omega

/-- A value takes at least one token. -/
theorem skim_length {room : Nat} {ts : List Token} {r : Bool × List Token}
    (h : skim room ts = some r) : r.2.length < ts.length :=
  skimFrom_length h

end AvatarPool.Json
