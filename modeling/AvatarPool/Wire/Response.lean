import AvatarPool.Failure
import AvatarPool.Wire.Request

/-! # Response frames

A response carries the id of its request and either the payload or the reason of a rejection.  The
member `status` tells which and may stand anywhere in the object, so every other member is kept
until the end. -/

namespace AvatarPool

open Json

/-- An answer as it travels. -/
inductive Response where
  | resolved (id : RequestId) (detail : String)
  | rejected (id : RequestId) (reason : String)
  deriving DecidableEq, Repr, Inhabited

namespace Response

def id : Response → RequestId
  | resolved id _ => id
  | rejected id _ => id

def isRejected : Response → Bool
  | resolved _ _ => false
  | rejected _ _ => true

/-- The frame of a response. -/
def frame : Response → String
  | resolved id detail =>
    object [("status", quote "resolved"), ("id", id.json), ("detail", quote detail)]
  | rejected id reason =>
    object [("status", quote "rejected"), ("id", id.json), ("reason", quote reason)]

/-- Which kind of answer a frame announces. -/
inductive Status where
  | resolved
  | rejected
  deriving DecidableEq, Repr

namespace Status

def variants : Variants Status where
  ofName? s :=
    if s = "resolved" then some resolved
    else if s = "rejected" then some rejected
    else none
  names := ["resolved", "rejected"]

/-- The member that holds the text of the answer. -/
def textMember : Status → String
  | resolved => "detail"
  | rejected => "reason"

def answer : Status → RequestId → String → Response
  | resolved => Response.resolved
  | rejected => Response.rejected

/-- What an array with too few elements is told. -/
def shape : Status → String
  | resolved => "struct variant BridgeResponse::Resolved with 2 elements"
  | rejected => "struct variant BridgeResponse::Rejected with 2 elements"

end Status

/-- Containers that a member may nest inside a frame. -/
def memberRoom : Nat := 126

/-- Reads the value of the member `status`. -/
def readStatus : List Token → Except DecodeError (Status × List Token)
  | [] => .error .malformed
  | t :: rest => do
    let name ← asString "variant identifier" t
    let status ← Status.variants.read name
    .ok (status, rest)

/-- Builds a value and keeps its first token, which is all that is asked of it later. -/
def readContent (ts : List Token) : Except DecodeError (Token × List Token) :=
  match ts with
  | [] => .error .malformed
  | t :: _ =>
    match skim memberRoom ts with
    | some (true, rest) => .ok (t, rest)
    | _ => .error .malformed

theorem readStatus_length {ts : List Token} {r : Status × List Token}
    (h : readStatus ts = .ok r) : r.2.length < ts.length := by
  cases ts with
  | nil => cases h
  | cons t rest =>
    simp only [readStatus] at h
    cases hs : asString "variant identifier" t with
    | error e => rw [hs] at h; cases h
    | ok name =>
      cases hv : Status.variants.read name with
      | error e => rw [hs] at h; simp only [bind, Except.bind, hv] at h; cases h
      | ok status =>
        rw [hs] at h
        simp only [bind, Except.bind, hv] at h
        cases h
        simp

theorem readContent_length {ts : List Token} {r : Token × List Token}
    (h : readContent ts = .ok r) : r.2.length < ts.length := by
  unfold readContent at h
  split at h
  · cases h
  · split at h
    · rename_i hs
      cases h
      exact skim_length hs
    · cases h

/-- What has been read of a response: its status, and its other members from the last to the
first. -/
structure Gathered where
  status : Option Status := none
  members : List (String × Token) := []

/-- Reads the colon and the value of the member `key`. -/
def readMember (g : Gathered) (key : String) (ts : List Token) :
    Except DecodeError (Gathered × List Token) :=
  if key = "status" then
    readOnce "status" g.status readStatus (fun status => { g with status := some status }) ts
  else
    readOnce key (none : Option Token) readContent
      (fun t => { g with members := (key, t) :: g.members }) ts

theorem readMember_length {g : Gathered} {key : String} {ts : List Token}
    {r : Gathered × List Token} (h : readMember g key ts = .ok r) : r.2.length < ts.length := by
  unfold readMember at h
  split at h
  · exact readOnce_length (fun _ _ => readStatus_length) h
  · exact readOnce_length (fun _ _ => readContent_length) h

/-- Reads members from a key on, up to the end of the object. -/
def readMembers (g : Gathered) (ts : List Token) : Except DecodeError (Gathered × List Token) :=
  match ts with
  | .text pieces :: rest =>
    match joined? pieces with
    | none => .error .malformed
    | some key =>
      match _h : readMember g key rest with
      | .error e => .error e
      | .ok (g, .comma :: rest) => readMembers g rest
      | .ok (g, .closeBrace :: rest) => .ok (g, rest)
      | .ok _ => .error .malformed
  | _ => .error .malformed
termination_by ts.length
decreasing_by
  have := readMember_length _h
  simp only [List.length_cons] at *
  omega

/-- The id and the text among the members so far. -/
structure Parts where
  id : Option RequestId := none
  text : Option String := none

/-- Takes one member: the id, the text of the answer, or neither. -/
def Parts.take (status : Status) (p : Parts) (member : String × Token) :
    Except DecodeError Parts :=
  if member.1 = "id" then do
    once "id" p.id
    let id ← RequestId.ofToken member.2
    .ok { p with id := some id }
  else if member.1 = status.textMember then do
    once status.textMember p.text
    let s ← asString "a string" member.2
    .ok { p with text := some s }
  else .ok p

/-- The answer that the gathered members make. -/
def Gathered.finish (g : Gathered) : Except DecodeError Response :=
  match g.status with
  | none => .error (.missingField "status")
  | some status => do
    let parts ← g.members.reverse.foldlM (Parts.take status) {}
    match parts.id, parts.text with
    | none, _ => .error (.missingField "id")
    | _, none => .error (.missingField status.textMember)
    | some id, some text => .ok (status.answer id text)

/-- Reads the elements of an array from one on, up to its end: their first tokens. -/
def readElements (ts : List Token) : Except DecodeError (List Token × List Token) :=
  match _h : readContent ts with
  | .error e => .error e
  | .ok (t, .comma :: rest) => (readElements rest).map fun (more, rest) => (t :: more, rest)
  | .ok (t, .closeBracket :: rest) => .ok ([t], rest)
  | .ok _ => .error .malformed
termination_by ts.length
decreasing_by
  have := readContent_length _h
  simp only [List.length_cons] at *
  omega

/-- The answer of an array whose elements after the status start with these tokens. -/
def ofElements (status : Status) : List Token → Except DecodeError Response
  | [] => .error (.invalidLength 0 status.shape)
  | t :: rest => do
    let id ← RequestId.ofToken t
    match rest with
    | [] => .error (.invalidLength 1 status.shape)
    | u :: more => do
      let text ← asString "a string" u
      match more with
      | [] => .ok (status.answer id text)
      | _ :: _ => .error (.invalidLength (more.length + 2) "2 elements in sequence")

/-- Reads a response written as an array, its status first. -/
def readArray (ts : List Token) : Except DecodeError (Response × List Token) :=
  match ts with
  | .closeBracket :: _ => .error (.missingField "status")
  | ts => do
    let (status, ts) ← readStatus ts
    match ts with
    | .closeBracket :: rest => (ofElements status []).map fun r => (r, rest)
    | .comma :: rest => do
      let (elements, rest) ← readElements rest
      (ofElements status elements).map fun r => (r, rest)
    | _ => .error .malformed

/-- Reads a response from tokens. -/
def read : List Token → Except DecodeError (Response × List Token)
  | [] => .error .malformed
  | .openBrace :: .closeBrace :: rest => ({} : Gathered).finish.map fun r => (r, rest)
  | .openBrace :: rest => do
    let (g, rest) ← readMembers {} rest
    g.finish.map fun r => (r, rest)
  | .openBracket :: rest => readArray rest
  | t :: _ => .error (mismatch "internally tagged enum BridgeResponse" t)

/-- **Reads a frame.** -/
def ofFrame (text : String) : Except DecodeError Response := whole read text

end Response

end AvatarPool
