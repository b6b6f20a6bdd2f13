import AvatarPool.Job
import AvatarPool.Text.Decimal
import AvatarPool.Wire.RequestId

/-! # Request frames

A request travels as one JSON object.  Its detail is the bare seed of a name, or the seed of a
picture, a semicolon and the edge length in pixels; the last semicolon is the separator, so a seed
may hold any.  `Request.ofFrame` reads a frame, `Request.frame` writes one, and `Request.job` finds
the job that a request describes. -/

namespace AvatarPool

open Json

/-- What a request asks for. -/
inductive RequestKind where
  | robohash
  | roboname
  deriving DecidableEq, Repr, Inhabited

namespace RequestKind

def name : RequestKind → String
  | robohash => "robohash"
  | roboname => "roboname"

def variants : Variants RequestKind where
  ofName? s :=
    if s = "robohash" then some robohash
    else if s = "roboname" then some roboname
    else none
  names := ["robohash", "roboname"]

end RequestKind

/-- A request as it travels. -/
structure Request where
  id : RequestId
  category : String
  kind : RequestKind
  detail : String
  deriving DecidableEq, Repr, Inhabited

namespace Request

/-- The category every request of this service carries. -/
def serviceCategory : String := "roboidentities"

/-- Containers that an id may nest inside a frame. -/
def idRoom : Nat := 126

/-- The frame of a request. -/
def frame (r : Request) : String :=
  object [("id", r.id.json), ("category", quote r.category), ("type", quote r.kind.name),
    ("detail", quote r.detail)]

/-- The members of a request read so far. -/
structure Fields where
  id : Option RequestId := none
  category : Option String := none
  kind : Option RequestKind := none
  detail : Option String := none

/-- The request of all its members, or the first missing one. -/
def Fields.finish (f : Fields) : Except DecodeError Request :=
  match f.id, f.category, f.kind, f.detail with
  | none, _, _, _ => .error (.missingField "id")
  | _, none, _, _ => .error (.missingField "category")
  | _, _, none, _ => .error (.missingField "type")
  | _, _, _, none => .error (.missingField "detail")
  | some id, some category, some kind, some detail => .ok ⟨id, category, kind, detail⟩

/-- Reads the colon and the value of the member `key`.  Members of other names are passed over. -/
def readMember (f : Fields) (key : String) (ts : List Token) :
    Except DecodeError (Fields × List Token) :=
  if key = "id" then
    readOnce "id" f.id (RequestId.read idRoom) (fun id => { f with id := some id }) ts
  else if key = "category" then
    readOnce "category" f.category readString (fun s => { f with category := some s }) ts
  else if key = "type" then
    readOnce "type" f.kind (readVariant RequestKind.variants)
      (fun kind => { f with kind := some kind }) ts
  else if key = "detail" then
    readOnce "detail" f.detail readString (fun s => { f with detail := some s }) ts
  else
    match afterColon ts with
    | .error e => .error e
    | .ok ts =>
      match skim 0 ts with
      | some (_, rest) => .ok (f, rest)
      | none => .error .malformed

theorem readMember_length {f : Fields} {key : String} {ts : List Token}
    {r : Fields × List Token} (h : readMember f key ts = .ok r) : r.2.length < ts.length := by
  unfold readMember at h
  split at h
  · exact readOnce_length (fun _ _ => RequestId.read_length) h
  split at h
  · exact readOnce_length (fun _ _ => readString_length) h
  split at h
  · exact readOnce_length (fun _ _ => readVariant_length) h
  split at h
  · exact readOnce_length (fun _ _ => readString_length) h
  split at h
  · cases h
  · rename_i hc
    split at h
    · rename_i hs
      cases h
      exact Nat.lt_trans (skim_length hs) (afterColon_length hc)
    · cases h

/-- Reads members from a key on, up to the end of the object. -/
def readMembers (f : Fields) (ts : List Token) : Except DecodeError (Request × List Token) :=
  match ts with
  | .text pieces :: rest =>
    match joined? pieces with
    | none => .error .malformed
    | some key =>
      match _h : readMember f key rest with
      | .error e => .error e
      | .ok (f, .comma :: rest) => readMembers f rest
      | .ok (f, .closeBrace :: rest) => f.finish.map fun r => (r, rest)
      | .ok _ => .error .malformed
  | _ => .error .malformed
termination_by ts.length
decreasing_by
  have := readMember_length _h
  simp only [List.length_cons] at *
  omega

/-- The tokens of the next element of an array, or none at its end. -/
def nextElement (first : Bool) : List Token → Except DecodeError (Option (List Token))
  | .closeBracket :: _ => .ok none
  | ts =>
    if first then .ok (some ts)
    else
      match ts with
      | .comma :: .closeBracket :: _ => .error .malformed
      | .comma :: rest => .ok (some rest)
      | _ => .error .malformed

/-- The element after `count` others of a request written as an array. -/
def element (count : Nat) (ts : List Token) : Except DecodeError (List Token) := do
  match ← nextElement (count == 0) ts with
  | some ts => .ok ts
  | none => .error (.invalidLength count "struct BridgeRequest with 4 elements")

/-- Reads the members of a request written as an array, in their order. -/
def readElements (ts : List Token) : Except DecodeError (Request × List Token) := do
  let (id, ts) ← RequestId.read idRoom (← element 0 ts)
  let (category, ts) ← readString (← element 1 ts)
  let (kind, ts) ← readVariant RequestKind.variants (← element 2 ts)
  let (detail, ts) ← readString (← element 3 ts)
  match ts with
  | .closeBracket :: rest => .ok (⟨id, category, kind, detail⟩, rest)
  | _ => .error .malformed

/-- Reads a request from tokens. -/
def read : List Token → Except DecodeError (Request × List Token)
  | [] => .error .malformed
  | .openBrace :: .closeBrace :: rest => ({} : Fields).finish.map fun r => (r, rest)
  | .openBrace :: rest => readMembers {} rest
  | .openBracket :: rest => readElements rest
  | t :: _ => .error (mismatch "struct BridgeRequest" t)

/-- **Reads a frame.** -/
def ofFrame (text : String) : Except DecodeError Request := whole read text

/-- The request for a job. -/
def ofJob (id : RequestId) : Job → Request
  | .image seed size => ⟨id, serviceCategory, .robohash, seed ++ ";" ++ toString size.pixels⟩
  | .name seed => ⟨id, serviceCategory, .roboname, seed⟩

/-- A text cut at its last semicolon. -/
def cutAtLast (text : String) : Option (String × String) :=
  let cs := text.toList.reverse
  match cs.dropWhile (· != ';') with
  | [] => none
  | _ :: before =>
    some (String.ofList before.reverse, String.ofList (cs.takeWhile (· != ';')).reverse)

/-- Edge lengths are thirty-two bit numbers. -/
def pixelLimit : Nat := Nat.pow 2 32 - 1

/-- **The job** that a request describes. -/
def job (r : Request) : Except Failure Job :=
  if r.category ≠ serviceCategory then
    .error (.invalidRequest ("unsupported category `" ++ r.category ++ "`"))
  else
    match r.kind with
    | .roboname => .ok (.name r.detail)
    | .robohash =>
      match cutAtLast r.detail with
      | none => .error (.invalidRequest ("expected `seed;pixels`, got `" ++ r.detail ++ "`"))
      | some (seed, px) =>
        match (Text.number? pixelLimit px).bind Size.ofPixels? with
        | some size => .ok (.image seed size)
        | none => .error (.invalidRequest ("unsupported pixel size `" ++ px ++ "`"))

end Request

end AvatarPool
