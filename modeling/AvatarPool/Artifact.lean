import AvatarPool.Base64
import AvatarPool.Job

/-! # What a job yields

A finished picture keeps its PNG bytes together with the data URI handed to callers; a finished
name is just its text. -/

namespace AvatarPool

/-- A picture as PNG bytes, and the URI that embeds it. -/
structure Image where
  png : List UInt8
  dataUri : String
  deriving DecidableEq, Repr, Inhabited

namespace Image

/-- What every data URI of a PNG starts with. -/
def uriHead : String := "data:image/png;base64,"

def ofPng (png : List UInt8) : Image := ⟨png, uriHead ++ Base64.encode png⟩

/-- Takes a picture received as base64 text, keeping the text as it came. -/
def ofBase64 (payload : String) : Except Failure Image :=
  match Base64.decode payload with
  | .ok png => .ok ⟨png, uriHead ++ payload⟩
  | .error e => .error (.protocol ("invalid base64 image payload: " ++ e.message))

/-- The base64 part of the data URI. -/
def base64 (image : Image) : String :=
  String.ofList (image.dataUri.toList.drop uriHead.length)

end Image

/-- A finished result, fit for the cache. -/
inductive Artifact where
  | image (image : Image)
  | name (text : String)
  deriving DecidableEq, Repr, Inhabited

namespace Artifact

/-- What callers are shown: the data URI of a picture, or the name. -/
def display : Artifact → String
  | image i => i.dataUri
  | name text => text

/-- What a bridge response carries: the base64 text of a picture, or the name. -/
def payload : Artifact → String
  | image i => i.base64
  | name text => text

end Artifact

/-- How a request ends. -/
abbrev Outcome := Except Failure Artifact

instance : DecidableEq Outcome
  | .ok a, .ok b => if h : a = b then .isTrue (by rw [h]) else .isFalse (by simpa using h)
  | .error a, .error b => if h : a = b then .isTrue (by rw [h]) else .isFalse (by simpa using h)
  | .ok _, .error _ => .isFalse (by simp)
  | .error _, .ok _ => .isFalse (by simp)

end AvatarPool
