import AvatarPool.Failure
import AvatarPool.Json.Decode

/-! # Jobs and their fingerprints

A job asks for one picture or one name.  Its fingerprint is the key under which its result is
cached and under which callers wait together; `Job.fingerprint` loses nothing, so the job can be
read off it again. -/

namespace AvatarPool

/-- The two picture sizes on offer. -/
inductive Size where
  | small
  | large
  deriving DecidableEq, Repr, Inhabited

namespace Size

/-- Edge length in pixels. -/
def pixels : Size → Nat
  | small => 80
  | large => 256

def name : Size → String
  | small => "small"
  | large => "large"

/-- The size of a given edge length, if it is on offer. -/
def ofPixels? : Nat → Option Size
  | 80 => some small
  | 256 => some large
  | _ => none

def ofName? (text : String) : Option Size :=
  if text = "small" then some small
  else if text = "large" then some large
  else none

/-- The sizes by name, as JSON writes them. -/
def variants : Json.Variants Size := ⟨ofName?, ["small", "large"]⟩

/-- Reads a size by name. -/
def parse (text : String) : Except Failure Size :=
  match ofName? text with
  | some size => .ok size
  | none => .error (.invalidRequest ("unknown size `" ++ text ++ "`"))

@[simp] theorem ofPixels?_pixels (s : Size) : ofPixels? s.pixels = some s := by
  cases s <;> rfl

end Size

/-- What a result is stored and awaited under. -/
inductive Fingerprint where
  | image (size : Size) (seed : String)
  | name (seed : String)
  deriving DecidableEq, Repr, Inhabited

/-- The shown form: `size;seed` for a picture and the bare seed for a name.  A picture and a name
may show alike; they are still different fingerprints. -/
def Fingerprint.label : Fingerprint → String
  | .image size seed => size.name ++ ";" ++ seed
  | .name seed => seed

/-- Which fingerprints of a list come for the first time, after those already `seen`. -/
def Fingerprint.firsts (seen : List Fingerprint) : List Fingerprint → List Bool
  | [] => []
  | f :: rest =>
    if seen.contains f then false :: firsts seen rest else true :: firsts (f :: seen) rest

/-- One picture or one name to make. -/
inductive Job where
  | image (seed : String) (size : Size)
  | name (seed : String)
  deriving DecidableEq, Repr, Inhabited

namespace Job

def seed : Job → String
  | image seed _ => seed
  | name seed => seed

def fingerprint : Job → Fingerprint
  | image seed size => .image size seed
  | name seed => .name seed

end Job

/-- A job on its way to a worker, with its fingerprint at hand. -/
structure Task where
  fingerprint : Fingerprint
  job : Job
  deriving DecidableEq, Repr, Inhabited

def Task.ofJob (job : Job) : Task := ⟨job.fingerprint, job⟩

end AvatarPool
