import AvatarPool.Identicon.Engine

/-! # Engines of a session

A session runs on the built-in engine or on a scripted one.  A scripted engine either ends an
invocation at once, by the next act of its script, or holds it until it is released. -/

namespace AvatarPool.Session

/-- How a scripted invocation, or a scripted start, ends. -/
inductive Act where
  /-- As usual: a name or bytes that spell the job. -/
  | usual
  /-- With the given name, or the text as bytes. -/
  | text (t : String)
  | fail (message : String)
  | panic
  deriving DecidableEq, Repr

/-- The bytes or the name of a successful invocation. -/
def yield (job : Job) (text : String) : Ending :=
  match job with
  | .image _ _ => .image (Text.utf8 text)
  | .name _ => .name text

/-- What an invocation yields as usual. -/
def usualText : Job → String
  | .image seed size => seed ++ "@" ++ toString size.pixels
  | .name seed => "Robot " ++ seed

def Act.ending (a : Act) (job : Job) : Ending :=
  match a with
  | usual => yield job (usualText job)
  | text t => yield job t
  | fail message => .failed message
  | panic => .panicked

def Act.startup : Act → Startup
  | usual => .ready
  | text _ => .ready
  | fail message => .failed message
  | panic => .panicked

/-- The name of an invocation in scripts. -/
def key : Job → String
  | .image seed size => size.name ++ ";" ++ seed
  | .name seed => "name;" ++ seed

inductive Engine where
  | builtIn
  /-- Holds invocations, or plays the acts noted for their keys, the oldest first. -/
  | scripted (holds : Bool) (acts : List (String × Act))
  deriving DecidableEq, Repr

namespace Engine

/-- Notes a further act for a key. -/
def script (e : Engine) (k : String) (a : Act) : Engine :=
  match e with
  | builtIn => builtIn
  | scripted holds acts => scripted holds (acts ++ [(k, a)])

/-- Begins an invocation: how it ends, if it ends at once. -/
def begin (e : Engine) (job : Job) : Engine × Option Ending :=
  match e with
  | builtIn => (e, some (Identicon.serve job))
  | scripted true _ => (e, none)
  | scripted false acts =>
    match acts.find? fun a => a.1 == key job with
    | some a => (scripted false (acts.erase a), some (a.2.ending job))
    | none => (e, some (Act.usual.ending job))

end Engine

end AvatarPool.Session
