import AvatarPool.Artifact

/-! # Engines

An engine makes pictures and names.  It may refuse a job or break off in the middle of it, and it
may have to start up first. -/

namespace AvatarPool

/-- How one invocation of an engine ends. -/
inductive Ending where
  | image (png : List UInt8)
  | name (text : String)
  | failed (message : String)
  | panicked
  deriving DecidableEq, Repr, Inhabited

/-- What the callers of a task are told when its invocation ends. -/
def Ending.outcome (fingerprint : Fingerprint) : Ending → Outcome
  | image png => .ok (.image (Image.ofPng png))
  | name text => .ok (.name text)
  | failed message => .error (.engine message)
  | panicked => .error (.enginePanicked fingerprint.label)

/-- How an engine's start ends. -/
inductive Startup where
  | ready
  | failed (message : String)
  | panicked
  deriving DecidableEq, Repr, Inhabited

end AvatarPool
