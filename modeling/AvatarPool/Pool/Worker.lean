import AvatarPool.Engine

/-! # Workers

A worker runs one invocation of the engine at a time.  Messages reach it through a box with room for
one.  Each task it takes is reported exactly once, whatever becomes of the invocation; the first
stop message ends the worker after everything before it. -/

namespace AvatarPool

/-- What a worker can be told. -/
inductive Work where
  | render (task : Task)
  | stop
  deriving DecidableEq, Repr

/-- What a worker is doing. -/
inductive Activity where
  /-- It waits for a message. -/
  | waiting
  | rendering (task : Task)
  /-- It has taken the stop message and acknowledged it. -/
  | gone
  deriving DecidableEq, Repr

/-- The report of an invocation that ended. -/
structure WorkReport where
  worker : Nat
  fingerprint : Fingerprint
  outcome : Outcome
  deriving DecidableEq, Repr

/-- A worker and its message box. -/
structure Worker where
  inbox : Option Work := none
  activity : Activity := .waiting
  deriving DecidableEq, Repr

namespace Worker

/-- Whether messages can still reach the worker. -/
def isOpen (w : Worker) : Bool := w.activity != .gone

/-- Takes the next message: a task to render, or the end. -/
def take (w : Worker) : Option Worker :=
  match w.activity, w.inbox with
  | .waiting, some (.render task) => some { inbox := none, activity := .rendering task }
  | .waiting, some .stop => some { inbox := none, activity := .gone }
  | _, _ => none

/-- The invocation ends: the worker waits again, and reports as worker number `index`. -/
def finish (w : Worker) (index : Nat) (ending : Ending) : Option (Worker × WorkReport) :=
  match w.activity with
  | .rendering task =>
    some ({ w with activity := .waiting },
      ⟨index, task.fingerprint, ending.outcome task.fingerprint⟩)
  | _ => none

end Worker

end AvatarPool
