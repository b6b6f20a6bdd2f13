import AvatarPool.Pending

/-! # The waiting room

A table of waiting callers with the far ends of its callers.  Callers are numbered as they come.  A
caller can be sent one value; where nobody listens any longer, the value is lost and nothing else
changes. -/

namespace AvatarPool

/-- The far end of a waiting caller. -/
inductive Listener (ν : Type) where
  | waiting
  /-- A value has arrived and is not looked at yet. -/
  | arrived (value : ν)
  /-- Nobody listens any longer. -/
  | gone
  deriving DecidableEq, Repr, Inhabited

/-- A value is sent: it arrives where somebody waits for it. -/
def Listener.receive {ν : Type} : Listener ν → ν → Listener ν
  | waiting, value => arrived value
  | other, _ => other

/-- A value goes to the far end of the caller with this number. -/
def deliver {ν : Type} (listeners : List (Listener ν)) (s : Nat × ν) : List (Listener ν) :=
  listeners.modify s.1 fun l => l.receive s.2

/-- **What is sent to callers who get the same value**, and in which order: every caller but the
last gets a copy, and the last one gets the value itself. -/
def fanOut {ω ν : Type} (callers : List ω) (value : ν) : List (ω × ν) :=
  match callers.getLast? with
  | none => []
  | some last => (callers.dropLast.map fun w => (w, value)) ++ [(last, value)]

/-- What is sent when several entries are closed, each with the value for its key. -/
def fanOutAll {κ ω ν : Type} (entries : List (κ × List ω)) (value : κ → ν) : List (ω × ν) :=
  entries.flatMap fun e => fanOut e.2 (value e.1)

structure WaitingRoom (κ ν : Type) where
  table : Pending κ Nat := {}
  /-- The far ends of all callers that ever came, by number. -/
  listeners : List (Listener ν) := []
  /-- All that was ever sent, and to whom. -/
  sent : List (Nat × ν) := []
  deriving Repr, Inhabited

namespace WaitingRoom

/-- What can happen in a waiting room. -/
inductive Step (κ ν : Type) where
  | join (key : κ)
  /-- A caller stops listening. -/
  | forget (caller : Nat)
  | resolve (key : κ) (value : ν)
  /-- Every entry is closed, and its callers get the value for its key. -/
  | drain (value : κ → ν)

/-- What a step shows. -/
inductive Result (κ : Type) where
  | admission (a : Admission)
  | nothing
  /-- So many callers have been removed. -/
  | count (n : Nat)
  /-- The entries closed, with the number of callers of each. -/
  | counts (entries : List (κ × Nat))
  deriving DecidableEq, Repr

variable {κ ν : Type} [DecidableEq κ]

/-- Sends values to callers. -/
def send (r : WaitingRoom κ ν) (values : List (Nat × ν)) : WaitingRoom κ ν :=
  { r with
    listeners := values.foldl deliver r.listeners
    sent := r.sent ++ values }

/-- **One step**, and what it shows. -/
def step (r : WaitingRoom κ ν) : Step κ ν → WaitingRoom κ ν × Result κ
  | .join key =>
    let (table, admission) := r.table.enter key r.listeners.length
    ({ r with table := table, listeners := r.listeners ++ [.waiting] }, .admission admission)
  | .forget caller => ({ r with listeners := r.listeners.set caller .gone }, .nothing)
  | .resolve key value =>
    let (table, callers) := r.table.close key
    ({ r with table := table }.send (fanOut callers value), .count callers.length)
  | .drain value =>
    let (table, entries) := r.table.closeAll
    ({ r with table := table }.send (fanOutAll entries value),
      .counts (entries.map fun e => (e.1, e.2.length)))

end WaitingRoom

end AvatarPool
