import AvatarPool.WaitingRoom

/-! # Trials of the table of waiting callers

A trial plays steps in one waiting room whose keys are texts.  Each caller shows a value once,
unless it has stopped listening. -/

namespace AvatarPool.Trial

/-- What a caller of the table shows. -/
abbrev Waiting (ν : Type) := Listener ν

inductive PendingStep (ν : Type) where
  | join (key : String)
  /-- A caller stops listening. -/
  | forget (caller : Nat)
  | resolve (key : String) (value : ν)
  | drain (value : ν)

/-- The step in the waiting room. -/
def PendingStep.inRoom {ν : Type} : PendingStep ν → WaitingRoom.Step String ν
  | join key => .join key
  | forget caller => .forget caller
  | resolve key value => .resolve key value
  | drain value => .drain fun _ => value

abbrev PendingResult := WaitingRoom.Result String

/-- The entries closed are shown by key. -/
def PendingResult.sorted : PendingResult → PendingResult
  | .counts entries => .counts (entries.mergeSort fun a b => decide (a.1 ≤ b.1))
  | result => result

abbrev PendingTrial (ν : Type) := WaitingRoom String ν

namespace PendingTrial

variable {ν : Type}

/-- Plays one step. -/
def play (t : PendingTrial ν) (s : PendingStep ν) : PendingTrial ν × PendingResult :=
  let (t, result) := t.step s.inRoom
  (t, PendingResult.sorted result)

/-- What the callers show; a value is shown once. -/
def look (t : PendingTrial ν) : PendingTrial ν × List (Waiting ν) :=
  let passed (l : Listener ν) : Listener ν :=
    match l with
    | .arrived _ => .gone
    | other => other
  ({ t with listeners := t.listeners.map passed }, t.listeners)

end PendingTrial

end AvatarPool.Trial
