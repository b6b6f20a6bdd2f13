import AvatarPool.Trial.Gate

/-! # Runs of an engine's gate

An engine's start ends after some delay, or never; the watch over it may be bounded; callers wait
for the gate.  They all take turns in any order, on a virtual clock: time passes only when nobody
has anything to do, and never beyond a moment at which somebody will have.  Where the start has
ended at the moment at which the bound elapses, the watch may notice either of them first. -/

namespace AvatarPool

/-- The ticks that a sleep of this span takes. -/
def Span.sleep (s : Span) : Nat := min s.ticks farFuture.ticks

/-- An engine's start that ends: how late, and in what state it leaves the gate. -/
structure EngineStart where
  delay : Nat
  ended : Startup
  outcome : Readiness
  settles : ended.readiness? = some outcome

/-- What a caller has been told who has waited for the gate: when it began to wait and when it was
told, and the state that the gate showed then. -/
structure Told where
  call : Nat
  began : Nat
  heard : Nat
  shown : Readiness
  verdict : Except Failure Unit

/-- A gate over time: the changes of its state with their moments, the moments at which callers
began to wait, and what those have been told who wait no longer. -/
structure Timeline where
  trial : Trial.GateTrial
  changes : List (Nat × Readiness) := []
  begun : List Nat := []
  answers : List Told := []

/-- What one of the parties does in one go. -/
inductive Tick where
  /-- The watch looks at the start and at the clock. -/
  | look
  /-- The watch looks at the clock alone. -/
  | glance
  /-- The engine's start ends. -/
  | finish
  /-- Time passes. -/
  | pass (millis : Nat)
  /-- A caller begins to wait. -/
  | wait
  /-- A caller need not wait any longer. -/
  | hear (call : Nat)
  deriving DecidableEq, Repr

namespace Timeline

/-- The gate of an engine at first. -/
def ofEngine (limit : Option Span) : Timeline := { trial := Trial.GateTrial.ofDrive .engine limit }

variable (course : Option EngineStart) (s : Timeline)

/-- The moment at which the start will end, if it has not ended. -/
def end? : Option Nat := if s.trial.start.isNone then course.map EngineStart.delay else none

/-- Nobody has anything to do: the watch would see nothing new, no caller could be told anything,
and the start does not end now. -/
def AtRest : Prop :=
  s.trial.watch.look s.trial.clock s.trial.start s.trial.gate = (s.trial.watch, s.trial.gate) ∧
    (s.trial.waiting = [] ∨ s.trial.gate.settled?.isNone) ∧ s.end? course ≠ some s.trial.clock

/-- Time may pass for so long: nobody has anything to do, nor will anybody have before then. -/
def MayPass (n : Nat) : Prop :=
  s.AtRest course ∧ (∀ d ∈ s.trial.watch.deadline?, s.trial.clock + n ≤ d) ∧
    ∀ d ∈ s.end? course, s.trial.clock + n ≤ d

instance : Decidable (s.AtRest course) := inferInstanceAs (Decidable (_ ∧ _))

instance (n : Nat) : Decidable (s.MayPass course n) := inferInstanceAs (Decidable (_ ∧ _))

/-- The changes of a state, after a look at `clock` that has found it `before` and left it
`after`. -/
def changed (changes : List (Nat × Readiness)) (clock : Nat) (before after : Readiness) :
    List (Nat × Readiness) :=
  if after = before then changes else changes ++ [(clock, after)]

/-- The watch looks at the clock, and at what it notices of the start. -/
def seen (start : Option Startup) : Timeline :=
  let (watch, gate) := s.trial.watch.look s.trial.clock start s.trial.gate
  { s with
    trial := { s.trial with watch := watch, gate := gate }
    changes := changed s.changes s.trial.clock s.trial.gate.state gate.state }

/-- A caller that waits is told what the gate shows, if it shows anything. -/
def tell (call : Nat) : Option Timeline :=
  match s.begun[call]?, s.trial.gate.settled? with
  | some began, some told =>
    if call ∈ s.trial.waiting then
      some { s with
        trial := { s.trial with waiting := s.trial.waiting.erase call }
        answers := s.answers ++ [⟨call, began, s.trial.clock, s.trial.gate.state, told⟩] }
    else none
  | _, _ => none

/-- **One move**, or none where it cannot be made. -/
def move : Tick → Option Timeline
  | .look => some (s.seen s.trial.start)
  | .glance => some (s.seen none)
  | .finish =>
    match course with
    | some c =>
      if s.end? course = some s.trial.clock then
        some { s with trial := (s.trial.play (.ready c.ended)).1 }
      else none
    | none => none
  | .pass n =>
    if s.MayPass course n then some { s with trial := (s.trial.play (.advance n)).1 } else none
  | .wait =>
    some { s with trial := (s.trial.play .wait).1, begun := s.begun ++ [s.trial.clock] }
  | .hear call => s.tell call

/-- **A run**: moves one after the other. -/
def play (s : Timeline) : List Tick → Option Timeline
  | [] => some s
  | m :: τ => (s.move course m).bind fun t => t.play τ

end Timeline

end AvatarPool
