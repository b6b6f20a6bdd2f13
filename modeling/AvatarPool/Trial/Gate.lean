import AvatarPool.Gate

/-! # Trials of the readiness gate

A trial plays steps against one gate, driven by hand or by an engine whose start is held back, and
shows after each step the state and the callers that need not wait any longer.  The clock moves only
by steps of its own. -/

namespace AvatarPool.Trial

inductive GateStep where
  | look
  | wait
  | set (state : Readiness)
  | drop
  /-- The engine's start ends. -/
  | ready (ended : Startup)
  | advance (millis : Nat)

inductive GateResult where
  | nothing
  | call (n : Nat)
  | truth (b : Bool)

structure GateTrial where
  gate : Gate
  watch : Watch
  start : Option Startup
  clock : Nat := 0
  calls : Nat := 0
  waiting : List Nat := []

namespace GateTrial

def ofDrive (drive : GateDrive) (limit : Option Span) : GateTrial :=
  { gate := drive.gate, watch := drive.watch limit, start := drive.start }

/-- Plays one step. -/
def play (t : GateTrial) : GateStep → GateTrial × GateResult
  | .look => (t, .nothing)
  | .wait => ({ t with calls := t.calls + 1, waiting := t.waiting ++ [t.calls] }, .call t.calls)
  | .set state => (if t.gate.isHeld then { t with gate := t.gate.set state } else t, .nothing)
  | .drop => ({ t with gate := t.gate.release }, .nothing)
  | .ready ended =>
    if t.watch.isWaiting then ({ t with start := some ended }, .truth true)
    else (t, .truth false)
  | .advance millis => ({ t with clock := t.clock + millis }, .nothing)

/-- Lets the watch act, and takes out the callers that need not wait any longer with what each is
told. -/
def settle (t : GateTrial) : GateTrial × List (Nat × Except Failure Unit) :=
  let (watch, gate) := t.watch.look t.clock t.start t.gate
  let t := { t with watch := watch, gate := gate }
  match gate.settled? with
  | none => (t, [])
  | some told => ({ t with waiting := [] }, t.waiting.map fun n => (n, told))

end GateTrial

end AvatarPool.Trial
