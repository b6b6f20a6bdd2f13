import AvatarPool.Engine

/-! # The readiness gate

No work is handed out before the engine is ready.  The gate shows one state at a time: an observer
that looks late sees only the last one.  It is driven by hand or by the engine's own start, which
may be bounded: when the bound elapses the gate fails, but the start is still awaited and settles
the gate when it ends. -/

namespace AvatarPool

inductive Readiness where
  /-- The engine is still starting. -/
  | pending
  | ready
  | failed (why : Failure)
  deriving DecidableEq, Repr, Inhabited

/-- The gate as its observer has it: the state shown, whether it has been set since the observer
last looked, and whether it can still be set. -/
structure Gate where
  state : Readiness := .pending
  isNew : Bool := false
  isHeld : Bool := true
  deriving DecidableEq, Repr, Inhabited

namespace Gate

/-- Sets the state. -/
def set (g : Gate) (state : Readiness) : Gate := { g with state := state, isNew := true }

/-- The one who sets the gate goes away. -/
def release (g : Gate) : Gate := { g with isHeld := false }

/-- A gate that has always been open. -/
def opened : Gate := { state := .ready, isHeld := false }

/-- What a caller waiting for the gate is told, if it need not wait any longer. -/
def settled? (g : Gate) : Option (Except Failure Unit) :=
  match g.state with
  | .ready => some (.ok ())
  | .failed why => some (.error why)
  | .pending =>
    if g.isHeld then none
    else some (.error (.channel "Readiness signal dropped before settling"))

end Gate

/-- The state that an engine's start settles the gate to. -/
def Startup.readiness? : Startup → Option Readiness
  | ready => some .ready
  | failed message => some (.failed (.engineNotReady message))
  | panicked => none

/-- How a gate is driven. -/
inductive GateDrive where
  | manual
  /-- It is open from the start. -/
  | opened
  /-- By an engine whose start is held back. -/
  | engine
  /-- By an engine that is ready at once. -/
  | engineReady
  deriving DecidableEq, Repr, Inhabited

/-- The gate as it is at first. -/
def GateDrive.gate : GateDrive → Gate
  | opened => Gate.opened
  | _ => {}

/-- How the engine's start has ended at first, if it has. -/
def GateDrive.start : GateDrive → Option Startup
  | engineReady => some .ready
  | _ => none

/-- The watch over an engine's start. -/
inductive Watch where
  /-- Nobody watches: the gate is driven by hand, or the start has ended. -/
  | closed
  /-- The start is awaited; it is bounded by `limit` from the first look on. -/
  | fresh (limit : Option Span)
  /-- The start is awaited, and the gate fails at `deadline`. -/
  | bounded (limit : Span) (deadline : Nat)
  /-- The start is awaited without a bound. -/
  | unbounded
  deriving DecidableEq, Repr, Inhabited

/-- The watch that drives the gate at first. -/
def GateDrive.watch (limit : Option Span) : GateDrive → Watch
  | manual => .closed
  | opened => .closed
  | engine => .fresh limit
  | engineReady => .fresh limit

namespace Watch

/-- Whether the start is still awaited. -/
def isWaiting : Watch → Bool
  | closed => false
  | _ => true

/-- The next moment at which the watch acts by itself. -/
def deadline? : Watch → Option Nat
  | bounded _ deadline => some deadline
  | _ => none

/-- Looks at the start and the clock once.  A start that has ended settles the gate; one that broke
off releases it unsettled; a bound that has elapsed fails it. -/
def look (w : Watch) (now : Nat) (start : Option Startup) (g : Gate) : Watch × Gate :=
  match w, start with
  | .closed, _ => (.closed, g)
  | _, some ended =>
    match ended.readiness? with
    | some state => (.closed, (g.set state).release)
    | none => (.closed, g.release)
  | .fresh none, none => (.unbounded, g)
  | .fresh (some limit), none =>
    if limit.nanos = 0 then (.unbounded, g.set (.failed (.readinessTimeout limit)))
    else (.bounded limit (limit.sleepFrom now), g)
  | .bounded limit deadline, none =>
    if deadline ≤ now then (.unbounded, g.set (.failed (.readinessTimeout limit)))
    else (.bounded limit deadline, g)
  | .unbounded, none => (.unbounded, g)

end Watch

end AvatarPool
