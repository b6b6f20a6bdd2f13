import AvatarPool.Dispatcher

/-! # The service around the dispatcher

Callers reach the dispatcher by commands, workers by reports and the engine by the gate.  The
control loop takes one input at a time: reports first, so that a freed worker is used before new
work is admitted, then the gate, then commands, and last the deadline of a stop.

A stop begins with a stop command, or when nobody is left to send one.  Queued tasks are rejected;
running ones have a grace period; then every caller left is rejected, the workers are told to stop
and given another such period to acknowledge, and whatever commands came in meanwhile are
answered.

The loop works in turns of a limited number of inputs, so that callers and workers get theirs.
Between turns it rests, and listens for what it has looked for in vain; what it does not listen for
waits until something else rouses it. -/

namespace AvatarPool

/-- What callers can ask of the service. -/
inductive Command (ω : Type) where
  | request (job : Job) (caller : ω)
  | stop (caller : ω)
  deriving DecidableEq, Repr

namespace Command

variable {ω : Type}

/-- The request that a command makes. -/
def request? : Command ω → Option (Job × ω)
  | request job caller => some (job, caller)
  | stop _ => none

/-- The caller who asks for a stop. -/
def stopper? : Command ω → Option ω
  | request _ _ => none
  | stop caller => some caller

end Command

/-- Where the control loop stands. -/
inductive Phase where
  /-- It has not looked at the gate yet. -/
  | starting
  | serving
  /-- It stops, and waits for running tasks until `deadline`. -/
  | grace (deadline : Nat)
  /-- It tells the workers to stop, and `next` is the next one to tell. -/
  | dismissing (next : Nat)
  /-- It waits for the workers' acknowledgements, until `deadline` if there is one. -/
  | farewell (deadline : Option Nat)
  | ended
  deriving DecidableEq, Repr

/-- What the control loop can listen for while it rests. -/
inductive Alert where
  | reports
  | gate
  | commands
  /-- Room in the message box of a worker. -/
  | room (worker : Nat)
  /-- The acknowledgement of a worker. -/
  | farewell
  deriving DecidableEq, Repr

/-- What the service does to the world outside. -/
inductive Output (ω : Type) where
  | effect (e : Effect ω)
  /-- A stop that a caller asked for is complete. -/
  | stopped (caller : ω)
  /-- A worker that waits for a message finds the stop message in its box. -/
  | dismissed (worker : Nat)
  /-- The service had ended before a caller asked it to stop. -/
  | stopRefused (caller : ω)
  /-- The control loop rests no longer. -/
  | roused
  /-- The control loop has more to do than fits in its turn. -/
  | postponed
  deriving DecidableEq, Repr

structure Service (ω : Type) where
  /-- Grace period for running tasks, and again for the workers. -/
  timeout : Span
  clock : Nat := 0
  gate : Gate
  /-- Whether the gate is still watched. -/
  gateLive : Bool := true
  /-- Handles through which commands can be sent. -/
  handles : Nat := 1
  commands : List (Command ω) := []
  reports : List WorkReport := []
  phase : Phase := .starting
  /-- What the control loop listens for. -/
  alerts : List Alert := []
  /-- Callers to be told when the stop is complete, in the order they asked. -/
  stoppers : List ω := []
  core : Dispatcher ω
  outputs : List (Output ω) := []

namespace Service

variable {ω : Type}

/-- A fresh service. -/
def ofConfig (config : PoolSettings) (gate : Gate) : Service ω :=
  { timeout := config.shutdownTimeout, gate := gate, core := { poolSize := config.poolSize } }

/-- Writes down outputs. -/
def emit (s : Service ω) (os : List (Output ω)) : Service ω := { s with outputs := s.outputs ++ os }

/-- Moves the dispatcher's effects to the outputs. -/
def collect (s : Service ω) : Service ω :=
  { s with
    outputs := s.outputs ++ s.core.effects.map .effect
    core := { s.core with effects := [] } }

/-- Runs a handler of the dispatcher. -/
def withCore (s : Service ω) (f : Dispatcher ω → Dispatcher ω) : Service ω :=
  { s with core := f s.core }.collect

/-- Whether the control loop has ended. -/
def hasEnded (s : Service ω) : Bool := s.phase == .ended

/-! # Alerts -/

/-- The loop listens for these things too. -/
def listen (s : Service ω) (alerts : List Alert) : Service ω :=
  { s with alerts := alerts.foldr List.insert s.alerts }

/-- Something happens: if the loop listens for it, it is roused, and listens for it no longer. -/
def rouse (s : Service ω) (a : Alert) : Service ω :=
  if s.alerts.contains a then { s with alerts := s.alerts.erase a }.emit [.roused] else s

/-! # What callers and workers do -/

/-- Puts a command at the end of those that wait. -/
def post (s : Service ω) (c : Command ω) : Service ω :=
  { s with commands := s.commands ++ [c] }.rouse .commands

/-- Sends a request; a service that has ended refuses it. -/
def request (s : Service ω) (job : Job) (caller : ω) : Service ω :=
  if s.hasEnded then s.emit [.effect (.answered caller (.error .shuttingDown))]
  else s.post (.request job caller)

/-- Asks the service to stop. -/
def stop (s : Service ω) (caller : ω) : Service ω :=
  if s.hasEnded then s.emit [.stopRefused caller] else s.post (.stop caller)

/-- One more handle. -/
def share (s : Service ω) : Service ω := { s with handles := s.handles + 1 }

/-- A handle goes away; the last one is missed by who listens for commands. -/
def unshare (s : Service ω) : Service ω :=
  let s := { s with handles := s.handles - 1 }
  if s.handles = 0 then s.rouse .commands else s

/-- The gate changes. -/
def setGate (s : Service ω) (gate : Gate) : Service ω :=
  if gate = s.gate then s else { s with gate := gate }.rouse .gate

/-- Changes the workers of the pool. -/
def withPool (s : Service ω) (pool : Pool) : Service ω :=
  { s with core := { s.core with pool := some pool } }

/-- Worker `k` takes its next message, which leaves room in its box. -/
def workerTakes (s : Service ω) (k : Nat) : Option (Service ω) := do
  let pool ← s.core.pool
  let w ← pool.worker? k
  let w ← w.take
  let s := (s.withPool (pool.setWorker k w)).rouse (.room k)
  some (if w.isOpen then s else s.rouse .farewell)

/-- The invocation of worker `k` ends.  Its report is lost if the control loop has ended. -/
def workerFinishes (s : Service ω) (k : Nat) (ending : Ending) : Option (Service ω) := do
  let pool ← s.core.pool
  let w ← pool.worker? k
  let (w, c) ← w.finish k ending
  let s := s.withPool (pool.setWorker k w)
  some (if s.hasEnded then s else { s with reports := s.reports ++ [c] }.rouse .reports)

/-! # The control loop -/

/-- Begins to stop: queued tasks are rejected and the grace period runs. -/
def beginStop (s : Service ω) : Service ω :=
  { s with phase := .grace (s.timeout.deadlineFrom s.clock) }.withCore
    fun d => d.rejectQueue .shuttingDown

/-- Takes the last state of the gate. -/
def takeGate (s : Service ω) : Service ω :=
  { s with gate := { s.gate with isNew := false } }.withCore
    fun d => d.observe s.gate.state

/-- Takes the next report, if there is one. -/
def nextReport (s : Service ω) : Option (Service ω) :=
  match s.reports with
  | [] => none
  | c :: rest => some ({ s with reports := rest }.withCore fun d => d.takeReport c)

/-- Takes a change of the gate, if there is one, or notices that there will be none. -/
def watchGate (s : Service ω) : Option (Service ω) :=
  if !s.gateLive then none
  else if s.gate.isNew then some s.takeGate
  else if s.gate.isHeld then none
  else some { s with gateLive := false }

/-- Takes the next command, if there is one, or stops when nobody can send one. -/
def takeCommand (s : Service ω) : Option (Service ω) :=
  match s.commands with
  | .request job caller :: rest =>
    some ({ s with commands := rest }.withCore fun d => d.accept job caller)
  | .stop caller :: rest =>
    some { s with commands := rest, stoppers := s.stoppers ++ [caller] }.beginStop
  | [] => if s.handles = 0 then some s.beginStop else none

/-- Leaves the loop: every caller still waiting is rejected. -/
def leave (s : Service ω) : Service ω :=
  { s with phase := .dismissing 0 }.withCore fun d => d.rejectPending .shuttingDown

/-- Ends: commands that came too late are answered, and those who asked for the stop are told. -/
def finish (s : Service ω) : Service ω :=
  let late := (s.commands.filterMap Command.request?).map fun r =>
    Output.effect (.answered r.2 (.error .shuttingDown))
  let stoppers := s.stoppers ++ s.commands.filterMap Command.stopper?
  { s with commands := [], stoppers := [], reports := [], alerts := [], phase := .ended }.emit
    (late ++ stoppers.map Output.stopped)

/-- Tells worker `k` to stop.  The message waits for room in a full box; a worker that is gone is
passed over; after the last one the acknowledgements are awaited. -/
def dismiss (s : Service ω) (k : Nat) : Option (Service ω) :=
  match s.core.pool with
  | none => some s.finish
  | some pool =>
    match pool.worker? k with
    | none => some { s with phase := .farewell (s.timeout.limitFrom? s.clock) }
    | some w =>
      if !w.isOpen then some { s with phase := .dismissing (k + 1) }
      else
        match w.inbox with
        | some _ => none
        | none =>
          let s := s.withPool (pool.setWorker k { w with inbox := some .stop })
          let s := { s with phase := .dismissing (k + 1) }
          some (if w.activity = .waiting then s.emit [.dismissed k] else s)

/-- Whether every worker has acknowledged the stop. -/
def allGone (s : Service ω) : Bool :=
  match s.core.pool with
  | none => true
  | some pool => pool.slots.all fun slot => slot.worker.activity == .gone

/-- Whether a deadline, if there is one, has come. -/
def isPast (s : Service ω) (deadline : Option Nat) : Bool := deadline.any fun d => d ≤ s.clock

/-- What an input leaves of the alerts: the gate is looked at anew after each, so the loop no longer
listens for it; and it listens for reports if it has looked for one in vain. -/
def afterInput (s : Service ω) (isReport : Bool) : Service ω :=
  let s := { s with alerts := s.alerts.erase .gate }
  if isReport then s else s.listen [.reports]

/-- **One step of the control loop**, or none if it has to wait. -/
def step (s : Service ω) : Option (Service ω) :=
  match s.phase with
  | .starting => some { s.takeGate with phase := .serving }
  | .serving =>
    s.nextReport.map (afterInput · true) <|>
      (s.watchGate <|> s.takeCommand).map (afterInput · false)
  | .grace deadline =>
    if s.core.running = 0 then some s.leave
    else
      s.nextReport.map (afterInput · true) <|>
        (s.watchGate <|> if s.isPast (some deadline) then some s.leave else none).map
          (afterInput · false)
  | .dismissing k => s.dismiss k
  | .farewell deadline => if s.allGone || s.isPast deadline then some s.finish else none
  | .ended => none

/-! # Turns -/

/-- Whether the next step is taken without an input. -/
def isFree (s : Service ω) : Bool :=
  match s.phase with
  | .starting => true
  | .grace _ => s.core.running == 0
  | .dismissing k => (s.core.pool.bind fun p => p.worker? k).isNone
  | _ => false

/-- Takes the next step if it needs no input. -/
def moveOn (s : Service ω) : Service ω := if s.isFree then s.step.getD s else s

/-- The loop rests, and listens for what it waits for. -/
def rest (s : Service ω) : Service ω :=
  let gate : List Alert := if s.gateLive then [.gate] else []
  match s.phase with
  | .serving => s.listen (.reports :: .commands :: gate)
  | .grace _ => s.listen (.reports :: gate)
  | .dismissing k => s.listen [.room k]
  | .farewell _ => s.listen [.farewell]
  | _ => s

/-- **A turn of the control loop**: steps until it has to wait or its inputs are used up.  Of steps
without an input at most two follow one another. -/
def turn : Nat → Service ω → Service ω
  | 0, s =>
    let s := s.moveOn.moveOn
    if s.hasEnded then s else s.emit [.postponed]
  | inputs + 1, s =>
    let s := s.moveOn.moveOn
    match s.step with
    | none => s.rest
    | some s => s.turn inputs

end Service

end AvatarPool
