import AvatarPool.Session.Hosts
import AvatarPool.Session.Links

/-! # Turns

What the participants of a session apart from its hosts and bridges do when their turns come, and
how turns follow one another: in rounds, at whose ends those go on who had more to do than fits in a
turn. -/

namespace AvatarPool.Session

/-! # The service and its workers -/

/-- The turn of the dispatcher. -/
def runDispatcher (s : Session) : Session := s.setService (s.service.turn turnBudget)

/-- Worker `k` reports an invocation that has ended. -/
def report (s : Session) (k : Nat) (ending : Ending) : Session :=
  match s.service.workerFinishes k ending with
  | some service => s.setService service
  | none => s

/-- Worker `k` begins an invocation.  Those that run already are held, or released and not yet
reported. -/
def invoke (s : Session) (k : Nat) (job : Job) : Session :=
  let (engine, ending) := s.engine.begin job
  let s := { s with
    engine := engine
    started := s.started ++ [key job]
    invocations := s.invocations + 1
    mostRunning := max s.mostRunning (s.held.length + s.released.length + 1) }
  match ending with
  | some ending => s.report k ending
  | none => { s with held := s.held ++ [⟨job, k⟩] }

/-- Worker `k` takes its next message. -/
def takeWork (s : Session) (k : Nat) : Session :=
  match s.service.workerTakes k with
  | none => s
  | some service =>
    let s := s.setService service
    match (service.core.pool.bind fun p => p.worker? k).map Worker.activity with
    | some (.rendering task) => s.invoke k task.job
    | _ => s

/-- The turn of worker `k`: it reports a released invocation and takes its next message. -/
def runWorker (s : Session) (k : Nat) : Session :=
  match s.released.lookup k with
  | some ending =>
    let released := s.released.filter fun r => r.1 ≠ k
    ({ s with released := released }.report k ending).takeWork k
  | none => s.takeWork k

/-- The watch over the engine's start looks at it and at the clock. -/
def runWatch (s : Session) : Session :=
  let (watch, gate) := s.watch.look s.service.clock s.start s.service.gate
  { s with watch := watch }.setGate gate

/-! # Callers -/

/-- The turn of a call: it ends if its answer has arrived or its caller has gone away, and gives its
handle back. -/
def runCall (s : Session) (n : Nat) : Session :=
  match s.calls[n]? with
  | some c =>
    if c.waiting && (c.abandoned || c.arrived.isSome) then
      let s := s.endCall n c.arrived
      if c.holds then s.unshare else s
    else s
  | none => s

/-! # Rounds -/

/-- Runs one turn. -/
def run (s : Session) : Turn → Session
  | .dispatcher => s.runDispatcher
  | .worker k => s.runWorker k
  | .call n => s.runCall n
  | .handler h => s.runHandler h
  | .host i => s.runHost i
  | .lines i => s.runLines i
  | .writer i => s.runWriter i
  | .listener b => s.runListener b
  | .watch => s.runWatch

/-- Runs turns until the agenda is empty, at most so many. -/
def runTurns : Nat → Session → Session
  | 0, s => s
  | limit + 1, s =>
    match s.agenda with
    | [] => s
    | t :: rest => runTurns limit ({ s with agenda := rest }.run t)

/-- Turns in a round. -/
def roundLength : Nat := 61

/-- Runs rounds until nobody wants a turn, at most so many. -/
def runRounds : Nat → Session → Session
  | 0, s => s
  | limit + 1, s =>
    let s := (runTurns roundLength s).resume
    if s.agenda.isEmpty then s else runRounds limit s

/-- More rounds than any session needs before it rests again. -/
def roundLimit : Nat := 1000000

/-- **Runs to rest**: everything that needs no more time happens. -/
def settle (s : Session) : Session := runRounds roundLimit s

end AvatarPool.Session
