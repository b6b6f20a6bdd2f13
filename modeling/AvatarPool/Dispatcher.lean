import AvatarPool.Cache
import AvatarPool.Settings
import AvatarPool.Event
import AvatarPool.Gate
import AvatarPool.Pending
import AvatarPool.Pool.Slots
import AvatarPool.Stats

/-! # The dispatcher

One owner of the cache, the waiting callers, the backlog and the pool.  A request is answered from
the cache, joins work under way, or opens new work; opened tasks wait in a strict first-in first-out
queue for an idle worker.  Successes are cached forever and failures never.  Every handler is a pure
function of the state; what it does to the world outside is written down, in order, as `Effect`s.
The type `ω` names the callers. -/

namespace AvatarPool

/-- What a handler does beyond the dispatcher's own state, and what becomes of each task. -/
inductive Effect (ω : Type) where
  /-- A caller gets its answer. -/
  | answered (caller : ω) (outcome : Outcome)
  /-- A task is put at the end of the queue. -/
  | queued (task : Task)
  /-- A task is taken off the queue and handed to a worker. -/
  | handed (worker : Nat) (task : Task)
  /-- A task is taken off the queue and rejected. -/
  | dropped (task : Task) (why : Failure)
  | published (event : Event)
  /-- The pool's workers start. -/
  | started (size : Nat)
  deriving DecidableEq, Repr

/-- The dispatcher's state, and the effects since they were last collected. -/
structure Dispatcher (ω : Type) where
  /-- Workers to create once the gate opens. -/
  poolSize : Nat
  cache : Cache Fingerprint Artifact := {}
  pending : Pending Fingerprint ω := {}
  queue : List Task := []
  pool : Option Pool := none
  readiness : Readiness := .pending
  stats : Stats := {}
  effects : List (Effect ω) := []

namespace Dispatcher

variable {ω : Type}

/-- Writes down effects. -/
def note (d : Dispatcher ω) (es : List (Effect ω)) : Dispatcher ω :=
  { d with effects := d.effects ++ es }

/-- Closes the entry of a fingerprint and answers all its callers alike. -/
def answerAll (d : Dispatcher ω) (key : Fingerprint) (outcome : Outcome) : Dispatcher ω :=
  let (pending, callers) := d.pending.close key
  { d with pending := pending }.note (callers.map fun w => .answered w outcome)

/-- Hands a task to a worker.  A task that cannot be handed over fails for all its callers. -/
def hand (d : Dispatcher ω) (pool : Pool) (k : Nat) (task : Task) : Dispatcher ω :=
  match pool.give k task with
  | .ok pool =>
    { d with
      pool := some pool
      stats := { d.stats with dispatched := d.stats.dispatched + 1 } }.note [.handed k task]
  | .error why =>
    ({ d with stats := { d.stats with failed := d.stats.failed + 1 } }.note
      [.dropped task why]).answerAll task.fingerprint (.error why)

/-- Hands tasks to idle workers, the oldest first, as long as both last; the rest stays queued. -/
def handOutFrom (d : Dispatcher ω) : List Task → Dispatcher ω
  | [] => { d with queue := [] }
  | task :: rest =>
    match d.pool with
    | none => { d with queue := task :: rest }
    | some pool =>
      match pool.idle? with
      | none => { d with queue := task :: rest }
      | some k => (d.hand pool k task).handOutFrom rest

/-- Hands out what can be handed out, provided the gate is open. -/
def handOut (d : Dispatcher ω) : Dispatcher ω :=
  if d.readiness = .ready then d.handOutFrom d.queue else d

/-- Takes one request: from the cache, refused by a failed gate, joined to work under way, or
opened. -/
def accept (d : Dispatcher ω) (job : Job) (caller : ω) : Dispatcher ω :=
  let d := { d with stats := { d.stats with requests := d.stats.requests + 1 } }
  match d.cache.get? job.fingerprint with
  | some artifact =>
    { d with stats := { d.stats with cacheHits := d.stats.cacheHits + 1 } }.note
      [.answered caller (.ok artifact)]
  | none =>
    match d.readiness with
    | .failed why => d.note [.answered caller (.error why)]
    | _ =>
      match d.pending.enter job.fingerprint caller with
      | (pending, .joined) =>
        { d with
          pending := pending
          stats := { d.stats with coalesced := d.stats.coalesced + 1 } }
      | (pending, .opened) =>
        let task := Task.ofJob job
        ({ d with pending := pending, queue := d.queue ++ [task] }.note [.queued task]).handOut

/-- The worker of a report is idle again. -/
def releaseWorker (d : Dispatcher ω) (k : Nat) : Dispatcher ω :=
  { d with pool := d.pool.map fun p => p.free k }

/-- Keeps a result. -/
def keep (d : Dispatcher ω) (key : Fingerprint) (artifact : Artifact) : Dispatcher ω :=
  let (cache, _) := d.cache.insert key artifact
  { d with
    cache := cache
    stats := { d.stats with cacheEntries := UInt64.ofNat cache.size } }

/-- Counts a failure. -/
def countFailure (d : Dispatcher ω) : Dispatcher ω :=
  { d with stats := { d.stats with failed := d.stats.failed + 1 } }

/-- Takes a worker's report: the worker is idle again, a success is cached, the callers are
answered, and the queue moves on. -/
def takeReport (d : Dispatcher ω) (c : WorkReport) : Dispatcher ω :=
  let d := d.releaseWorker c.worker
  let d :=
    match c.outcome with
    | .ok artifact => d.keep c.fingerprint artifact
    | .error _ => d.countFailure
  (d.answerAll c.fingerprint c.outcome).handOut

/-- Rejects every queued task, the oldest first. -/
def rejectQueue (d : Dispatcher ω) (why : Failure) : Dispatcher ω :=
  let reject (d : Dispatcher ω) (task : Task) : Dispatcher ω :=
    (d.note [.dropped task why]).answerAll task.fingerprint (.error why)
  { d.queue.foldl reject d with queue := [] }

/-- Creates the workers, unless they exist.  A pool without workers could never empty the queue. -/
def openPool (d : Dispatcher ω) : Dispatcher ω :=
  match d.pool with
  | some _ => d
  | none =>
    let size := max 1 d.poolSize
    { d with pool := some (Pool.ofSize size) }.note [.started size, .published .engineReady]

/-- Takes a state of the gate: an open gate starts the pool and moves the queue on, a failed one
rejects what is queued. -/
def observe (d : Dispatcher ω) (state : Readiness) : Dispatcher ω :=
  match state with
  | .pending => { d with readiness := .pending }
  | .ready => ({ d with readiness := .ready }.openPool).handOut
  | .failed why =>
    { (d.note [.published (.readinessFailed why.message)]).rejectQueue why with
      readiness := .failed why }

/-- The number of tasks handed out and not yet reported. -/
def running (d : Dispatcher ω) : Nat :=
  match d.pool with
  | none => 0
  | some pool => pool.busyCount

/-- The answers of closed entries, all alike. -/
def answers (outcome : Outcome) (entries : List (Fingerprint × List ω)) : List (Effect ω) :=
  entries.flatMap fun e => e.2.map fun w => .answered w outcome

/-- Answers every caller still waiting. -/
def rejectPending (d : Dispatcher ω) (why : Failure) : Dispatcher ω :=
  let (pending, entries) := d.pending.closeAll
  { d with pending := pending }.note (answers (.error why) entries)

end Dispatcher

end AvatarPool
