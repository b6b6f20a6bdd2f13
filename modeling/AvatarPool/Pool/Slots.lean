import AvatarPool.Pool.Worker

/-! # The pool

The pool keeps, beside every worker, the task it was handed and has not reported yet; a worker
without one is idle.  Handing a task to a worker can fail, if its box is full or it is gone; the
task then comes back with the failure. -/

namespace AvatarPool

/-- A worker with the task the pool has it down for. -/
structure Slot where
  held : Option Task := none
  worker : Worker := {}
  deriving DecidableEq, Repr

/-- The workers of a pool, by number. -/
structure Pool where
  slots : List Slot
  deriving DecidableEq, Repr

namespace Pool

/-- A pool of so many fresh workers. -/
def ofSize (size : Nat) : Pool := ⟨List.replicate size {}⟩

/-- The tasks handed out and not yet reported. -/
def held (p : Pool) : List Task := p.slots.filterMap Slot.held

/-- The number of busy workers. -/
def busyCount (p : Pool) : Nat := p.slots.countP fun s => s.held.isSome

/-- The first idle worker. -/
def idle? (p : Pool) : Option Nat := p.slots.findIdx? fun s => s.held.isNone

/-- Hands a task to a worker. -/
def give (p : Pool) (k : Nat) (task : Task) : Except Failure Pool :=
  match p.slots[k]? with
  | none => .error (.channel ("Worker " ++ toString k ++ " channel closed"))
  | some s =>
    if s.worker.isOpen then
      match s.worker.inbox with
      | none =>
        let worker := { s.worker with inbox := some (.render task) }
        .ok ⟨p.slots.set k { held := some task, worker := worker }⟩
      | some _ => .error (.channel ("Worker " ++ toString k ++ " already has a task"))
    else .error (.channel ("Worker " ++ toString k ++ " channel closed"))

/-- Marks a worker idle again. -/
def free (p : Pool) (k : Nat) : Pool := ⟨p.slots.modify k fun s => { s with held := none }⟩

/-- Changes the worker of a slot. -/
def setWorker (p : Pool) (k : Nat) (w : Worker) : Pool :=
  ⟨p.slots.modify k fun s => { s with worker := w }⟩

/-- The worker of a slot. -/
def worker? (p : Pool) (k : Nat) : Option Worker := p.slots[k]?.map Slot.worker

end Pool

end AvatarPool
