import AvatarPool.Proofs.Dispatch.Gating

/-! # Tasks on their way to workers

Each time the dispatcher hands a task over it has chosen a worker, and the pool may take the task or
give it back.  `handOversFrom` lists these attempts: the dispatcher is what they make of it, and as
long as no idle worker has anything to do every one of them succeeds.  So a task that leaves the
queue without a worker has been rejected by a failed gate or by a stop.

The model's loop of handing out tries a hand-over and, if the pool refuses it, rejects the task.
The list of attempts makes this visible: it is computed by the same recursion, and `handOut_eq` says
that the dispatcher is what the attempts make of it.  So the branch for a refused task is there in
the model, and the theorem that it is never taken is one about the members of this list. -/

namespace AvatarPool

variable {ω : Type}

/-- An attempt to hand a task over: the pool as it is, the worker that has been chosen, and the
task. -/
structure HandOver where
  pool : Pool
  worker : Nat
  task : Task
  deriving DecidableEq, Repr

namespace HandOver

/-- **Nothing hinders a task on its way**: there is such a worker, the pool has no task down for it,
it is open and its box is empty; and the pool takes the task. -/
structure Unhindered (h : HandOver) : Prop where
  worker : ∃ slot, h.pool.slots[h.worker]? = some slot ∧ slot.held = none ∧ slot.worker.isOpen ∧
    slot.worker.inbox = none
  taken : ∃ pool, h.pool.give h.worker h.task = .ok pool

theorem unhindered_of_idle {pool : Pool} {k : Nat} (hk : pool.slots[k]? = some {}) (task : Task) :
    Unhindered ⟨pool, k, task⟩ where
  worker := ⟨{}, hk, rfl, rfl, rfl⟩
  taken := ⟨_, Pool.give_of_idle hk task⟩

/-- How the task of an attempt that succeeds leaves the queue.  It leaves for the worker that was
chosen. -/
def exit (h : HandOver) : Task × Except Failure Nat := (h.task, .ok h.worker)

end HandOver

/-- How an effect takes a task off the queue: for a worker, or rejected. -/
def Effect.exit? : Effect ω → Option (Task × Except Failure Nat)
  | .handed k task => some (task, .ok k)
  | .dropped task why => some (task, .error why)
  | _ => none

namespace Dispatcher

variable {d d' : Dispatcher ω}

/-! ## Attempts -/

/-- The attempts to hand out these tasks. -/
def handOversFrom (d : Dispatcher ω) : List Task → List HandOver
  | [] => []
  | task :: rest =>
    match d.pool with
    | none => []
    | some pool =>
      match pool.idle? with
      | none => []
      | some k => ⟨pool, k, task⟩ :: (d.hand pool k task).handOversFrom rest

/-- The attempts to hand out what can be handed out. -/
def handOvers (d : Dispatcher ω) : List HandOver :=
  if d.readiness = .ready then d.handOversFrom d.queue else []

/-- One attempt. -/
def attempt (d : Dispatcher ω) (h : HandOver) : Dispatcher ω := d.hand h.pool h.worker h.task

/-- Handing out ends, or goes on after an attempt to hand out the oldest task. -/
theorem handOutFrom_cases (d : Dispatcher ω) (task : Task) (rest : List Task) :
    (d.handOutFrom (task :: rest) = { d with queue := task :: rest } ∧
      d.handOversFrom (task :: rest) = []) ∨
    ∃ pool k, d.pool = some pool ∧ pool.idle? = some k ∧
      d.handOutFrom (task :: rest) = (d.hand pool k task).handOutFrom rest ∧
      d.handOversFrom (task :: rest) =
        ⟨pool, k, task⟩ :: (d.hand pool k task).handOversFrom rest := by
  rcases Option.eq_none_or_eq_some d.pool with hp | ⟨pool, hp⟩
  · left
    constructor <;> simp only [handOutFrom, handOversFrom, hp]
  · rcases Option.eq_none_or_eq_some pool.idle? with hi | ⟨k, hi⟩
    · left
      constructor <;> simp only [handOutFrom, handOversFrom, hp, hi]
    · right
      refine ⟨pool, k, hp, hi, ?_, ?_⟩ <;> simp only [handOutFrom, handOversFrom, hp, hi]

/-- **Handing out is to make the attempts**, and leaves the other tasks in the queue.  By induction
on the tasks on offer, one attempt for each that is handed out. -/
theorem handOutFrom_eq (d : Dispatcher ω) (ts : List Task) :
    d.handOutFrom ts =
      { (d.handOversFrom ts).foldl attempt d with
        queue := ts.drop (d.handOversFrom ts).length } := by
  induction ts generalizing d with
  | nil => rfl
  | cons task rest ih =>
      obtain ⟨hout, hnone⟩ | ⟨pool, k, -, -, hout, hattempts⟩ := handOutFrom_cases d task rest
      · rw [hout, hnone]
        rfl
      · rw [hout, hattempts]
        exact ih _

/-- Handing out is making these hand-overs, behind a gate that is open. -/
theorem handOut_eq (d : Dispatcher ω) :
    d.handOut =
      { d.handOvers.foldl attempt d with queue := d.queue.drop d.handOvers.length } := by
  unfold handOut handOvers
  split
  · exact handOutFrom_eq d d.queue
  · rfl

/-- No attempt is hindered as long as no idle worker has anything to do.  By induction on the tasks;
each hand-over leaves the other idle workers with nothing to do. -/
theorem unhindered_of_mem {ts : List Task} (hs : Ready d.slots) :
    ∀ h ∈ d.handOversFrom ts, h.Unhindered := by
  induction ts generalizing d with
  | nil => exact List.forall_mem_nil _
  | cons task rest ih =>
      obtain ⟨-, hnone⟩ | ⟨pool, k, hp, hi, -, hattempts⟩ := handOutFrom_cases d task rest
      · rw [hnone]
        exact List.forall_mem_nil _
      · obtain ⟨hk, hpass, hready⟩ := hand_of_ready hs hp hi task
        rw [hattempts, hpass]
        exact List.forall_mem_cons.mpr ⟨HandOver.unhindered_of_idle hk task, ih hready⟩

/-! ## What leaves the queue

Exits are read off the effects: a hand-over is one, and so is a rejection, with its reason.  With
them the attempts can be compared with what has happened. -/

/-- How tasks have left the queue, in order. -/
def exits (d : Dispatcher ω) : List (Task × Except Failure Nat) := d.effects.filterMap Effect.exit?

theorem exits_note (d : Dispatcher ω) (es : List (Effect ω)) :
    (d.note es).exits = d.exits ++ es.filterMap Effect.exit? :=
  filterMap_note d es

theorem exits_note_of_forall {es : List (Effect ω)} (h : ∀ e ∈ es, e.exit? = none) :
    (d.note es).exits = d.exits :=
  filterMap_note_of_forall h

theorem exits_answerAll (d : Dispatcher ω) (k : Fingerprint) (o : Outcome) :
    (d.answerAll k o).exits = d.exits :=
  filterMap_answerAll (fun _ _ => rfl) d k o

theorem exits_settle (d : Dispatcher ω) (c : WorkReport) : (d.settle c).exits = d.exits :=
  filterMap_settle (fun _ _ => rfl) d c

theorem exits_see (d : Dispatcher ω) (state : Readiness) : (d.see state).exits = d.exits :=
  filterMap_see (fun _ => rfl) (fun _ => rfl) d state

/-- Rejecting everyone who waits lets no task out, since it is done with an empty queue. -/
theorem exits_rejectPending (d : Dispatcher ω) (why : Failure) :
    (d.rejectPending why).exits = d.exits :=
  filterMap_rejectPending (fun _ _ => rfl) d why

/-- Rejected tasks leave the queue with the failure, one after the other.  By induction on the
tasks. -/
theorem exits_rejectFrom (ts : List Task) (why : Failure) :
    (ts.foldl (fun d t => d.reject t why) d).exits =
      d.exits ++ ts.map fun task => (task, .error why) := by
  induction ts generalizing d with
  | nil => exact (List.append_nil _).symm
  | cons task rest ih =>
      have hreject : (d.reject task why).exits = d.exits ++ [(task, .error why)] :=
        (exits_answerAll _ _ _).trans (exits_note _ _)
      rw [List.foldl_cons, ih, hreject, List.append_assoc]
      rfl

/-- A queue that is rejected leaves as a whole. -/
theorem exits_rejectQueue (d : Dispatcher ω) (why : Failure) :
    (d.rejectQueue why).exits = d.exits ++ d.queue.map fun task => (task, .error why) :=
  exits_rejectFrom d.queue why

/-- A failed gate rejects the queue as it is. -/
theorem exits_observe_failed (d : Dispatcher ω) (why : Failure) :
    (d.observe (.failed why)).exits = d.exits ++ d.queue.map fun task => (task, .error why) := by
  have hreject := exits_rejectQueue (d.note [.published (.readinessFailed why.message)]) why
  rw [exits_note_of_forall (by simp [Effect.exit?])] at hreject
  exact hreject

/-- Tasks that are handed out leave by the attempts. -/
theorem exits_handOutFrom {ts : List Task} (hs : Ready d.slots) :
    (d.handOutFrom ts).exits = d.exits ++ (d.handOversFrom ts).map HandOver.exit := by
  induction ts generalizing d with
  | nil => exact (List.append_nil _).symm
  | cons task rest ih =>
      obtain ⟨hout, hnone⟩ | ⟨pool, k, hp, hi, hout, hattempts⟩ := handOutFrom_cases d task rest
      · rw [hout, hnone]
        exact (List.append_nil _).symm
      · obtain ⟨-, hpass, hready⟩ := hand_of_ready hs hp hi task
        have hexit : (d.pass pool k task).exits = d.exits ++ [(task, .ok k)] := exits_note _ _
        rw [hout, hattempts, hpass, ih hready, hexit, List.append_assoc]
        rfl

/-- With a gate that is not open there is no attempt. -/
theorem unhindered_of_mem_handOvers (hs : Ready d.slots) : ∀ h ∈ d.handOvers, h.Unhindered := by
  unfold handOvers
  split
  · exact unhindered_of_mem hs
  · exact List.forall_mem_nil _

/-- So the exits of a handler that hands out are those of its attempts, none of them a rejection. -/
theorem exits_handOut (hs : Ready d.slots) :
    d.handOut.exits = d.exits ++ d.handOvers.map HandOver.exit := by
  unfold handOut handOvers
  split
  · exact exits_handOutFrom hs
  · exact (List.append_nil _).symm

end Dispatcher

end AvatarPool
