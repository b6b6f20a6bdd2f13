import AvatarPool.Proofs.Dispatch.HandOvers

/-! # What reaches the boxes of the workers

The dispatcher deals with a worker through its box alone: it puts one task after the other into it,
each when there is room, and writes down each hand-over.  What the worker is at it leaves as it is,
also where it frees the slot of a worker or opens the pool.

This is the one direction of the traffic between the dispatcher and its workers; the reports go the
other way.  A worker is looked at by its number, `workerAt`, also before the pool has been made,
where it is thought of as fresh: so a path that opens the pool in between is no special case.
`Feeds` then says of a worker what a path brought to it, and that the exits from the queue tell the
same. -/

namespace AvatarPool

variable {ω : Type}

/-! ## Messages for a box -/

/-- These messages reach the box of a worker, one by one, each when there is room for it.  Between
two of them the worker itself may not have moved here, so each constructor speaks of a worker whose
box is empty. -/
inductive Worker.Gets : Worker → List Work → Worker → Prop where
  | nothing (w : Worker) : Gets w [] w
  | message {w w' : Worker} {work : Work} {rest : List Work} (hopen : w.isOpen)
      (hinbox : w.inbox = none) (h : Gets { w with inbox := some work } rest w') :
      Gets w (work :: rest) w'

namespace Worker.Gets

variable {w w' w'' : Worker} {works works' : List Work}

theorem one {work : Work} (hopen : w.isOpen) (hinbox : w.inbox = none) :
    w.Gets [work] { w with inbox := some work } :=
  .message hopen hinbox (.nothing _)

theorem append (h : w.Gets works w') (h' : w'.Gets works' w'') : w.Gets (works ++ works') w'' := by
  induction h with
  | nothing => exact h'
  | message hopen hinbox _ ih => exact .message hopen hinbox (ih h')

end Worker.Gets

/-- The task that an exit from the queue takes to worker `k`.  Exits name the worker or the reason
for a rejection; for any worker only its own count. -/
def exitTo? (k : Nat) (e : Task × Except Failure Nat) : Option Task :=
  match e.2 with
  | .ok j => if j = k then some e.1 else none
  | .error _ => none

theorem exitTo?_handed (k j : Nat) (task : Task) :
    exitTo? k (task, .ok j) = if j = k then some task else none := rfl

namespace Dispatcher

variable {d d' d'' : Dispatcher ω} {k : Nat}

/-! ## Workers -/

/-- Worker number `k`; as long as there is no pool it is thought of as a fresh one. -/
def workerAt (d : Dispatcher ω) (k : Nat) : Worker := (d.slots[k]?.map Slot.worker).getD {}

theorem workerAt_of_slot {slot : Slot} (h : d.slots[k]? = some slot) :
    d.workerAt k = slot.worker := by
  rw [workerAt, h]
  rfl

theorem workerAt_congr (h : d'.slots[k]?.map Slot.worker = d.slots[k]?.map Slot.worker) :
    d'.workerAt k = d.workerAt k := by
  rw [workerAt, workerAt, h]

/-- A task in the box of one worker is no concern of the others. -/
theorem workerAt_pass {pool : Pool} {j : Nat} (hp : d.pool = some pool)
    (hj : pool.slots[j]? = some {}) (task : Task) :
    (d.pass pool j task).workerAt k =
      if j = k then { inbox := some (.render task) } else d.workerAt k := by
  have hslots : (d.pass pool j task).slots =
      pool.slots.set j { held := some task, worker := { inbox := some (.render task) } } := rfl
  have hlt : j < pool.slots.length := (List.getElem?_eq_some_iff.mp hj).1
  rw [workerAt, workerAt, hslots, slots_of_pool hp, List.getElem?_set]
  by_cases hjk : j = k
  · rw [if_pos hjk, if_pos hjk, if_pos hlt]
    rfl
  · rw [if_neg hjk, if_neg hjk]

/-- Who reads a report leaves the worker as it is. -/
theorem workerAt_settle (d : Dispatcher ω) (c : WorkReport) :
    (d.settle c).workerAt k = d.workerAt k := by
  refine workerAt_congr ?_
  rw [slots, slots, settle_pool]
  cases d.pool with
  | none => rfl
  | some pool =>
      show (pool.free c.worker).slots[k]?.map Slot.worker = pool.slots[k]?.map Slot.worker
      rw [Pool.free, List.getElem?_modify]
      cases pool.slots[k]? with
      | none => rfl
      | some slot => by_cases hk : c.worker = k <;> simp [hk]

/-- The workers of a new pool are fresh. -/
theorem workerAt_openPool (d : Dispatcher ω) : d.openPool.workerAt k = d.workerAt k := by
  cases hp : d.pool with
  | some pool => rw [openPool, hp]
  | none =>
      have hold : d.workerAt k = {} := by
        rw [workerAt, slots, hp]
        rfl
      have hnew : d.openPool.slots = List.replicate (max 1 d.poolSize) {} := by
        rw [openPool, hp]
        rfl
      rw [hold, workerAt, hnew, List.getElem?_replicate]
      split <;> rfl

/-- Only a gate that is ready makes a pool, and that leaves workers as they are thought of. -/
theorem workerAt_see (d : Dispatcher ω) (state : Readiness) :
    (d.see state).workerAt k = d.workerAt k := by
  cases state with
  | pending => rfl
  | ready => exact workerAt_openPool { d with readiness := .ready }
  | failed why => rfl

/-- A worker that goes on is no concern of the others. -/
theorem workerAt_setWorker {pool : Pool} {j : Nat} {slot : Slot} {w : Worker}
    (hp : d.pool = some pool) (hj : pool.slots[j]? = some slot)
    (hp' : d'.pool = some (pool.setWorker j w)) :
    d'.workerAt k = if j = k then w else d.workerAt k := by
  have hslots : d'.slots = pool.slots.modify j fun s => { s with worker := w } := slots_of_pool hp'
  rw [workerAt, workerAt, hslots, slots_of_pool hp, List.getElem?_modify]
  by_cases hjk : j = k
  · subst hjk
    rw [hj, if_pos rfl]
    simp
  · simp [hjk]

/-! ## Hand-overs -/

/-- The tasks handed to worker `k`, in order.  This is the order in which they have left the queue,
as far as they went to this worker. -/
def handedTo (d : Dispatcher ω) (k : Nat) : List Task := d.exits.filterMap (exitTo? k)

/-- Worker `k` has got these tasks from the dispatcher, and nothing else has happened to it. -/
def Feeds (k : Nat) (d d' : Dispatcher ω) : Prop :=
  ∃ tasks : List Task, (d.workerAt k).Gets (tasks.map .render) (d'.workerAt k) ∧
    d'.handedTo k = d.handedTo k ++ tasks

namespace Feeds

/-- Nothing was brought, and nothing was handed over. -/
theorem quiet (hworker : d'.workerAt k = d.workerAt k) (hexits : d'.exits = d.exits) :
    Feeds k d d' := by
  refine ⟨[], ?_, ?_⟩
  · rw [hworker]
    exact .nothing _
  · rw [handedTo, hexits]
    exact (List.append_nil _).symm

/-- What was brought first and what was brought then. -/
theorem trans (h : Feeds k d d') (h' : Feeds k d' d'') : Feeds k d d'' := by
  obtain ⟨tasks, hgets, hhanded⟩ := h
  obtain ⟨tasks', hgets', hhanded'⟩ := h'
  refine ⟨tasks ++ tasks', ?_, ?_⟩
  · rw [List.map_append]
    exact hgets.append hgets'
  · rw [hhanded', hhanded, List.append_assoc]

/-- A task is handed to a worker that is idle in every respect. -/
theorem pass {pool : Pool} {j : Nat} (hp : d.pool = some pool) (hj : pool.slots[j]? = some {})
    (task : Task) : Feeds k d (d.pass pool j task) := by
  have hexits : (d.pass pool j task).exits = d.exits ++ [(task, .ok j)] := exits_note _ _
  have hhanded : (d.pass pool j task).handedTo k =
      d.handedTo k ++ (if j = k then some task else none).toList := by
    rw [handedTo, hexits, filterMap_snoc, exitTo?_handed]
    rfl
  have hworker := workerAt_pass (k := k) hp hj task
  -- It is this worker's, whose box is empty since its slot is; or it is another's.
  by_cases hjk : j = k
  · have hidle : d.workerAt k = {} := workerAt_of_slot (hjk ▸ slots_of_pool hp ▸ hj)
    rw [if_pos hjk] at hworker hhanded
    refine ⟨[task], ?_, hhanded⟩
    rw [hworker, hidle]
    exact .one rfl rfl
  · rw [if_neg hjk] at hworker hhanded
    refine ⟨[], ?_, hhanded⟩
    rw [hworker]
    exact .nothing _

/-- A task that is rejected goes to nobody. -/
theorem reject (d : Dispatcher ω) (task : Task) (why : Failure) :
    Feeds k d (d.reject task why) := by
  have hexits : (d.reject task why).exits = d.exits ++ [(task, .error why)] :=
    (exits_answerAll _ _ _).trans (exits_note _ _)
  refine ⟨[], .nothing _, ?_⟩
  rw [handedTo, hexits, filterMap_snoc]
  rfl

end Feeds

/-- **A deed brings to the box of a worker the tasks that it hands to it**, and nothing else.  The
deed of working is excluded, as it moves the worker itself. -/
theorem Does.feeds {x : Deed ω} (h : Does d x d') (hwork : x ≠ .work) (k : Nat) :
    Feeds k d d' := by
  cases h with
  | hit | refused | opened | late =>
      exact .quiet rfl (exits_note_of_forall (by simp [Effect.exit?]))
  | joined => exact .quiet rfl rfl
  | @handed task rest pool j _ _ hp _ hj => exact .pass (d := { d with queue := rest }) hp hj task
  | @dropped task rest why => exact .reject { d with queue := rest } task why
  | settled => exact .quiet (workerAt_settle d _) (exits_settle d _)
  | observed state => exact .quiet (workerAt_see d state) (exits_see d state)
  | worked => exact absurd rfl hwork
  | cleared why => exact .quiet rfl (exits_rejectPending d why)

/-- A path feeds worker `k` with what it is handed.  By induction on the path; with it the reports
of a worker can be compared with what it was handed. -/
theorem Path.feeds {ds : List (Deed ω)} (h : Path d ds d') (hwork : .work ∉ ds) (k : Nat) :
    Feeds k d d' := by
  induction h with
  | nil => exact .quiet rfl rfl
  | @snoc _ _ ds x _ hx ih =>
      obtain ⟨hds, hxw⟩ := not_or.mp (mt List.mem_append.mpr hwork)
      have hne : x ≠ .work := fun heq => hxw (heq ▸ List.mem_singleton_self x)
      exact (ih hds).trans (hx.feeds hne k)

end Dispatcher

end AvatarPool
