import AvatarPool.Proofs.Dispatch.Gating

/-! # The queue, first in and first out

A request that opens a task puts it at the end of the queue, and tasks leave the queue at its front,
one by one: what was queued and what is put there is what has left, followed by what is still
queued.  `Serves` says so of a handler that hands tasks to workers, each of which then has its task
in its box; a handler that rejects the queue takes all of it.

The order is followed by an equation between lists: old queue and new tasks on the left, tasks taken
and new queue on the right.  It is proved for one deed and can be chained along a path, since what
one deed leaves queued is what the next one finds.  The fate of a request decides whether it brings
a task; with it the tasks that come in are a function of the requests, independent of what the queue
does. -/

namespace AvatarPool

variable {ω : Type}

/-- What becomes of a request when it is admitted. -/
inductive Fate where
  /-- It is answered from the cache. -/
  | hit
  /-- A failed gate turns it away. -/
  | refused
  /-- It joins work under way. -/
  | joined
  /-- It opens a task. -/
  | opened
  deriving DecidableEq, Repr

/-- The task that an effect takes off the queue. -/
def Effect.taken? : Effect ω → Option Task
  | .handed _ task => some task
  | .dropped task _ => some task
  | _ => none

/-- The task that a deed takes off the queue. -/
def Deed.taken? : Deed ω → Option Task
  | .hand _ task => some task
  | .drop task _ => some task
  | _ => none

/-- A slot whose worker has found a task in its box. -/
def Slot.boxed (task : Task) : Slot :=
  { held := some task, worker := { inbox := some (.render task) } }

namespace Dispatcher

variable {d d' : Dispatcher ω} {x : Deed ω} {ds : List (Deed ω)}

/-! ## What a request opens -/

/-- What becomes of a request: the cache is asked first, then the gate, then the work under way. -/
def fate (d : Dispatcher ω) (job : Job) : Fate :=
  if (d.cache.get? job.fingerprint).isSome then .hit
  else
    match d.readiness with
    | .failed _ => .refused
    | _ => if job.fingerprint ∈ d.pending.keys then .joined else .opened

/-- The task that a request for a job opens, if it opens one.  At most one, since each request is
for one job. -/
def opens (d : Dispatcher ω) (job : Job) : List Task :=
  if d.fate job = .opened then [Task.ofJob job] else []

/-- The task that a deed puts at the end of the queue. -/
def opensBy (d : Dispatcher ω) : Deed ω → List Task
  | .accept job _ => d.opens job
  | _ => []

section Fate

variable {job : Job}

/-- The three lemmas settle a fate by what the dispatcher finds, in the order in which it looks. -/
theorem fate_of_get? {artifact : Artifact} (hc : d.cache.get? job.fingerprint = some artifact) :
    d.fate job = .hit := by
  rw [fate, hc]
  rfl

theorem fate_of_failed {why : Failure} (hc : d.cache.get? job.fingerprint = none)
    (hr : d.readiness = .failed why) : d.fate job = .refused := by
  rw [fate, hc, hr]
  rfl

/-- Otherwise it depends on whether its task is under way. -/
theorem fate_of_notFailed (hc : d.cache.get? job.fingerprint = none)
    (hr : ∀ why, d.readiness ≠ .failed why) :
    d.fate job = if job.fingerprint ∈ d.pending.keys then .joined else .opened := by
  rw [fate, hc]
  cases hready : d.readiness with
  | pending | ready => rfl
  | failed why => exact absurd hready (hr why)

end Fate

/-- **A deed puts tasks at the end of the queue and takes them off its front.**  No deed does both;
either side of the equation has at most one task besides the queue. -/
theorem Does.queue (hx : Does d x d') :
    d.queue ++ d.opensBy x = x.taken?.toList ++ d'.queue := by
  cases hx with
  | hit w hc =>
      rw [opensBy, opens, fate_of_get? hc]
      exact List.append_nil _
  | refused w hc hr =>
      rw [opensBy, opens, fate_of_failed hc hr]
      exact List.append_nil _
  | joined w hc hr hk =>
      rw [opensBy, opens, fate_of_notFailed hc hr, if_pos hk]
      exact List.append_nil _
  | opened w hc hr hk =>
      rw [opensBy, opens, fate_of_notFailed hc hr, if_neg hk]
      rfl
  | handed _ hq | dropped _ hq => exact (List.append_nil _).trans hq
  | settled => exact (List.append_nil _).trans (settle_queue _ _).symm
  | observed state => exact (List.append_nil _).trans (see_queue d state).symm
  | worked | cleared | late => exact List.append_nil _

/-! ## What has left the queue -/

/-- The tasks taken off the queue, in order. -/
def taken (d : Dispatcher ω) : List Task := d.effects.filterMap Effect.taken?

theorem taken_note (d : Dispatcher ω) (es : List (Effect ω)) :
    (d.note es).taken = d.taken ++ es.filterMap Effect.taken? :=
  filterMap_note d es

theorem taken_note_of_forall {es : List (Effect ω)} (h : ∀ e ∈ es, e.taken? = none) :
    (d.note es).taken = d.taken :=
  filterMap_note_of_forall h

@[simp]
theorem taken_answerAll (d : Dispatcher ω) (k : Fingerprint) (o : Outcome) :
    (d.answerAll k o).taken = d.taken :=
  filterMap_answerAll (fun _ _ => rfl) d k o

@[simp]
theorem taken_see (d : Dispatcher ω) (state : Readiness) : (d.see state).taken = d.taken :=
  filterMap_see (fun _ => rfl) (fun _ => rfl) d state

@[simp]
theorem taken_settle (d : Dispatcher ω) (c : WorkReport) : (d.settle c).taken = d.taken :=
  filterMap_settle (fun _ _ => rfl) d c

@[simp]
theorem taken_rejectPending (d : Dispatcher ω) (why : Failure) :
    (d.rejectPending why).taken = d.taken :=
  filterMap_rejectPending (fun _ _ => rfl) d why

/-- What a deed takes is in its name, so the list of what has been taken follows the deeds. -/
theorem Does.taken (hx : Does d x d') : d'.taken = d.taken ++ x.taken?.toList := by
  cases hx with
  | hit | refused | opened | late =>
      exact (taken_note_of_forall (by simp [Effect.taken?])).trans (List.append_nil _).symm
  | joined | worked => exact (List.append_nil _).symm
  | handed => exact taken_note _ _
  | dropped => exact (taken_answerAll _ _ _).trans (taken_note _ _)
  | settled | observed | cleared => simp [Deed.taken?]

theorem Path.taken (hpath : Path d ds d') : d'.taken = d.taken ++ ds.filterMap Deed.taken? := by
  induction hpath with
  | nil => exact (List.append_nil _).symm
  | snoc _ hx ih => rw [hx.taken, ih, filterMap_snoc, List.append_assoc]

/-! ## Handlers -/

/-- Each worker to whom a task is handed has it in its box when all have been handed out. -/
theorem boxed_of_path {hs : List (Nat × Task)} (h : Path d (hs.map fun h => .hand h.1 h.2) d') :
    ∀ x ∈ hs, d'.slots[x.1]? = some (.boxed x.2) := by
  induction hs using List.reverseRecOn generalizing d' with
  | nil => exact nofun
  | append_singleton hs last ih =>
      rw [List.map_append] at h
      obtain ⟨e, hpath, hx⟩ := h.exists_of_snoc
      intro x hmem
      cases hx with
      | @handed _ rest pool _ _ _ hp _ hk =>
          show (pool.slots.set last.1 (.boxed last.2))[x.1]? = some (.boxed x.2)
          rcases List.mem_append.mp hmem with hold | hnew
          · -- Boxes that are full are not given another task.
            have hbox : pool.slots[x.1]? = some (.boxed x.2) := slots_of_pool hp ▸ ih hpath x hold
            have hne : last.1 ≠ x.1 := by
              intro heq
              rw [heq, hbox] at hk
              cases hk
            rw [List.getElem?_set_ne hne, hbox]
          · obtain rfl := List.mem_singleton.mp hnew
            exact List.getElem?_set_self (List.getElem?_eq_some_iff.mp hk).1

/-- **Tasks come into the queue and leave it for workers**: `new` come in at the end, and `ts` leave
at the front, each for the box of a worker. -/
structure Serves (d : Dispatcher ω) (new ts : List Task) (d' : Dispatcher ω) : Prop where
  queue : d.queue ++ new = ts ++ d'.queue
  taken : d'.taken = d.taken ++ ts
  handed : d'.handedKeys = d.handedKeys ++ ts.map Task.fingerprint
  boxed : ∀ task ∈ ts, ∃ k : Nat, d'.slots[k]? = some (.boxed task)

/-- A handler does one deed, and hands out what it can. -/
theorem Serves.of_path {hs : List (Nat × Task)}
    (h : Path d (x :: hs.map fun h => .hand h.1 h.2) d') (hx : x.taken? = none) :
    Serves d (d.opensBy x) (hs.map Prod.snd) d' := by
  -- Only the first deed can bring in a task, and only the others take tasks off the queue.
  obtain ⟨e, hfirst, hrest⟩ := h.exists_of_cons
  have hhands := Hands.of_path hrest
  have hqueue := hfirst.queue
  rw [hx, Option.toList_none, List.nil_append] at hqueue
  have htaken := hfirst.taken
  rw [hx, Option.toList_none, List.append_nil] at htaken
  have hnot : ∀ k task, x ≠ .hand k task := by
    rintro k task rfl
    cases hx
  refine ⟨hqueue.trans hhands.queue, ?_, ?_, fun task hmem => ?_⟩
  · rw [hrest.taken, htaken, List.filterMap_map]
    exact congrArg _ (congrFun List.filterMap_eq_map hs)
  · rw [hhands.handed, hfirst.handedKeys_eq hnot]
  · obtain ⟨y, hy, rfl⟩ := List.mem_map.mp hmem
    exact ⟨y.1, boxed_of_path hrest y hy⟩

theorem accept_serves (hs : Ready d.slots) (job : Job) (w : ω) :
    ∃ ts, Serves d (d.opens job) ts (d.accept job w) := by
  obtain ⟨hs, hpath⟩ := accept_path hs job w
  exact ⟨_, .of_path hpath rfl⟩

theorem takeReport_serves {c : WorkReport} {rest : List WorkReport}
    (h : Carried d.slots (c :: rest)) : ∃ ts, Serves d [] ts (d.takeReport c) := by
  obtain ⟨hs, hpath⟩ := takeReport_path h
  exact ⟨_, .of_path hpath rfl⟩

/-- A gate that has not failed opens none either. -/
theorem observe_serves (hs : Ready d.slots) {state : Readiness}
    (hstate : ∀ why, state ≠ .failed why) : ∃ ts, Serves d [] ts (d.observe state) := by
  obtain ⟨ds, hpath, ⟨hs, rfl⟩ | ⟨why, hfailed, -⟩⟩ := observe_path hs state
  · exact ⟨_, .of_path hpath rfl⟩
  · exact absurd hfailed (hstate why)

/-- What is rejected leaves the queue in its order.  All of the queue is taken, each task by a
rejection. -/
theorem taken_rejectQueue (d : Dispatcher ω) (why : Failure) :
    (d.rejectQueue why).taken = d.taken ++ d.queue := by
  rw [(rejectQueue_path d why).taken, List.filterMap_map]
  exact congrArg _ List.filterMap_some

/-- A gate that has failed takes the whole queue off. -/
theorem taken_observe_failed (d : Dispatcher ω) (why : Failure) :
    (d.observe (.failed why)).taken = d.taken ++ d.queue := by
  have hnote : (d.note [.published (.readinessFailed why.message)]).taken = d.taken :=
    taken_note_of_forall (by simp [Effect.taken?])
  have hreject := taken_rejectQueue (d.note [.published (.readinessFailed why.message)]) why
  rw [hnote] at hreject
  exact hreject

end Dispatcher

end AvatarPool
