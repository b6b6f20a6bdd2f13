import AvatarPool.Proofs.Dispatch.Standing

/-! # What the gate lets through

Each handler of the dispatcher, told by what the last state of the gate makes of it: a request is
answered, joins or opens a task; a report settles its task; a failed gate rejects the queue.  Tasks
then leave the queue for workers while the gate is open, the oldest first, and none stays behind
while a worker is idle.

For each handler two things are shown.  The first is what it makes of the dispatcher, by the state
of the gate and, for a request, by what is cached and under way; these are equations.  The second is
what is handed out behind it, told by `Hands`: which tasks left the queue, and that nothing else
changed.  With both, a statement about what the gate lets through is a statement about the state in
which a handler leaves the gate. -/

namespace AvatarPool.Dispatcher

variable {ω : Type} {d d' : Dispatcher ω}

/-- What the dispatcher goes by, apart from answers and counters.  Two dispatchers with the same
holdings do the same from then on. -/
def holdings (d : Dispatcher ω) :
    Pending Fingerprint ω × List Task × Option Pool × Cache Fingerprint Artifact × Readiness :=
  (d.pending, d.queue, d.pool, d.cache, d.readiness)

theorem heldKeys_of_pool (h : d'.pool = d.pool) : d'.heldKeys = d.heldKeys := by
  rw [heldKeys, held, h]
  rfl

/-! ## Handing out -/

/-- **Tasks leave the queue for workers**: the oldest ones, only while the gate is open, and nobody
is told anything. -/
structure Hands (d : Dispatcher ω) (ts : List Task) (d' : Dispatcher ω) : Prop where
  queue : d.queue = ts ++ d'.queue
  held : d'.held.Perm (ts ++ d.held)
  handed : d'.handedKeys = d.handedKeys ++ ts.map Task.fingerprint
  isOpen : ts ≠ [] → d.readiness = .ready
  pending : d'.pending = d.pending
  cache : d'.cache = d.cache
  readiness : d'.readiness = d.readiness
  answered : d'.answered = d.answered

namespace Hands

theorem refl (d : Dispatcher ω) : Hands d [] d :=
  ⟨rfl, .refl _, (List.append_nil _).symm, absurd rfl, rfl, rfl, rfl, rfl⟩

/-- One more task is handed over. -/
theorem snoc {ts : List Task} {e : Dispatcher ω} {k : Nat} {task : Task} (h : Hands d ts e)
    (hx : Does e (.hand k task) d') : Hands d (ts ++ [task]) d' := by
  cases hx with
  | handed hr hq hp _ hk =>
      exact {
        queue := by rw [h.queue, hq, List.append_assoc]; rfl
        held := by
          have hbox := Pool.held_box_perm hk task
          rw [← held_of_pool hp] at hbox
          refine hbox.trans ((h.held.cons task).trans ?_)
          rw [List.append_assoc]
          exact List.perm_middle.symm
        handed := by
          rw [pass, handedKeys_note, List.map_append, ← List.append_assoc, ← h.handed]
          rfl
        isOpen := fun _ => h.readiness.symm.trans hr
        pending := h.pending
        cache := h.cache
        readiness := h.readiness
        answered := ((answered_note _ _).trans (List.append_nil _)).trans h.answered }

/-- Hand-overs take tasks from the front of the queue in their order.  By induction on the
hand-overs, each of which adds one task at the end. -/
theorem of_path {hs : List (Nat × Task)}
    (h : Path d (hs.map fun h => .hand h.1 h.2) d') : Hands d (hs.map Prod.snd) d' := by
  induction hs using List.reverseRecOn generalizing d' with
  | nil =>
      rw [h.eq_of_nil]
      exact refl d
  | append_singleton hs x ih =>
      rw [List.map_append] at h ⊢
      obtain ⟨e, hpath, hx⟩ := h.exists_of_snoc
      exact (ih hpath).snoc hx

/-- The tasks under way stay under way. -/
theorem openTasks {ts : List Task} (h : Hands d ts d') : d'.openTasks.Perm d.openTasks := by
  unfold Dispatcher.openTasks
  rw [h.queue]
  refine (h.held.append_left d'.queue).trans ?_
  rw [← List.append_assoc]
  exact List.perm_append_comm.append_right _

end Hands

/-- Whoever hands anything out has an open gate. -/
theorem Hands.gated {ts : List Task} (h : Hands d ts d') (hne : d'.handedKeys ≠ d.handedKeys) :
    d'.readiness = .ready := by
  refine h.readiness.trans (h.isOpen ?_)
  rintro rfl
  exact hne (h.handed.trans (List.append_nil _))

theorem handOut_hands (hs : Ready d.slots) : ∃ ts, Hands d ts d.handOut := by
  obtain ⟨hs, hpath⟩ := handOut_path hs
  exact ⟨_, .of_path hpath⟩

/-- After handing out the queue is empty or all workers are busy.  By induction on the tasks on
offer: it stops only for want of tasks or for want of an idle worker. -/
theorem handOutFrom_busy (ts : List Task) :
    (d.handOutFrom ts).queue = [] ∨ ∀ slot ∈ (d.handOutFrom ts).slots, slot.held ≠ none := by
  induction ts generalizing d with
  | nil => exact .inl rfl
  | cons task rest ih =>
      unfold handOutFrom
      split
      · rename_i hp
        right
        simp [slots, hp]
      · rename_i pool hp
        split
        · rename_i hidle
          right
          intro slot hmem
          have hbusy := List.findIdx?_eq_none_iff.mp hidle slot (slots_of_pool hp ▸ hmem)
          exact Option.isSome_iff_ne_none.mp (Option.isNone_eq_false_iff.mp hbusy)
        · exact ih

theorem readiness_handOut (d : Dispatcher ω) : d.handOut.readiness = d.readiness :=
  congrArg Standing.readiness (standing_handOut d)

/-! ## Requests -/

section Requests

variable {job : Job} {artifact : Artifact} {why : Failure}

/-- What is cached is given at once. -/
theorem accept_of_get? (hc : d.cache.get? job.fingerprint = some artifact) (w : ω) :
    (d.accept job w).holdings = d.holdings ∧
      (d.accept job w).effects = d.effects ++ [.answered w (.ok artifact)] := by
  unfold accept
  simp only [hc]
  exact ⟨rfl, rfl⟩

/-- A failed gate turns everyone else away. -/
theorem accept_of_failed (hc : d.cache.get? job.fingerprint = none) (hr : d.readiness = .failed why)
    (w : ω) : (d.accept job w).holdings = d.holdings ∧
      (d.accept job w).effects = d.effects ++ [.answered w (.error why)] := by
  unfold accept
  dsimp only
  rw [hc]
  dsimp only
  split
  · rename_i why' hwhy
    obtain rfl : why' = why := by rw [hr] at hwhy; cases hwhy; rfl
    exact ⟨rfl, rfl⟩
  · rename_i hopen
    exact absurd hr (hopen why)

/-- Work under way is joined.  Its task is queued or with a worker already, so that nothing more is
handed out. -/
theorem accept_of_mem (hc : d.cache.get? job.fingerprint = none)
    (hr : ∀ why, d.readiness ≠ .failed why) (hk : job.fingerprint ∈ d.pending.keys) (w : ω) :
    d.accept job w = d.join job w := by
  unfold accept join
  dsimp only
  rw [hc, Pending.enter_of_mem w hk]
  dsimp only
  split
  · rename_i why hwhy
    exact absurd hwhy (hr why)
  · rfl

/-- Anything else opens a task.  The new task goes to the end of the queue, and then whatever can be
handed out is. -/
theorem accept_of_notMem (hc : d.cache.get? job.fingerprint = none)
    (hr : ∀ why, d.readiness ≠ .failed why) (hk : job.fingerprint ∉ d.pending.keys) (w : ω) :
    d.accept job w = (d.openTask job w).handOut := by
  unfold accept openTask
  dsimp only
  rw [hc, Pending.enter_of_notMem w hk]
  dsimp only
  split
  · rename_i why hwhy
    exact absurd hwhy (hr why)
  · rfl

end Requests

/-! ## Handlers that hand out -/

/-- The first deed of a path; by it the deed of a handler is separated from the hand-overs after it.
-/
theorem Path.exists_of_cons {x : Deed ω} {ds : List (Deed ω)} (h : Path d (x :: ds) d') :
    ∃ e, Does d x e ∧ Path e ds d' := by
  have hsplit : Path d ([x] ++ ds) d' := h
  obtain ⟨e, hfirst, hrest⟩ := hsplit.exists_of_append
  have hone : Path d ([] ++ [x]) e := hfirst
  obtain ⟨e', hnil, hx⟩ := hone.exists_of_snoc
  obtain rfl := hnil.eq_of_nil
  exact ⟨e, hx, hrest⟩

/-- After a report the freed worker may get a task. -/
theorem takeReport_hands {c : WorkReport} {rest : List WorkReport}
    (h : Carried d.slots (c :: rest)) : ∃ ts, Hands (d.settle c) ts (d.takeReport c) := by
  obtain ⟨hs, hpath⟩ := takeReport_path h
  obtain ⟨e, hx, hrest⟩ := hpath.exists_of_cons
  cases hx
  exact ⟨_, .of_path hrest⟩

/-- An open gate is noted before anything is handed out. -/
theorem observe_ready_hands (hs : Ready d.slots) :
    ∃ ts, Hands (d.see .ready) ts (d.observe .ready) := by
  obtain ⟨ds, hpath, ⟨hs, rfl⟩ | ⟨why, hfailed, -⟩⟩ := observe_path hs .ready
  · obtain ⟨e, hx, hrest⟩ := hpath.exists_of_cons
    cases hx
    exact ⟨_, .of_path hrest⟩
  · cases hfailed

/-- Only handing out hands out.  All other deeds leave what has been handed out. -/
theorem Does.handedKeys_eq {x : Deed ω} (hx : Does d x d') (hh : ∀ k task, x ≠ .hand k task) :
    d'.handedKeys = d.handedKeys := by
  cases hx with
  | hit | refused | opened | late => exact handedKeys_note_of_forall (by simp [Effect.handed?])
  | joined | worked => rfl
  | @handed task rest pool k => exact absurd rfl (hh k task)
  | dropped => exact handedKeys_reject _ _ _
  | settled => exact handedKeys_settle _ _
  | observed state => exact handedKeys_see d state
  | cleared why => exact handedKeys_rejectPending d why

/-- **A handler that hands anything out leaves the gate open.** -/
theorem gated_of_path {x : Deed ω} {hs : List (Nat × Task)}
    (hpath : Path d (x :: hs.map fun h => .hand h.1 h.2) d') (hx : ∀ k task, x ≠ .hand k task)
    (hne : d'.handedKeys ≠ d.handedKeys) : d'.readiness = .ready := by
  obtain ⟨e, hdoes, hrest⟩ := hpath.exists_of_cons
  rw [← hdoes.handedKeys_eq hx] at hne
  exact (Hands.of_path hrest).gated hne

theorem accept_gated (hs : Ready d.slots) {job : Job} {w : ω}
    (hne : (d.accept job w).handedKeys ≠ d.handedKeys) : (d.accept job w).readiness = .ready := by
  obtain ⟨ts, hpath⟩ := accept_path hs job w
  exact gated_of_path hpath nofun hne

theorem takeReport_gated {c : WorkReport} {rest : List WorkReport} (h : Carried d.slots (c :: rest))
    (hne : (d.takeReport c).handedKeys ≠ d.handedKeys) : (d.takeReport c).readiness = .ready := by
  obtain ⟨ts, hpath⟩ := takeReport_path h
  exact gated_of_path hpath nofun hne

/-- A state of the gate hands tasks out if it is ready; one that has failed hands nothing out. -/
theorem observe_gated (hs : Ready d.slots) {state : Readiness}
    (hne : (d.observe state).handedKeys ≠ d.handedKeys) : (d.observe state).readiness = .ready := by
  obtain ⟨ds, hpath, ⟨ts, rfl⟩ | ⟨why, rfl, rfl⟩⟩ := observe_path hs state
  · exact gated_of_path hpath nofun hne
  · refine absurd ?_ hne
    refine (rejectQueue_keeps (d.note [.published (.readinessFailed why.message)]) why).2.1.trans ?_
    exact handedKeys_note_of_forall (by simp [Effect.handed?])

/-! ## A failure of the gate -/

/-- Each task is rejected for those who wait under its fingerprint.  The fingerprints must be
different, since otherwise nobody would be left for the second task of one. -/
theorem answered_rejectFrom {ts : List Task} (hn : (ts.map Task.fingerprint).Nodup) (why : Failure) :
    (ts.foldl (fun d t => d.reject t why) d).answered =
      d.answered ++
        ts.flatMap fun t => (d.pending.waiting t.fingerprint).map fun w => (w, .error why) := by
  induction ts generalizing d with
  | nil => exact (List.append_nil _).symm
  | cons t rest ih =>
      obtain ⟨hnew, hrest⟩ := List.nodup_cons.mp hn
      rw [List.foldl_cons, ih hrest, answered_reject, List.flatMap_cons, List.append_assoc]
      congr 2
      -- The first rejection has closed no entry of the others.
      refine List.flatMap_congr fun u hu => ?_
      have hne : u.fingerprint ≠ t.fingerprint := fun heq =>
        hnew (heq ▸ List.mem_map_of_mem hu)
      show (((d.pending.close t.fingerprint).1.waiting u.fingerprint).map _) = _
      rw [Pending.waiting_close, if_neg hne]

/-- Who waited for a rejected task waits no more.  By induction from the end, as the last rejection
closes its own entry and leaves the others closed. -/
theorem waiting_rejectFrom_of_mem {ts : List Task} {k : Fingerprint}
    (hk : k ∈ ts.map Task.fingerprint) (why : Failure) :
    (ts.foldl (fun d t => d.reject t why) d).pending.waiting k = [] := by
  induction ts using List.reverseRecOn with
  | nil => exact absurd hk List.not_mem_nil
  | append_singleton rest t ih =>
      rw [List.foldl_append]
      show ((rest.foldl (fun d t => d.reject t why) d).pending.close t.fingerprint).1.waiting k = []
      rw [Pending.waiting_close]
      split
      · rfl
      · rename_i hne
        rw [List.map_append] at hk
        exact ih ((List.mem_append.mp hk).resolve_right fun hlast => hne (List.mem_singleton.mp hlast))

/-- **What rejecting the queue does**: all who wait for a queued task are told, in the order of the
queue, and nobody else. -/
structure Rejects (d : Dispatcher ω) (why : Failure) (d' : Dispatcher ω) : Prop where
  answered : d'.answered = d.answered ++
    d.queue.flatMap fun t => (d.pending.waiting t.fingerprint).map fun w => (w, .error why)
  waiting : ∀ k, d'.pending.waiting k =
    if k ∈ d.queue.map Task.fingerprint then [] else d.pending.waiting k
  queue : d'.queue = []
  pool : d'.pool = d.pool
  cache : d'.cache = d.cache
  handed : d'.handedKeys = d.handedKeys

/-- Rejections touch neither workers nor results. -/
theorem rejectFrom_pool (ts : List Task) (why : Failure) :
    (ts.foldl (fun d t => d.reject t why) d).pool = d.pool ∧
      (ts.foldl (fun d t => d.reject t why) d).cache = d.cache := by
  induction ts generalizing d with
  | nil => exact ⟨rfl, rfl⟩
  | cons t rest ih => exact ih (d := d.reject t why)

/-- The clauses are those of the structure, each by its own induction. -/
theorem rejectQueue_rejects (hn : (d.queue.map Task.fingerprint).Nodup) (why : Failure) :
    Rejects d why (d.rejectQueue why) where
  answered := answered_rejectFrom hn why
  waiting k := by
    split
    · rename_i hmem
      exact waiting_rejectFrom_of_mem hmem why
    · rename_i hmem
      refine waiting_rejectQueue (fun t ht => ?_) why
      rintro rfl
      exact hmem (List.mem_map_of_mem ht)
  queue := rfl
  pool := (rejectFrom_pool d.queue why).1
  cache := (rejectFrom_pool d.queue why).2
  handed := (rejectQueue_keeps d why).2.1

namespace Ledger

theorem nodup_queue (h : d.Ledger) : (d.queue.map Task.fingerprint).Nodup := by
  have hopen := h.nodup
  rw [openKeys, openTasks, List.map_append] at hopen
  exact (List.nodup_append.mp hopen).1

/-- A task with a worker is not queued. -/
theorem notMem_queue (h : d.Ledger) {k : Fingerprint} (hk : k ∈ d.heldKeys) :
    k ∉ d.queue.map Task.fingerprint := fun hmem => by
  have hopen := h.nodup
  rw [openKeys, openTasks, List.map_append] at hopen
  exact (List.nodup_append.mp hopen).2.2 k hmem k hk rfl

/-- Whoever asks for a task with a worker is waiting for it. -/
theorem mem_keys_of_held (h : d.Ledger) {k : Fingerprint} (hk : k ∈ d.heldKeys) :
    k ∈ d.pending.keys := by
  rw [← h.mem_openKeys_iff, openKeys, openTasks, List.map_append]
  exact List.mem_append_right _ hk

end Ledger

/-- Tasks with workers keep those who wait for them. -/
theorem Rejects.waiting_of_held {why : Failure} (h : Rejects d why d') (hl : d.Ledger)
    {k : Fingerprint} (hk : k ∈ d.heldKeys) : d'.pending.waiting k = d.pending.waiting k := by
  rw [h.waiting, if_neg (hl.notMem_queue hk)]

/-- A failed state of the gate rejects the queue, after it has been announced. -/
theorem observe_failed_rejects (hn : (d.queue.map Task.fingerprint).Nodup) (why : Failure) :
    Rejects d why (d.observe (.failed why)) := by
  have hrejects := rejectQueue_rejects
    (d := d.note [.published (.readinessFailed why.message)]) hn why
  exact {
    answered := by
      refine hrejects.answered.trans ?_
      rw [answered_note]
      exact congrArg (· ++ _) (List.append_nil _)
    waiting := hrejects.waiting
    queue := hrejects.queue
    pool := hrejects.pool
    cache := hrejects.cache
    handed := hrejects.handed.trans (handedKeys_note_of_forall (by simp [Effect.handed?])) }

/-! ## What is left in the queue

Whether tasks are kept back is asked of the dispatcher between its handlers, when all that can be
handed out has been. -/

/-- **Nothing is kept back**: with an open gate, tasks are queued only if every worker has one, and
with a failed gate none is queued. -/
structure Tidy (d : Dispatcher ω) : Prop where
  busy : d.readiness = .ready → d.queue = [] ∨ ∀ slot ∈ d.slots, slot.held ≠ none
  empty : ∀ why, d.readiness = .failed why → d.queue = []

namespace Tidy

theorem of_queue (hq : d.queue = []) : d.Tidy := ⟨fun _ => .inl hq, fun _ _ => hq⟩

/-- Being tidy depends on the gate, on the queue and on which slots hold a task. -/
theorem congr (h : d.Tidy) (hready : d'.readiness = d.readiness) (hqueue : d'.queue = d.queue)
    (hheld : d'.slots.map Slot.held = d.slots.map Slot.held) : d'.Tidy where
  busy hopen := by
    rw [hqueue]
    refine (h.busy (hready.symm.trans hopen)).imp_right fun hall slot hmem => ?_
    have hheldMem : slot.held ∈ d.slots.map Slot.held := hheld ▸ List.mem_map_of_mem hmem
    obtain ⟨slot', hmem', heq⟩ := List.mem_map.mp hheldMem
    exact heq ▸ hall slot' hmem'
  empty why hfailed := hqueue.trans (h.empty why (hready.symm.trans hfailed))

/-- So the same holdings are equally tidy. -/
theorem of_holdings (h : d.Tidy) (heq : d'.holdings = d.holdings) : d'.Tidy := by
  unfold holdings at heq
  injection heq with _ heq
  injection heq with hqueue heq
  injection heq with hpool heq
  injection heq with _ hready
  exact h.congr hready hqueue (by rw [slots, hpool, slots])

/-- Handing out leaves nothing behind that could go. -/
theorem handOut (h : ∀ why, d.readiness = .failed why → d.queue = []) : d.handOut.Tidy where
  busy hopen := by
    have hready : d.readiness = .ready := (readiness_handOut d).symm.trans hopen
    rw [Dispatcher.handOut, if_pos hready]
    exact handOutFrom_busy d.queue
  empty why hfailed := by
    have hready : d.readiness = .failed why := (readiness_handOut d).symm.trans hfailed
    rw [Dispatcher.handOut, if_neg (by rw [hready]; exact nofun)]
    exact h why hready

/-- A request that opens a task hands out what it can; the others leave the holdings or, if they
join, only add a caller. -/
theorem accept (h : d.Tidy) (job : Job) (w : ω) : (d.accept job w).Tidy := by
  cases hc : d.cache.get? job.fingerprint with
  | some artifact => exact h.of_holdings (accept_of_get? hc w).1
  | none =>
      by_cases hr : ∃ why, d.readiness = .failed why
      · obtain ⟨why, hwhy⟩ := hr
        exact h.of_holdings (accept_of_failed hc hwhy w).1
      · have hopen : ∀ why, d.readiness ≠ .failed why := fun why hwhy => hr ⟨why, hwhy⟩
        by_cases hk : job.fingerprint ∈ d.pending.keys
        · rw [accept_of_mem hc hopen hk]
          exact h.congr rfl rfl rfl
        · rw [accept_of_notMem hc hopen hk]
          exact handOut fun why hwhy => absurd hwhy (hopen why)

theorem takeReport (h : d.Tidy) (c : WorkReport) : (d.takeReport c).Tidy := by
  rw [takeReport_eq]
  refine handOut fun why hfailed => (settle_queue d c).trans (h.empty why ?_)
  exact (congrArg Standing.readiness (standing_settle d c)).symm.trans hfailed

/-- Whatever state the gate is in, and whatever was there before. -/
theorem observe (d : Dispatcher ω) (state : Readiness) : (d.observe state).Tidy := by
  cases state with
  | pending => exact ⟨nofun, nofun⟩
  | ready =>
      refine handOut fun why hfailed => ?_
      have hready : (d.see .ready).readiness = .ready :=
        congrArg Standing.readiness (standing_see d .ready)
      have hopen : Readiness.ready = .failed why := hready.symm.trans hfailed
      cases hopen
  | failed why => exact of_queue rfl

end Tidy

end AvatarPool.Dispatcher
