import AvatarPool.Dispatcher
import AvatarPool.Proofs.Dispatch.Slots
import AvatarPool.Proofs.Tables
import Mathlib.Data.List.Induction

/-! # What the dispatcher does

Every handler of the dispatcher is a short path of deeds: it admits a request, settles a report or
observes the gate, and then tasks leave the queue one by one.  `Does` says once what each deed needs
and changes; what holds of every path is proved of one deed at a time.

This is the one place where the handlers of the model are opened.  `Does` has one constructor for
each branch that a handler can take, with the conditions of that branch as its hypotheses; a `Path`
is a sequence of such deeds, and for each handler there is a lemma that it is a path of a certain
form.  All later modules prove what a deed preserves, by cases on `Does`, and get it for paths by
induction, so that a change to a handler is met by its path lemma and perhaps by one constructor
more.

Effects are what a dispatcher leaves behind of its deeds: hand-overs, rejections, answers, events
and counted requests.  What has happened is read off them, kind by kind, which is why the lemmas
about filtered effects stand here. -/

namespace AvatarPool

/-- What the dispatcher can do in one go. -/
inductive Deed (ω : Type) where
  /-- It takes a request. -/
  | accept (job : Job) (caller : ω)
  /-- It hands the oldest queued task to an idle worker. -/
  | hand (worker : Nat) (task : Task)
  /-- It rejects the oldest queued task. -/
  | drop (task : Task) (why : Failure)
  /-- It takes a worker's report. -/
  | settle (report : WorkReport)
  /-- It takes a state of the gate. -/
  | observe (state : Readiness)
  /-- A worker goes on with its work. -/
  | work
  /-- It rejects everyone who waits. -/
  | clear (why : Failure)
  /-- It refuses a request that has come too late. -/
  | refuse (job : Job) (caller : ω)

namespace Deed

variable {ω : Type}

/-- The request that a deed answers or admits. -/
def request? : Deed ω → Option (Job × ω)
  | accept job w => some (job, w)
  | refuse job w => some (job, w)
  | _ => none

/-- The report that a deed takes. -/
def report? : Deed ω → Option WorkReport
  | settle c => some c
  | _ => none

/-- Whether the deed can be done once everyone who waited has been rejected.  By then nobody waits,
so that only late requests can still be answered. -/
def isLast : Deed ω → Bool
  | work | clear _ | refuse _ _ => true
  | _ => false

end Deed

namespace Dispatcher

variable {ω : Type} {d d' d'' : Dispatcher ω}

/-- The slots of the pool, once there is one. -/
def slots (d : Dispatcher ω) : List Slot := (d.pool.map Pool.slots).getD []

theorem slots_of_pool {pool : Pool} (hp : d.pool = some pool) : d.slots = pool.slots := by
  simp [slots, hp]

/-- The tasks noted for workers. -/
def held (d : Dispatcher ω) : List Task := (d.pool.map Pool.held).getD []

/-- The tasks noted for workers are those of the pool, where there is one. -/
theorem held_of_pool {pool : Pool} (hp : d.pool = some pool) : d.held = pool.held := by
  simp [held, hp]

/-- The tasks under way: queued, or noted for a worker.  These are the tasks for which callers wait.
-/
def openTasks (d : Dispatcher ω) : List Task := d.queue ++ d.held

/-! ## Deeds -/

/-- A request joins those that wait for its task. -/
def join (d : Dispatcher ω) (job : Job) (w : ω) : Dispatcher ω :=
  { d with
    pending := (d.pending.enter job.fingerprint w).1
    stats := { d.stats with
      requests := d.stats.requests + 1
      coalesced := d.stats.coalesced + 1 } }

/-- A request opens a task, which goes to the end of the queue. -/
def openTask (d : Dispatcher ω) (job : Job) (w : ω) : Dispatcher ω :=
  { d with
    stats := { d.stats with requests := d.stats.requests + 1 }
    pending := (d.pending.enter job.fingerprint w).1
    queue := d.queue ++ [Task.ofJob job] }.note [.queued (Task.ofJob job)]

/-- A task goes to the box of an idle worker. -/
def pass (d : Dispatcher ω) (pool : Pool) (k : Nat) (task : Task) : Dispatcher ω :=
  { d with
    pool := some (pool.box k task)
    stats := { d.stats with dispatched := d.stats.dispatched + 1 } }.note [.handed k task]

/-- A task is rejected for all its callers. -/
def reject (d : Dispatcher ω) (task : Task) (why : Failure) : Dispatcher ω :=
  (d.note [.dropped task why]).answerAll task.fingerprint (.error why)

/-- Keeps the result of a report, or counts its failure.  In between, its worker is free already and
its callers are not told yet; this part of a report neither tells anybody nor touches who waits. -/
def book (d : Dispatcher ω) (c : WorkReport) : Dispatcher ω :=
  match c.outcome with
  | .ok artifact => d.keep c.fingerprint artifact
  | .error _ => d.countFailure

/-- A report frees its worker, and its callers are answered. -/
def settle (d : Dispatcher ω) (c : WorkReport) : Dispatcher ω :=
  ((d.releaseWorker c.worker).book c).answerAll c.fingerprint c.outcome

/-- Notes a state of the gate, with the pool that an open gate creates. -/
def see (d : Dispatcher ω) (state : Readiness) : Dispatcher ω :=
  match state with
  | .pending => { d with readiness := .pending }
  | .ready => { d with readiness := .ready }.openPool
  | .failed why =>
    { d.note [.published (.readinessFailed why.message)] with readiness := .failed why }

/-- What does not depend on the gate, the pool and the effects stays when a state of the gate is
noted. -/
theorem see_congr {α : Type} {f : Dispatcher ω → α}
    (hf : ∀ (d : Dispatcher ω) r p es,
      f { d with readiness := r, pool := p, effects := es } = f d)
    (d : Dispatcher ω) (state : Readiness) : f (d.see state) = f d := by
  cases state with
  | pending => exact hf d .pending d.pool d.effects
  | ready =>
      unfold see openPool
      dsimp only
      split
      · exact hf d .ready d.pool d.effects
      · exact hf d .ready _ _
  | failed why => exact hf d (.failed why) d.pool _

/-- The four instances for what a state of the gate leaves alone: the queue, who waits, the cache
and the counters. -/
theorem see_queue (d : Dispatcher ω) (state : Readiness) : (d.see state).queue = d.queue :=
  see_congr (fun _ _ _ _ => rfl) d state

theorem see_pending (d : Dispatcher ω) (state : Readiness) : (d.see state).pending = d.pending :=
  see_congr (fun _ _ _ _ => rfl) d state

theorem see_cache (d : Dispatcher ω) (state : Readiness) : (d.see state).cache = d.cache :=
  see_congr (fun _ _ _ _ => rfl) d state

theorem see_stats (d : Dispatcher ω) (state : Readiness) : (d.see state).stats = d.stats :=
  see_congr (fun _ _ _ _ => rfl) d state

/-- **One deed**: what it needs, and what it makes of the dispatcher.  The constructors are those of
the source's branches: the first four are the ways in which a request is taken, and the others one
deed each.  Handing out needs an open gate, a task at the front of the queue and a worker that is
idle; a report needs a worker that holds its task; what a worker does by itself must leave the tasks
in their slots. -/
inductive Does : Dispatcher ω → Deed ω → Dispatcher ω → Prop
  | hit {d : Dispatcher ω} {job : Job} {artifact : Artifact} (w : ω)
      (hc : d.cache.get? job.fingerprint = some artifact) :
      Does d (.accept job w)
        ({ d with stats := { d.stats with
            requests := d.stats.requests + 1
            cacheHits := d.stats.cacheHits + 1 } }.note [.answered w (.ok artifact)])
  | refused {d : Dispatcher ω} {job : Job} {why : Failure} (w : ω)
      (hc : d.cache.get? job.fingerprint = none) (hr : d.readiness = .failed why) :
      Does d (.accept job w)
        ({ d with stats := { d.stats with requests := d.stats.requests + 1 } }.note
          [.answered w (.error why)])
  | joined {d : Dispatcher ω} {job : Job} (w : ω)
      (hc : d.cache.get? job.fingerprint = none) (hr : ∀ why, d.readiness ≠ .failed why)
      (hk : job.fingerprint ∈ d.pending.keys) : Does d (.accept job w) (d.join job w)
  | opened {d : Dispatcher ω} {job : Job} (w : ω)
      (hc : d.cache.get? job.fingerprint = none) (hr : ∀ why, d.readiness ≠ .failed why)
      (hk : job.fingerprint ∉ d.pending.keys) : Does d (.accept job w) (d.openTask job w)
  | handed {d : Dispatcher ω} {task : Task} {rest : List Task} {pool : Pool} {k : Nat}
      (hr : d.readiness = .ready) (hq : d.queue = task :: rest) (hp : d.pool = some pool)
      (hi : pool.idle? = some k) (hk : pool.slots[k]? = some {}) :
      Does d (.hand k task) ({ d with queue := rest }.pass pool k task)
  | dropped {d : Dispatcher ω} {task : Task} {rest : List Task} (why : Failure)
      (hq : d.queue = task :: rest) :
      Does d (.drop task why) ({ d with queue := rest }.reject task why)
  | settled {d : Dispatcher ω} {c : WorkReport} {task : Task} {pool : Pool}
      (hp : d.pool = some pool) (hk : pool.slots[c.worker]? = some { held := some task })
      (hf : c.fingerprint = task.fingerprint) : Does d (.settle c) (d.settle c)
  | observed (d : Dispatcher ω) (state : Readiness) : Does d (.observe state) (d.see state)
  | worked {d : Dispatcher ω} {pool pool' : Pool} (hp : d.pool = some pool)
      (hh : pool'.held = pool.held) : Does d .work { d with pool := some pool' }
  | cleared (d : Dispatcher ω) (why : Failure) : Does d (.clear why) (d.rejectPending why)
  | late (d : Dispatcher ω) (job : Job) (w : ω) :
      Does d (.refuse job w) (d.note [.answered w (.error .shuttingDown)])

/-- Deeds one after the other. -/
inductive Path (d : Dispatcher ω) : List (Deed ω) → Dispatcher ω → Prop
  -- A path grows at its end: the invariants are carried from deed to deed.
  | nil : Path d [] d
  | snoc {d' d'' : Dispatcher ω} {ds : List (Deed ω)} {x : Deed ω} :
      Path d ds d' → Does d' x d'' → Path d (ds ++ [x]) d''

/-- A path is made longer at its end by another path. -/
theorem Path.append {ds es : List (Deed ω)} (h : Path d ds d') (h' : Path d' es d'') :
    Path d (ds ++ es) d'' := by
  induction h' with
  | nil => simpa using h
  | snoc _ hx ih =>
      rw [← List.append_assoc]
      exact ih.snoc hx

/-- Nothing done leaves everything. -/
theorem Path.eq_of_nil (h : Path d [] d') : d' = d := by
  generalize hl : ([] : List (Deed ω)) = l at h
  cases h with
  | nil => rfl
  | snoc => simp at hl

/-- The last deed of a path can be split off, which is what an induction along the end needs. -/
theorem Path.exists_of_snoc {ds : List (Deed ω)} {x : Deed ω} (h : Path d (ds ++ [x]) d') :
    ∃ e, Path d ds e ∧ Does e x d' := by
  generalize hl : ds ++ [x] = l at h
  cases h with
  | nil => simp at hl
  | snoc hpath hx =>
      obtain ⟨rfl, hlast⟩ := List.append_inj' hl rfl
      obtain rfl := List.head_eq_of_cons_eq hlast
      exact ⟨_, hpath, hx⟩

/-- So a path splits wherever its deeds do. -/
theorem Path.exists_of_append {ds es : List (Deed ω)} (h : Path d (ds ++ es) d') :
    ∃ e, Path d ds e ∧ Path e es d' := by
  induction es using List.reverseRecOn generalizing d' with
  | nil => exact ⟨d', (List.append_nil ds) ▸ h, .nil⟩
  | append_singleton es x ih =>
      rw [← List.append_assoc] at h
      obtain ⟨e, hpath, hx⟩ := h.exists_of_snoc
      obtain ⟨e', hfirst, hrest⟩ := ih hpath
      exact ⟨e', hfirst, hrest.snoc hx⟩

theorem Does.path {x : Deed ω} (h : Does d x d') : Path d [x] d' := Path.snoc .nil h

theorem Does.cons {x : Deed ω} {ds : List (Deed ω)} (h : Does d x d') (h' : Path d' ds d'') :
    Path d (x :: ds) d'' :=
  h.path.append h'

/-! ## Effects of one kind

Each later module picks the effects of one kind with a function `f`.  The lemmas say for any such
function which deeds leave what it picks, so that no module has to look at the effects themselves.
-/

section Kind

variable {α : Type} {f : Effect ω → Option α}

theorem filterMap_note (d : Dispatcher ω) (es : List (Effect ω)) :
    (d.note es).effects.filterMap f = d.effects.filterMap f ++ es.filterMap f :=
  List.filterMap_append

theorem filterMap_note_of_forall {es : List (Effect ω)} (h : ∀ e ∈ es, f e = none) :
    (d.note es).effects.filterMap f = d.effects.filterMap f := by
  rw [filterMap_note, List.filterMap_eq_nil_iff.mpr h, List.append_nil]

/-- Telling everyone under a key adds answers only. -/
theorem filterMap_answerAll (h : ∀ w o, f (.answered w o) = none) (d : Dispatcher ω)
    (k : Fingerprint) (o : Outcome) :
    (d.answerAll k o).effects.filterMap f = d.effects.filterMap f :=
  filterMap_note_of_forall (d := { d with pending := (d.pending.close k).1 })
    (List.forall_mem_map.mpr fun w _ => h w o)

/-- Settling a report adds answers only. -/
theorem filterMap_settle (h : ∀ w o, f (.answered w o) = none) (d : Dispatcher ω)
    (c : WorkReport) : (d.settle c).effects.filterMap f = d.effects.filterMap f := by
  unfold settle book
  rw [filterMap_answerAll h]
  split <;> rfl

/-- Rejecting everyone adds answers only. -/
theorem filterMap_rejectPending (h : ∀ w o, f (.answered w o) = none) (d : Dispatcher ω)
    (why : Failure) : (d.rejectPending why).effects.filterMap f = d.effects.filterMap f := by
  refine filterMap_note_of_forall (d := { d with pending := (d.pending.closeAll).1 }) fun e he => ?_
  obtain ⟨entry, -, he⟩ := List.mem_flatMap.mp he
  obtain ⟨w, -, rfl⟩ := List.mem_map.mp he
  exact h w _

/-- A state of the gate is at most published, and at most starts a pool. -/
theorem filterMap_see (hpublished : ∀ event, f (.published event) = none)
    (hstarted : ∀ size, f (.started size) = none) (d : Dispatcher ω) (state : Readiness) :
    (d.see state).effects.filterMap f = d.effects.filterMap f := by
  cases state with
  | pending => rfl
  | ready =>
      unfold see openPool
      dsimp only
      split
      · rfl
      · exact filterMap_note_of_forall (by simp [hpublished, hstarted])
  | failed why =>
      show (d.note [.published (.readinessFailed why.message)]).effects.filterMap f = _
      exact filterMap_note_of_forall (by simp [hpublished])

end Kind

/-! ## Effects grow

What a dispatcher has noted before makes no difference to what it does.  This is needed where the
effects of a step are looked at by themselves, after those of earlier steps have been taken out. -/

/-- The dispatcher with earlier effects put in front. -/
def after (d : Dispatcher ω) (es : List (Effect ω)) : Dispatcher ω :=
  { d with effects := es ++ d.effects }

theorem after_note (d : Dispatcher ω) (es fs : List (Effect ω)) :
    (d.note fs).after es = (d.after es).note fs := by
  simp [note, after]

/-- A state of the gate is noted alike. -/
theorem after_see (d : Dispatcher ω) (es : List (Effect ω)) (state : Readiness) :
    (d.see state).after es = (d.after es).see state := by
  cases state with
  | pending => rfl
  | ready =>
      unfold see openPool after
      cases d.pool <;> simp [note]
  | failed why => simp [see, note, after]

theorem after_reject (d : Dispatcher ω) (es : List (Effect ω)) (task : Task) (why : Failure) :
    (d.reject task why).after es = (d.after es).reject task why := by
  simp [reject, answerAll, note, after]

theorem after_settle (d : Dispatcher ω) (es : List (Effect ω)) (c : WorkReport) :
    (d.settle c).after es = (d.after es).settle c := by
  unfold settle book
  cases c.outcome <;> exact after_note _ _ _

/-- Deeds do not look at effects.  So a deed done from some effects is done from any. -/
theorem Does.after {x : Deed ω} (h : Does d x d') (es : List (Effect ω)) :
    Does (d.after es) x (d'.after es) := by
  cases h with
  | hit w hc => rw [after_note]; exact .hit (d := d.after es) w hc
  | refused w hc hr => rw [after_note]; exact .refused (d := d.after es) w hc hr
  | joined w hc hr hk => exact .joined (d := d.after es) w hc hr hk
  | opened w hc hr hk =>
      unfold openTask
      rw [after_note]
      exact .opened (d := d.after es) w hc hr hk
  | handed hr hq hp hi hk =>
      unfold pass
      rw [after_note]
      exact .handed (d := d.after es) hr hq hp hi hk
  | dropped why hq => rw [after_reject]; exact .dropped (d := d.after es) why hq
  | settled hp hk hf => rw [after_settle]; exact .settled (d := d.after es) hp hk hf
  | observed state => rw [after_see]; exact .observed _ state
  | worked hp hh => exact .worked (d := d.after es) hp hh
  | cleared why =>
      have heq : (d.rejectPending why).after es = (d.after es).rejectPending why := after_note _ _ _
      rw [heq]
      exact .cleared _ why
  | late job w => rw [after_note]; exact .late _ job w

/-- A path can be taken with other effects before it. -/
theorem Path.after {ds : List (Deed ω)} (h : Path d ds d') (es : List (Effect ω)) :
    Path (d.after es) ds (d'.after es) := by
  induction h with
  | nil => exact .nil
  | snoc _ hx ih => exact ih.snoc (hx.after es)

/-- An open gate adds effects at the end, if any. -/
theorem openPool_effects_isPrefix (d : Dispatcher ω) : d.effects <+: d.openPool.effects := by
  unfold openPool
  split
  · exact List.prefix_rfl
  · exact List.prefix_append _ _

/-- Every deed adds effects at the end and takes none back. -/
theorem Does.effects_isPrefix {x : Deed ω} (h : Does d x d') : d.effects <+: d'.effects := by
  cases h with
  | hit | refused | opened | handed | late | cleared => exact List.prefix_append _ _
  | joined | worked => exact List.prefix_rfl
  | dropped => exact (List.prefix_append _ _).trans (List.prefix_append _ _)
  | settled =>
      unfold settle book
      split <;> exact List.prefix_append _ _
  | observed state =>
      cases state with
      | pending => exact List.prefix_rfl
      | ready => exact openPool_effects_isPrefix { d with readiness := .ready }
      | failed => exact List.prefix_append _ _

/-- So what has been noted stays, and in its order. -/
theorem Path.effects_isPrefix {ds : List (Deed ω)} (h : Path d ds d') :
    d.effects <+: d'.effects := by
  induction h with
  | nil => exact List.prefix_rfl
  | snoc _ hx ih => exact ih.trans hx.effects_isPrefix

/-! ## Handlers as paths

For each handler, the path that it is.  The deeds after the first are of one kind, which the
statements give: hand-overs, or rejections of queued tasks. -/

/-- To an idle worker a hand-over cannot fail, so it is the passing of a task. -/
theorem hand_of_idle {pool : Pool} {k : Nat} (hk : pool.slots[k]? = some {}) (task : Task) :
    d.hand pool k task = d.pass pool k task := by
  unfold hand
  rw [Pool.give_of_idle hk]
  rfl

/-- A task goes to a worker that is idle in every respect; as the worker has a task then, it is none
of the idle ones. -/
theorem hand_of_ready {pool : Pool} {k : Nat} (hs : Ready d.slots) (hp : d.pool = some pool)
    (hi : pool.idle? = some k) (task : Task) :
    pool.slots[k]? = some {} ∧ d.hand pool k task = d.pass pool k task ∧
      Ready (d.pass pool k task).slots := by
  have hready : Ready pool.slots := slots_of_pool hp ▸ hs
  have hk := Pool.getElem?_of_idle? hready hi
  exact ⟨hk, hand_of_idle hk task, hready.set k (by simp)⟩

/-- Handing out is a path of hand-overs.  By induction on the tasks on offer: that idle workers have
nothing to do is kept by each hand-over, and it is what lets the next one succeed. -/
theorem handOutFrom_path (ts : List Task) (hr : d.readiness = .ready) (hs : Ready d.slots) :
    ∃ hs : List (Nat × Task),
      Path { d with queue := ts } (hs.map fun h => .hand h.1 h.2) (d.handOutFrom ts) := by
  -- Over the tasks still on offer: the queue of `d` is written only where the handing out stops.
  induction ts generalizing d with
  | nil => exact ⟨[], .nil⟩
  | cons task rest ih =>
      -- No pool, hence no worker, and the rest stays queued.
      rcases Option.eq_none_or_eq_some d.pool with hp | ⟨pool, hp⟩
      · have heq : d.handOutFrom (task :: rest) = { d with queue := task :: rest } := by
          simp only [handOutFrom, hp]
        exact ⟨[], heq ▸ .nil⟩
      -- No worker is idle.
      · rcases Option.eq_none_or_eq_some pool.idle? with hi | ⟨k, hi⟩
        · have heq : d.handOutFrom (task :: rest) = { d with queue := task :: rest } := by
            simp only [handOutFrom, hp, hi]
          exact ⟨[], heq ▸ .nil⟩
        -- A worker is idle: it gets the task, and the others are on offer to the workers that are
        -- left.
        · obtain ⟨hk, hpass, hready⟩ := hand_of_ready hs hp hi task
          have heq : d.handOutFrom (task :: rest) = (d.pass pool k task).handOutFrom rest := by
            rw [← hpass]
            simp only [handOutFrom, hp, hi]
          obtain ⟨hs', hpath⟩ := ih (d := d.pass pool k task) hr hready
          refine ⟨(k, task) :: hs', heq ▸ Does.cons ?_ hpath⟩
          exact .handed (d := { d with queue := task :: rest }) hr rfl hp hi hk

/-- With a gate that is not open nothing is handed out. -/
theorem handOut_path (hs : Ready d.slots) :
    ∃ hs : List (Nat × Task), Path d (hs.map fun h => .hand h.1 h.2) d.handOut := by
  unfold handOut
  split
  · exact handOutFrom_path d.queue ‹_› hs
  · exact ⟨[], .nil⟩

/-- A request is admitted, and then tasks are handed out.  Only a request that opens a task is
followed by hand-overs; the other three branches are one deed. -/
theorem accept_path (hs : Ready d.slots) (job : Job) (w : ω) :
    ∃ hs : List (Nat × Task),
      Path d (.accept job w :: hs.map fun h => .hand h.1 h.2) (d.accept job w) := by
  unfold accept
  dsimp only
  -- The branches of the handler, in its order: cached, refused, joined, opened.
  split
  · rename_i artifact hc
    exact ⟨[], (Does.hit w hc).path⟩
  · rename_i hc
    split
    · rename_i why hr
      exact ⟨[], (Does.refused w hc hr).path⟩
    · rename_i hr
      by_cases hk : job.fingerprint ∈ d.pending.keys
      · have hdoes := Does.joined w hc hr hk
        unfold join at hdoes
        rw [Pending.enter_of_mem w hk] at hdoes ⊢
        exact ⟨[], hdoes.path⟩
      · obtain ⟨hs', hpath⟩ := handOut_path (d := d.openTask job w) hs
        refine ⟨hs', (Does.opened w hc hr hk).cons ?_⟩
        unfold openTask at hpath ⊢
        rw [Pending.enter_of_notMem w hk] at hpath ⊢
        exact hpath

theorem takeReport_eq (d : Dispatcher ω) (c : WorkReport) :
    d.takeReport c = (d.settle c).handOut := by
  unfold takeReport settle book
  rfl

/-- Settling frees the worker's slot and touches nothing else of the pool. -/
theorem settle_pool {c : WorkReport} : (d.settle c).pool = d.pool.map fun p => p.free c.worker := by
  unfold settle book
  cases c.outcome <;> rfl

/-- A report is settled, and then tasks are handed out. -/
theorem takeReport_path {c : WorkReport} {rest : List WorkReport}
    (h : Carried d.slots (c :: rest)) :
    ∃ hs : List (Nat × Task),
      Path d (.settle c :: hs.map fun h => .hand h.1 h.2) (d.takeReport c) := by
  obtain ⟨task, hk, hf, -⟩ := h.head
  rcases Option.eq_none_or_eq_some d.pool with hp | ⟨pool, hp⟩
  -- Without a pool there is no worker, so nobody could have reported.
  · simp [slots, hp] at hk
  · rw [slots_of_pool hp] at h hk
    have hready : Ready (d.settle c).slots := by
      rw [slots, settle_pool, hp, Option.map_some, Option.map_some, Pool.free_of_held hk]
      exact h.free.ready
    obtain ⟨hs', hpath⟩ := handOut_path hready
    exact ⟨hs', takeReport_eq d c ▸ (Does.settled hp hk hf).cons hpath⟩

/-- Rejecting tasks is a path of drops.  By induction on the tasks, each of which is dropped in one
deed. -/
theorem rejectFrom_path (ts : List Task) (why : Failure) :
    Path { d with queue := ts } (ts.map fun t => .drop t why)
      { ts.foldl (fun d t => d.reject t why) d with queue := [] } := by
  induction ts generalizing d with
  | nil => exact .nil
  | cons t rest ih =>
      refine Does.cons ?_ (ih (d := d.reject t why))
      exact .dropped (d := { d with queue := t :: rest }) why rfl

/-- The tasks of the queue are rejected, the oldest first. -/
theorem rejectQueue_path (d : Dispatcher ω) (why : Failure) :
    Path d (d.queue.map fun t => .drop t why) (d.rejectQueue why) :=
  rejectFrom_path d.queue why

/-- The rejections do not look at the gate, so it does not matter whether its state is noted before
or after them. -/
theorem rejectFrom_readiness (ts : List Task) (why : Failure) (r : Readiness) :
    ts.foldl (fun d t => d.reject t why) { d with readiness := r } =
      { ts.foldl (fun d t => d.reject t why) d with readiness := r } := by
  induction ts generalizing d with
  | nil => rfl
  | cons t rest ih => exact ih (d := d.reject t why)

/-- A pool that is opened has the slots of the pool there was, or fresh ones. -/
theorem openPool_slots (d : Dispatcher ω) :
    d.openPool.slots = d.slots ∨ ∃ size, d.openPool.slots = List.replicate size {} := by
  rcases Option.eq_none_or_eq_some d.pool with hp | ⟨pool, hp⟩
  · right
    simp only [openPool, hp]
    exact ⟨_, rfl⟩
  · left
    simp only [openPool, hp]

/-- A state of the gate is noted; then tasks are handed out or rejected. -/
theorem observe_path (hs : Ready d.slots) (state : Readiness) :
    ∃ ds : List (Deed ω), Path d (.observe state :: ds) (d.observe state) ∧
      ((∃ hs : List (Nat × Task), ds = hs.map fun h => .hand h.1 h.2) ∨
        ∃ why, state = .failed why ∧ ds = d.queue.map fun t => .drop t why) := by
  cases state with
  | pending => exact ⟨[], (Does.observed d .pending).path, .inl ⟨[], rfl⟩⟩
  | ready =>
      -- The gate is open: a pool is made if there is none, and idle workers of either have nothing
      -- to do.
      have hready : Ready (d.see .ready).slots := by
        rcases openPool_slots { d with readiness := .ready } with h | ⟨size, h⟩
        · exact h ▸ hs
        · exact h ▸ (Carried.fresh size).ready
      obtain ⟨hs', hpath⟩ := handOut_path hready
      exact ⟨_, (Does.observed d .ready).cons hpath, .inl ⟨hs', rfl⟩⟩
  -- The gate has failed: the queue is rejected.
  | failed why =>
      have hpath := rejectQueue_path (d.see (.failed why)) why
      -- `observe` notes the state after the rejections, the path before them.
      have heq : (d.see (.failed why)).rejectQueue why = d.observe (.failed why) := by
        have hcomm := rejectFrom_readiness (d := d.note [.published (.readinessFailed why.message)])
          d.queue why (.failed why)
        exact congrArg (fun e : Dispatcher ω => { e with queue := [] }) hcomm
      exact ⟨_, (Does.observed d (.failed why)).cons (heq ▸ hpath), .inr ⟨why, rfl, rfl⟩⟩

/-! ## Tasks stay in their places

The invariant of `Dispatch.Slots` is about slots and unread reports.  The dispatcher fills slots and
frees them; a worker's own deeds are left to the modules about workers. -/

/-- A new pool has fresh workers, of whom no report is known. -/
theorem openPool_carried {reports : List WorkReport} (h : Carried d.slots reports) :
    Carried d.openPool.slots reports := by
  rcases Option.eq_none_or_eq_some d.pool with hp | ⟨pool, hp⟩
  · have hslots : d.slots = [] := by simp [slots, hp]
    rw [hslots] at h
    have hnone : reports = [] := List.eq_nil_iff_forall_not_mem.mpr fun c hc =>
      absurd (h.known c hc) (Nat.not_lt_zero _)
    simp only [openPool, hp, hnone]
    exact Carried.fresh _
  · simpa only [openPool, hp] using h

/-- The dispatcher's deeds keep every task in its place; a settled report is read. -/
theorem Does.carried {x : Deed ω} (hx : Does d x d') (hwork : x ≠ .work)
    {reports : List WorkReport} (h : Carried d.slots (x.report?.toList ++ reports)) :
    Carried d'.slots reports := by
  cases hx with
  | hit | refused | joined | opened | dropped | cleared | late => exact h
  | @handed task rest pool k hr hq hp hi hk =>
      rw [slots_of_pool hp] at h
      exact h.give hk task
  | @settled c task pool hp hk hf =>
      rw [slots_of_pool hp] at h
      rw [slots, settle_pool, hp, Option.map_some, Option.map_some, Pool.free_of_held hk]
      exact h.free
  | observed state =>
      cases state with
      | pending => exact h
      | ready => exact openPool_carried (d := { d with readiness := .ready }) h
      | failed => exact h
  | worked => exact absurd rfl hwork

/-- After a path every slot is as the reports that are left say.  By induction on the path, which
reads its reports in their order. -/
theorem Path.carried {ds : List (Deed ω)} (hpath : Path d ds d') (hwork : .work ∉ ds)
    {reports : List WorkReport} (h : Carried d.slots (ds.filterMap Deed.report? ++ reports)) :
    Carried d'.slots reports := by
  induction hpath generalizing reports with
  | nil => exact h
  | @snoc _ _ ds x _ hx ih =>
      refine hx.carried (fun hxw => hwork (by simp [hxw])) (ih (fun hmem => hwork ?_) ?_)
      · exact List.mem_append_left _ hmem
      · rwa [filterMap_snoc, List.append_assoc] at h

end Dispatcher

end AvatarPool
