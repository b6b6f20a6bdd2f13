import AvatarPool.Proofs.Dispatch.Purity
import AvatarPool.Proofs.Service.Waiters

/-! # A service in front of a pure engine

Behind a gate that does not fail, and until somebody has it stop, a service in front of a pure engine
tells every caller just what the engine yields for his job.  Which invocation it was, whether the
caller shared it, and in which order the parties made their moves cannot be seen.

Agreement is kept by every calm move, and every calm move tells callers what the engine yields.
Both come from the path of deeds behind the move, of which each deed is calm; the work of this
module is to see that what a handler runs with is calm, and that a stop cannot begin as long as a
handle is left and nobody asks for one. -/

namespace AvatarPool

variable {ω : Type} {e : PureEngine}

/-- Whether a move is one of parties who neither ask for a stop nor fail the gate, and whether an
invocation that it ends yields what the engine makes of the job.  An engine that is pure leaves an
invocation no choice, which is the condition on its end. -/
def Move.IsCalm (e : PureEngine) : Move ω → Prop
  | .stop _ => False
  | .setGate state => ∀ why, state ≠ .failed why
  | .finish _ task ending => ending = e.ending task.job
  | _ => True

namespace Service

variable {s t : Service ω} {m : Move ω}

/-- **A service that agrees with an engine**: it serves, nobody has asked it to stop, the gate shows
no failure, and what it keeps and what its workers have reported is what the engine yields.  The
ledger is part of it, because the tasks that workers are at must be those of the jobs that callers
have asked for. -/
structure Agrees (e : PureEngine) (s : Service ω) : Prop where
  serves : ¬ s.isStopping
  ledger : s.core.Ledger
  core : s.core.Agrees e
  gate : ∀ why, s.gate.state ≠ .failed why
  reports : ∀ c ∈ s.reports, c.outcome = e.told c.fingerprint
  unasked : ∀ w, .stop w ∉ s.commands

/-- A fresh service keeps nothing, and so agrees with every engine. -/
theorem agrees_ofConfig (e : PureEngine) (config : PoolSettings) {gate : Gate}
    (hgate : ∀ why, gate.state ≠ .failed why) : (ofConfig config gate : Service ω).Agrees e where
  serves := by simp [ofConfig, isStopping]
  ledger := .ofSize config.poolSize
  core := Dispatcher.agrees_ofSize e config.poolSize
  gate := hgate
  reports := nofun
  unasked := nofun

/-- A loop that does not stop is starting or serving. -/
theorem isRunning_of_not_isStopping (h : ¬ s.isStopping) : s.isRunning := by
  unfold isStopping at h
  unfold isRunning
  split at h <;> rename_i hphase
  · rw [hphase]
  · rw [hphase]
  · exact absurd rfl h

/-- While the loop runs, workers render tasks of their own. -/
theorem own_of_rendering (hs : s.Sound) (hl : s.core.Ledger) (hrun : s.isRunning) {k : Nat}
    {task : Task} {pool : Pool} {slot : Slot} (hp : s.core.pool = some pool)
    (hslot : pool.slots[k]? = some slot) (ha : slot.worker.activity = .rendering task) :
    task = Task.ofJob task.job := by
  have hfits := (Dispatcher.slots_of_pool hp ▸ hs.carried hrun).fits k slot hslot
  generalize reportsOf s.reports k = unread at hfits
  have hheld : slot.held = some task := by
    cases hfits with
    | rendering task' => cases ha; rfl
    | _ => cases ha
  refine hl.own task (List.mem_append_right _ ?_)
  rw [Dispatcher.held_of_pool hp]
  exact List.mem_filterMap.mpr ⟨slot, List.mem_of_getElem? hslot, hheld⟩

/-! ## What a move does -/

/-- What the dispatcher does between two states is calm: it still agrees with the engine, its ledger
is kept, and everyone who is told is told what the engine yields for what he awaited. -/
structure Yields (e : PureEngine) (s t : Service ω) : Prop where
  ledger : t.core.Ledger
  core : t.core.Agrees e
  told : ∀ a ∈ t.answers, a ∈ s.answers ∨ ∃ k, s.Awaits a.1 k ∧ a.2 = e.told k

namespace Yields

variable {u : Service ω}

theorem refl (h : s.Agrees e) : Yields e s s := ⟨h.ledger, h.core, fun _ => .inl⟩

/-- Nothing has changed since but what the dispatcher does not see. -/
theorem congr (h : Yields e s t) (hcore : u.core = t.core) (hanswers : u.answers = t.answers) :
    Yields e s u where
  ledger := hcore ▸ h.ledger
  core := hcore ▸ h.core
  told := hanswers ▸ h.told

/-- Only a worker has gone on. -/
theorem work (h : s.Agrees e) {pool : Pool} (hp : s.core.pool = some pool) {k : Nat} {w : Worker}
    (ha : (s.withPool (pool.setWorker k w)).Aside [] [] t) (hs : ¬ s.hasEnded) : Yields e s t := by
  have hdoes : Dispatcher.Does s.core .work { s.core with pool := some (pool.setWorker k w) } :=
    .worked hp (held_setWorker pool k w)
  have hwork : Yields e s (s.withPool (pool.setWorker k w)) :=
    ⟨hdoes.ledger h.ledger nofun, hdoes.agrees h.core trivial, fun _ => .inl⟩
  refine hwork.congr ha.core ?_
  rw [answers_eq, answers_eq, ha.story hs]

/-- A handler of the dispatcher has done one calm deed, and then handed out tasks.  The first deed
has to be calm, and handing out always is. -/
theorem handler {s' : Service ω} {f : Dispatcher ω → Dispatcher ω} {x : Deed ω}
    {ts : List (Nat × Task)} (hs : s.Sound) (h : s.Agrees e) (hcore : s'.core = s.core)
    (hout : s'.outputs = s.outputs)
    (hpath : Dispatcher.Path s.core (x :: ts.map fun h => .hand h.1 h.2) (f s.core))
    (hx : x.IsCalm e) (hsent : ∀ r ∈ x.request?, r ∈ s.inChannel) : Yields e s (s'.withCore f) := by
  have hcalm : ∀ y ∈ x :: ts.map fun h => (.hand h.1 h.2 : Deed ω), y.IsCalm e :=
    List.forall_mem_cons.mpr ⟨hx, List.forall_mem_map.mpr fun _ _ => trivial⟩
  have hclear : ∀ why, .clear why ∉ x :: ts.map fun h => (.hand h.1 h.2 : Deed ω) :=
    fun why hmem => (hcalm _ hmem).elim
  -- Of these deeds only the first one can take a request.
  have hrequests : (x :: ts.map fun h => (.hand h.1 h.2 : Deed ω)).filterMap Deed.request? =
      x.request?.toList := by
    rw [← List.singleton_append, List.filterMap_append, filterMap_singleton,
      (FollowUp.hands ts).requests, List.append_nil]
  refine ⟨?_, ?_, fun a ha => ?_⟩
  · show ({ f s'.core with effects := [] } : Dispatcher ω).Ledger
    rw [hcore]
    exact (hpath.ledger h.ledger hclear).congr (.refl _) rfl rfl
  · show ({ f s'.core with effects := [] } : Dispatcher ω).Agrees e
    rw [hcore]
    exact (hpath.agrees h.core hcalm).congr rfl rfl
  · have hanswered : a ∈ s.answers ++ (f s.core).answered := by
      rw [answers_eq, story_withCore, hcore, hout] at ha
      rw [answers_eq]
      unfold Dispatcher.answered story
      rw [← List.filterMap_append]
      exact ha
    refine (List.mem_append.mp hanswered).imp_right fun hnew => ?_
    -- Whoever is told has waited before, or is the caller of that request.
    rcases hpath.toldBy h.core hcalm h.ledger.wellFormed hnew with hold | ⟨k, hk, ho⟩
    · rw [Dispatcher.answered, hs.collected] at hold
      exact absurd hold List.not_mem_nil
    · rw [hrequests] at hk
      refine ⟨k, hk.imp_right fun ⟨job, hjob, heq⟩ => ⟨job, ?_, heq⟩, ho⟩
      exact hsent _ (Option.mem_toList.mp hjob)

theorem afterInput (h : Yields e s t) (isReport : Bool) : Yields e s (t.afterInput isReport) := by
  cases isReport <;> exact h.congr rfl rfl

end Yields

/-- The gate shows no failure, so that looking at it can only open it. -/
theorem yields_takeGate (hs : s.Sound) (h : s.Agrees e) : Yields e s s.takeGate := by
  have hrun := isRunning_of_not_isStopping h.serves
  obtain ⟨ds, hpath, hds⟩ := Dispatcher.observe_path (hs.carried hrun).ready s.gate.state
  rcases hds with ⟨ts, rfl⟩ | ⟨why, hwhy, -⟩
  · exact .handler hs h rfl rfl hpath h.gate nofun
  · exact absurd hwhy (h.gate why)

/-- A report that agrees with the engine is kept and told. -/
theorem yields_takeReport {c : WorkReport} {rest : List WorkReport} (hs : s.Sound) (h : s.Agrees e)
    (hr : s.reports = c :: rest) :
    Yields e s ({ s with reports := rest }.withCore fun d => d.takeReport c) := by
  obtain ⟨ts, hpath⟩ :=
    Dispatcher.takeReport_path (hr ▸ hs.carried (isRunning_of_not_isStopping h.serves))
  have hc : c.outcome = e.told c.fingerprint := h.reports c (hr ▸ List.mem_cons_self)
  exact .handler hs h rfl rfl hpath hc nofun

/-- A request brings no result, so there is nothing to agree about but what is told from the cache.
-/
theorem yields_accept {job : Job} {w : ω} {rest : List (Command ω)} (hs : s.Sound) (h : s.Agrees e)
    (hc : s.commands = .request job w :: rest) :
    Yields e s ({ s with commands := rest }.withCore fun d => d.accept job w) := by
  obtain ⟨ts, hpath⟩ :=
    Dispatcher.accept_path (hs.carried (isRunning_of_not_isStopping h.serves)).ready job w
  refine .handler hs h rfl rfl hpath trivial fun r hmem => ?_
  obtain rfl := Option.some.inj hmem
  rw [inChannel, hc]
  exact List.mem_cons_self

/-- A move other than the beginning of a stop leaves the service serving, and nobody has asked for
one.  It is assumed that there is a handle, since a service without handles stops by itself. -/
theorem serves_of_move (h : s.Agrees e) (hh : 0 < s.handles) (hm : m.IsCalm e)
    (hmove : s.move m = some t) : ¬ t.isStopping ∧ ∀ w, .stop w ∉ t.commands := by
  have hserves := h.serves
  unfold isStopping at hserves ⊢
  cases steps_of_move hmove with
  | aside hout ha =>
      rw [ha.phase, ha.commands]
      refine ⟨hserves, fun w hw => (List.mem_append.mp hw).elim (h.unasked w) fun hsent => ?_⟩
      unfold sentBy at hsent
      cases m <;> simp_all [Move.command?, Move.IsCalm]
  | take _ _ _ ha | finish _ _ _ _ ha =>
      rw [ha.phase, ha.commands, List.append_nil]
      exact ⟨hserves, h.unasked⟩
  | begin => exact ⟨Bool.false_ne_true, h.unasked⟩
  | report | look | lose => exact ⟨hserves, h.unasked⟩
  | intake _ hc => exact ⟨hserves, fun w hw => h.unasked w (hc ▸ List.mem_cons_of_mem _ hw)⟩
  | stop _ hc => exact absurd (hc ▸ List.mem_cons_self) (h.unasked _)
  | desert _ _ hnone => exact absurd hnone (Nat.ne_of_gt hh)
  | leave hphase | giveUp hphase | alone hphase | await hphase | skip hphase | tell hphase
  | part hphase => exact absurd rfl (hphase ▸ hserves)

/-- While the service agrees with the engine, whoever is told by a move is told what the engine
yields.  By the cases of a step. -/
theorem yields_of_move (h : s.Agrees e) (hs : s.Sound) (hh : 0 < s.handles) (hm : m.IsCalm e)
    (hmove : s.move m = some t) : Yields e s t := by
  have hended : ¬ s.hasEnded := not_hasEnded_of_isRunning (isRunning_of_not_isStopping h.serves)
  have hserves := h.serves
  unfold isStopping at hserves
  cases steps_of_move hmove with
  | aside _ ha =>
      refine (Yields.refl h).congr ha.core ?_
      rw [answers_eq, answers_eq, ha.story hended]
  | take hp _ _ ha | finish hp _ _ _ ha => exact .work h hp ha hended
  | begin => exact (yields_takeGate hs h).congr rfl rfl
  | report _ hr => exact (yields_takeReport hs h hr).afterInput true
  | look => exact (yields_takeGate hs h).afterInput false
  | lose =>
      have hlost : Yields e s { s with gateLive := false } := (Yields.refl h).congr rfl rfl
      exact hlost.afterInput false
  | intake _ hc => exact (yields_accept hs h hc).afterInput false
  | stop _ hc => exact absurd (hc ▸ List.mem_cons_self) (h.unasked _)
  | desert _ _ hnone => exact absurd hnone (Nat.ne_of_gt hh)
  | leave hphase | giveUp hphase | alone hphase | await hphase | skip hphase | tell hphase
  | part hphase => exact absurd rfl (hphase ▸ hserves)

/-- What a calm move files is what the engine yields.  The invocation that ends was at a task of
some job's own, so what the engine made of the task is what it yields for the job. -/
theorem outcome_of_filed (h : s.Agrees e) (hs : s.Sound) (hm : m.IsCalm e)
    (hmove : s.move m = some t) {c : WorkReport} (hc : m.filed? = some c) :
    c.outcome = e.told c.fingerprint := by
  have hrun := isRunning_of_not_isStopping h.serves
  cases m with
  | finish k task ending =>
      cases hc
      cases steps_of_move hmove with
      | aside hout => cases hout
      | finish hp hslot hactivity =>
          have hown := own_of_rendering hs h.ledger hrun hp hslot hactivity
          have hending : ending = e.ending task.job := hm
          rw [hown, hending]
          exact (e.outcome_ending task.job).trans (e.told_fingerprint task.job).symm
  | _ => cases hc

/-- **A move keeps the agreement.**  What has been reported and is not read yet is either old or
filed by this move. -/
theorem Agrees.move (h : s.Agrees e) (hs : s.Sound) (hh : 0 < s.handles) (hm : m.IsCalm e)
    (hmove : s.move m = some t) : t.Agrees e := by
  obtain ⟨hserves, hunasked⟩ := serves_of_move h hh hm hmove
  have hyields := yields_of_move h hs hh hm hmove
  refine ⟨hserves, hyields.ledger, hyields.core, ?_, fun c hc => ?_, hunasked⟩
  · have hgate : t.gate.state = (m.doors s.doors).1 := congrArg Prod.fst (doors_of_move hmove)
    rw [hgate]
    cases m with
    | setGate state => exact hm
    | _ => exact h.gate
  · rcases reports_of_move hs hmove (isRunning_of_not_isStopping hserves) c hc with hold | hnew
    · exact h.reports c hold
    · exact outcome_of_filed h hs hm hmove hnew

end Service

end AvatarPool
