import AvatarPool.Proofs.Service.Acts
import AvatarPool.Proofs.Service.Ending
import AvatarPool.Proofs.Service.SingleFlight

/-! # Readiness over a run

The loop sees the states of the gate one after the other, however often it opens and fails, and goes
by the last of them.  `GateContract` says, after every run, what has been announced, when tasks are
handed to workers, and what the next state of the gate, the next request and the next report do to
those who wait.  None of it depends on failures before the last state.

Each clause has its own predicate, saying what an input does to callers, tasks and workers without
naming a handler; the first section proves each of them of the handler that runs with the input, and
`gate_contract` assembles them for the state after an arbitrary run.  What a handler finds is known
from the ledger and from how the service stands, so that nothing has to be assumed about the history
but that it is one. -/

namespace AvatarPool.Service

variable {ω : Type} {config : PoolSettings} {gate : Gate} {s t : Service ω} {m : Move ω}
  {τ : List (Move ω)} {d : Dispatcher ω}

/-- The pools opened and the events published so far, in order.  Answers and hand-overs are left
out. -/
def notices (s : Service ω) : List (Effect ω) :=
  (s.outputs.filterMap Output.effect?).filter Effect.isNotice

/-- **Tasks at the front of a queue go to workers**, in the order of the queue; the rest of the queue
is left.  `held` are the fingerprints that workers have already. -/
def HandsOut (s : Service ω) (queue : List Task) (held : List Fingerprint) (t : Service ω) : Prop :=
  ∃ ts : List Task, queue = ts ++ t.core.queue ∧
    t.core.heldKeys.Perm (ts.map Task.fingerprint ++ held) ∧
    t.handedKeys = s.handedKeys ++ ts.map Task.fingerprint

/-- **A failure of the gate** rejects everyone who waits for a queued task, in the order of the
queue, and nobody else; tasks with workers keep those who wait for them. -/
structure Fails (s : Service ω) (why : Failure) (t : Service ω) : Prop where
  answers : t.answers = s.answers ++ s.core.queue.flatMap fun task =>
    (s.core.pending.waiting task.fingerprint).map fun w => (w, .error why)
  waiting : ∀ k, t.core.pending.waiting k =
    if k ∈ s.core.queue.map Task.fingerprint then [] else s.core.pending.waiting k
  inFlight : ∀ k ∈ s.core.heldKeys, t.core.pending.waiting k = s.core.pending.waiting k
  queue : t.core.queue = []
  pool : t.core.pool = s.core.pool
  cache : t.core.cache = s.core.cache
  handed : t.handedKeys = s.handedKeys

/-- **An opening of the gate** hands out what is queued, and tells nobody anything.  Callers of the
cache and of tasks that workers have already notice nothing. -/
structure Opens (s t : Service ω) : Prop where
  answers : t.answers = s.answers
  pending : t.core.pending = s.core.pending
  cache : t.core.cache = s.core.cache
  handsOut : s.HandsOut s.core.queue s.core.heldKeys t

/-- **A report** tells everyone who waits for its task the engine's own outcome, and a result is
kept.  That somebody waits is part of it: no task is rendered for nobody. -/
structure Delivers (s : Service ω) (c : WorkReport) (t : Service ω) : Prop where
  awaited : s.core.pending.waiting c.fingerprint ≠ []
  answers : t.answers =
    s.answers ++ (s.core.pending.waiting c.fingerprint).map fun w => (w, c.outcome)
  waiting : ∀ k, t.core.pending.waiting k =
    if k = c.fingerprint then [] else s.core.pending.waiting k
  cache : ∀ k, t.core.cache.get? k =
    if k = c.fingerprint then c.outcome.toOption else s.core.cache.get? k
  handsOut : s.HandsOut s.core.queue (s.core.heldKeys.erase c.fingerprint) t

/-- One caller is told, and nothing else changes but the counters. -/
structure Replies (s : Service ω) (w : ω) (o : Outcome) (t : Service ω) : Prop where
  answers : t.answers = s.answers ++ [(w, o)]
  holdings : t.core.holdings = s.core.holdings
  handed : t.handedKeys = s.handedKeys

/-- **What becomes of a request**, by the last state of the gate: it is answered from the cache, or
turned away by a failed gate even if its task is under way, or joins its task, or opens one.  The
four cases exclude each other and leave none out. -/
structure Admits (last : Readiness) (s : Service ω) (job : Job) (w : ω) (t : Service ω) : Prop where
  cached : ∀ artifact, s.core.cache.get? job.fingerprint = some artifact →
    s.Replies w (.ok artifact) t
  refused : ∀ why, s.core.cache.get? job.fingerprint = none → last = .failed why →
    s.Replies w (.error why) t
  joined : s.core.cache.get? job.fingerprint = none → (∀ why, last ≠ .failed why) →
    job.fingerprint ∈ s.core.pending.keys →
      t.answers = s.answers ∧
      t.core.pending = (s.core.pending.enter job.fingerprint w).1 ∧
      t.core.queue = s.core.queue ∧ t.core.pool = s.core.pool ∧ t.core.cache = s.core.cache ∧
      t.handedKeys = s.handedKeys
  opened : s.core.cache.get? job.fingerprint = none → (∀ why, last ≠ .failed why) →
    job.fingerprint ∉ s.core.pending.keys →
      t.answers = s.answers ∧
      t.core.pending = (s.core.pending.enter job.fingerprint w).1 ∧ t.core.cache = s.core.cache ∧
      s.HandsOut (s.core.queue ++ [.ofJob job]) s.core.heldKeys t

/-! ## Handlers -/

/-- Tasks are handed out after the handler has come to `e`. -/
theorem handsOut_of_hands {e : Dispatcher ω} {ts : List Task} (h : Dispatcher.Hands e ts d)
    (hd : Handled s d t) {held : List Fingerprint} (hheld : e.heldKeys.Perm held)
    (hhanded : e.handedKeys = []) : s.HandsOut e.queue held t := by
  refine ⟨ts, ?_, ?_, ?_⟩
  · rw [hd.core]
    exact h.queue
  · have hpool : t.core.pool = d.pool := by rw [hd.core]
    rw [Dispatcher.heldKeys_of_pool hpool]
    have hperm := h.held.map Task.fingerprint
    rw [List.map_append] at hperm
    exact hperm.trans (hheld.append_left _)
  · rw [hd.handedKeys, h.handed, hhanded]
    rfl

/-- Everyone who waits for a queued task is rejected; those of held tasks are spared because no task
is both queued and held. -/
theorem fails_of_handled (hs : s.core.effects = []) (hl : s.core.Ledger) {why : Failure}
    (hd : Handled s (s.core.observe (.failed why)) t) : s.Fails why t := by
  have hrejects := Dispatcher.observe_failed_rejects hl.nodup_queue why
  refine ⟨?_, ?_, fun k hk => ?_, ?_, ?_, ?_, ?_⟩
  · rw [hd.answers, hrejects.answered, answered_of_collected hs, List.nil_append]
  · rw [hd.core]
    exact hrejects.waiting
  · rw [hd.core]
    exact hrejects.waiting_of_held hl hk
  · rw [hd.core]
    exact hrejects.queue
  · rw [hd.core]
    exact hrejects.pool
  · rw [hd.core]
    exact hrejects.cache
  · rw [hd.handedKeys, hrejects.handed, handed_of_collected hs, List.append_nil]

/-- What is queued goes to workers that are idle, since the ones that are not were handed their
tasks before. -/
theorem opens_of_handled (hs : s.core.effects = []) (hready : Ready s.core.slots)
    (hd : Handled s (s.core.observe .ready) t) : s.Opens t := by
  obtain ⟨ts, hhands⟩ := Dispatcher.observe_ready_hands hready
  have hheld : (s.core.see .ready).heldKeys = s.core.heldKeys :=
    congrArg (List.map Task.fingerprint) (Dispatcher.held_see _ _)
  have hhanded := (Dispatcher.handedKeys_see s.core .ready).trans (handed_of_collected hs)
  refine ⟨?_, ?_, ?_, ?_⟩
  · rw [hd.answers, hhands.answered, Dispatcher.answered_see, answered_of_collected hs,
      List.append_nil]
  · rw [hd.core]
    exact hhands.pending.trans (Dispatcher.see_pending _ _)
  · rw [hd.core]
    exact hhands.cache.trans (Dispatcher.see_cache _ _)
  · have hout := handsOut_of_hands hhands hd (.of_eq hheld) hhanded
    rwa [Dispatcher.see_queue] at hout

/-- The worker whose report is taken is free now, so the front of the queue may follow. -/
theorem delivers_of_handled (hs : s.core.effects = []) (hl : s.core.Ledger) {c : WorkReport}
    {rest : List WorkReport} (hc : Carried s.core.slots (c :: rest))
    (hd : Handled s (s.core.takeReport c) t) : s.Delivers c t := by
  obtain ⟨ts, hhands⟩ := Dispatcher.takeReport_hands hc
  -- The first report is of a task with its worker: callers wait for it, and nothing is cached.
  obtain ⟨task, hk, hf, -⟩ := hc.head
  obtain ⟨pool, hp, hslot⟩ := exists_pool_of_slot hk
  have hheld : s.core.heldKeys.Perm (c.fingerprint :: (s.core.settle c).heldKeys) :=
    hf ▸ Dispatcher.heldKeys_settle hp hslot
  have hmem := hl.mem_keys_of_held (hheld.mem_iff.mpr List.mem_cons_self)
  have huncached := hl.uncached _ hmem
  refine ⟨?_, ?_, fun k => ?_, fun k => ?_, ?_⟩
  · exact hl.wellFormed.waited _ (Pending.exists_entry_of_mem_keys hmem)
  · rw [hd.answers, hhands.answered, Dispatcher.answered_settle, answered_of_collected hs,
      List.nil_append]
  · have hpending : t.core.pending = (s.core.pending.close c.fingerprint).1 := by
      rw [hd.core]
      exact hhands.pending.trans (Dispatcher.settle_pending _ _)
    rw [hpending, Pending.waiting_close]
  · have hcache : t.core.cache = (s.core.settle c).cache := by
      rw [hd.core]
      exact hhands.cache
    rw [hcache]
    split
    · rename_i hk
      rw [hk, Dispatcher.settle_cache]
      cases c.outcome with
      | ok artifact =>
          dsimp only
          rw [Cache.get?_insert, if_pos rfl, huncached]
          rfl
      | error why => exact huncached
    · exact Dispatcher.get?_settle_of_ne ‹_›
  · have hrest : (s.core.settle c).heldKeys.Perm (s.core.heldKeys.erase c.fingerprint) :=
      (List.cons_perm_iff_perm_erase.mp hheld.symm).2
    have hout := handsOut_of_hands hhands hd hrest
      ((Dispatcher.handedKeys_settle _ _).trans (handed_of_collected hs))
    rwa [Dispatcher.settle_queue] at hout

/-- Being told is one effect, and the holdings are as they were. -/
theorem replies_of_handled (hs : s.core.effects = []) {w : ω} {o : Outcome}
    (hd : Handled s d t) (hholdings : d.holdings = s.core.holdings)
    (heffects : d.effects = s.core.effects ++ [.answered w o]) : s.Replies w o t where
  answers := by
    rw [hd.answers, Dispatcher.answered, heffects, hs]
    rfl
  holdings := hd.holdings.trans hholdings
  handed := by
    rw [hd.handedKeys, Dispatcher.handedKeys, heffects, hs]
    exact List.append_nil _

/-- Each case comes with the handler's own account of it. -/
theorem admits_of_handled (hs : s.core.effects = []) (hready : Ready s.core.slots) {job : Job} {w : ω}
    (hd : Handled s (s.core.accept job w) t) : s.Admits s.core.readiness job w t where
  cached artifact hc := by
    obtain ⟨hholdings, heffects⟩ := Dispatcher.accept_of_get? hc w
    exact replies_of_handled hs hd hholdings heffects
  refused why hc hr := by
    obtain ⟨hholdings, heffects⟩ := Dispatcher.accept_of_failed hc hr w
    exact replies_of_handled hs hd hholdings heffects
  -- One more waits, and nothing is told or handed out.
  joined hc hr hk := by
    rw [Dispatcher.accept_of_mem hc hr hk] at hd
    have hanswers := hd.answers
    have hhanded := hd.handedKeys
    rw [hd.core]
    refine ⟨?_, rfl, rfl, rfl, rfl, ?_⟩
    · rw [hanswers]
      exact (congrArg (s.answers ++ ·) (answered_of_collected hs)).trans (List.append_nil _)
    · rw [hhanded]
      exact (congrArg (s.handedKeys ++ ·) (handed_of_collected hs)).trans (List.append_nil _)
  opened hc hr hk := by
    obtain ⟨ts, hhands⟩ := Dispatcher.handOut_hands (d := s.core.openTask job w) hready
    rw [← Dispatcher.accept_of_notMem hc hr hk] at hhands
    -- Opening the task tells nobody and hands nothing to anyone; handing out comes after it.
    have htold : (s.core.openTask job w).answered = [] :=
      (Dispatcher.answered_note _ _).trans
        ((List.append_nil _).trans (answered_of_collected hs))
    have hhanded : (s.core.openTask job w).handedKeys = [] :=
      (Dispatcher.handedKeys_note _ _).trans
        ((List.append_nil _).trans (handed_of_collected hs))
    refine ⟨?_, ?_, ?_, handsOut_of_hands hhands hd (.refl _) hhanded⟩
    · rw [hd.answers, hhands.answered, htold, List.append_nil]
    · rw [hd.core]
      exact hhands.pending
    · rw [hd.core]
      exact hhands.cache

/-! ## Moves -/

theorem OnlyTells.handedKeys (h : s.OnlyTells t) : t.handedKeys = s.handedKeys := by
  obtain ⟨as, hstory⟩ := h
  rw [handedKeys_eq, hstory, handedKeys_eq]
  exact Dispatcher.handedKeys_note_of_forall (List.forall_mem_map.mpr fun _ _ => rfl)

/-- **Tasks go to workers through an open gate alone.** -/
theorem ready_of_handed (hs : s.Sound) (h : s.move m = some t) (hne : t.handedKeys ≠ s.handedKeys) :
    t.core.readiness = .ready := by
  -- A handler that hands nothing out leaves the record as it is.
  have hchanged : ∀ {d : Dispatcher ω}, Handled s d t → d.handedKeys ≠ s.core.handedKeys := by
    intro d hd heq
    rw [hd.handedKeys, heq, handed_of_collected hs.collected, List.append_nil] at hne
    exact hne rfl
  have hopen : ∀ {d : Dispatcher ω}, Handled s d t → d.readiness = .ready →
      t.core.readiness = .ready := fun hd hready => by
    rw [hd.core]
    exact hready
  cases acts_of_move h with
  | idle _ htells => exact absurd htells.handedKeys hne
  | worked _ _ _ hstory =>
      refine absurd ?_ hne
      rw [handedKeys_eq, hstory, handedKeys_eq]
      rfl
  | admitted _ hrun _ hd =>
      exact hopen hd (Dispatcher.accept_gated (hs.carried hrun).ready (hchanged hd))
  | reported _ hrun hr hd =>
      exact hopen hd (Dispatcher.takeReport_gated (hr ▸ hs.carried hrun) (hchanged hd))
  | saw _ hrun hd =>
      exact hopen hd (Dispatcher.observe_gated (hs.carried hrun).ready (hchanged hd))
  | stopped _ _ _ hd => exact absurd (Dispatcher.rejectQueue_keeps _ _).2.1 (hchanged hd)
  | left _ _ hd => exact absurd (Dispatcher.handedKeys_rejectPending _ _) (hchanged hd)

/-- What a move leaves in the queue.  Every handler ends in a tidy state, and nobody else touches
what is queued. -/
theorem tidy_of_move (hs : s.core.Tidy) (h : s.move m = some t) : t.core.Tidy := by
  have hhandled : ∀ {d : Dispatcher ω}, Handled s d t → d.Tidy → t.core.Tidy :=
    fun hd htidy => htidy.of_holdings hd.holdings
  cases acts_of_move h with
  | idle hcore => exact hcore ▸ hs
  | @worked pool pool' hp hheld hcore =>
      refine hs.congr (by rw [hcore]) (by rw [hcore]) ?_
      rw [hcore, Dispatcher.slots_of_pool hp]
      exact hheld
  | admitted _ _ _ hd => exact hhandled hd (hs.accept _ _)
  | reported _ _ _ hd => exact hhandled hd (hs.takeReport _)
  | saw _ _ hd => exact hhandled hd (.observe _ _)
  | stopped _ _ _ hd => exact hhandled hd (.of_queue rfl)
  | left _ _ hd => exact hhandled hd (hs.congr rfl rfl rfl)

/-- The tasks that workers have, among those there were and those handed out.  A task that a worker
has is not taken from it by handing out others. -/
theorem HandsOut.mem_heldKeys {queue : List Task} {held : List Fingerprint}
    (h : s.HandsOut queue held t) {k : Fingerprint} (hk : k ∈ held) : k ∈ t.core.heldKeys := by
  obtain ⟨ts, -, hperm, -⟩ := h
  exact hperm.symm.subset (List.mem_append_right _ hk)

/-- Nothing has changed for those who wait for a task with a worker.  Callers may have been told
something meanwhile, but not these. -/
theorem inFlight_of_holdings (h : t.core.holdings = s.core.holdings) {k : Fingerprint}
    (hk : k ∈ s.core.heldKeys) :
    k ∈ t.core.heldKeys ∧ s.core.pending.waiting k <+: t.core.pending.waiting k := by
  unfold Dispatcher.holdings at h
  injection h with hpending h
  injection h with _ h
  injection h with hpool _
  rw [Dispatcher.heldKeys_of_pool hpool, hpending]
  exact ⟨hk, List.prefix_rfl⟩

/-- A request takes nobody away from a task with a worker.  At most it adds its own caller to those
who wait. -/
theorem Admits.inFlight {last : Readiness} {job : Job} {w : ω} (h : s.Admits last job w t)
    {k : Fingerprint} (hk : k ∈ s.core.heldKeys) :
    k ∈ t.core.heldKeys ∧ s.core.pending.waiting k <+: t.core.pending.waiting k := by
  have hentered : s.core.pending.waiting k <+:
      (s.core.pending.enter job.fingerprint w).1.waiting k := by
    rw [Pending.waiting_enter]
    split
    · rename_i heq
      rw [heq]
      exact List.prefix_append _ _
    · exact List.prefix_rfl
  cases hc : s.core.cache.get? job.fingerprint with
  | some artifact => exact inFlight_of_holdings (h.cached artifact hc).holdings hk
  | none =>
      by_cases hr : ∃ why, last = .failed why
      · obtain ⟨why, hwhy⟩ := hr
        exact inFlight_of_holdings (h.refused why hc hwhy).holdings hk
      · have hopen : ∀ why, last ≠ .failed why := fun why hwhy => hr ⟨why, hwhy⟩
        by_cases hmem : job.fingerprint ∈ s.core.pending.keys
        · obtain ⟨-, hpending, -, hpool, -⟩ := h.joined hc hopen hmem
          rw [Dispatcher.heldKeys_of_pool hpool, hpending]
          exact ⟨hk, hentered⟩
        · obtain ⟨-, hpending, -, hout⟩ := h.opened hc hopen hmem
          rw [hpending]
          exact ⟨hout.mem_heldKeys hk, hentered⟩

/-- **Until its report, a task with a worker keeps all who wait for it.** -/
theorem inFlight_of_move (hs : s.Sound) (hl : s.isRunning → s.core.Ledger)
    (h : s.move m = some t) (hrun' : t.isRunning) {k : Fingerprint} (hk : k ∈ s.core.heldKeys) :
    (∃ c, m = .report c ∧ c.fingerprint = k) ∨
      k ∈ t.core.heldKeys ∧ s.core.pending.waiting k <+: t.core.pending.waiting k := by
  -- Only a report frees a worker, and only of its own task; a failed gate spares what is not queued.
  -- So in all other cases the task stays where it is, and whoever waits may only be joined.
  cases acts_of_move h with
  | idle hcore => exact .inr (inFlight_of_holdings (by rw [hcore]) hk)
  | @worked pool pool' hp hheld hcore =>
      right
      have hkeys : t.core.heldKeys = s.core.heldKeys := by
        rw [Dispatcher.heldKeys, Dispatcher.heldKeys, hcore]
        exact congrArg _ (Dispatcher.held_work hp (held_of_map hheld))
      rw [hkeys, hcore]
      exact ⟨hk, List.prefix_rfl⟩
  | admitted _ hrun _ hd =>
      exact .inr ((admits_of_handled hs.collected (hs.carried hrun).ready hd).inFlight hk)
  | @reported c rest hm hrun hr hd =>
      by_cases heq : c.fingerprint = k
      · exact .inl ⟨c, hm, heq⟩
      · right
        have hdelivers := delivers_of_handled hs.collected (hl hrun) (hr ▸ hs.carried hrun) hd
        rw [hdelivers.waiting, if_neg (Ne.symm heq)]
        refine ⟨hdelivers.handsOut.mem_heldKeys ?_, List.prefix_rfl⟩
        exact (List.mem_erase_of_ne (Ne.symm heq)).mpr hk
  | @saw state _ hrun hd =>
      right
      cases state with
      | pending =>
          have hkeys : t.core.heldKeys = s.core.heldKeys :=
            Dispatcher.heldKeys_of_pool (by rw [hd.core]; rfl)
          rw [hkeys, hd.core]
          exact ⟨hk, List.prefix_rfl⟩
      | ready =>
          have hopens := opens_of_handled hs.collected (hs.carried hrun).ready hd
          rw [hopens.pending]
          exact ⟨hopens.handsOut.mem_heldKeys hk, List.prefix_rfl⟩
      | failed why =>
          have hfails := fails_of_handled hs.collected (hl hrun) hd
          rw [Dispatcher.heldKeys_of_pool hfails.pool, hfails.inFlight k hk]
          exact ⟨hk, List.prefix_rfl⟩
  | stopped _ _ hrun hd =>
      right
      have hrejects := Dispatcher.rejectQueue_rejects (hl hrun).nodup_queue .shuttingDown
      have hpool : t.core.pool = s.core.pool := by
        rw [hd.core]
        exact hrejects.pool
      rw [Dispatcher.heldKeys_of_pool hpool, hd.core]
      exact ⟨hk, (hrejects.waiting_of_held (hl hrun) hk) ▸ List.prefix_rfl⟩
  | left _ hleft => exact absurd hrun' hleft

/-- **What the gate settles**, after a run.  The first five fields are about the state that the run
has led to, and the others about whatever move comes next. -/
structure GateContract (config : PoolSettings) (gate : Gate) (τ : List (Move ω)) (s : Service ω) :
    Prop where
  /-- The last state seen is in force. -/
  readiness : s.core.readiness = ((ofConfig config gate).observed τ).getLast?.getD .pending
  /-- The pool is there from the first open state on. -/
  pool : s.core.pool.isSome = ((ofConfig config gate).observed τ).contains .ready
  /-- The first open state opens the pool and is announced, and each failed one is. -/
  notices : s.notices =
    announced (max 1 config.poolSize) false ((ofConfig config gate).observed τ)
  /-- A task is handed to a worker only by a move after which the last state seen is open. -/
  gated : ∀ m t, s.move m = some t → t.handedKeys ≠ s.handedKeys →
    ((ofConfig config gate).observed (τ ++ [m])).getLast? = some .ready
  /-- With an open gate tasks are queued only if every worker has one, with a failed gate none. -/
  tidy : s.core.Tidy
  failing : ∀ m t why, s.move m = some t → s.seen m = [.failed why] → s.Fails why t
  opening : ∀ m t, s.move m = some t → s.seen m = [.ready] → s.Opens t
  admitting : ∀ job w rest t, s.commands = .request job w :: rest → s.move .command = some t →
    s.Admits (((ofConfig config gate).observed τ).getLast?.getD .pending) job w t
  /-- A task with a worker can be joined. -/
  underWay : s.isRunning → ∀ k ∈ s.core.heldKeys,
    k ∈ s.core.pending.keys ∧ s.core.cache.get? k = none
  /-- Until its report, a task with a worker keeps all who wait for it. -/
  inFlight : ∀ m t, s.move m = some t → t.isRunning → ∀ k ∈ s.core.heldKeys,
    (∃ c, m = .report c ∧ c.fingerprint = k) ∨
      k ∈ t.core.heldKeys ∧ s.core.pending.waiting k <+: t.core.pending.waiting k
  reporting : ∀ c t, s.move (.report c) = some t → s.Delivers c t ∧ Filed τ c

theorem tidy_of_play (h : (ofConfig config gate).play τ = some s) : s.core.Tidy :=
  play_induction (P := fun _ s => s.core.Tidy) (.of_queue rfl)
    (fun _ _ _ _ _ ih hmove => tidy_of_move ih hmove) h

/-- A report that is read has been filed before.  It is in the record of reports, all of which have
been filed, and not by the move that reads it. -/
theorem filed_of_report {c : WorkReport} (h : (ofConfig config gate).play τ = some s)
    (hm : s.move (.report c) = some t) : Filed τ c := by
  have hc : c ∈ reported (τ ++ [.report c]) := by
    rw [reported_append]
    exact List.mem_append_right _ (List.mem_singleton_self c)
  obtain ⟨job, ending, hmem, hfiled⟩ := filed_of_reported (play_concat h hm) c hc
  refine ⟨job, ending, (List.mem_append.mp hmem).resolve_right fun hlast => ?_, hfiled⟩
  cases List.mem_singleton.mp hlast

/-- **Readiness, failure and recovery**: after every run, however often the gate has failed and
opened, it is the last state seen that settles what is handed out and who is turned away. -/
theorem gate_contract (h : (ofConfig config gate).play τ = some s) :
    GateContract config gate τ s := by
  obtain ⟨ds, hds⟩ := exists_tells_of_play (sound_ofConfig config gate) h
  have hs : s.Sound := hds.sound
  have hstands := stands_of_play h
  refine ⟨hstands.readiness, ?_, hstands.notices, fun m t hm hne => ?_, tidy_of_play h,
    fun m t why hm hseen => ?_, fun m t hm hseen => ?_, fun job w rest t hc hm => ?_,
    fun hrun k hk => ?_, fun m t hm hrun' k hk => ?_, fun c t hm => ?_⟩
  · rw [← hstands.opened]
    exact (Option.isSome_map ..).symm
  · have hafter := (stands_of_play (play_concat h hm)).readiness
    have hready := hafter.symm.trans (ready_of_handed hs hm hne)
    refine (Option.getD_eq_iff.mp hready).resolve_right fun hnone => ?_
    cases hnone.2
  · obtain ⟨hrun, hd⟩ := handled_of_seen hseen hm
    exact fails_of_handled hs.collected (ledger_of_play h hrun) hd
  · obtain ⟨hrun, hd⟩ := handled_of_seen hseen hm
    exact opens_of_handled hs.collected (hs.carried hrun).ready hd
  · obtain ⟨hrun, hd⟩ := handled_of_request hc hm
    have hadmits := admits_of_handled hs.collected (hs.carried hrun).ready hd
    have hlast : s.core.readiness =
        ((ofConfig config gate).observed τ).getLast?.getD .pending := hstands.readiness
    rwa [hlast] at hadmits
  · have hl := ledger_of_play h hrun
    have hmem := hl.mem_keys_of_held hk
    exact ⟨hmem, hl.uncached k hmem⟩
  · exact inFlight_of_move hs (ledger_of_play h) hm hrun' hk
  · obtain ⟨hrun, ⟨rest, hr⟩, hd⟩ := handled_of_report hm
    have hcarried := hr ▸ hs.carried hrun
    exact ⟨delivers_of_handled hs.collected (ledger_of_play h hrun) hcarried hd,
      filed_of_report h hm⟩

/-- The gate fails while one task is with the only worker and another one is queued, and opens
again.  Meanwhile and afterwards somebody else asks for the first task. -/
def recoveredRun : List (Move Nat) :=
  [.begin, .request (.name "a") 0, .request (.name "b") 1, .command, .command, .take 0,
    .setGate (.failed (.engineNotReady "down")), .watch, .request (.name "a") 2, .command,
    .setGate .ready, .watch, .request (.name "a") 3, .command,
    .finish 0 (.ofJob (.name "a")) (.name "alpha")]

/-- Its last report. -/
def recoveredReport : WorkReport := ⟨0, .name "a", (Ending.name "alpha").outcome (.name "a")⟩

theorem gate_contract_recovered :
    ∃ s t : Service Nat,
      (ofConfig { poolSize := 1 } { state := .ready }).play recoveredRun = some s ∧
      s.move (.report recoveredReport) = some t ∧
      s.notices = [.started 1, .published .engineReady,
        .published (.readinessFailed (Failure.engineNotReady "down").message)] ∧
      t.answers = [(1, .error (.engineNotReady "down")), (2, .error (.engineNotReady "down")),
        (0, recoveredReport.outcome), (3, recoveredReport.outcome)] ∧
      t.core.cache.get? (.name "a") = recoveredReport.outcome.toOption := by
  have hplay : ((ofConfig { poolSize := 1 } { state := .ready } : Service Nat).play recoveredRun).any
      fun s => (s.move (.report recoveredReport)).isSome &&
        (s.answers = [(1, .error (.engineNotReady "down")), (2, .error (.engineNotReady "down"))] &&
          s.core.pending.waiting (.name "a") = [0, 3]) := by
    decide +kernel
  obtain ⟨s, hs, hall⟩ := (Option.any_eq_true _ _).mp hplay
  obtain ⟨hmove, hrest⟩ := Bool.and_eq_true_iff.mp hall
  obtain ⟨t, ht⟩ := Option.isSome_iff_exists.mp hmove
  obtain ⟨hanswers, hwaiting⟩ :=
    (Bool.and_eq_true_iff.mp hrest).imp of_decide_eq_true of_decide_eq_true
  have hcontract := gate_contract hs
  obtain ⟨hdelivers, -⟩ := hcontract.reporting _ _ ht
  have hwaiting : s.core.pending.waiting recoveredReport.fingerprint = [0, 3] := hwaiting
  refine ⟨s, t, hs, ht, ?_, ?_, ?_⟩
  · rw [hcontract.notices]
    decide +kernel
  · rw [hdelivers.answers, hwaiting, hanswers]
    rfl
  · rw [hdelivers.cache]
    exact if_pos rfl

end AvatarPool.Service
