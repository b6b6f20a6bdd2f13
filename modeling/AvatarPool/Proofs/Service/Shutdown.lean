import AvatarPool.Proofs.Service.Ending
import AvatarPool.Proofs.Service.Ledger
import AvatarPool.Proofs.Service.StopAnswers

/-! # The contract of a stop

A stop begins when the loop takes a stop command, or finds that the last handle is gone.
`StopContract` says what everyone can rely on from then on: those whose task is queued, those whose
task is with a worker, those who wait when the loop leaves, those whose request comes behind the
stop, and those who ask for a stop themselves.

Two things have to be shown about the moment at which the loop leaves.  Before the deadline it
leaves only with nothing in flight, so that whoever ends an invocation in time does so while the
loop still runs (`grace_or_spent`); and the loop's own step reads what has been reported before it
looks at the clock (`reports_of_leave`), so that what arrives in time is read (`read_of_arrives`).
The other clauses follow from the deeds of a stop, which admit nobody and hand out nothing. -/

namespace AvatarPool

variable {ω : Type}

/-- The size of the pool that an output opens. -/
def Output.started? : Output ω → Option Nat
  | .effect (.started size) => some size
  | _ => none

namespace Service

variable {config : PoolSettings} {gate : Gate} {s t u : Service ω} {m : Move ω}
  {τ τ₁ τ₂ : List (Move ω)} {s₁ s₂ s₃ : Service ω} {deadline : Nat}

/-- The sizes of the pools opened so far, once for each time. -/
def poolsOpened (s : Service ω) : List Nat := s.outputs.filterMap Output.started?

/-- The pools opened can be read off the story. -/
theorem poolsOpened_eq (s : Service ω) : s.poolsOpened = s.story.started := by
  refine filterMap_outputs (fun o => ?_) s
  cases o with
  | effect e => cases e <;> rfl
  | _ => rfl

/-! ## Reports in time -/

/-- A report that is unread at first, or is filed before the deadline. -/
def Arrives (s : Service ω) (τ : List (Move ω)) (deadline : Nat) (c : WorkReport) : Prop :=
  c ∈ s.reports ∨ ∃ k task ending u, s.Makes τ (.finish k task ending) u ∧ u.clock < deadline ∧
    c = ⟨k, task.fingerprint, ending.outcome task.fingerprint⟩

/-- Until the deadline the loop leaves only with nothing in flight.  By induction on the run: once
the loop has left, the clock does not go back and no worker gets work. -/
theorem grace_or_spent (hs : s.Sound) (hphase : s.phase = .grace deadline)
    (h : s.play τ = some t) :
    t.phase = .grace deadline ∨ (¬ t.isRunning ∧ (deadline ≤ t.clock ∨ t.Spent)) := by
  refine play_induction (P := fun _ t => t.phase = .grace deadline ∨
    (¬ t.isRunning ∧ (deadline ≤ t.clock ∨ t.Spent))) (.inl hphase) ?_ h
  rintro τ m t u hplay ih hmove
  obtain ⟨ds, hds⟩ := exists_tells_of_play hs hplay
  obtain ⟨es, hes⟩ := exists_tells_of_move hds.sound hmove
  rcases ih with hgrace | ⟨hrun, hdone⟩
  -- The period goes on, or the loop leaves: with nothing in flight, or past the deadline.
  · by_cases hrun : u.isRunning
    · exact .inl (grace_of_move hgrace hrun hmove)
    · have hrun' : t.isRunning := by simp [isRunning, hgrace]
      obtain rfl := eq_leave_of_move hrun' hrun hmove
      refine .inr ⟨hrun, ?_⟩
      cases steps_of_move hmove with
      | aside hm => cases hm
      | leave _ hidle =>
          exact .inr (spent_of_running_eq_zero (hds.sound.carried hrun') hidle).1
      | giveUp hphase' _ hpast =>
          rw [hgrace] at hphase'
          obtain rfl := Phase.grace.inj hphase'
          exact .inl hpast
  · refine .inr ⟨fun hrun' => hrun (hes.staged.1 hrun'), ?_⟩
    rcases hdone with hpast | hspent
    · exact .inl (Nat.le_trans hpast (clock_le_of_move hmove))
    · exact .inr (spent_of_move hrun hspent hmove)

/-- Whoever renders before the deadline does so while the loop still runs.  After the deadline it
would be too late, and after an early leave there would be nothing to render. -/
theorem running_of_finish {k : Nat} {task : Task} {ending : Ending}
    (h : t.phase = .grace deadline ∨ (¬ t.isRunning ∧ (deadline ≤ t.clock ∨ t.Spent)))
    (hclock : t.clock < deadline) (hmove : t.move (.finish k task ending) = some u) :
    t.isRunning ∧ u.isRunning := by
  cases steps_of_move hmove with
  | aside hm => cases hm
  | finish hp hslot hactivity _ ha =>
      rcases h with hgrace | ⟨-, hpast | hspent⟩
      · have hrun : t.isRunning := by simp [isRunning, hgrace]
        exact ⟨hrun, by rw [isRunning, ha.phase]; exact hrun⟩
      · exact absurd hclock (Nat.not_lt.mpr hpast)
      · have hidle := hspent _ (Dispatcher.slots_of_pool hp ▸ List.mem_of_getElem? hslot)
        simp [Worker.hasWork, hactivity] at hidle

/-- The loop's own step does not leave while a report is unread.  A loop that leaves because nothing
is in flight has no report left either; one that leaves at the deadline would have taken the report
first. -/
theorem reports_of_leave (hs : s.Sound) (hstep : s.step = s.move .leave)
    (h : s.move .leave = some t) : s.reports = [] := by
  cases steps_of_move h with
  | aside hm => cases hm
  | leave hphase hidle =>
      exact (spent_of_running_eq_zero (hs.carried (by simp [isRunning, hphase])) hidle).2
  | giveUp hphase hbusy =>
      rw [h, step, hphase] at hstep
      simp only [if_neg hbusy] at hstep
      cases hr : s.reports with
      | nil => rfl
      | cons c rest =>
          have hread : s.nextReport =
              some ({ s with reports := rest }.withCore fun d => d.takeReport c) := by
            rw [nextReport, hr]
          rw [hread] at hstep
          have hphase' := congrArg Service.phase (Option.some.inj hstep)
          rw [afterInput_phase, afterInput_phase] at hphase'
          rw [hphase] at hphase'
          cases hphase'

/-- **A report that arrives in time is read**, unless the loop still runs and has yet to read it.
By induction on the run, where the only move that loses reports is the one that leaves. -/
theorem read_of_arrives (hs : s.Sound) (hphase : s.phase = .grace deadline) (hprompt : s.Prompt τ)
    (h : s.play τ = some t) {c : WorkReport} (hc : s.Arrives τ deadline c) :
    c ∈ reported τ ∨ (t.isRunning ∧ c ∈ t.reports) := by
  refine play_induction (P := fun τ t => s.Prompt τ → s.Arrives τ deadline c →
    c ∈ reported τ ∨ (t.isRunning ∧ c ∈ t.reports)) ?_ ?_ h hprompt hc
  · rintro - (hunread | ⟨k, task, ending, u, hmakes, -⟩)
    · exact .inr ⟨by simp [isRunning, hphase], hunread⟩
    · exact absurd hmakes not_makes_nil
  rintro τ m t u hplay ih hmove hprompt harrives
  obtain ⟨ds, hds⟩ := exists_tells_of_play hs hplay
  obtain ⟨es, hes⟩ := exists_tells_of_move hds.sound hmove
  have hfifo : u.isRunning → t.reports ++ filed [m] = reported [m] ++ u.reports := hes.fifo
  -- Of the reports after a move some have been read by it, and the others are still unread.
  have hkept : u.isRunning → c ∈ t.reports ++ filed [m] →
      c ∈ reported (τ ++ [m]) ∨ (u.isRunning ∧ c ∈ u.reports) := by
    intro hrun hmem
    rw [hfifo hrun] at hmem
    rw [reported_append]
    rcases List.mem_append.mp hmem with hread | hunread
    · exact .inl (List.mem_append_right _ hread)
    · exact .inr ⟨hrun, hunread⟩
  -- A report that has arrived earlier is read already, or is unread, and a leave is excluded by the
  -- step that the loop prefers.
  have hold : s.Arrives τ deadline c →
      c ∈ reported (τ ++ [m]) ∨ (u.isRunning ∧ c ∈ u.reports) := by
    intro hc
    rcases ih (fun v hv => hprompt v ((makes_append hplay).mpr (.inl hv))) hc with
      hread | ⟨hrun, hunread⟩
    · rw [reported_append]
      exact .inl (List.mem_append_left _ hread)
    · by_cases hrun' : u.isRunning
      · exact hkept hrun' (List.mem_append_left _ hunread)
      · obtain rfl := eq_leave_of_move hrun hrun' hmove
        have hmakes : t.Makes [Move.leave] .leave t := ⟨[], [], rfl, rfl⟩
        have hstep := hprompt t ((makes_append hplay).mpr (.inr hmakes))
        rw [reports_of_leave hds.sound hstep hmove] at hunread
        exact absurd hunread List.not_mem_nil
  rcases harrives with hunread | ⟨k, task, ending, v, hmakes, hclock, hc⟩
  · exact hold (.inl hunread)
  · rcases (makes_append hplay).mp hmakes with hbefore | hlast
    · exact hold (.inr ⟨k, task, ending, v, hbefore, hclock, hc⟩)
    · obtain ⟨rfl, rfl⟩ := hlast.of_singleton
      obtain ⟨-, hrun⟩ := running_of_finish (grace_or_spent hs hphase hplay) hclock hmove
      refine hkept hrun (List.mem_append_right _ ?_)
      rw [hc]
      exact List.mem_singleton_self _

/-! ## Who is told what -/

/-- Whoever waits for a task when the stop begins is told what its report says, if that is read.
Each task has one report at most among those read during a stop, so the outcome that is told is that
of this one. -/
theorem told_of_reported {ds : List (Deed ω)} (hledger : s.story.Ledger)
    (hstops : Stops s τ ds t) {c : WorkReport} (hc : c ∈ reported τ) {w : ω}
    (hw : w ∈ s.core.pending.waiting c.fingerprint) : (w, c.outcome) ∈ t.answers := by
  obtain ⟨-, es, fs, rfl, hclear, hlast, -, -⟩ := hstops.tells.staged
  obtain ⟨d, hrunning, hrest⟩ := hstops.tells.path.exists_of_append
  have hreports : es.filterMap Deed.report? = reported τ := by
    rw [← hstops.tells.reports, List.filterMap_append, filterMap_report?_of_last hlast,
      List.append_nil]
  have hdeeds : ∀ x ∈ es, x.isStopping := fun x hx => hstops.deeds x (List.mem_append_left _ hx)
  rw [answers_eq]
  refine hrest.answered_isPrefix.subset ?_
  rcases hrunning.settled_of_isStopping hdeeds hclear hw with ⟨-, hnone⟩ | ⟨c', hc', hk, htold⟩
  · exact absurd rfl (hnone c (hreports ▸ hc))
  · -- No other report is about the same task.
    have hnodup := (hrunning.nodup_settled hledger hdeeds hclear).1
    rwa [List.inj_on_of_nodup_map hnodup hc' (hreports ▸ hc) hk] at htold

/-- Whoever waits when the loop leaves is told that the service is shutting down.  Giving them up is
the deed by which the loop leaves, whether or not the deadline has come. -/
theorem told_of_leave (hs : s.Sound) (hn : s.core.pending.WellFormed)
    (h : s.move .leave = some t) {k : Fingerprint} {w : ω}
    (hw : w ∈ s.core.pending.waiting k) : (w, .error .shuttingDown) ∈ t.answers := by
  have hleave : s.leave.story = s.story.rejectPending .shuttingDown := by
    have hpath : Dispatcher.Path s.story ([] ++ [.clear .shuttingDown]) s.leave.story :=
      (tells_leave hs).path
    obtain ⟨d, hnil, hdoes⟩ := hpath.exists_of_snoc
    obtain rfl := hnil.eq_of_nil
    generalize s.leave.story = d' at hdoes
    cases hdoes
    rfl
  have hstory : t.story = s.story.rejectPending .shuttingDown := by
    cases steps_of_move h with
    | aside hm => cases hm
    | leave => exact hleave
    | giveUp => rw [(Quiet.afterInput s.leave false).story_eq, hleave]
  rw [answers_eq, hstory, Dispatcher.answered_rejectPending]
  refine List.mem_append_right _ (List.mem_map.mpr ⟨w, ?_, rfl⟩)
  exact (Pending.mem_callers_iff hn.nodup).mpr ⟨k, hw⟩

/-- Whoever is behind the stop has not come to the dispatcher when it begins.  Its reply is its own,
and those of the requests that have been served are others. -/
theorem notMem_served_of_late (h : Run config gate τ s) (h' : Run config gate (τ ++ τ₂) t)
    {job : Job} {w : ω} (hlate : (job, w) ∈ s.inChannel ++ requested τ₂) :
    w ∉ s.story.served := by
  have hown := h'.own
  rw [requested_append, List.map_append] at hown
  have hperm := (h.perm_requested.append_right ((requested τ₂).map Prod.snd)).nodup_iff.mpr hown
  rw [List.nodup_append, List.nodup_append] at hperm
  obtain ⟨⟨-, -, hchannel⟩, -, hlater⟩ := hperm
  intro hserved
  rcases List.mem_append.mp hlate with hmem | hmem
  · exact hchannel w (List.mem_map_of_mem (f := Prod.snd) hmem) w hserved rfl
  · exact hlater w (List.mem_append_right _ hserved) w (List.mem_map_of_mem (f := Prod.snd) hmem) rfl

theorem mem_served_of_waiting (hn : s.core.pending.WellFormed) {k : Fingerprint} {w : ω}
    (hw : w ∈ s.core.pending.waiting k) : w ∈ s.story.served :=
  List.mem_append_left _ ((Pending.mem_callers_iff hn.nodup).mpr ⟨k, hw⟩)

/-- **Requests behind the stop are refused**, whatever is cached.  It cannot come to wait, since
nobody is admitted any more, and what is told during a stop to anybody who has not waited is the
refusal. -/
theorem places_of_late [DecidableEq ω] {ds : List (Deed ω)} (h : Run config gate τ s)
    (h' : Run config gate (τ ++ τ₂) t) (hstops : Stops s τ₂ ds t) {job : Job} {w : ω}
    (hlate : (job, w) ∈ s.inChannel ++ requested τ₂) :
    (¬ t.hasEnded ∧ t.places w = [.channel]) ∨ t.places w = [.answered (.error .shuttingDown)] := by
  -- So far the caller has neither waited nor been told anything.
  have hnew := notMem_served_of_late h h' hlate
  have hnone : ∀ k, w ∉ s.core.pending.waiting k := fun k hw =>
    hnew (mem_served_of_waiting h.wellFormed hw)
  have hr : (job, w) ∈ requested (τ ++ τ₂) := by
    rw [requested_append]
    refine List.mem_append.mpr ((List.mem_append.mp hlate).imp_left fun hmem => ?_)
    obtain ⟨ds', hds'⟩ := h.exists_tells
    have hrequests : ds'.filterMap Deed.request? ++ s.inChannel = requested τ := hds'.requests
    exact hrequests ▸ List.mem_append_right _ hmem
  -- At the end it is in exactly one place.
  obtain ⟨p, hp⟩ := h'.exists_place hr
  have hmem : p ∈ t.places w := by simp [hp]
  cases p with
  | channel =>
      refine .inl ⟨fun hended => ?_, hp⟩
      obtain ⟨o, ho⟩ := h'.answered_of_hasEnded hended hr
      rw [ho] at hp
      cases hp
  | waiting k =>
      have hw := (waiting_mem_places h'.wellFormed).mp hmem
      exact absurd (hstops.tells.path.mem_waiting_of_isStopping hstops.deeds hw) (hnone k)
  | answered o =>
      have ho := answered_mem_places.mp hmem
      rw [answers_eq] at ho
      rcases hstops.tells.path.answered_of_isStopping hstops.deeds h.wellFormed ho with
        hold | ⟨k, hw⟩ | rfl
      · exact absurd (List.mem_append_right _ (List.mem_map_of_mem (f := Prod.fst) hold)) hnew
      · exact absurd hw (hnone k)
      · exact .inr hp

/-! ## The contract -/

/-- **What everyone can rely on** once a stop has begun: `s₁` is the state before, `s₂` the state
after its beginning, and `s₃` any state of the run `τ₂` from there. -/
structure StopContract [DecidableEq ω] (config : PoolSettings) (gate : Gate)
    (τ₁ : List (Move ω)) (s₁ s₂ : Service ω) (τ₂ : List (Move ω)) (s₃ : Service ω) : Prop where
  /-- Who waits for a queued task is told at once. -/
  rejected : ∀ task ∈ s₁.core.queue, ∀ w ∈ s₁.core.pending.waiting task.fingerprint,
    (w, .error .shuttingDown) ∈ s₂.answers
  /-- Nothing is handed to a worker, and nothing is queued. -/
  handed : s₃.handedKeys = s₁.handedKeys ∧ s₃.core.queue = []
  /-- No pool is opened, whatever the gate does. -/
  pools : s₃.poolsOpened = s₁.poolsOpened
  /-- Who waits for a task in flight is told its outcome if its report arrives before the deadline:
  it is read before the loop leaves. -/
  delivered : s₂.Prompt τ₂ → ∀ task ∈ s₁.core.held,
    ∀ w ∈ s₁.core.pending.waiting task.fingerprint,
    ∀ c, s₂.Arrives τ₂ (s₁.timeout.deadlineFrom s₁.clock) c → c.fingerprint = task.fingerprint →
      (w, c.outcome) ∈ s₃.answers ∨ (s₃.isRunning ∧ c ∈ s₃.reports)
  /-- Who waits when the loop leaves is told that the service is shutting down. -/
  abandoned : ∀ u, s₂.Makes τ₂ .leave u → ∀ k, ∀ w ∈ u.core.pending.waiting k,
    (w, .error .shuttingDown) ∈ s₃.answers
  /-- Nobody waits after that. -/
  departed : ¬ s₃.isRunning → s₃.core.pending.entries = []
  /-- Requests behind the stop count for nothing. -/
  counters : s₃.core.stats.intake = s₁.core.stats.intake
  /-- They stay in the channel until the service ends, and are refused. -/
  late : ∀ job w, (job, w) ∈ s₂.inChannel ++ requested τ₂ →
    (¬ s₃.hasEnded ∧ s₃.places w = [.channel]) ∨
      s₃.places w = [.answered (.error .shuttingDown)]
  /-- Nobody who asks for a stop is told before the end. -/
  unacknowledged : ¬ s₃.hasEnded → s₃.stopAnswers = []
  /-- At the end all who have asked by then are told that the service has stopped, each once; who
  asks later is refused. -/
  acknowledged : s₃.hasEnded → ∃ σ m σ' u v, τ₁ ++ .command :: τ₂ = σ ++ m :: σ' ∧
    (ofConfig config gate).play σ = some u ∧ ¬ u.hasEnded ∧ u.move m = some v ∧ v.hasEnded ∧
    s₃.stopAnswers = (stopsAsked σ).map (fun w => (w, .ok ())) ++
      (stopsAsked σ').map fun w => (w, .error .shuttingDown)
  /-- Nothing keeps the service from its end. -/
  ends : s₃.CanEnd

/-- A stop leaves those alone who wait for a task in flight.  The rejected tasks are others, since
queued and held tasks are distinct. -/
theorem waiting_of_held (h₁ : (ofConfig config gate).play τ = some s) (hrun : s.isRunning)
    (hstory : t.story = s.story.rejectQueue .shuttingDown) {task : Task}
    (htask : task ∈ s.core.held) :
    t.core.pending.waiting task.fingerprint = s.core.pending.waiting task.fingerprint := by
  have hnodup := (ledger_of_play h₁ hrun).nodup
  rw [Dispatcher.openKeys, Dispatcher.openTasks, List.map_append] at hnodup
  have hqueued : ∀ u ∈ s.story.queue, u.fingerprint ≠ task.fingerprint := fun u hu =>
    (List.nodup_append.mp hnodup).2.2 _ (List.mem_map_of_mem hu) _ (List.mem_map_of_mem htask)
  have hkept := Dispatcher.waiting_rejectQueue hqueued .shuttingDown
  rwa [← hstory] at hkept

/-- After the beginning of a stop no pool is opened.  A pool that is there is not opened again, and
without one the loop does not listen to the gate any more. -/
theorem poolsOpened_of_stops {ds : List (Deed ω)} (hs : s.Sound) (hstop : s.isStopping)
    (hq : s.core.queue = []) (h : s.play τ = some t) (hstops : Stops s τ ds t) :
    t.poolsOpened = s.poolsOpened := by
  rw [poolsOpened_eq, poolsOpened_eq]
  rcases hstops.tells.path.started with hsame | ⟨hnone, hsome⟩
  · exact hsame
  · refine absurd ?_ hsome
    refine play_induction (P := fun _ t => t.core.pool = none) hnone ?_ h
    rintro τ m t u hplay hp hmove
    obtain ⟨es, hes⟩ := stops_of_play hs hstop hq hplay
    exact pool_none_of_move hes.stopping hp hmove

/-- **The contract of a stop.**  It holds in every run in which the loop takes a stop command or
finds that the last handle is gone.  No assumption is made about invocations that do not end, nor
about the order in which anything happens. -/
theorem stop_contract [DecidableEq ω] (h : Run config gate (τ₁ ++ .command :: τ₂) s₃)
    (h₁ : (ofConfig config gate).play τ₁ = some s₁) (hstop : s₁.meetsStop)
    (h₂ : s₁.move .command = some s₂) : StopContract config gate τ₁ s₁ s₂ τ₂ s₃ := by
  have hsplit : τ₁ ++ .command :: τ₂ = (τ₁ ++ [.command]) ++ τ₂ := by simp
  have hplay₂ : (ofConfig config gate).play (τ₁ ++ [.command]) = some s₂ :=
    (play_append_of_play h₁ _).trans ((play_singleton _ _).trans h₂)
  have hrun₃ : Run config gate ((τ₁ ++ [.command]) ++ τ₂) s₃ := hsplit ▸ h
  have hrun₂ : Run config gate (τ₁ ++ [.command]) s₂ := by
    have hown := hrun₃.own
    rw [requested_append, List.map_append] at hown
    exact ⟨hplay₂, (List.nodup_append.mp hown).1⟩
  have hplay₃ : s₂.play τ₂ = some s₃ := (play_append_of_play hplay₂ τ₂).symm.trans hrun₃.played
  have hrunning₁ : s₁.isRunning := by
    obtain ⟨hserving, -⟩ := Option.ite_none_right_eq_some.mp h₂
    simp [isRunning, hserving]
  obtain ⟨ds₁, hds₁⟩ := exists_tells_of_play (sound_ofConfig config gate) h₁
  obtain ⟨hphase, hstory⟩ := begins_of_move hds₁.sound hstop h₂
  obtain ⟨hstats, hhanded, hstarted⟩ := Dispatcher.rejectQueue_keeps s₁.story .shuttingDown
  rw [← hstory] at hstats hhanded hstarted
  have hstopping : s₂.isStopping := by simp [isStopping, hphase]
  have hqueue₂ : s₂.core.queue = [] := congrArg Dispatcher.queue hstory
  obtain ⟨ds, hstops⟩ := stops_of_play hrun₂.sound hstopping hqueue₂ hplay₃
  obtain ⟨hhanded', hqueue₃⟩ := hstops.tells.path.handedKeys_of_isStopping hqueue₂ hstops.deeds
  obtain ⟨hopen, hclosed⟩ := stopAnswers_of_play h.played
  have htold : s₃.Told := told_of_play (told_of_isRunning rfl) h.played
  refine ⟨?_, ⟨?_, hqueue₃⟩, ?_, ?_, ?_, hstops.tells.sound.departed, ?_, ?_, fun hended =>
    (hopen hended).1, hclosed, canEnd_of_isStopping htold hstops.stopping⟩
  -- The queued are rejected by the very handler that begins the stop.
  · intro task htask w hw
    rw [answers_eq, hstory]
    exact Dispatcher.mem_answered_rejectQueue (d := s₁.story) htask hw .shuttingDown
  · rw [handedKeys_eq, handedKeys_eq, hhanded', hhanded]
  · rw [poolsOpened_of_stops hrun₂.sound hstopping hqueue₂ hplay₃ hstops, poolsOpened_eq,
      poolsOpened_eq, hstarted]
  -- A report in time is read, and reading it tells all who wait for its task.
  · intro hprompt task htask w hw c hc hk
    refine (read_of_arrives hrun₂.sound hphase hprompt hplay₃ hc).imp_left fun hread => ?_
    have hledger := story_ledger_of_play hplay₂ (by simp [isRunning, hphase])
    refine told_of_reported hledger hstops hread ?_
    rwa [hk, waiting_of_held h₁ hrunning₁ hstory htask]
  -- Whoever waits when the loop leaves is told by that move, and answers are not taken back.
  · intro u hmakes k w hw
    obtain ⟨σ, σ', v, hu, hleave, hrest⟩ := hmakes.exists_play hplay₃
    obtain ⟨es, hes⟩ := exists_tells_of_play hrun₂.sound hu
    have htold := told_of_leave hes.sound (hes.path.wellFormed hrun₂.wellFormed) hleave hw
    obtain ⟨es', hes'⟩ := exists_tells_of_move hes.sound hleave
    obtain ⟨fs, hfs⟩ := exists_tells_of_play hes'.sound hrest
    rw [answers_eq] at htold ⊢
    exact hfs.path.answered_isPrefix.subset htold
  · exact (hstops.tells.path.intake_of_isStopping hstops.deeds).trans
      (congrArg Stats.intake hstats)
  · exact fun job w hlate => places_of_late hrun₂ hrun₃ hstops hlate

/-- One result is cached, two callers share a task under way, and a third waits in the queue; behind
the stop comes a request for what is cached. -/
def busyRun : List (Move Nat) :=
  [.begin, .request (.name "c") 0, .command, .take 0, .finish 0 (.ofJob (.name "c")) (.name "C"),
    .report ⟨0, .name "c", .ok (.name "C")⟩, .request (.name "a") 1, .request (.name "a") 2,
    .request (.name "b") 3, .command, .command, .command, .take 0, .stop 9, .request (.name "c") 4]

/-- The task under way is reported in time; one more stop comes before the end, and one after. -/
def closingRun : List (Move Nat) :=
  [.finish 0 (.ofJob (.name "a")) (.name "A"), .report ⟨0, .name "a", .ok (.name "A")⟩, .leave,
    .stop 10, .dismiss, .dismiss, .take 0, .farewell, .stop 11]

theorem stop_contract_busy :
    ∃ s₁ s₂ s₃ : Service Nat,
      Run { poolSize := 1 } Gate.opened (busyRun ++ .command :: closingRun) s₃ ∧
      (ofConfig { poolSize := 1 } Gate.opened).play busyRun = some s₁ ∧ s₁.meetsStop ∧
      s₁.move .command = some s₂ ∧ s₃.hasEnded ∧ s₃.places 2 = [.answered (.ok (.name "A"))] ∧
      s₃.places 3 = [.answered (.error .shuttingDown)] ∧
      s₃.places 4 = [.answered (.error .shuttingDown)] ∧
      s₃.stopAnswers = [(9, .ok ()), (10, .ok ()), (11, .error .shuttingDown)] ∧
      StopContract { poolSize := 1 } Gate.opened busyRun s₁ s₂ closingRun s₃ := by
  have hplay : ((ofConfig { poolSize := 1 } Gate.opened : Service Nat).play busyRun).any fun s₁ =>
      s₁.meetsStop && (s₁.move .command).any fun s₂ => (s₂.play closingRun).any fun s₃ =>
        s₃.hasEnded && s₃.places 2 = [.answered (.ok (.name "A"))] &&
          s₃.places 3 = [.answered (.error .shuttingDown)] &&
          s₃.places 4 = [.answered (.error .shuttingDown)] &&
          s₃.stopAnswers = [(9, .ok ()), (10, .ok ()), (11, .error .shuttingDown)] := by
    decide +kernel
  obtain ⟨s₁, h₁, hall⟩ := (Option.any_eq_true _ _).mp hplay
  obtain ⟨hstop, hall⟩ := Bool.and_eq_true_iff.mp hall
  obtain ⟨s₂, h₂, hall⟩ := (Option.any_eq_true _ _).mp hall
  obtain ⟨s₃, h₃, hall⟩ := (Option.any_eq_true _ _).mp hall
  simp only [Bool.and_eq_true, decide_eq_true_eq] at hall
  obtain ⟨⟨⟨⟨hended, h2⟩, h3⟩, h4⟩, hstops⟩ := hall
  -- The contract is that of the whole run, the stop in its middle.
  have hrun : Run { poolSize := 1 } Gate.opened (busyRun ++ .command :: closingRun) s₃ := by
    refine ⟨?_, by decide⟩
    rw [play_append_of_play h₁, play, h₂]
    exact h₃
  exact ⟨s₁, s₂, s₃, hrun, h₁, hstop, h₂, hended, h2, h3, h4, hstops,
    stop_contract hrun h₁ hstop h₂⟩

end Service

end AvatarPool
