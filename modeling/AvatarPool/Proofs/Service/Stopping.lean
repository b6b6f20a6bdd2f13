import AvatarPool.Proofs.Dispatch.Stopping
import AvatarPool.Proofs.Service.Conservation
import AvatarPool.Proofs.Service.SingleFlight
import AvatarPool.Proofs.Service.Steps

/-! # A service that stops

From the moment the loop begins to stop the queue is empty and the channel is closed to the
dispatcher, so that all it still does is among the deeds of a stop: nothing is admitted, nothing
handed out, and no pool is opened.

Two conditions are kept by every move of a stop: the queue is empty, so that nothing can be handed
out, and the loop takes no commands, so that nothing can be queued.  `Stops` is the path of deeds
with these, and it is what the contract of a stop is read from. -/

namespace AvatarPool

variable {ω : Type}

/-- Whether a worker has something to render, or renders it. -/
def Worker.hasWork (w : Worker) : Bool :=
  match w.activity, w.inbox with
  | .rendering _, _ => true
  | _, some (.render _) => true
  | _, _ => false

namespace Service

variable {config : PoolSettings} {gate : Gate} {s t u : Service ω} {m : Move ω} {τ : List (Move ω)}

/-- Whether a stop has begun. -/
def isStopping (s : Service ω) : Bool :=
  match s.phase with
  | .starting | .serving => false
  | _ => true

/-- Whether the loop stops when it next looks for a command: it finds a stop, or that the last
handle is gone. -/
def meetsStop (s : Service ω) : Bool :=
  match s.commands with
  | .stop _ :: _ => true
  | .request _ _ :: _ => false
  | [] => s.handles == 0

/-! ## Phases -/

theorem afterInput_phase (s : Service ω) (isReport : Bool) :
    (s.afterInput isReport).phase = s.phase := (Quiet.afterInput s isReport).phase

theorem afterInput_clock (s : Service ω) (isReport : Bool) :
    (s.afterInput isReport).clock = s.clock := by
  cases isReport <;> rfl

theorem not_isStopping_of_serving (h : s.phase = .serving) : ¬ s.isStopping := by
  simp [isStopping, h]

/-- There is no way back from it. -/
theorem isStopping_of_move (hs : s.isStopping) (h : s.move m = some t) : t.isStopping := by
  cases steps_of_move h with
  | aside _ ha | take _ _ _ ha | finish _ _ _ _ ha =>
      rw [isStopping, ha.phase]
      exact hs
  | begin hphase => simp [isStopping, hphase] at hs
  | report | look | lose => rw [isStopping, afterInput_phase]; exact hs
  | intake hphase | stop hphase | desert hphase => exact absurd hs (not_isStopping_of_serving hphase)
  | _ => rfl

/-- Only leaving ends the loop.  Before that the loop takes inputs in every phase. -/
theorem eq_leave_of_move (hs : s.isRunning) (ht : ¬ t.isRunning) (h : s.move m = some t) :
    m = .leave := by
  cases steps_of_move h with
  | aside _ ha | take _ _ _ ha | finish _ _ _ _ ha =>
      rw [isRunning, ha.phase] at ht
      exact absurd hs ht
  | begin => exact absurd rfl ht
  | report | look | lose | intake =>
      rw [isRunning, afterInput_phase] at ht
      exact absurd hs ht
  | stop | desert => exact absurd rfl ht
  | leave | giveUp => rfl
  | alone hphase | await hphase | skip hphase | tell hphase | part hphase =>
      rw [isRunning, hphase] at hs
      cases hs

/-- While the loop still runs the deadline stays as it was set. -/
theorem grace_of_move {deadline : Nat} (hs : s.phase = .grace deadline) (ht : t.isRunning)
    (h : s.move m = some t) : t.phase = .grace deadline := by
  cases steps_of_move h with
  | aside _ ha | take _ _ _ ha | finish _ _ _ _ ha => exact ha.phase.trans hs
  | report | look | lose => exact (afterInput_phase _ _).trans hs
  | begin hphase | intake hphase | stop hphase | desert hphase => rw [hs] at hphase; cases hphase
  | _ => cases ht

/-- The clock does not go back. -/
theorem clock_le_of_move (h : s.move m = some t) : s.clock ≤ t.clock := by
  cases steps_of_move h with
  | aside _ ha | take _ _ _ ha | finish _ _ _ _ ha => exact ha.clock
  | report | look | lose | intake | stop | desert | giveUp =>
      refine Nat.le_of_eq (Eq.trans ?_ (afterInput_clock _ _).symm)
      rfl
  | _ => exact Nat.le_refl _

/-! ## The beginning of a stop -/

/-- **The loop begins to stop**: the queue is rejected, and the deadline is set. -/
theorem begins_of_move (hs : s.Sound) (hstop : s.meetsStop) (h : s.move .command = some t) :
    t.phase = .grace (s.timeout.deadlineFrom s.clock) ∧
      t.story = s.story.rejectQueue .shuttingDown := by
  have hbegin : ∀ {u : Service ω}, u.core = s.core → u.outputs = s.outputs →
      u.timeout = s.timeout → u.clock = s.clock →
      (u.beginStop.afterInput false).phase = .grace (s.timeout.deadlineFrom s.clock) ∧
        (u.beginStop.afterInput false).story = s.story.rejectQueue .shuttingDown := by
    intro u hcore hout htimeout hclock
    have hafter := Quiet.afterInput u.beginStop false
    constructor
    · rw [hafter.phase, ← htimeout, ← hclock]
      rfl
    · have hstory : s.story = s.core.after (s.outputs.filterMap Output.effect?) := by
        unfold story Dispatcher.after
        rw [hs.collected, List.append_nil]
      rw [hafter.story_eq, beginStop, story_withCore, hstory, ← Dispatcher.after_rejectQueue]
      dsimp only
      rw [hcore, hout]
  cases steps_of_move h with
  | intake _ hc => simp [meetsStop, hc] at hstop
  | stop | desert => exact hbegin rfl rfl rfl rfl
  | aside hm => cases hm

/-! ## The channel -/

/-- The request that a move takes out of the channel. -/
def fetched (s : Service ω) : Move ω → List (Job × ω)
  | .command => (s.commands.head?.bind Command.request?).toList
  | _ => []

theorem fetched_of_request {job : Job} {w : ω} {rest : List (Command ω)}
    (hc : s.commands = .request job w :: rest) : s.fetched .command = [(job, w)] := by
  rw [fetched, hc]
  rfl

/-- The beginning of a stop takes no request. -/
theorem fetched_of_meetsStop (hstop : s.meetsStop) : s.fetched .command = [] := by
  unfold meetsStop at hstop
  unfold fetched
  split at hstop
  · rename_i hc
    rw [hc]
    rfl
  · cases hstop
  · rename_i hc
    rw [hc]
    rfl

/-- Requests are taken by the loop's look at the channel, and only if one comes first. -/
theorem exists_request_of_fetched (h : s.fetched m ≠ []) :
    m = .command ∧ ∃ job w rest, s.commands = .request job w :: rest := by
  unfold fetched at h
  split at h
  · refine ⟨rfl, ?_⟩
    cases hc : s.commands with
    | nil => simp [hc] at h
    | cons c rest =>
        cases c with
        | request job w => exact ⟨job, w, rest, rfl⟩
        | stop w => simp [hc, Command.request?] at h
  · exact absurd rfl h

theorem fetched_of_isOutside (hm : m.isOutside) : s.fetched m = [] := by
  cases m with
  | command => cases hm
  | _ => rfl

/-- What a move sends is a request or a stop, and the request is recorded. -/
theorem requests_of_command? (m : Move ω) :
    m.command?.toList.filterMap Command.request? = requested [m] := by
  cases m <;> rfl

/-- **The channel is a queue**: while the loop runs, requests come in at its end and are taken out
at its front. -/
theorem fetched_append_inChannel (hrun : s.isRunning) (h : s.move m = some t) :
    s.fetched m ++ t.inChannel = s.inChannel ++ requested [m] := by
  -- What is sent goes to the end of the channel.
  have hsame : ∀ {cs : List (Command ω)}, t.commands = s.commands ++ cs →
      t.inChannel = s.inChannel ++ cs.filterMap Command.request? := by
    intro cs hcommands
    rw [inChannel, hcommands, List.filterMap_append]
    rfl
  cases steps_of_move h with
  | aside hm ha =>
      have hsent : s.sentBy m = m.command?.toList := if_neg (not_hasEnded_of_isRunning hrun)
      rw [fetched_of_isOutside hm, hsame ha.commands, hsent, requests_of_command?]
      rfl
  | take _ _ _ ha | finish _ _ _ _ ha => exact hsame ha.commands
  | begin | report | look | lose | leave | giveUp => exact (List.append_nil _).symm
  | @intake job w rest _ hc =>
      have hfirst : s.inChannel = (job, w) :: rest.filterMap Command.request? := by
        rw [inChannel, hc]
        rfl
      rw [fetched_of_request hc, hfirst]
      exact (List.append_nil _).symm
  | @stop w rest _ hc =>
      have hfirst : s.inChannel = rest.filterMap Command.request? := by
        rw [inChannel, hc]
        rfl
      rw [fetched_of_meetsStop (by rw [meetsStop, hc]), hfirst]
      exact (List.append_nil _).symm
  | desert _ hc hhandles =>
      rw [fetched_of_meetsStop (by simp [meetsStop, hc, hhandles])]
      exact (List.append_nil _).symm
  | alone hphase | await hphase | skip hphase | tell hphase | part hphase =>
      simp [isRunning, hphase] at hrun

/-- Once the loop has begun to stop, requests stay in the channel. -/
theorem fetched_of_isStopping (hs : s.isStopping) (h : s.move m = some t) : s.fetched m = [] := by
  by_contra hne
  obtain ⟨rfl, -⟩ := exists_request_of_fetched hne
  obtain ⟨hphase, -⟩ := Option.ite_none_right_eq_some.mp h
  exact not_isStopping_of_serving hphase hs

/-- While the loop runs, the dispatcher admits what is taken out of the channel. -/
theorem requests_of_tells {ds : List (Deed ω)} (hds : Tells s [m] ds t) (hrun : s.isRunning)
    (h : s.move m = some t) : ds.filterMap Deed.request? = s.fetched m :=
  List.append_cancel_right (hds.requests.trans (fetched_append_inChannel hrun h).symm)

/-- A move that takes no request out of the channel admits nobody. -/
theorem notMem_of_fetched {ds : List (Deed ω)} (hds : Tells s [m] ds t) (h : s.move m = some t)
    (hnone : s.fetched m = []) (job : Job) (w : ω) : .accept job w ∉ ds := by
  intro hmem
  by_cases hrun : s.isRunning
  · have hfound : (job, w) ∈ ds.filterMap Deed.request? := List.mem_filterMap.mpr ⟨_, hmem, rfl⟩
    rw [requests_of_tells hds hrun h, hnone] at hfound
    cases hfound
  · -- A loop that has left does only the last deeds.
    obtain ⟨-, es, fs, rfl, -, hlast, hes, -⟩ := hds.staged
    rw [hes hrun, List.nil_append] at hmem
    exact nomatch hlast _ hmem

/-! ## Deeds of a stop -/

/-- From one state to the next a stopping service does only the deeds of a stop. -/
structure Stops (s : Service ω) (τ : List (Move ω)) (ds : List (Deed ω)) (t : Service ω) : Prop where
  tells : Tells s τ ds t
  deeds : ∀ x ∈ ds, x.isStopping
  stopping : t.isStopping
  queue : t.core.queue = []

theorem Stops.append {τ' : List (Move ω)} {ds ds' : List (Deed ω)} (h : Stops s τ ds t)
    (h' : Stops t τ' ds' u) : Stops s (τ ++ τ') (ds ++ ds') u where
  tells := h.tells.append h'.tells
  deeds x hx := (List.mem_append.mp hx).elim (h.deeds x) (h'.deeds x)
  stopping := h'.stopping
  queue := h'.queue

/-- **A stopping service admits nobody and hands out nothing.**  Its path has no admissions, and
from an empty queue nothing leaves it. -/
theorem stops_of_move (hs : s.Sound) (hstop : s.isStopping) (hq : s.core.queue = [])
    (h : s.move m = some t) : ∃ ds, Stops s [m] ds t := by
  obtain ⟨ds, hds⟩ := exists_tells_of_move hs h
  have haccept := notMem_of_fetched hds h (fetched_of_isStopping hstop h)
  obtain ⟨hdeeds, hq'⟩ := hds.path.isStopping_of_queue hq haccept
  exact ⟨ds, hds, hdeeds, isStopping_of_move hstop h, hq'⟩

/-- What a stopping service does in a run.  By induction on the run: a move that it can make leaves
it stopping, with an empty queue. -/
theorem stops_of_play (hs : s.Sound) (hstop : s.isStopping) (hq : s.core.queue = [])
    (h : s.play τ = some t) : ∃ ds, Stops s τ ds t := by
  refine play_induction (P := fun τ t => ∃ ds, Stops s τ ds t) ?_ ?_ h
  · exact ⟨[], tells_nil hs, nofun, hstop, hq⟩
  · rintro τ m t u - ⟨ds, hds⟩ hmove
    obtain ⟨es, hes⟩ := stops_of_move hds.tells.sound hds.stopping hds.queue hmove
    exact ⟨ds ++ es, hds.append hes⟩

/-- A service that stops without a pool never gets one. -/
theorem pool_none_of_move (hstop : s.isStopping) (hp : s.core.pool = none)
    (h : s.move m = some t) : t.core.pool = none := by
  -- Without a pool nothing is in flight, and then the loop of a stop does not listen.
  have hidle : ¬ s.isListening := by
    intro hl
    unfold isListening at hl
    unfold isStopping at hstop
    split at hl
    · rename_i hphase
      rw [hphase] at hstop
      cases hstop
    · simp [Dispatcher.running, hp] at hl
    · cases hl
  cases steps_of_move h with
  | aside _ ha => rw [ha.core, hp]
  | take hpool | finish hpool | await _ hpool | skip _ hpool | tell _ hpool =>
      rw [hp] at hpool
      cases hpool
  | begin hphase => simp [isStopping, hphase] at hstop
  | report hl | look hl | lose hl => exact absurd hl hidle
  | intake hphase | stop hphase | desert hphase =>
      exact absurd hstop (not_isStopping_of_serving hphase)
  | leave | giveUp | alone | part => exact hp

/-! ## Workers after the loop has left

A loop that has left hands out nothing and takes no reports, so what its workers do from then on
concerns nobody else.  It matters in one respect: an invocation that is to end must have been under
way when the loop left. -/

/-- Nobody in the pool has anything to render. -/
def Spent (s : Service ω) : Prop := ∀ slot ∈ s.core.slots, slot.worker.hasWork = false

/-- Tasks under way are counted by the slots that hold one. -/
theorem idle_of_running_eq_zero (h : s.core.running = 0) :
    ∀ slot ∈ s.core.slots, slot.held = none := by
  intro slot hmem
  unfold Dispatcher.running at h
  unfold Dispatcher.slots at hmem
  split at h
  · rename_i hp
    rw [hp] at hmem
    exact absurd hmem List.not_mem_nil
  · rename_i pool hp
    rw [hp] at hmem
    have hnone := List.countP_eq_zero.mp h slot hmem
    simpa using hnone

/-- With nothing in flight no worker has work, and no report is unread.  Each slot is idle, and an
idle slot has neither a message nor an unread report. -/
theorem spent_of_running_eq_zero (hc : Carried s.core.slots s.reports) (h : s.core.running = 0) :
    s.Spent ∧ s.reports = [] := by
  have hidle := idle_of_running_eq_zero h
  refine ⟨fun slot hmem => ?_, List.eq_nil_iff_forall_not_mem.mpr fun c hmem => ?_⟩
  · rw [hc.ready slot hmem (hidle slot hmem)]
    rfl
  · have hget := List.getElem?_eq_getElem (hc.known c hmem)
    have hnone := ((hc.fits _ _ hget).eq_idle (hidle _ (List.getElem_mem _))).2
    have hfound : c ∈ reportsOf s.reports c.worker := List.mem_filter.mpr ⟨hmem, by simp⟩
    rw [hnone] at hfound
    exact List.not_mem_nil hfound

/-- If only the one worker has changed and has nothing to do, nobody has. -/
theorem spent_setWorker {pool : Pool} {k : Nat} {w : Worker} (hs : s.Spent)
    (hp : s.core.pool = some pool) (hw : w.hasWork = false) :
    ∀ slot ∈ (pool.setWorker k w).slots, slot.worker.hasWork = false := by
  intro slot hmem
  obtain ⟨j, hj⟩ := List.mem_iff_getElem?.mp hmem
  rw [Pool.setWorker, List.getElem?_modify] at hj
  obtain ⟨slot', hslot', rfl⟩ := Option.map_eq_some_iff.mp hj
  split
  · exact hw
  · exact hs _ (Dispatcher.slots_of_pool hp ▸ List.mem_of_getElem? hslot')

/-- Once the loop has left, no worker gets work any more.  By the cases of a step: a worker that is
told to stop gets a message, but not to render. -/
theorem spent_of_move (hrun : ¬ s.isRunning) (hs : s.Spent) (h : s.move m = some t) : t.Spent := by
  -- No slot has work to do.
  have hspent : ∀ {pool : Pool} {k : Nat} {slot : Slot}, s.core.pool = some pool →
      pool.slots[k]? = some slot → slot.worker.hasWork = false := fun hp hslot =>
    hs _ (Dispatcher.slots_of_pool hp ▸ List.mem_of_getElem? hslot)
  cases steps_of_move h with
  | aside _ ha => rw [Spent, ha.core]; exact hs
  | take hp hslot hw ha =>
      rw [Spent, ha.core]
      refine spent_setWorker hs hp ?_
      have hidle := hspent hp hslot
      unfold Worker.take at hw
      split at hw <;> cases hw
      · simp [Worker.hasWork, *] at hidle
      · rfl
  | finish hp hslot hactivity =>
      have hidle := hspent hp hslot
      simp [Worker.hasWork, hactivity] at hidle
  | begin hphase | intake hphase | stop hphase | desert hphase | leave hphase | giveUp hphase =>
      simp [isRunning, hphase] at hrun
  | report hl | look hl | lose hl => exact absurd (isRunning_of_isListening hl) hrun
  | alone | await | skip | part => exact hs
  | @tell k pool w os _ hp hk _ _ =>
      refine spent_setWorker hs hp ?_
      obtain ⟨slot, hslot, rfl⟩ := Option.map_eq_some_iff.mp hk
      have hidle := hspent hp hslot
      revert hidle
      unfold Worker.hasWork
      cases slot.worker.activity <;> simp

/-! ## The deadline -/

/-- The loop leaves as its own step does, which reads reports before it looks at the clock.  A run
in general may leave at the deadline with reports unread, since a move of the loop is made in any
order; the program of the loop does not. -/
def Prompt (s : Service ω) (τ : List (Move ω)) : Prop :=
  ∀ u, s.Makes τ .leave u → u.step = u.move .leave

/-- **A turn of the loop is a prompt run.** -/
theorem exists_prompt_of_turn (inputs : Nat) (s : Service ω) :
    ∃ τ : List (Move ω), (∀ m ∈ τ, m.isLoop) ∧ s.Prompt τ ∧ s.play τ = some (s.turn inputs) := by
  -- A run of one move is prompt if it does not leave, or leaves by the loop's own step.
  have hsingle : ∀ {s t : Service ω} {m : Move ω}, m.isLoop → s.move m = some t →
      (m = .leave → s.step = s.move m) →
      ∃ τ : List (Move ω), (∀ m ∈ τ, m.isLoop) ∧ s.Prompt τ ∧ s.play τ = some t := by
    intro s t m hm hmove hstep
    refine ⟨[m], by simpa using hm, fun u hu => ?_, (play_singleton s m).trans hmove⟩
    obtain ⟨rfl, rfl⟩ := hu.of_singleton
    exact hstep rfl
  refine turn_induction (R := fun s t => ∃ τ : List (Move ω), (∀ m ∈ τ, m.isLoop) ∧ s.Prompt τ ∧
    s.play τ = some t) ?_ ?_ ?_ ?_ ?_ inputs s
  · exact fun s => ⟨[], nofun, fun u hu => absurd hu not_makes_nil, rfl⟩
  · rintro s t u ⟨τ, hτ, hprompt, ht⟩ ⟨τ', hτ', hprompt', hu⟩
    refine ⟨τ ++ τ', fun m hm => (List.mem_append.mp hm).elim (hτ m) (hτ' m), fun v hv => ?_,
      (play_append_of_play ht _).trans hu⟩
    exact ((makes_append ht).mp hv).elim (hprompt v) (hprompt' v)
  · intro s t h
    obtain ⟨m, hm, hmove⟩ := move_of_step h
    exact hsingle hm hmove fun _ => h.trans hmove.symm
  · exact fun s => hsingle (m := .rest) rfl rfl nofun
  · exact fun s => hsingle (m := .postpone) rfl rfl nofun

end Service

end AvatarPool
