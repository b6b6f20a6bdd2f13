import AvatarPool.Proofs.Service.Readiness

/-! # What is left in the queue

Tasks are queued for two reasons only: the gate has not opened or failed since it was last seen, or
it is open and every worker has a task.  A failed gate and the beginning of a stop empty the queue,
and nothing is queued afterwards until the gate opens again.  So with an open gate and nothing in
flight nobody waits for anything.

Nothing new is proved about single moves here.  That an open gate leaves no worker idle is known as
`tidy_of_play` and that the workers are there as `stands_of_play`; what is added is the beginning of
a stop, and the step from an empty queue and idle workers to a table in which nobody waits. -/

namespace AvatarPool.Service

variable {ω : Type} {config : PoolSettings} {gate : Gate} {s t : Service ω} {m : Move ω}
  {τ : List (Move ω)}

/-- The last state of the gate that the loop has taken in a run; the gate counts as pending before
the loop has looked at it. -/
def lastSeen (s : Service ω) (τ : List (Move ω)) : Readiness :=
  (s.observed τ).getLast?.getD .pending

/-! ## The beginning of a stop -/

/-- **A stop begins with a command.**  No other move leads from serving to stopping. -/
theorem meetsStop_of_move (hs : ¬ s.isStopping) (ht : t.isStopping) (h : s.move m = some t) :
    m = .command ∧ s.meetsStop := by
  have hsame : t.phase ≠ s.phase := by
    intro hphase
    rw [isStopping, hphase] at ht
    exact hs ht
  cases steps_of_move h with
  | aside _ ha | take _ _ _ ha | finish _ _ _ _ ha => exact absurd ha.phase hsame
  | begin => exact absurd ht Bool.false_ne_true
  | report | look | lose | intake => exact absurd (afterInput_phase _ _) hsame
  | stop _ hc => exact ⟨rfl, by rw [meetsStop, hc]⟩
  | desert _ hc hhandles => exact ⟨rfl, by simp [meetsStop, hc, hhandles]⟩
  | leave hphase | giveUp hphase | alone hphase | await hphase | skip hphase | tell hphase
  | part hphase => exact absurd (by rw [isStopping, hphase]) hs

/-- **A service that stops has nothing queued.**  It begins with none, and it takes in no requests
that could be queued. -/
theorem queue_of_isStopping (h : (ofConfig config gate).play τ = some s) (hstop : s.isStopping) :
    s.core.queue = [] := by
  revert hstop
  refine play_induction (P := fun _ s => s.isStopping → s.core.queue = []) (fun _ => rfl) ?_ h
  intro τ m s t hplay ih hmove hstop
  obtain ⟨ds, hds⟩ := exists_tells_of_play (sound_ofConfig config gate) hplay
  by_cases hs : s.isStopping
  · obtain ⟨es, hes⟩ := stops_of_move hds.sound hs (ih hs) hmove
    exact hes.queue
  · -- The stop has begun with this very move, which rejects what was queued.
    obtain ⟨rfl, hmeets⟩ := meetsStop_of_move hs hstop hmove
    obtain ⟨-, hstory⟩ := begins_of_move hds.sound hmeets hmove
    exact congrArg Dispatcher.queue hstory

/-! ## Nothing is kept back -/

theorem readiness_of_play (h : (ofConfig config gate).play τ = some s) :
    s.core.readiness = (ofConfig config gate : Service ω).lastSeen τ :=
  (stands_of_play h).readiness

/-- Once the gate has been seen open there are as many workers as there are to be. -/
theorem exists_pool_of_seen (h : (ofConfig config gate).play τ = some s)
    (hlast : (ofConfig config gate : Service ω).lastSeen τ = .ready) :
    ∃ pool, s.core.pool = some pool ∧ pool.slots.length = max 1 config.poolSize := by
  have hseen : .ready ∈ (ofConfig config gate : Service ω).observed τ := by
    rcases Option.getD_eq_iff.mp hlast with hready | ⟨-, hnone⟩
    · exact List.mem_of_getLast? hready
    · cases hnone
  have hstands := stands_of_play h
  have hopened : s.standing.activities.isSome := by
    rw [hstands.opened]
    exact List.contains_iff_mem.mpr hseen
  obtain ⟨pool, hpool⟩ : ∃ pool, s.core.pool = some pool :=
    Option.isSome_iff_exists.mp ((Option.isSome_map ..).symm.trans hopened)
  refine ⟨pool, hpool, ?_⟩
  have hlength := hstands.workers _ (activities_of_pool hpool)
  rwa [Pool.activities, List.length_map] at hlength

/-- With an open gate tasks are queued only behind as many others.  A queue that is not empty is
what is left after handing out, which stops only when no worker is idle. -/
theorem busy_of_play (h : (ofConfig config gate).play τ = some s)
    (hlast : (ofConfig config gate : Service ω).lastSeen τ = .ready) (hq : s.core.queue ≠ []) :
    ∃ pool, s.core.pool = some pool ∧ pool.slots.length = max 1 config.poolSize ∧
      ∀ slot ∈ pool.slots, slot.held ≠ none := by
  obtain ⟨pool, hpool, hlength⟩ := exists_pool_of_seen h hlast
  refine ⟨pool, hpool, hlength, ?_⟩
  have hbusy := ((tidy_of_play h).busy ((readiness_of_play h).trans hlast)).resolve_left hq
  rwa [Dispatcher.slots_of_pool hpool] at hbusy

/-- Nobody waits if nothing is under way.  Those who wait do so for tasks that are queued or held.
-/
theorem entries_of_openTasks (h : s.core.Ledger) (hopen : s.core.openTasks = []) :
    s.core.pending.entries = [] := by
  have hkeys : s.core.pending.keys = [] := by
    have hbooks := h.books
    rw [Dispatcher.openKeys, hopen] at hbooks
    exact hbooks.nil_eq.symm
  exact List.map_eq_nil_iff.mp hkeys

/-- The counter of tasks under way is that of the held ones. -/
theorem held_of_running_eq_zero (h : s.core.running = 0) : s.core.held = [] := by
  cases hp : s.core.pool with
  | none => simp [Dispatcher.held, hp]
  | some pool =>
      rw [Dispatcher.held_of_pool hp]
      refine List.filterMap_eq_nil_iff.mpr fun slot hmem => ?_
      exact idle_of_running_eq_zero h slot (Dispatcher.slots_of_pool hp ▸ hmem)

/-- With an open gate and nothing in flight nothing is queued. -/
theorem queue_of_running_eq_zero (h : (ofConfig config gate).play τ = some s)
    (hlast : (ofConfig config gate : Service ω).lastSeen τ = .ready) (hidle : s.core.running = 0) :
    s.core.queue = [] := by
  by_contra hq
  obtain ⟨pool, hpool, hlength, hbusy⟩ := busy_of_play h hlast hq
  -- There is a worker, and it would have to be busy and idle.
  have hpos : 0 < pool.slots.length := by omega
  have hmem : pool.slots[0] ∈ pool.slots := List.getElem_mem hpos
  refine hbusy _ hmem (idle_of_running_eq_zero hidle _ ?_)
  rwa [Dispatcher.slots_of_pool hpool]

/-- **What a run leaves waiting.**  The fields are what a maintainer would look for in a service
that seems to hang: who is in the way of the queue, and whether anybody waits without need. -/
structure Unstarved (config : PoolSettings) (gate : Gate) (τ : List (Move ω)) (s : Service ω) :
    Prop where
  /-- Tasks are queued only before a pending gate or behind busy workers. -/
  blocked : s.core.queue ≠ [] →
    (ofConfig config gate : Service ω).lastSeen τ = .pending ∨
      (ofConfig config gate : Service ω).lastSeen τ = .ready ∧
        ∃ pool, s.core.pool = some pool ∧ pool.slots.length = max 1 config.poolSize ∧
          ∀ slot ∈ pool.slots, slot.held ≠ none
  failed : ∀ why, (ofConfig config gate : Service ω).lastSeen τ = .failed why → s.core.queue = []
  stopping : s.isStopping → s.core.queue = []
  drained : (ofConfig config gate : Service ω).lastSeen τ = .ready → s.core.running = 0 →
    s.core.queue = [] ∧ s.core.pending.entries = []

/-- **No idle worker with a backlog**: after every run, whatever the gate and the workers have done,
a queued task waits for the gate or for a worker, and with an open gate and nothing in flight nobody
waits at all. -/
theorem no_idle_worker_with_backlog (h : (ofConfig config gate).play τ = some s) :
    Unstarved config gate τ s := by
  have hfailed : ∀ why, (ofConfig config gate : Service ω).lastSeen τ = .failed why →
      s.core.queue = [] := fun why hlast =>
    (tidy_of_play h).empty why ((readiness_of_play h).trans hlast)
  refine ⟨fun hq => ?_, hfailed, queue_of_isStopping h, fun hlast hidle => ?_⟩
  · cases hlast : (ofConfig config gate : Service ω).lastSeen τ with
    | pending => exact .inl rfl
    | ready => exact .inr ⟨rfl, busy_of_play h hlast hq⟩
    | failed why => exact absurd (hfailed why hlast) hq
  · have hqueue := queue_of_running_eq_zero h hlast hidle
    refine ⟨hqueue, ?_⟩
    -- While the loop runs, the ledger says that all who wait are waiting for some task; afterwards
    -- nobody waits.
    by_cases hrun : s.isRunning
    · refine entries_of_openTasks (ledger_of_play h hrun) ?_
      rw [Dispatcher.openTasks, hqueue, held_of_running_eq_zero hidle]
      rfl
    · obtain ⟨ds, hds⟩ := exists_tells_of_play (sound_ofConfig config gate) h
      exact hds.sound.departed hrun

/-- Two tasks are queued before the gate opens; then one is with the only worker and the other
behind it. -/
def backlogRun : List (Move Nat) :=
  [.request (.name "a") 0, .request (.name "b") 1, .begin, .command, .command, .setGate .ready,
    .watch]

theorem no_idle_worker_with_backlog_queued :
    ∃ s t : Service Nat, (ofConfig { poolSize := 1 } {}).play backlogRun = some s ∧
      s.core.queue = [.ofJob (.name "b")] ∧
      (∃ pool, s.core.pool = some pool ∧ ∀ slot ∈ pool.slots, slot.held ≠ none) ∧
      (ofConfig { poolSize := 1 } {}).play (backlogRun ++ [.stop 9, .command]) = some t ∧
      t.core.queue = [] := by
  have hplay : ((ofConfig { poolSize := 1 } {} : Service Nat).play backlogRun).any fun s =>
      decide (s.core.queue = [.ofJob (.name "b")]) && (s.play [.stop 9, .command]).any isStopping &&
        decide ((ofConfig { poolSize := 1 } {} : Service Nat).lastSeen backlogRun = .ready) := by
    decide +kernel
  obtain ⟨s, hs, hall⟩ := (Option.any_eq_true _ _).mp hplay
  simp only [Bool.and_eq_true, decide_eq_true_eq] at hall
  obtain ⟨⟨hqueue, hlater⟩, hlast⟩ := hall
  obtain ⟨t, ht, hstop⟩ := (Option.any_eq_true _ _).mp hlater
  have ht : (ofConfig { poolSize := 1 } {}).play (backlogRun ++ [.stop 9, .command]) = some t :=
    (play_append_of_play hs _).trans ht
  have hne : s.core.queue ≠ [] := by rw [hqueue]; exact List.cons_ne_nil _ _
  obtain hpending | ⟨-, pool, hpool, -, hbusy⟩ := (no_idle_worker_with_backlog hs).blocked hne
  · rw [hlast] at hpending
    cases hpending
  · exact ⟨s, t, hs, hqueue, ⟨pool, hpool, hbusy⟩, ht,
      (no_idle_worker_with_backlog ht).stopping hstop⟩

end AvatarPool.Service
