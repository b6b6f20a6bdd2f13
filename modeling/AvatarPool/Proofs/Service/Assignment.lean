import AvatarPool.Proofs.Dispatch.HandOvers
import AvatarPool.Proofs.Service.Queueing

/-! # Assignment never fails

Tasks are handed out when a request has opened one, when a report has freed a worker, and when the
gate opens.  In whatever way callers, workers and the loop have taken turns before, and however
invocations have ended, the worker that is chosen then is idle, open and without a message: nothing
hinders a task on its way, and none is ever given back.

A move that hands tasks out is looked at in the middle: `handing?` is the dispatcher after the input
has been dealt with and before the first task goes out.  There no idle worker has anything in its
box (`handled_of_handing`), and from such a state every attempt goes through.  The moves that hand
nothing out are those that reject the queue and those that leave it alone. -/

namespace AvatarPool

variable {ω : Type}

/-- How an output takes a task off the queue. -/
def Output.exit? (o : Output ω) : Option (Task × Except Failure Nat) := o.effect?.bind Effect.exit?

namespace Service

variable {config : PoolSettings} {gate : Gate} {s t : Service ω} {m : Move ω} {τ : List (Move ω)}
  {d : Dispatcher ω}

/-! ## Handing out -/

/-- The dispatcher as it is when a move has it hand out tasks, if the move does.  These are the
three occasions: a worker is free, a task has been opened, or the gate is open. -/
def handing? (s : Service ω) : Move ω → Option (Dispatcher ω)
  | .report c => some (s.core.settle c)
  | .command =>
    match s.commands with
    | .request job w :: _ =>
      if s.core.fate job = .opened then some (s.core.openTask job w) else none
    | _ => none
  | m => if s.seen m = [.ready] then some (s.core.see .ready) else none

/-- The attempts to hand over a task that a move makes.  The list is computed from the state in
which handing out begins, so it can be looked at before the move is made. -/
def handOvers (s : Service ω) (m : Move ω) : List HandOver :=
  ((s.handing? m).map Dispatcher.handOvers).getD []

/-- How tasks have left the queue so far, in order.  A task leaves with the worker that gets it or
with the failure it is rejected with. -/
def exits (s : Service ω) : List (Task × Except Failure Nat) := s.outputs.filterMap Output.exit?

/-- The tasks that a move rejects, with the reason. -/
def rejections (s : Service ω) (m : Move ω) : List (Task × Except Failure Nat) :=
  match s.refusal? m with
  | some why => s.core.queue.map fun task => (task, .error why)
  | none => []

theorem exits_eq (s : Service ω) : s.exits = s.story.exits :=
  filterMap_outputs (fun _ => rfl) s

theorem Handled.exits (h : Handled s d t) : t.exits = s.exits ++ d.exits := by
  rw [exits_eq, exits_eq, h.story]
  exact List.filterMap_append

theorem exits_of_collected (hs : s.core.effects = []) : s.core.exits = [] := by
  rw [Dispatcher.exits, hs]
  rfl

theorem OnlyTells.exits (h : s.OnlyTells t) : t.exits = s.exits := by
  obtain ⟨as, hstory⟩ := h
  rw [exits_eq, exits_eq, hstory]
  exact Dispatcher.exits_note_of_forall (List.forall_mem_map.mpr fun _ _ => rfl)

/-! ## Where handing out begins -/

/-- A report has freed its worker.  Its slot was the one the report came from, so it is idle with an
empty box. -/
theorem ready_settle {c : WorkReport} {rest : List WorkReport} (h : Carried d.slots (c :: rest)) :
    Ready (d.settle c).slots := by
  obtain ⟨task, hk, hf, -⟩ := h.head
  rcases Option.eq_none_or_eq_some d.pool with hp | ⟨pool, hp⟩
  · rw [Dispatcher.slots, hp] at hk
    cases hk
  · rw [Dispatcher.slots_of_pool hp] at hk
    have hwork : Deed.settle c ≠ (.work : Deed ω) := by simp
    exact ((Dispatcher.Does.settled hp hk hf).carried hwork h).ready

/-- What a request must meet to open a task.  Its result is not cached, the gate has not failed, and
nobody waits for the same result. -/
theorem of_fate_eq_opened {job : Job} (h : d.fate job = .opened) :
    d.cache.get? job.fingerprint = none ∧ (∀ why, d.readiness ≠ .failed why) ∧
      job.fingerprint ∉ d.pending.keys := by
  cases hc : d.cache.get? job.fingerprint with
  | some artifact =>
      rw [Dispatcher.fate_of_get? hc] at h
      cases h
  | none =>
      have hr : ∀ why, d.readiness ≠ .failed why := by
        intro why hr
        rw [Dispatcher.fate_of_failed hc hr] at h
        cases h
      refine ⟨rfl, hr, fun hk => ?_⟩
      rw [Dispatcher.fate_of_notFailed hc hr, if_pos hk] at h
      cases h

/-- A request that opens no task takes none off the queue.  It is answered at once, from the cache
or because the gate has failed, or it joins others who wait. -/
theorem exits_accept {job : Job} (h : d.fate job ≠ .opened) (w : ω) :
    (d.accept job w).exits = d.exits := by
  have hanswered : ∀ {o : Outcome}, (d.accept job w).effects = d.effects ++ [.answered w o] →
      (d.accept job w).exits = d.exits := by
    intro o heffects
    rw [Dispatcher.exits, heffects, List.filterMap_append]
    exact List.append_nil _
  cases hc : d.cache.get? job.fingerprint with
  | some artifact => exact hanswered (Dispatcher.accept_of_get? hc w).2
  | none =>
      by_cases hr : ∃ why, d.readiness = .failed why
      · obtain ⟨why, hr⟩ := hr
        exact hanswered (Dispatcher.accept_of_failed hc hr w).2
      · have hopen : ∀ why, d.readiness ≠ .failed why := fun why hwhy => hr ⟨why, hwhy⟩
        rw [Dispatcher.fate_of_notFailed hc hopen] at h
        by_cases hk : job.fingerprint ∈ d.pending.keys
        · rw [Dispatcher.accept_of_mem hc hopen hk]
          rfl
        · exact absurd (if_neg hk) h

/-- **A handler that hands tasks out does so from there on**, and finds no idle worker that has
anything to do.  The three occasions come with three handlers, each of which ends by handing out. -/
theorem handled_of_handing (hs : s.Sound) (h : s.move m = some t) (hd : s.handing? m = some d) :
    Handled s d.handOut t ∧ Ready d.slots ∧ d.exits = [] ∧ s.rejections m = [] := by
  have hnone := exits_of_collected hs.collected
  unfold handing? at hd
  split at hd
  -- A report has freed a worker.
  · cases hd
    obtain ⟨hrun, ⟨rest, hr⟩, hhandled⟩ := handled_of_report h
    rw [Dispatcher.takeReport_eq] at hhandled
    exact ⟨hhandled, ready_settle (hr ▸ hs.carried hrun),
      (Dispatcher.exits_settle _ _).trans hnone, rfl⟩
  · split at hd
    · rename_i job w rest hc
      obtain ⟨hfate, heq⟩ := Option.ite_none_right_eq_some.mp hd
      cases heq
      -- A request has opened a task.
      obtain ⟨hmiss, hopen, hk⟩ := of_fate_eq_opened hfate
      obtain ⟨hrun, hhandled⟩ := handled_of_request hc h
      rw [Dispatcher.accept_of_notMem hmiss hopen hk] at hhandled
      refine ⟨hhandled, (hs.carried hrun).ready, ?_, ?_⟩
      · exact (Dispatcher.exits_note_of_forall (by simp [Effect.exit?])).trans hnone
      · rw [rejections, refusal?, meetsStop, hc]
        rfl
    · cases hd
  -- The gate has opened, and the pool with it.
  · obtain ⟨hseen, heq⟩ := Option.ite_none_right_eq_some.mp hd
    cases heq
    obtain ⟨hrun, hhandled⟩ := handled_of_seen hseen h
    have hwork : Deed.observe .ready ≠ (.work : Deed ω) := by simp
    have hcarried := (Dispatcher.Does.observed s.core .ready).carried hwork (hs.carried hrun)
    refine ⟨hhandled, hcarried.ready, (Dispatcher.exits_see _ _).trans hnone, ?_⟩
    cases m with
    | begin | watch => simp only [rejections, refusal?, hseen]
    | _ => cases hseen

/-! ## Moves that hand nothing out -/

/-- A move that rejects the queue.  It may be the beginning of a stop or a gate that has failed;
either way the handler notes the tasks in their order. -/
theorem exits_of_refusal {why : Failure} (hs : s.Sound) (hwhy : s.refusal? m = some why)
    (h : s.move m = some t) : t.exits = s.exits ++ s.rejections m := by
  have hnone := exits_of_collected hs.collected
  have hrejected : s.rejections m = s.core.queue.map fun task => (task, .error why) := by
    rw [rejections, hwhy]
  rw [hrejected]
  have hseen : s.seen m = [.failed why] → t.exits = s.exits ++
      s.core.queue.map fun task => (task, .error why) := fun hseen => by
    rw [(handled_of_seen hseen h).2.exits, Dispatcher.exits_observe_failed, hnone,
      List.nil_append]
  unfold refusal? at hwhy
  split at hwhy
  · obtain ⟨hstop, heq⟩ := Option.ite_none_right_eq_some.mp hwhy
    cases heq
    rw [(handled_of_meetsStop hstop h).2.exits, Dispatcher.exits_rejectQueue, hnone,
      List.nil_append]
  · split at hwhy
    · rename_i hfailed
      cases hwhy
      exact hseen hfailed
    · cases hwhy

/-- A move that neither rejects the queue nor hands tasks out leaves them where they are.  By the
kinds of acts: those that would hand out or reject are excluded, and no other one looks at the
queue. -/
theorem exits_of_unhanding (hs : s.Sound) (hwhy : s.refusal? m = none) (hd : s.handing? m = none)
    (h : s.move m = some t) : t.exits = s.exits := by
  have hnone := exits_of_collected hs.collected
  -- A handler that moves no task leaves the exits as they were.
  have hkept : ∀ {e : Dispatcher ω}, Handled s e t → e.exits = s.core.exits →
      t.exits = s.exits := fun hhandled heq => by
    rw [hhandled.exits, heq, hnone, List.append_nil]
  cases acts_of_move h with
  | idle _ htells => exact htells.exits
  | worked _ _ _ hstory =>
      rw [exits_eq, exits_eq, hstory]
      rfl
  | @admitted job w rest hm _ hc hhandled =>
      subst hm
      have hfate : s.core.fate job ≠ .opened := by
        intro hfate
        simp only [handing?, hc, if_pos hfate] at hd
        cases hd
      exact hkept hhandled (exits_accept hfate w)
  | reported hm =>
      subst hm
      cases hd
  -- An open gate would hand out and a failed one would reject, so it is seen pending.
  | @saw state hseen _ hhandled =>
      cases state with
      | pending => exact hkept hhandled rfl
      | ready =>
          cases m with
          | begin | watch => simp [handing?, hseen] at hd
          | _ => cases hseen
      | failed why =>
          cases m with
          | begin | watch => simp [refusal?, hseen] at hwhy
          | _ => cases hseen
  | stopped hm hstop hrun hhandled =>
      subst hm
      cases (refusal?_of_stopping h hstop).symm.trans hwhy
  | left _ _ hhandled => exact hkept hhandled (Dispatcher.exits_rejectPending _ _)

/-- **What a move takes off the queue**: the tasks of its attempts, with their workers, and what it
rejects. -/
theorem exits_of_move (hs : s.Sound) (h : s.move m = some t) :
    t.exits = s.exits ++ (s.handOvers m).map HandOver.exit ++ s.rejections m := by
  unfold handOvers
  cases hd : s.handing? m with
  | some d =>
      obtain ⟨hhandled, hready, hnone, hrejected⟩ := handled_of_handing hs h hd
      rw [hhandled.exits, Dispatcher.exits_handOut hready, hnone, hrejected, List.append_nil]
      rfl
  | none =>
      rw [Option.map_none, Option.getD_none, List.map_nil, List.append_nil]
      cases hwhy : s.refusal? m with
      | some why => exact exits_of_refusal hs hwhy h
      | none =>
          rw [exits_of_unhanding hs hwhy hd h, rejections, hwhy]
          exact (List.append_nil _).symm

/-- **Assignment never fails**: after every run, whichever move comes next, all its attempts to hand
over a task are unhindered.  They are all that the move makes of the dispatcher as it is when it
begins to hand out, and no task leaves the queue but by them or with a queue that is rejected as a
whole. -/
theorem assignment_never_fails (h : (ofConfig config gate).play τ = some s)
    (hm : s.move m = some t) :
    (∀ a ∈ s.handOvers m, a.Unhindered) ∧
    (∀ d, s.handing? m = some d → t.core =
      { d.handOvers.foldl Dispatcher.attempt d with
        queue := d.queue.drop d.handOvers.length
        effects := [] }) ∧
    t.exits = s.exits ++ (s.handOvers m).map HandOver.exit ++ s.rejections m := by
  obtain ⟨ds, hds⟩ := exists_tells_of_play (sound_ofConfig config gate) h
  refine ⟨?_, ?_, exits_of_move hds.sound hm⟩
  · unfold handOvers
    cases hd : s.handing? m with
    | none => exact List.forall_mem_nil _
    | some d =>
        obtain ⟨-, hready, -⟩ := handled_of_handing hds.sound hm hd
        exact Dispatcher.unhindered_of_mem_handOvers hready
  · intro d hd
    rw [(handled_of_handing hds.sound hm hd).1.core, Dispatcher.handOut_eq]

/-- The report of a worker that has broken off the task named `a`. -/
def brokenReport : WorkReport := ⟨0, .name "a", .error (.enginePanicked "a")⟩

/-- The only worker breaks off its first task, and is free for the second one. -/
def brokenRun : List (Move Nat) :=
  [.begin, .request (.name "a") 0, .command, .take 0, .request (.name "b") 1, .command,
    .finish 0 (.ofJob (.name "a")) .panicked]

theorem assignment_never_fails_broken :
    ∃ s t : Service Nat, (ofConfig { poolSize := 1 } { state := .ready }).play brokenRun = some s ∧
      s.move (.report brokenReport) = some t ∧
      (∀ a ∈ s.handOvers (.report brokenReport), a.Unhindered) ∧
      t.exits = s.exits ++ [(.ofJob (.name "b"), .ok 0)] := by
  have hplay : ((ofConfig { poolSize := 1 } { state := .ready } : Service Nat).play brokenRun).any
      fun s => (s.move (.report brokenReport)).isSome &&
        decide ((s.handOvers (.report brokenReport)).map (fun a => (a.task, a.worker)) =
          [(.ofJob (.name "b"), 0)]) := by
    decide +kernel
  obtain ⟨s, hs, hall⟩ := (Option.any_eq_true _ _).mp hplay
  obtain ⟨hmove, hattempts⟩ := (Bool.and_eq_true _ _).mp hall
  obtain ⟨t, ht⟩ := Option.isSome_iff_exists.mp hmove
  obtain ⟨hunhindered, -, hexits⟩ := assignment_never_fails hs ht
  have hexit : (s.handOvers (.report brokenReport)).map HandOver.exit =
      ((s.handOvers (.report brokenReport)).map fun a => (a.task, a.worker)).map
        fun p => (p.1, .ok p.2) := by
    rw [List.map_map]
    rfl
  rw [hexit, of_decide_eq_true hattempts] at hexits
  exact ⟨s, t, hs, ht, hunhindered, hexits.trans (List.append_nil _)⟩

end Service

end AvatarPool
