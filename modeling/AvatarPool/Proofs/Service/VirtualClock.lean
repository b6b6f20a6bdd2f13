import AvatarPool.Proofs.Service.Ending

/-! # The virtual clock

On a virtual clock time passes only when nobody has anything to do, and never beyond the moment that
the loop waits for.  A service that stops always comes to rest: every step of the loop, and every
message that a worker takes, leaves less to do.  So the clock can always go on.

That a stopping service comes to rest is shown by a number, `effort`, which bounds what it can still
do by itself.  Each phase is given room for all that may come in the phases after it: a loop that
waits for running tasks still has to take its inputs and then to tell every worker, each of which
then takes a message. -/

namespace AvatarPool

/-- The time that passes with a move. -/
def Move.millis {ω : Type} : Move ω → Nat
  | .pass millis => millis
  | _ => 0

/-- Whether the move is one of the loop, of a worker that takes a message, or of the clock: no
caller, no gate and no end of an invocation takes part. -/
def Move.isUnaided {ω : Type} : Move ω → Bool
  | .take _ | .pass _ => true
  | m => m.isStep

/-- Steps of the loop take no time. -/
theorem Move.unaided_of_isStep {ω : Type} {m : Move ω} (h : m.isStep) :
    m.isUnaided ∧ m.millis = 0 := by
  cases m with
  | begin | report | watch | command | leave | dismiss | farewell => exact ⟨rfl, rfl⟩
  | _ => cases h

namespace Service

variable {ω : Type} {s t u : Service ω} {m : Move ω} {τ : List (Move ω)} {k : Nat}

/-! ## Time passes -/

/-- Nobody has anything to do: the loop has to wait, and no worker finds a message in its box. -/
def AtRest (s : Service ω) : Prop := s.step = none ∧ ∀ k, s.workerTakes k = none

/-- The moment that the loop waits for, if it waits for one. -/
def timer? (s : Service ω) : Option Nat :=
  match s.phase with
  | .grace deadline => some deadline
  | .farewell limit => limit
  | _ => none

/-- Time may pass for so long: nobody has anything to do, nor will the loop have before then. -/
def MayPass (s : Service ω) (n : Nat) : Prop :=
  s.AtRest ∧ ∀ d, s.timer? = some d → s.clock + n ≤ d

/-- **The virtual clock**: whenever time passes in a run, it may. -/
def Timely (s : Service ω) (τ : List (Move ω)) : Prop :=
  ∀ u m, s.Makes τ m u → 0 < m.millis → u.MayPass m.millis

theorem timely_nil (s : Service ω) : s.Timely [] := fun _ _ hmakes => absurd hmakes not_makes_nil

/-- Each part of a run is looked at from where it begins. -/
theorem timely_append (hplay : s.play τ = some t) {τ' : List (Move ω)} :
    s.Timely (τ ++ τ') ↔ s.Timely τ ∧ t.Timely τ' := by
  constructor
  · intro h
    exact ⟨fun u m hmakes => h u m ((makes_append hplay).mpr (.inl hmakes)),
      fun u m hmakes => h u m ((makes_append hplay).mpr (.inr hmakes))⟩
  · rintro ⟨h, h'⟩ u m hmakes
    exact ((makes_append hplay).mp hmakes).elim (h u m) (h' u m)

/-- For a run of one move it is a condition on that move. -/
theorem timely_singleton : s.Timely [m] ↔ (0 < m.millis → s.MayPass m.millis) := by
  constructor
  · intro h
    exact h s m ⟨[], [], rfl, rfl⟩
  · intro h u m' hmakes
    obtain ⟨rfl, rfl⟩ := hmakes.of_singleton
    exact h

/-- A run on the virtual clock, move by move. -/
theorem timely_cons (h : s.move m = some t) :
    s.Timely (m :: τ) ↔ (0 < m.millis → s.MayPass m.millis) ∧ t.Timely τ := by
  rw [← timely_singleton]
  exact timely_append ((play_singleton s m).trans h)

/-- A run that is not possible is looked at up to the move that cannot be made. -/
theorem timely_cons_of_none (h : s.move m = none) :
    s.Timely (m :: τ) ↔ (0 < m.millis → s.MayPass m.millis) := by
  constructor
  · intro htimely
    exact htimely s m ⟨[], τ, rfl, rfl⟩
  · rintro hmay u m' ⟨τ₁, τ₂, heq, hu⟩
    cases τ₁ with
    | nil =>
        cases hu
        cases heq
        exact hmay
    | cons m'' τ₁ =>
        cases heq
        rw [play, h] at hu
        cases hu

/-- Whether a worker can take something depends on its own slot. -/
theorem workerTakes_eq_none_iff : s.workerTakes k = none ↔
    ∀ slot, s.core.slots[k]? = some slot → slot.worker.take = none := by
  constructor
  · intro hnone slot hslot
    obtain ⟨pool, hp, hslot⟩ := exists_pool_of_slot hslot
    cases hw : slot.worker.take with
    | none => rfl
    | some w =>
        obtain ⟨t, ht, -⟩ := exists_workerTakes hp hslot hw
        rw [hnone] at ht
        cases ht
  · intro hall
    cases htakes : s.workerTakes k with
    | none => rfl
    | some t =>
        obtain ⟨pool, slot, w, hp, hslot, hw, -⟩ := exists_of_workerTakes htakes
        rw [hall slot (Dispatcher.slots_of_pool hp ▸ hslot)] at hw
        cases hw

/-- Rest can be decided by a look at the slots there are. -/
theorem atRest_iff :
    s.AtRest ↔ s.step.isNone ∧ ∀ slot ∈ s.core.slots, slot.worker.take = none := by
  rw [AtRest, Option.isNone_iff_eq_none]
  refine and_congr_right fun _ => ?_
  simp only [workerTakes_eq_none_iff]
  constructor
  · intro h slot hmem
    obtain ⟨k, hk⟩ := List.mem_iff_getElem?.mp hmem
    exact h k slot hk
  · exact fun h k slot hk => h slot (List.mem_of_getElem? hk)

instance (s : Service ω) : Decidable s.AtRest := decidable_of_iff _ atRest_iff.symm

instance (s : Service ω) (n : Nat) : Decidable (s.MayPass n) :=
  decidable_of_iff (s.AtRest ∧ ∀ d ∈ s.timer?, s.clock + n ≤ d) Iff.rfl

instance decidableTimely : (τ : List (Move ω)) → (s : Service ω) → Decidable (s.Timely τ)
  | [], s => isTrue (timely_nil s)
  | m :: τ, s =>
    match h : s.move m with
    | none => decidable_of_iff _ (timely_cons_of_none h).symm
    | some t =>
      have := decidableTimely τ t
      decidable_of_iff _ (timely_cons h).symm

theorem timeout_of_move (h : s.move m = some t) : t.timeout = s.timeout := by
  cases steps_of_move h with
  | aside _ ha | take _ _ _ ha | finish _ _ _ _ ha => exact ha.timeout
  | _ => rfl

theorem timeout_of_play (h : s.play τ = some t) : t.timeout = s.timeout :=
  play_induction (P := fun _ t => t.timeout = s.timeout) rfl
    (fun _ _ _ _ _ ih hmove => (timeout_of_move hmove).trans ih) h

/-- The lemmas that follow are used by `simp`: none of these operations has to do with the clock. -/
@[simp]
theorem clock_rouse (s : Service ω) (a : Alert) : (s.rouse a).clock = s.clock := by
  unfold rouse
  split <;> rfl

@[simp]
theorem clock_emit (s : Service ω) (os : List (Output ω)) : (s.emit os).clock = s.clock := rfl

@[simp]
theorem clock_post (s : Service ω) (c : Command ω) : (s.post c).clock = s.clock :=
  clock_rouse _ _

@[simp]
theorem clock_request (s : Service ω) (job : Job) (w : ω) : (s.request job w).clock = s.clock := by
  unfold request
  split <;> simp

@[simp]
theorem clock_stop (s : Service ω) (w : ω) : (s.stop w).clock = s.clock := by
  unfold stop
  split <;> simp

@[simp]
theorem clock_share (s : Service ω) : s.share.clock = s.clock := rfl

@[simp]
theorem clock_unshare (s : Service ω) : s.unshare.clock = s.clock := by
  unfold unshare
  dsimp only
  split <;> simp

@[simp]
theorem clock_setGate (s : Service ω) (gate : Gate) : (s.setGate gate).clock = s.clock := by
  unfold setGate
  split <;> simp

@[simp]
theorem clock_rest (s : Service ω) : s.rest.clock = s.clock := by
  unfold rest
  dsimp only
  split <;> rfl

/-- Of what comes from outside, only the clock itself is an exception. -/
theorem clock_of_outside (hm : m.isOutside) (h : s.move m = some t) :
    t.clock = s.clock + m.millis := by
  cases m with
  | pass | postpone =>
      cases h
      rfl
  | rest =>
      cases h
      exact clock_rest s
  | request | stop | share | unshare | setGate | releaseGate =>
      obtain ⟨-, rfl⟩ := Option.ite_some_none_eq_some.mp h
      simp [Move.millis]
  | _ => cases hm

/-- **Only the passing of time moves the clock.**  By the cases of a step. -/
theorem clock_of_move (h : s.move m = some t) : t.clock = s.clock + m.millis := by
  cases steps_of_move h with
  | aside hm => exact clock_of_outside hm h
  | take =>
      obtain ⟨pool, slot, w, -, -, -, rfl⟩ := exists_of_workerTakes h
      split <;> simp [Move.millis, withPool]
  | finish =>
      obtain ⟨-, hfinish⟩ := Option.ite_none_right_eq_some.mp h
      obtain ⟨pool, slot, w, c, -, -, -, rfl⟩ := exists_of_workerFinishes hfinish
      split <;> simp [Move.millis, withPool]
  | report | look | lose | intake | stop | desert | giveUp => exact afterInput_clock _ _
  | _ => rfl

/-! ## Coming to rest -/

/-- The workers of the pool, in order.  Which task a slot holds is left out, since it makes no
difference to what its worker can do. -/
def workers (s : Service ω) : List Worker := s.core.slots.map Slot.worker

/-- The number of workers that find a message in their boxes. -/
def summoned (s : Service ω) : Nat := s.workers.countP fun w => w.take.isSome

/-- An upper bound of what a service that stops can do without the passing of time, and without the
end of an invocation. -/
def effort (s : Service ω) : Nat :=
  s.summoned +
    match s.phase with
    -- The inputs that are left, and all that comes after the loop has left.
    | .grace _ =>
      s.reports.length + s.gateLive.toNat + s.gate.isNew.toNat + 2 * s.workers.length + 3
    -- Each of the other workers is told, and takes what it is told.
    | .dismissing k => 2 * (s.workers.length - k) + 2
    | .farewell _ => 1
    | _ => 0

/-- Alerts are not counted, as they lead to no step. -/
@[simp]
theorem effort_rouse (s : Service ω) (a : Alert) : (s.rouse a).effort = s.effort := by
  unfold rouse
  split <;> rfl

/-- The bookkeeping at the end of a turn is not counted. -/
@[simp]
theorem effort_afterInput (s : Service ω) (isReport : Bool) :
    (s.afterInput isReport).effort = s.effort := by
  cases isReport <;> rfl

theorem workers_of_pool {pool : Pool} (hp : s.core.pool = some pool) :
    s.workers = pool.slots.map Slot.worker := by
  rw [workers, Dispatcher.slots_of_pool hp]

theorem workers_of_worker? {pool : Pool} {w : Worker} (hp : s.core.pool = some pool)
    (hk : pool.worker? k = some w) : s.workers[k]? = some w := by
  rw [workers_of_pool hp, List.getElem?_map]
  exact hk

/-- A worker that changes stays in its place. -/
theorem workers_setWorker {pool : Pool} {slot : Slot} (hp : s.core.pool = some pool)
    (hslot : pool.slots[k]? = some slot) (w : Worker) :
    (s.withPool (pool.setWorker k w)).workers = s.workers.set k w := by
  have hset : (s.withPool (pool.setWorker k w)).core.pool = some (pool.setWorker k w) := rfl
  rw [workers_of_pool hp, workers_of_pool hset, setWorker_slots hslot, List.map_set]

/-- One worker goes on to something else.  The number of those who find a message changes by at most
one. -/
theorem summoned_of_set {v w : Worker} (hk : s.workers[k]? = some v)
    (ht : t.workers = s.workers.set k w) :
    t.summoned + v.take.isSome.toNat = s.summoned + w.take.isSome.toNat := by
  obtain ⟨hlt, rfl⟩ := List.getElem?_eq_some_iff.mp hk
  have hpos : s.workers[k].take.isSome.toNat ≤ s.summoned := by
    cases hw : s.workers[k].take.isSome with
    | false => exact Nat.zero_le _
    | true => exact List.countP_pos_iff.mpr ⟨_, List.getElem_mem hlt, hw⟩
  have hset := List.countP_set (p := fun w : Worker => w.take.isSome) (a := w) hlt
  rw [← ht] at hset
  have hcount : t.summoned =
      (s.summoned - s.workers[k].take.isSome.toNat) + w.take.isSome.toNat := by
    refine hset.trans ?_
    cases s.workers[k].take.isSome <;> cases w.take.isSome <;> rfl
  omega

theorem take_of_take {v w : Worker} (h : v.take = some w) : w.take = none := by
  unfold Worker.take at h
  split at h <;> cases h <;> rfl

/-- A worker that takes what is in its box leaves less to do. -/
theorem effort_lt_of_take (h : s.workerTakes k = some t) : t.effort < s.effort := by
  obtain ⟨pool, slot, w, hp, hslot, hw, rfl⟩ := exists_of_workerTakes h
  have hset := workers_setWorker hp hslot w
  have hk : s.workers[k]? = some slot.worker := by
    apply workers_of_worker? hp
    rw [Pool.worker?, hslot]
    rfl
  have hsummoned := summoned_of_set hk hset
  rw [hw, take_of_take hw] at hsummoned
  have hlength : (s.withPool (pool.setWorker k w)).workers.length = s.workers.length := by
    rw [hset, List.length_set]
  have hless : (s.withPool (pool.setWorker k w)).effort < s.effort := by
    unfold effort
    rw [hlength]
    simp only [Option.isSome_some, Bool.toNat_true, Option.isSome_none, Bool.toNat_false]
      at hsummoned
    exact Nat.add_lt_add_right (by omega) _
  -- Whoever listens for room, or for an acknowledgement, is roused: that takes no step.
  split
  · simpa using hless
  · simpa using hless

section Handlers

variable {d : Dispatcher ω}

/-- With nothing queued there is nothing to hand out. -/
theorem handOut_of_queue (hq : d.queue = []) : d.handOut = d := by
  unfold Dispatcher.handOut
  split
  · rw [hq, Dispatcher.handOutFrom, ← hq]
  · rfl

/-- With nothing queued a report leaves the workers alone. -/
theorem workers_takeReport (hq : d.queue = []) (c : WorkReport) :
    (d.takeReport c).slots.map Slot.worker = d.slots.map Slot.worker := by
  have hqueue : (d.settle c).queue = [] := (Dispatcher.settle_queue d c).trans hq
  rw [Dispatcher.takeReport_eq, handOut_of_queue hqueue, Dispatcher.slots, Dispatcher.slots,
    Dispatcher.settle_pool]
  cases d.pool with
  | none => rfl
  | some pool =>
      refine List.ext_getElem? fun j => ?_
      show ((pool.slots.modify c.worker fun s => { s with held := none }).map Slot.worker)[j]? =
        (pool.slots.map Slot.worker)[j]?
      rw [List.getElem?_map, List.getElem?_map, List.getElem?_modify]
      cases pool.slots[j]? with
      | none => rfl
      | some slot =>
          by_cases hj : c.worker = j <;> simp [hj]

/-- With nothing queued and a pool that exists, so does a state of the gate.  Opening the pool again
does nothing, nor does rejecting an empty queue. -/
theorem slots_observe {pool : Pool} (hq : d.queue = []) (hp : d.pool = some pool)
    (state : Readiness) : (d.observe state).slots = d.slots := by
  cases state with
  | pending => rfl
  | ready =>
      have hopen : ({ d with readiness := .ready } : Dispatcher ω).openPool =
          { d with readiness := .ready } := by
        unfold Dispatcher.openPool
        simp only [hp]
      show (({ d with readiness := .ready } : Dispatcher ω).openPool.handOut).slots = d.slots
      rw [hopen, handOut_of_queue (d := { d with readiness := .ready }) hq]
      rfl
  | failed why =>
      have hqueue : (d.note [.published (.readinessFailed why.message)]).queue = [] := hq
      unfold Dispatcher.observe Dispatcher.rejectQueue
      dsimp only
      rw [hqueue]
      rfl

end Handlers

theorem summoned_congr (h : t.workers = s.workers) : t.summoned = s.summoned := by
  rw [summoned, h, summoned]

theorem effort_of_grace {deadline : Nat} (hphase : s.phase = .grace deadline) :
    s.effort = s.summoned +
      (s.reports.length + s.gateLive.toNat + s.gate.isNew.toNat + 2 * s.workers.length + 3) := by
  simp only [effort, hphase]

theorem effort_of_dismissing (hphase : s.phase = .dismissing k) :
    s.effort = s.summoned + (2 * (s.workers.length - k) + 2) := by
  simp only [effort, hphase]

/-- A loop that has begun to stop listens only while tasks are under way. -/
theorem exists_pool_of_isListening (hstop : s.isStopping) (hl : s.isListening) :
    (∃ deadline, s.phase = .grace deadline) ∧ ∃ pool, s.core.pool = some pool := by
  cases hphase : s.phase with
  | starting | serving => simp [isStopping, hphase] at hstop
  | grace deadline =>
      refine ⟨⟨deadline, rfl⟩, ?_⟩
      cases hp : s.core.pool with
      | none => simp [isListening, hphase, Dispatcher.running, hp] at hl
      | some pool => exact ⟨pool, rfl⟩
  | dismissing | farewell | ended => simp [isListening, hphase] at hl

section Leaving

variable {deadline : Nat}

/-- The inputs that a loop may still take while it waits for running tasks. -/
def pendingInputs (s : Service ω) : Nat :=
  s.reports.length + s.gateLive.toNat + s.gate.isNew.toNat

/-- Fewer inputs to take means less effort, if the workers are as they were. -/
theorem effort_lt_of_inputs (hphase : s.phase = .grace deadline) (ht : t.phase = .grace deadline)
    (hworkers : t.workers = s.workers) (hless : t.pendingInputs < s.pendingInputs) :
    t.effort < s.effort := by
  unfold pendingInputs at hless
  rw [effort_of_grace ht, effort_of_grace hphase, summoned_congr hworkers, hworkers]
  omega

/-- A loop that has taken a report has one less to take. -/
theorem effort_lt_of_report {c : WorkReport} {rest : List WorkReport}
    (hphase : s.phase = .grace deadline) (hq : s.core.queue = []) (hr : s.reports = c :: rest) :
    (({ s with reports := rest } : Service ω).withCore fun d => d.takeReport c).effort <
      s.effort := by
  apply effort_lt_of_inputs hphase
  · exact hphase
  · exact workers_takeReport hq c
  · show rest.length + s.gateLive.toNat + s.gate.isNew.toNat < s.pendingInputs
    rw [pendingInputs, hr, List.length_cons]
    omega

/-- A loop that has looked at the gate has less to look at. -/
theorem effort_lt_of_watchGate {pool : Pool} (hphase : s.phase = .grace deadline)
    (hp : s.core.pool = some pool) (hq : s.core.queue = []) (h : s.watchGate = some t) :
    t.effort < s.effort := by
  unfold watchGate at h
  split at h
  · cases h
  · rename_i hlive
    have hlive : s.gateLive = true := by simpa using hlive
    split at h
    -- There is news, and it is news no longer.
    · rename_i hnew
      cases h
      apply effort_lt_of_inputs hphase
      · exact hphase
      · show (s.core.observe s.gate.state).slots.map Slot.worker = s.core.slots.map Slot.worker
        rw [slots_observe hq hp]
      · show s.reports.length + s.gateLive.toNat + 0 < s.pendingInputs
        rw [pendingInputs, hnew]
        exact Nat.lt_succ_self _
    -- The gate is gone, and the watch with it.
    · split at h <;> cases h
      apply effort_lt_of_inputs hphase
      · exact hphase
      · rfl
      · show s.reports.length + 0 + s.gate.isNew.toNat < s.pendingInputs
        rw [pendingInputs, hlive, Bool.toNat_true]
        omega

/-- A loop that has left has the workers to tell, which has been counted.  The effort in the phase
before makes room for the one after. -/
theorem effort_leave_lt (hphase : s.phase = .grace deadline) : s.leave.effort < s.effort := by
  have hworkers : s.leave.workers = s.workers := rfl
  rw [effort_of_dismissing (s := s.leave) rfl, effort_of_grace hphase, summoned_congr hworkers,
    hworkers]
  omega

end Leaving

/-- A worker that has been told may have a message to take, but need not be told again. -/
theorem effort_lt_of_told {v w : Worker} (hphase : s.phase = .dismissing k)
    (hk : s.workers[k]? = some v) (ht : t.phase = .dismissing (k + 1))
    (hset : t.workers = s.workers.set k w) : t.effort < s.effort := by
  have hsummoned := summoned_of_set hk hset
  have hone : w.take.isSome.toNat ≤ 1 := Bool.toNat_le _
  have hlt : k < s.workers.length := (List.getElem?_eq_some_iff.mp hk).1
  have hlength : t.workers.length = s.workers.length := by rw [hset, List.length_set]
  rw [effort_of_dismissing ht, effort_of_dismissing hphase, hlength]
  omega

/-- **Every step of a loop that stops leaves less to do.**  By the cases of a step, of which those
that begin to serve or to stop are excluded. -/
theorem effort_lt_of_step (hstop : s.isStopping) (hq : s.core.queue = []) (h : s.step = some t) :
    t.effort < s.effort := by
  obtain ⟨m, hm, hmove⟩ := exists_isStep_of_step h
  by_cases hwatch : m = .watch
  · subst hwatch
    obtain ⟨hl, hmap⟩ := Option.ite_none_right_eq_some.mp hmove
    obtain ⟨u, hu, rfl⟩ := Option.map_eq_some_iff.mp hmap
    obtain ⟨⟨deadline, hphase⟩, pool, hp⟩ := exists_pool_of_isListening hstop hl
    rw [effort_afterInput]
    exact effort_lt_of_watchGate hphase hp hq hu
  · cases steps_of_move hmove with
    | aside houtside =>
        cases m with
        | request | stop | share | unshare | setGate | releaseGate | pass | rest | postpone =>
            cases hm
        | _ => cases houtside
    | take | finish => cases hm
    | look | lose => exact absurd rfl hwatch
    | begin hphase => simp [isStopping, hphase] at hstop
    | intake hphase | stop hphase | desert hphase =>
        exact absurd hstop (not_isStopping_of_serving hphase)
    | report hl hr =>
        obtain ⟨⟨deadline, hphase⟩, -⟩ := exists_pool_of_isListening hstop hl
        rw [effort_afterInput]
        exact effort_lt_of_report hphase hq hr
    | leave hphase => exact effort_leave_lt hphase
    | giveUp hphase =>
        rw [effort_afterInput]
        exact effort_leave_lt hphase
    | alone hphase =>
        rw [effort_of_dismissing hphase]
        show s.summoned + 0 < _
        omega
    | await hphase =>
        rw [effort_of_dismissing hphase]
        show s.summoned + 1 < _
        omega
    | @skip k pool w hphase hp hk =>
        -- A worker that is gone is passed over, and stays as it is.
        have hk := workers_of_worker? hp hk
        apply effort_lt_of_told (w := w) hphase hk
        · rfl
        · obtain ⟨hlt, rfl⟩ := List.getElem?_eq_some_iff.mp hk
          exact (List.set_getElem_self hlt).symm
    | @tell k pool w os hphase hp hk =>
        obtain ⟨slot, hslot, rfl⟩ := Option.map_eq_some_iff.mp hk
        apply effort_lt_of_told hphase (workers_of_worker? hp hk)
        · rfl
        · exact workers_setWorker hp hslot _
    | part hphase =>
        have hbefore : s.effort = s.summoned + 1 := by simp only [effort, hphase]
        rw [hbefore]
        exact Nat.lt_succ_self _

/-! ## Unaided runs

A service may reach a state with the help of others, of callers or of the engine.  Here it is asked
what it reaches without, which it does whether or not anybody helps. -/

/-- The service gets from one state to another by itself, on a virtual clock, and without the end of
an invocation. -/
def Unaided (s t : Service ω) : Prop :=
  ∃ τ : List (Move ω), (∀ m ∈ τ, m.isUnaided) ∧ s.Timely τ ∧ s.play τ = some t

namespace Unaided

theorem refl (s : Service ω) : s.Unaided s := ⟨[], List.forall_mem_nil _, timely_nil s, rfl⟩

/-- Two such runs make one. -/
theorem trans (h : s.Unaided t) (h' : t.Unaided u) : s.Unaided u := by
  obtain ⟨τ, hτ, htimely, hplay⟩ := h
  obtain ⟨τ', hτ', htimely', hplay'⟩ := h'
  refine ⟨τ ++ τ', fun m hm => ?_, (timely_append hplay).mpr ⟨htimely, htimely'⟩, ?_⟩
  · exact (List.mem_append.mp hm).elim (hτ m) (hτ' m)
  · rw [play_append_of_play hplay, hplay']

/-- A move that takes no time can be made whenever it can be made at all. -/
theorem of_move (hm : m.isUnaided) (hmillis : m.millis = 0) (h : s.move m = some t) :
    s.Unaided t := by
  refine ⟨[m], by simpa using hm, timely_singleton.mpr fun hpos => ?_, (play_singleton s m).trans h⟩
  exact absurd hmillis (Nat.ne_of_gt hpos)

theorem of_pass {n : Nat} (h : s.MayPass n) : s.Unaided { s with clock := s.clock + n } :=
  ⟨[.pass n], by simp [Move.isUnaided], timely_singleton.mpr fun _ => h, rfl⟩

end Unaided

/-- Whoever has something to do can do it, and has less to do then.  It is a step of the loop, or of
a worker that finds a message. -/
theorem exists_move_of_not_atRest (hstop : s.isStopping) (hq : s.core.queue = [])
    (h : ¬ s.AtRest) : ∃ (m : Move ω) (t : Service ω), m.isUnaided ∧ m.millis = 0 ∧
      s.move m = some t ∧ t.effort < s.effort := by
  cases hstep : s.step with
  | some t =>
      obtain ⟨m, hm, hmove⟩ := exists_isStep_of_step hstep
      obtain ⟨hunaided, hmillis⟩ := Move.unaided_of_isStep hm
      exact ⟨m, t, hunaided, hmillis, hmove, effort_lt_of_step hstop hq hstep⟩
  | none =>
      have htakes : ¬ ∀ k, s.workerTakes k = none := fun hnone => h ⟨hstep, hnone⟩
      obtain ⟨k, hk⟩ := Classical.not_forall.mp htakes
      obtain ⟨t, ht⟩ := Option.ne_none_iff_exists'.mp hk
      exact ⟨.take k, t, rfl, rfl, ht, effort_lt_of_take ht⟩

/-- **A service that stops comes to rest** by itself, and no time passes until then.  By induction
on the effort. -/
theorem exists_atRest (hs : s.Sound) (hstop : s.isStopping) (hq : s.core.queue = []) :
    ∃ t, s.Unaided t ∧ t.AtRest ∧ t.clock = s.clock := by
  generalize he : s.effort = e
  induction e using Nat.strongRecOn generalizing s with
  | ind e ih =>
      by_cases hrest : s.AtRest
      · exact ⟨s, .refl s, hrest, rfl⟩
      · obtain ⟨m, t, hm, hmillis, hmove, hless⟩ := exists_move_of_not_atRest hstop hq hrest
        obtain ⟨ds, hds⟩ := stops_of_move hs hstop hq hmove
        obtain ⟨u, hu, hurest, hclock⟩ :=
          ih t.effort (he ▸ hless) hds.tells.sound hds.stopping hds.queue rfl
        refine ⟨u, (Unaided.of_move hm hmillis hmove).trans hu, hurest, ?_⟩
        rw [hclock, clock_of_move hmove, hmillis, Nat.add_zero]

end Service

end AvatarPool
