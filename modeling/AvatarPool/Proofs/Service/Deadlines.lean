import AvatarPool.Proofs.Service.StopAnswers
import AvatarPool.Proofs.Service.VirtualClock

/-! # A stop gives up on time

The loop of a service that stops waits for a deadline twice, once for the running tasks and once
for the workers.  In between it tells each worker to stop, which takes no time on a virtual clock: a
worker whose box is full is waiting for that very message, and not at work.  So a stop is over after
two grace periods, however many tasks are queued or under way, even if none of them ever ends.

Three facts carry the proof.  Every worker that is still to be told to stop has room in its box or
makes room at once (`Roomy`), so the loop never stands still while it tells them.  The phase bounds
the clock (`Deadlines`), since time passes only when nothing else can happen, and no further than
the next deadline.  And a service that is at rest before its end waits for a deadline that is yet to
come (`Deadlines.exists_timer`), so that going from rest to rest brings it to its end. -/

namespace AvatarPool.Service

variable {ω : Type} {config : PoolSettings} {gate : Gate} {s t u : Service ω} {m : Move ω}
  {τ τ' : List (Move ω)} {t₀ T k : Nat}

/-! ## Room in the boxes -/

/-- Whoever is still to be told to stop, and has a full box, is waiting for what is in it.  A worker
that renders has an empty box, because tasks are handed to idle workers only. -/
def Roomy (s : Service ω) : Prop :=
  ∀ next, s.phase = .dismissing next → ∀ k slot, next ≤ k → s.core.slots[k]? = some slot →
    slot.worker.inbox ≠ none → slot.worker.activity = .waiting

theorem roomy_of_phase (h : ∀ next, s.phase ≠ .dismissing next) : s.Roomy :=
  fun next hphase => absurd hphase (h next)

theorem roomy_of_isRunning (h : s.isRunning) : s.Roomy :=
  roomy_of_phase fun next hphase => by simp [isRunning, hphase] at h

/-- While the loop runs a task is in a box only before its worker takes it. -/
theorem waiting_of_carried {slots : List Slot} {reports : List WorkReport} {slot : Slot}
    (h : Carried slots reports) (hslot : slots[k]? = some slot) (hbox : slot.worker.inbox ≠ none) :
    slot.worker.activity = .waiting := by
  have hfits := h.fits k slot hslot
  -- In all but one of the four ways in which a slot and its reports fit together the worker waits,
  -- and in that one its box is empty.
  revert hfits hbox
  generalize reportsOf reports k = rs
  rintro hbox (_ | _ | _ | _)
  · rfl
  · rfl
  · exact absurd rfl hbox
  · rfl

/-- A worker goes on with its work.  The slots of the others are the same; its own is as it was, or
emptier. -/
theorem Roomy.of_work {pool : Pool} {slot : Slot} {w : Worker} (hs : s.Roomy)
    (hp : s.core.pool = some pool) (hslot : pool.slots[k]? = some slot)
    (hw : (slot.worker.inbox ≠ none → slot.worker.activity = .waiting) → w.inbox ≠ none →
      w.activity = .waiting)
    (hcore : t.core.pool = some (pool.setWorker k w)) (hphase : t.phase = s.phase) : t.Roomy := by
  intro next hnext j slot' hle hj
  rw [hphase] at hnext
  rw [Dispatcher.slots_of_pool hcore] at hj
  obtain ⟨slot'', hslot'', hworker⟩ := getElem?_setWorker hj
  have hbefore := hs next hnext j slot'' hle (Dispatcher.slots_of_pool hp ▸ hslot'')
  rw [hworker]
  split
  · rename_i heq
    subst heq
    cases hslot.symm.trans hslot''
    exact hw hbefore
  · exact hbefore

/-- While the loop tells its workers, there is room in the boxes that it has not come to.  By the
cases of a step: this is established when the loop leaves, from what it knows about its workers
while it runs, and the loop then tells them in the order of their numbers. -/
theorem roomy_of_move (hs : s.Roomy) (hsound : s.Sound) (h : s.move m = some t) : t.Roomy := by
  cases steps_of_move h with
  | aside _ ha => rw [Roomy, ha.core, ha.phase]; exact hs
  -- A worker that takes something empties its box.
  | take hp hslot hw ha =>
      refine hs.of_work hp hslot (fun _ hbox => ?_) (by rw [ha.core]; rfl) ha.phase
      unfold Worker.take at hw
      split at hw <;> cases hw <;> exact absurd rfl hbox
  | finish hp hslot _ hw ha =>
      refine hs.of_work hp hslot (fun _ _ => ?_) (by rw [ha.core]; rfl) ha.phase
      unfold Worker.finish at hw
      split at hw <;> cases hw
      rfl
  | leave hphase | giveUp hphase =>
      have hrun : s.isRunning := by simp [isRunning, hphase]
      intro next _ k slot _ hslot hbox
      exact waiting_of_carried (hsound.carried hrun) hslot hbox
  | skip hphase =>
      rintro next hnext k slot hle
      cases hnext
      exact hs _ hphase k slot (Nat.le_of_succ_le hle)
  -- The message goes into a box that the loop has come to, and it passes on to the next one.
  | @tell next pool w os hphase hp hk =>
      rintro next' hnext j slot hle hj
      cases hnext
      have hne : j ≠ next := Nat.ne_of_gt hle
      obtain ⟨slot', hslot', hworker⟩ := getElem?_setWorker hj
      rw [hworker, if_neg hne]
      exact hs _ hphase j slot' (Nat.le_of_succ_le hle) (Dispatcher.slots_of_pool hp ▸ hslot')
  | report hl | look hl | lose hl =>
      refine roomy_of_isRunning ?_
      rw [isRunning, afterInput_phase]
      have hrun : s.isRunning := isRunning_of_isListening hl
      exact hrun
  | intake hphase =>
      refine roomy_of_isRunning ?_
      rw [isRunning, afterInput_phase]
      simp [withCore, collect, hphase]
  | begin | stop | desert => exact roomy_of_isRunning rfl
  | alone | await | part =>
      apply roomy_of_phase
      intro next hnext
      cases hnext

/-- A worker with an empty box can be told to stop, unless it is gone and passed over.  What comes
of it is another matter; that there is a result is all that is needed here. -/
theorem dismiss_isSome {pool : Pool} {w : Worker} (hp : s.core.pool = some pool)
    (hk : pool.worker? k = some w) (hbox : w.inbox = none) : (s.dismiss k).isSome := by
  unfold dismiss
  simp only [hp, hk, hbox]
  split <;> rfl

/-- A worker that waits can take whatever is in its box. -/
theorem exists_take_of_waiting {w : Worker} {work : Work} (hw : w.activity = .waiting)
    (hbox : w.inbox = some work) : ∃ w', w.take = some w' ∧ w'.inbox = none := by
  unfold Worker.take
  rw [hw, hbox]
  cases work with
  | render task => exact ⟨_, rfl, rfl⟩
  | stop => exact ⟨_, rfl, rfl⟩

/-- A worker put in place `k` is worker number `k`. -/
theorem worker?_setWorker {pool : Pool} {slot : Slot} (hslot : pool.slots[k]? = some slot)
    (w : Worker) : (pool.setWorker k w).worker? k = some w := by
  rw [Pool.worker?, setWorker_slots hslot,
    List.getElem?_set_self (List.getElem?_eq_some_iff.mp hslot).1]
  rfl

/-- **A full box does not keep the loop waiting**: whoever is to be told to stop can be told now, or
takes at once what is in its box, and can be told then. -/
theorem sends_of_roomy (hs : s.Roomy) (hphase : s.phase = .dismissing k) :
    s.step.isSome ∨ ∃ t, s.workerTakes k = some t ∧ t.step.isSome := by
  have hstep : ∀ {s : Service ω}, s.phase = .dismissing k → s.step = s.dismiss k := fun hphase => by
    rw [step, hphase]
  cases hp : s.core.pool with
  -- Without a pool there is nobody to tell.
  | none =>
      left
      rw [hstep hphase, dismiss, hp]
      rfl
  | some pool =>
      cases hslot : pool.slots[k]? with
      | none =>
          left
          have hk : pool.worker? k = none := by rw [Pool.worker?, hslot]; rfl
          rw [hstep hphase, dismiss, hp]
          simp only [hk]
          rfl
      | some slot =>
          have hk : pool.worker? k = some slot.worker := by rw [Pool.worker?, hslot]; rfl
          cases hbox : slot.worker.inbox with
          | none =>
              left
              rw [hstep hphase]
              exact dismiss_isSome hp hk hbox
          | some work =>
              -- The box is full.  Its owner waits, and takes what is in it.
              right
              have hwaiting : slot.worker.activity = .waiting :=
                hs k hphase k slot (Nat.le_refl k) (Dispatcher.slots_of_pool hp ▸ hslot)
                  (by rw [hbox]; exact Option.some_ne_none work)
              obtain ⟨w, hw, hempty⟩ := exists_take_of_waiting hwaiting hbox
              obtain ⟨t, ht, htphase, htpool⟩ := exists_workerTakes hp hslot hw
              refine ⟨t, ht, ?_⟩
              rw [hstep (htphase.trans hphase)]
              exact dismiss_isSome htpool (worker?_setWorker hslot w) hempty

/-- Hence time cannot pass while the loop tells the workers. -/
theorem not_atRest_of_roomy (hs : s.Roomy) (hphase : s.phase = .dismissing k) : ¬ s.AtRest := by
  intro hrest
  rcases sends_of_roomy hs hphase with hstep | ⟨t, ht, -⟩
  · rw [hrest.1] at hstep
    cases hstep
  · rw [hrest.2 k] at ht
    cases ht

/-! ## Two grace periods -/

/-- **The deadlines of a stop** that has begun at `t₀`, with a grace period of `T` ticks.  Each
field speaks of one phase.  The bound on the clock is what is kept; the deadline is kept with it, so
that the bound is known when time passes up to it. -/
structure Deadlines (t₀ T : Nat) (s : Service ω) : Prop where
  stopping : s.isStopping
  grace : ∀ d, s.phase = .grace d → d = t₀ + T ∧ s.clock ≤ t₀ + T
  dismissing : ∀ k, s.phase = .dismissing k → s.clock ≤ t₀ + T
  farewell : ∀ limit, s.phase = .farewell limit →
    ∃ d, limit = some d ∧ d ≤ t₀ + 2 * T ∧ s.clock ≤ d

namespace Deadlines

/-- Deadlines depend on the phase and on the clock only. -/
theorem of_phase (h : s.Deadlines t₀ T) (hphase : t.phase = s.phase) (hclock : t.clock = s.clock) :
    t.Deadlines t₀ T where
  stopping := by rw [isStopping, hphase]; exact h.stopping
  grace := by rw [hphase, hclock]; exact h.grace
  dismissing := by rw [hphase, hclock]; exact h.dismissing
  farewell := by rw [hphase, hclock]; exact h.farewell

/-- The loop waits for running tasks. -/
theorem of_grace (hphase : t.phase = .grace (t₀ + T)) (hclock : t.clock ≤ t₀ + T) :
    t.Deadlines t₀ T where
  stopping := by simp [isStopping, hphase]
  grace d hgrace := by
    obtain rfl := Phase.grace.inj (hphase.symm.trans hgrace)
    exact ⟨rfl, hclock⟩
  dismissing k hdismissing := by rw [hphase] at hdismissing; cases hdismissing
  farewell limit hfarewell := by rw [hphase] at hfarewell; cases hfarewell

/-- The loop comes to tell a worker to stop. -/
theorem of_dismissing (hphase : t.phase = .dismissing k) (hclock : t.clock ≤ t₀ + T) :
    t.Deadlines t₀ T where
  stopping := by simp [isStopping, hphase]
  grace d hgrace := by rw [hphase] at hgrace; cases hgrace
  dismissing _ _ := hclock
  farewell limit hfarewell := by rw [hphase] at hfarewell; cases hfarewell

/-- The loop waits for the workers. -/
theorem of_farewell {d : Nat} (hphase : t.phase = .farewell (some d)) (hd : d ≤ t₀ + 2 * T)
    (hclock : t.clock ≤ d) : t.Deadlines t₀ T where
  stopping := by simp [isStopping, hphase]
  grace d hgrace := by rw [hphase] at hgrace; cases hgrace
  dismissing k hdismissing := by rw [hphase] at hdismissing; cases hdismissing
  farewell limit hfarewell := by
    obtain rfl := Phase.farewell.inj (hphase.symm.trans hfarewell)
    exact ⟨d, rfl, hd, hclock⟩

/-- The loop comes to its end. -/
theorem of_ended (hphase : t.phase = .ended) : t.Deadlines t₀ T where
  stopping := by simp [isStopping, hphase]
  grace d hgrace := by rw [hphase] at hgrace; cases hgrace
  dismissing k hdismissing := by rw [hphase] at hdismissing; cases hdismissing
  farewell limit hfarewell := by rw [hphase] at hfarewell; cases hfarewell

/-- Time passes while the loop waits.  While the loop tells the workers no time passes, and
otherwise the deadline that is waited for bounds it. -/
theorem of_pass {n : Nat} (h : s.Deadlines t₀ T) (hs : s.Roomy) (hpass : s.MayPass n) :
    ({ s with clock := s.clock + n } : Service ω).Deadlines t₀ T where
  stopping := h.stopping
  grace d hphase := by
    obtain ⟨rfl, -⟩ := h.grace d hphase
    exact ⟨rfl, hpass.2 _ (by rw [timer?, hphase])⟩
  dismissing k hphase := absurd hpass.1 (not_atRest_of_roomy hs hphase)
  farewell limit hphase := by
    obtain ⟨d, rfl, hd, -⟩ := h.farewell limit hphase
    exact ⟨d, rfl, hd, hpass.2 d (by rw [timer?, hphase])⟩

end Deadlines

/-- **Every move keeps the deadlines**, if time passes on a virtual clock.  Time passes by one move
only, which leaves the phase as it is; any other one leaves the clock as it is. -/
theorem deadlines_of_move (hd : s.Deadlines t₀ T) (hs : s.Roomy)
    (hlimit : s.timeout.limitFrom? s.clock = some (s.clock + T))
    (htime : 0 < m.millis → s.MayPass m.millis) (h : s.move m = some t) : t.Deadlines t₀ T := by
  have hclock := clock_of_move h
  rcases Nat.eq_zero_or_pos m.millis with hzero | hpos
  · -- Time stands still, so that only a change of phase matters.
    rw [hzero, Nat.add_zero] at hclock
    have hserving : s.phase ≠ .serving := fun hphase =>
      not_isStopping_of_serving hphase hd.stopping
    cases steps_of_move h with
    | aside _ ha | take _ _ _ ha | finish _ _ _ _ ha => exact hd.of_phase ha.phase hclock
    | report | look | lose => exact hd.of_phase (afterInput_phase _ _) hclock
    | begin hphase =>
        have hstopping := hd.stopping
        simp [isStopping, hphase] at hstopping
    | intake hphase | stop hphase | desert hphase => exact absurd hphase hserving
    | leave hphase | giveUp hphase =>
        refine .of_dismissing rfl ?_
        rw [hclock]
        exact (hd.grace _ hphase).2
    | skip hphase | tell hphase =>
        refine .of_dismissing rfl ?_
        rw [hclock]
        exact hd.dismissing _ hphase
    | await hphase =>
        -- The second deadline is set no later than the first one.
        have hnow := hd.dismissing _ hphase
        apply Deadlines.of_farewell (congrArg Phase.farewell hlimit)
        · omega
        · show s.clock ≤ s.clock + T
          omega
    | alone | part => exact .of_ended rfl
  · -- Time passes, and only up to the deadline that the loop waits for.
    cases m with
    | pass n =>
        cases h
        exact hd.of_pass hs (htime hpos)
    | _ => exact absurd hpos (Nat.lt_irrefl 0)

/-- **A service on its way to its end**, in a stop that has begun at `t₀`.  Everything is kept
together that the deadlines rest on, so that a run keeps it as one invariant. -/
structure Closing (t₀ T : Nat) (s : Service ω) : Prop where
  sound : s.Sound
  queue : s.core.queue = []
  roomy : s.Roomy
  /-- A deadline set now is one grace period from now. -/
  limit : ∀ now, s.timeout.limitFrom? now = some (now + T)
  deadlines : s.Deadlines t₀ T

/-- Deadlines are kept in any run of timely steps.  By induction on the run. -/
theorem closing_of_play (h : s.Closing t₀ T) (htimely : s.Timely τ) (hplay : s.play τ = some t) :
    t.Closing t₀ T := by
  revert htimely
  refine play_induction (P := fun τ t => s.Timely τ → t.Closing t₀ T) (fun _ => h) ?_ hplay
  intro τ m t u hplay ih hmove htimely
  obtain ⟨hbefore, hlast⟩ := (timely_append hplay).mp htimely
  have hc := ih hbefore
  obtain ⟨ds, hstops⟩ := stops_of_move hc.sound hc.deadlines.stopping hc.queue hmove
  exact {
    sound := hstops.tells.sound
    queue := hstops.queue
    roomy := roomy_of_move hc.roomy hc.sound hmove
    limit := by rw [timeout_of_move hmove]; exact hc.limit
    deadlines := deadlines_of_move hc.deadlines hc.roomy (hc.limit t.clock)
      (timely_singleton.mp hlast) hmove }

theorem Closing.of_unaided (h : s.Closing t₀ T) (ht : s.Unaided t) : t.Closing t₀ T := by
  obtain ⟨τ, -, htimely, hplay⟩ := ht
  exact closing_of_play h htimely hplay

/-! ## At rest -/

/-- Whoever waits for running tasks has not come to the deadline yet.  At the deadline it would go
on, and would not be at rest. -/
theorem clock_lt_of_grace {d : Nat} (hphase : s.phase = .grace d) (hrest : s.AtRest) :
    s.clock < d := by
  have hstep := hrest.1
  simp only [step, hphase] at hstep
  split at hstep
  · cases hstep
  · by_contra hpast
    have hdue : s.isPast (some d) = true := by simpa [isPast] using hpast
    simp [hdue] at hstep

/-- Whoever waits for the workers has not come to the limit yet. -/
theorem clock_lt_of_farewell {d : Nat} (hphase : s.phase = .farewell (some d)) (hrest : s.AtRest) :
    s.clock < d := by
  have hstep := hrest.1
  simp only [step, hphase] at hstep
  by_contra hpast
  have hdue : s.isPast (some d) = true := by simpa [isPast] using hpast
  simp [hdue] at hstep

namespace Deadlines

/-- The loop has stopped serving by the first deadline. -/
theorem clock_le_of_isRunning (h : s.Deadlines t₀ T) (hrun : s.isRunning) : s.clock ≤ t₀ + T := by
  have hstopping := h.stopping
  cases hphase : s.phase with
  | starting | serving => simp [isStopping, hphase] at hstopping
  | grace d => exact (h.grace d hphase).2
  | dismissing | farewell | ended => simp [isRunning, hphase] at hrun

/-- The service has ended by the second deadline. -/
theorem clock_le_of_not_hasEnded (h : s.Deadlines t₀ T) (hended : ¬ s.hasEnded) :
    s.clock ≤ t₀ + 2 * T := by
  have hstopping := h.stopping
  cases hphase : s.phase with
  | starting | serving => simp [isStopping, hphase] at hstopping
  | grace d =>
      have hnow := (h.grace d hphase).2
      omega
  | dismissing k =>
      have hnow := h.dismissing k hphase
      omega
  | farewell limit =>
      obtain ⟨d, -, hd, hnow⟩ := h.farewell limit hphase
      omega
  | ended => exact absurd ((hasEnded_iff s).mpr hphase) hended

/-- Once everything is at rest the loop waits for one of the deadlines, unless it has ended. -/
theorem exists_timer (h : s.Deadlines t₀ T) (hs : s.Roomy) (hrest : s.AtRest)
    (hended : ¬ s.hasEnded) : ∃ d, s.timer? = some d ∧ s.clock < d ∧ d ≤ t₀ + 2 * T ∧
      (s.isRunning → d = t₀ + T) := by
  have hstopping := h.stopping
  cases hphase : s.phase with
  | starting | serving => simp [isStopping, hphase] at hstopping
  | grace d =>
      obtain ⟨rfl, -⟩ := h.grace d hphase
      have hnow := clock_lt_of_grace hphase hrest
      exact ⟨t₀ + T, by rw [timer?, hphase], hnow, by omega, fun _ => rfl⟩
  | dismissing k => exact absurd hrest (not_atRest_of_roomy hs hphase)
  | farewell limit =>
      obtain ⟨d, rfl, hd, -⟩ := h.farewell limit hphase
      refine ⟨d, by rw [timer?, hphase], clock_lt_of_farewell hphase hrest, hd, fun hrun => ?_⟩
      simp [isRunning, hphase] at hrun
  | ended => exact absurd ((hasEnded_iff s).mpr hphase) hended
-- While the service runs, the first deadline is the only one there can be.

end Deadlines

/-- **A stop comes to its end by itself**, by the second deadline at the latest.  No caller and no
invocation has a part in it. -/
theorem exists_end (h : s.Closing t₀ T) :
    ∃ t, s.Unaided t ∧ t.hasEnded ∧ t.clock ≤ max s.clock (t₀ + 2 * T) := by
  -- Over the time that is left: each rest before the end is followed by a deadline.
  generalize he : t₀ + 2 * T - s.clock = e
  induction e using Nat.strongRecOn generalizing s with
  | ind e ih =>
      obtain ⟨t, ht, hrest, hclock⟩ := exists_atRest h.sound h.deadlines.stopping h.queue
      have hc := h.of_unaided ht
      by_cases hended : t.hasEnded
      · exact ⟨t, ht, hended, hclock ▸ Nat.le_max_left _ _⟩
      · obtain ⟨d, htimer, hlt, hle, -⟩ := hc.deadlines.exists_timer hc.roomy hrest hended
        have hpass : t.MayPass (d - t.clock) := by
          refine ⟨hrest, fun d' htimer' => ?_⟩
          obtain rfl := Option.some.inj (htimer.symm.trans htimer')
          omega
        have hgo := ht.trans (.of_pass hpass)
        have hnow : t.clock + (d - t.clock) = d := by omega
        obtain ⟨u, hu, huended, huclock⟩ := ih (t₀ + 2 * T - (t.clock + (d - t.clock)))
          (by omega) (h.of_unaided hgo) rfl
        refine ⟨u, hgo.trans hu, huended, Nat.le_trans huclock ?_⟩
        show max (t.clock + (d - t.clock)) (t₀ + 2 * T) ≤ _
        omega

/-- The loop begins to stop.  This sets the first deadline, one grace period from now. -/
theorem closing_of_meetsStop (hs : s.Sound) (hstop : s.meetsStop)
    (hrange : s.timeout.seconds < Span.clockRange) (h : s.move .command = some t) :
    t.Closing s.clock s.timeout.ticks := by
  obtain ⟨ds, hds⟩ := exists_tells_of_move hs h
  obtain ⟨hphase, hstory⟩ := begins_of_move hs hstop h
  have hlimit : ∀ now, s.timeout.limitFrom? now = some (now + s.timeout.ticks) :=
    fun now => if_pos hrange
  have hdeadline : s.timeout.deadlineFrom s.clock = s.clock + s.timeout.ticks := by
    rw [Span.deadlineFrom, hlimit, Option.getD_some]
  have hclock : t.clock = s.clock := clock_of_move h
  rw [hdeadline] at hphase
  exact {
    sound := hds.sound
    queue := congrArg Dispatcher.queue hstory
    roomy := roomy_of_isRunning (by simp [isRunning, hphase])
    limit := by rw [timeout_of_move h]; exact hlimit
    deadlines := .of_grace hphase (by omega) }

/-! ## Everybody is told -/

/-- **Everybody has been told**: all who have sent a request, each once, and all who have asked for
a stop. -/
structure AllTold (τ : List (Move ω)) (s : Service ω) : Prop where
  answers : (s.answers.map Prod.fst).Perm ((requested τ).map Prod.snd)
  stops : s.stopAnswers.map Prod.fst = stopsAsked τ

/-- Nobody is left in the channel or in the table, so all who were counted have been answered. -/
theorem answers_of_hasEnded (h : (ofConfig config gate).play τ = some s) (hended : s.hasEnded) :
    (s.answers.map Prod.fst).Perm ((requested τ).map Prod.snd) := by
  obtain ⟨ds, hds⟩ := exists_tells_of_play (sound_ofConfig config gate) h
  have hchannel : s.inChannel = [] := by
    rw [inChannel, hds.sound.quiet hended]
    rfl
  have hnobody : s.core.pending.entries = [] :=
    hds.sound.departed fun hrun => not_hasEnded_of_isRunning hrun hended
  have hcallers : s.story.pending.callers = [] := by
    show s.core.pending.callers = []
    rw [Pending.callers, hnobody]
    rfl
  have hserved : s.story.served = s.answers.map Prod.fst := by
    rw [Dispatcher.served, hcallers, answers_eq]
    rfl
  have hperm := perm_requested_of_play h
  rwa [hchannel, hserved] at hperm

/-- Those who had asked before the end are told at the end, and those who ask afterwards at once. -/
theorem stopAnswers_of_ended (h : (ofConfig config gate).play τ = some s) (hended : s.hasEnded) :
    s.stopAnswers.map Prod.fst = stopsAsked τ := by
  obtain ⟨-, hclosed⟩ := stopAnswers_of_play h
  obtain ⟨τ₁, m, τ₂, u, v, rfl, hu, hopen, hmove, hv, heq⟩ := hclosed hended
  -- The move that ends the service is one of its loop, and asks for nothing.
  have hnone : stopsAsked [m] = [] := by
    rcases askers_of_move hopen hmove with ⟨hnot, -⟩ | ⟨-, hm, -⟩
    · exact absurd hv hnot
    · rw [stopsAsked, filterMap_singleton, hm]
      rfl
  have hsplit : τ₁ ++ m :: τ₂ = (τ₁ ++ [m]) ++ τ₂ := by simp
  rw [heq, hsplit, stopsAsked_append, stopsAsked_append, hnone, List.append_nil, List.map_append,
    List.map_map, List.map_map]
  exact congr (congrArg _ (List.map_id' _)) (List.map_id' _)

/-- Nobody is left over at the end. -/
theorem allTold_of_hasEnded (h : (ofConfig config gate).play τ = some s) (hended : s.hasEnded) :
    AllTold τ s :=
  ⟨answers_of_hasEnded h hended, stopAnswers_of_ended h hended⟩

/-- **What a stop keeps to**, if it has begun at `t₀` with a grace period of `T` ticks.  The fields
are about every state of the stop, not only about its end. -/
structure GivesUp (t₀ T : Nat) (τ : List (Move ω)) (s : Service ω) : Prop where
  /-- By the first deadline the loop serves nobody any more. -/
  serving : s.isRunning → s.clock ≤ t₀ + T
  /-- After the second deadline nobody is left who has not been told. -/
  past : t₀ + 2 * T < s.clock → AllTold τ s
  /-- Once all that can be done at a deadline has been done, it has been kept. -/
  kept : s.AtRest → (t₀ + T ≤ s.clock → ¬ s.isRunning) ∧ (t₀ + 2 * T ≤ s.clock → AllTold τ s)
  /-- Telling the workers takes no time: the next one has room, or makes room at once. -/
  sending : ∀ k, s.phase = .dismissing k → s.clock ≤ t₀ + T ∧
    (s.step.isSome ∨ ∃ t, s.workerTakes k = some t ∧ t.step.isSome)
  /-- The end needs nobody's help, nor the end of any invocation. -/
  ending : ∃ t, s.Unaided t ∧ t.hasEnded ∧ t.clock ≤ max s.clock (t₀ + 2 * T)

/-- **A stop gives up on time.**  A grace period after the loop has begun to stop it serves nobody
any more, and after two grace periods everybody has been told who has sent a request or asked for a
stop, whatever is queued or under way and whether or not any of it ends.  The grace period has to be
one that the clock can represent; otherwise the workers are waited for without a limit. -/
theorem shutdown_gives_up_on_time {s₁ s₂ s₃ : Service ω} {τ₁ τ₂ : List (Move ω)}
    (h₁ : (ofConfig config gate).play τ₁ = some s₁) (hstop : s₁.meetsStop)
    (h₂ : s₁.move .command = some s₂) (h₃ : s₂.play τ₂ = some s₃) (htimely : s₂.Timely τ₂)
    (hrange : config.shutdownTimeout.seconds < Span.clockRange) :
    GivesUp s₁.clock config.shutdownTimeout.ticks (τ₁ ++ .command :: τ₂) s₃ := by
  have htimeout : s₁.timeout = config.shutdownTimeout := timeout_of_play h₁
  -- The deadlines hold when the stop begins, and each later move keeps them.
  obtain ⟨ds, hds⟩ := exists_tells_of_play (sound_ofConfig config gate) h₁
  have hbegun := closing_of_meetsStop hds.sound hstop (htimeout ▸ hrange) h₂
  rw [htimeout] at hbegun
  have hc := closing_of_play hbegun htimely h₃
  have hplay : (ofConfig config gate).play (τ₁ ++ .command :: τ₂) = some s₃ := by
    rw [play_append_of_play h₁, play, h₂]
    exact h₃
  refine ⟨hc.deadlines.clock_le_of_isRunning, ?_, ?_, ?_, exists_end hc⟩
  · intro hlate
    apply allTold_of_hasEnded hplay
    by_contra hopen
    have hnow := hc.deadlines.clock_le_of_not_hasEnded hopen
    omega
  · -- At rest the loop waits for a deadline that is still to come, unless it has ended.
    intro hrest
    constructor
    · intro hdue hrun
      obtain ⟨d, -, hlt, -, hfirst⟩ := hc.deadlines.exists_timer hc.roomy hrest
        (not_hasEnded_of_isRunning hrun)
      have heq := hfirst hrun
      omega
    · intro hdue
      apply allTold_of_hasEnded hplay
      by_contra hopen
      obtain ⟨d, -, hlt, hle, -⟩ := hc.deadlines.exists_timer hc.roomy hrest hopen
      omega
  · intro k hphase
    exact ⟨hc.deadlines.dismissing k hphase, sends_of_roomy hc.roomy hphase⟩

/-- One task is under way that never ends, and one is queued behind it. -/
def stuckRun : List (Move Nat) :=
  [.begin, .request (.name "a") 0, .request (.name "b") 1, .command, .command, .take 0, .stop 9]

/-- Both grace periods run out, and whoever asks for anything meanwhile is told as well. -/
def abandonRun : List (Move Nat) :=
  [.pass 3000, .leave, .dismiss, .dismiss, .request (.name "c") 2, .stop 10, .pass 3000, .farewell,
    .pass 1]

theorem shutdown_gives_up_on_time_stuck :
    ∃ s₁ s₂ s₃ : Service Nat,
      (ofConfig { poolSize := 1 } { state := .ready }).play stuckRun = some s₁ ∧ s₁.meetsStop ∧
      s₁.clock = 0 ∧ s₁.move .command = some s₂ ∧ s₂.play abandonRun = some s₃ ∧
      s₂.Timely abandonRun ∧ s₃.renders 0 (.ofJob (.name "a")) ∧ s₃.clock = 6001 ∧
      AllTold (stuckRun ++ .command :: abandonRun) s₃ := by
  have hplay : ((ofConfig { poolSize := 1 } { state := .ready } : Service Nat).play stuckRun).any
      fun s₁ => (s₁.meetsStop && s₁.clock == 0) && (s₁.move .command).any fun s₂ =>
        decide (s₂.Timely abandonRun) && (s₂.play abandonRun).any fun s₃ =>
          s₃.renders 0 (.ofJob (.name "a")) && s₃.clock == 6001 := by
    decide +kernel
  obtain ⟨s₁, h₁, hall⟩ := (Option.any_eq_true _ _).mp hplay
  obtain ⟨hbefore, hall⟩ := Bool.and_eq_true_iff.mp hall
  obtain ⟨s₂, h₂, hall⟩ := (Option.any_eq_true _ _).mp hall
  obtain ⟨htimely, hall⟩ := Bool.and_eq_true_iff.mp hall
  have htimely : s₂.Timely abandonRun := of_decide_eq_true htimely
  obtain ⟨s₃, h₃, hall⟩ := (Option.any_eq_true _ _).mp hall
  simp only [Bool.and_eq_true, beq_iff_eq] at hbefore hall
  obtain ⟨hstop, hstart⟩ := hbefore
  obtain ⟨hrenders, hclock⟩ := hall
  -- The grace period of three thousand ticks is passed twice, and one tick more.
  have hgives := shutdown_gives_up_on_time h₁ hstop h₂ h₃ htimely (by decide)
  refine ⟨s₁, s₂, s₃, h₁, hstop, hstart, h₂, h₃, htimely, hrenders, hclock, hgives.past ?_⟩
  rw [hclock, hstart]
  decide

end AvatarPool.Service
