import AvatarPool.Proofs.Service.Stopping

/-! # A stop comes to its end

From every state of a stop the loop, its workers and the clock can bring the service to its end,
whatever the callers and the gate have done before: nothing that they have done, and no order in
which it was done, leaves the service stuck.

The way to the end is walked from its far side.  A loop that waits for its workers without a limit
ends when they have gone, and they go because they have been told to (`canEnd_of_gone`); a loop that
tells its workers comes to wait for them, because whoever has a full box can be brought to empty it
(`canEnd_of_dismissing`); and a loop that waits for running tasks leaves at the deadline.  For the
first of these it has to be known that the loop has really told everybody, which is the invariant
`Told`. -/

namespace AvatarPool

variable {ω : Type}

/-- Whether the move is one of the service itself: of the loop, of a worker, or of the clock. -/
def Move.isOwn : Move ω → Bool
  | .request _ _ | .stop _ | .share | .unshare | .setGate _ | .releaseGate => false
  | _ => true

/-- Whether a worker has been told to stop: the message is in its box, or it has taken it. -/
def Worker.isTold (w : Worker) : Prop := w.activity = .gone ∨ w.inbox = some .stop

/-- Whether the loop has told worker `j` to stop when it stands in this phase. -/
def Phase.hasTold (phase : Phase) (j : Nat) : Prop :=
  match phase with
  | .dismissing next => j < next
  | .farewell _ => True
  | _ => False

namespace Service

variable {s t : Service ω} {m : Move ω} {τ : List (Move ω)} {k : Nat}

/-- Those whom the loop has told to stop know it.  It is needed where the loop waits without a
limit, as it would wait for ever for a worker that was passed over. -/
def Told (s : Service ω) : Prop :=
  ∀ j slot, s.core.slots[j]? = some slot → s.phase.hasTold j → slot.worker.isTold

/-- A slot after a change is the slot before it, but for the one worker. -/
theorem getElem?_setWorker {pool : Pool} {w : Worker} {j : Nat} {slot : Slot}
    (h : (pool.setWorker k w).slots[j]? = some slot) :
    ∃ slot', pool.slots[j]? = some slot' ∧
      slot.worker = if j = k then w else slot'.worker := by
  rw [Pool.setWorker, List.getElem?_modify] at h
  obtain ⟨slot', hslot', rfl⟩ := Option.map_eq_some_iff.mp h
  refine ⟨slot', hslot', ?_⟩
  -- The worker in place `k` is replaced, and all others are as they were.
  by_cases hj : j = k
  · rw [if_pos hj.symm, if_pos hj]
  · rw [if_neg (Ne.symm hj), if_neg hj]

/-- Taking the message is how a worker comes to know of it. -/
theorem isTold_of_take {w w' : Worker} (hw : w.take = some w') (h : w.isTold) : w'.isTold := by
  unfold Worker.take at hw
  split at hw <;> cases hw
  · rcases h with hgone | hstop
    · simp_all
    · simp_all
  · exact .inl rfl

/-- A message in the box stays there while an invocation ends. -/
theorem isTold_of_finish {w w' : Worker} {ending : Ending} {c : WorkReport}
    (hw : w.finish k ending = some (w', c)) (h : w.isTold) : w'.isTold := by
  unfold Worker.finish at hw
  split at hw <;> cases hw
  -- A worker that is gone takes nothing, and one that waits takes its stop.
  rcases h with hgone | hstop
  · simp_all
  · exact .inr hstop

theorem not_hasTold_of_isRunning (h : s.isRunning) (j : Nat) : ¬ s.phase.hasTold j := by
  unfold isRunning at h
  unfold Phase.hasTold
  split at h <;> simp_all

theorem told_of_isRunning (h : s.isRunning) : s.Told :=
  fun j _ _ htold => absurd htold (not_hasTold_of_isRunning h j)

theorem isTold_of_isOpen {w : Worker} (h : w.isOpen = false) : w.isTold := by
  have hgone : w.activity = .gone := by simpa [Worker.isOpen] using h
  exact .inl hgone

/-- A worker that goes on with its work still knows that it has been told. -/
theorem told_of_work {pool : Pool} {slot : Slot} {w : Worker} (hs : s.Told)
    (hp : s.core.pool = some pool) (hslot : pool.slots[k]? = some slot)
    (hw : slot.worker.isTold → w.isTold) (hcore : t.core.pool = some (pool.setWorker k w))
    (hphase : t.phase = s.phase) : t.Told := by
  intro j slot' hj htold
  rw [Dispatcher.slots_of_pool hcore] at hj
  rw [hphase] at htold
  obtain ⟨slot'', hslot'', hworker⟩ := getElem?_setWorker hj
  have hbefore := hs j slot'' (Dispatcher.slots_of_pool hp ▸ hslot'') htold
  rw [hworker]
  split
  · rename_i heq
    subst heq
    rw [hslot] at hslot''
    cases hslot''
    exact hw hbefore
  · exact hbefore

/-- Every move keeps `Told`.  By the cases of a step: a worker comes to be told when the loop passes
it, either because it is gone or because the message goes into its box. -/
theorem told_of_move (hs : s.Told) (h : s.move m = some t) : t.Told := by
  cases steps_of_move h with
  | aside _ ha => rw [Told, ha.core, ha.phase]; exact hs
  | take hp hslot hw ha =>
      exact told_of_work hs hp hslot (isTold_of_take hw) (by rw [ha.core]; rfl) ha.phase
  | finish hp hslot _ hw ha =>
      exact told_of_work hs hp hslot (isTold_of_finish hw) (by rw [ha.core]; rfl) ha.phase
  | begin | stop | desert => exact told_of_isRunning rfl
  | report hl | look hl | lose hl =>
      have hrun : s.isRunning := isRunning_of_isListening hl
      exact told_of_isRunning hrun
  | intake hphase =>
      have hrun : s.isRunning := by simp [isRunning, hphase]
      exact told_of_isRunning hrun
  | leave | giveUp => exact fun j _ _ htold => absurd htold (Nat.not_lt_zero j)
  | alone | part => exact fun _ _ _ htold => htold.elim
  | @await k pool hphase hp hk =>
      intro j slot hj _
      -- Nobody is left to be told.
      have hlength : pool.slots.length ≤ k :=
        List.getElem?_eq_none_iff.mp (Option.map_eq_none_iff.mp hk)
      have hlt : j < pool.slots.length :=
        (List.getElem?_eq_some_iff.mp (Dispatcher.slots_of_pool hp ▸ hj)).1
      refine hs j slot hj ?_
      rw [hphase]
      exact Nat.lt_of_lt_of_le hlt hlength
  | @skip k pool w hphase hp hk hw =>
      intro j slot hj htold
      -- It had been told before, or it is the one that is passed over, because it is gone.
      rcases Nat.lt_succ_iff_lt_or_eq.mp htold with hlt | rfl
      · exact hs j slot hj (by rw [hphase]; exact hlt)
      · obtain ⟨slot', hslot', rfl⟩ := Option.map_eq_some_iff.mp hk
        have hj' : pool.slots[j]? = some slot := Dispatcher.slots_of_pool hp ▸ hj
        rw [hslot'] at hj'
        cases hj'
        exact isTold_of_isOpen hw
  | @tell k pool w os hphase hp hk hw hos =>
      intro j slot hj htold
      obtain ⟨slot', hslot', hworker⟩ := getElem?_setWorker hj
      rw [hworker]
      -- It is the one whose box the message goes into, or it had been told before.
      split
      · exact .inr rfl
      · rename_i hne
        have hlt : j < k := Nat.lt_of_le_of_ne (Nat.lt_succ_iff.mp htold) hne
        exact hs j slot' (Dispatcher.slots_of_pool hp ▸ hslot') (by rw [hphase]; exact hlt)

theorem told_of_play (hs : s.Told) (h : s.play τ = some t) : t.Told :=
  play_induction (P := fun _ t => t.Told) hs (fun _ _ _ _ _ ht hmove => told_of_move ht hmove) h

/-! ## Workers empty their boxes -/

/-- The service gets from one state to another by itself.  Neither a caller nor the gate has a part
in it. -/
def Reaches (s t : Service ω) : Prop := ∃ τ : List (Move ω), (∀ m ∈ τ, m.isOwn) ∧ s.play τ = some t

namespace Reaches

theorem of_move (hm : m.isOwn) (h : s.move m = some t) : s.Reaches t :=
  ⟨[m], by simpa using hm, (play_singleton s m).trans h⟩

/-- Ways can be joined. -/
theorem trans {u : Service ω} (h : s.Reaches t) (h' : t.Reaches u) : s.Reaches u := by
  obtain ⟨τ, hτ, ht⟩ := h
  obtain ⟨τ', hτ', hu⟩ := h'
  refine ⟨τ ++ τ', fun m hm => ?_, by rw [play_append_of_play ht, hu]⟩
  exact (List.mem_append.mp hm).elim (hτ m) (hτ' m)

theorem told (h : s.Reaches t) (hs : s.Told) : t.Told := by
  obtain ⟨τ, -, ht⟩ := h
  exact told_of_play hs ht

end Reaches

/-- Slots belong to a pool. -/
theorem exists_pool_of_slot {slot : Slot} (h : s.core.slots[k]? = some slot) :
    ∃ pool, s.core.pool = some pool ∧ pool.slots[k]? = some slot := by
  cases hp : s.core.pool with
  | none => simp [Dispatcher.slots, hp] at h
  | some pool => exact ⟨pool, rfl, Dispatcher.slots_of_pool hp ▸ h⟩

theorem slots_setWorker {pool : Pool} {slot : Slot} {w : Worker} (hp : s.core.pool = some pool)
    (hslot : pool.slots[k]? = some slot) (ht : t.core.pool = some (pool.setWorker k w)) :
    t.core.slots = s.core.slots.set k { slot with worker := w } := by
  rw [Dispatcher.slots_of_pool ht, Dispatcher.slots_of_pool hp, setWorker_slots hslot]

/-- A worker that can take what is in its box takes it. -/
theorem exists_workerTakes {pool : Pool} {slot : Slot} {w : Worker} (hp : s.core.pool = some pool)
    (hslot : pool.slots[k]? = some slot) (hw : slot.worker.take = some w) :
    ∃ t, s.workerTakes k = some t ∧ t.phase = s.phase ∧
      t.core.pool = some (pool.setWorker k w) := by
  have hsome : ∃ t, s.workerTakes k = some t :=
    ⟨_, by simp [workerTakes, hp, Pool.worker?, hslot, hw]; rfl⟩
  obtain ⟨t, ht⟩ := hsome
  -- What such a move does is known in general.
  obtain ⟨pool', slot', w', hp', hslot', hw', ha⟩ := work_of_take ht
  cases hp.symm.trans hp'
  cases hslot.symm.trans hslot'
  cases hw.symm.trans hw'
  exact ⟨t, ht, ha.phase, by rw [ha.core]; rfl⟩

/-- A worker takes what is in its box.  As a way of the service, it leaves the phase alone and the
slots of everybody else. -/
theorem exists_take {slot : Slot} {w : Worker} (hslot : s.core.slots[k]? = some slot)
    (hw : slot.worker.take = some w) :
    ∃ t, s.Reaches t ∧ t.phase = s.phase ∧
      t.core.slots = s.core.slots.set k { slot with worker := w } := by
  obtain ⟨pool, hp, hslot⟩ := exists_pool_of_slot hslot
  obtain ⟨t, ht, hphase, hpool⟩ := exists_workerTakes hp hslot hw
  have hmove : s.move (.take k) = some t := ht
  exact ⟨t, .of_move rfl hmove, hphase, slots_setWorker hp hslot hpool⟩

/-- A worker's invocation ends.  How it ends is of no importance here. -/
theorem exists_finish {slot : Slot} {task : Task} (hslot : s.core.slots[k]? = some slot)
    (hactivity : slot.worker.activity = .rendering task) (ending : Ending) :
    ∃ t, s.Reaches t ∧ t.phase = s.phase ∧ t.core.slots =
      s.core.slots.set k { slot with worker := { slot.worker with activity := .waiting } } := by
  obtain ⟨pool, hp, hslot⟩ := exists_pool_of_slot hslot
  have hrenders : s.renders k task := by simp [renders, hp, Pool.worker?, hslot, hactivity]
  -- An invocation may end in any way, as far as the service is concerned.
  have hfinish : slot.worker.finish k ending =
      some ({ slot.worker with activity := .waiting },
        ⟨k, task.fingerprint, ending.outcome task.fingerprint⟩) := by
    rw [Worker.finish, hactivity]
  have hsome : ∃ t, s.workerFinishes k ending = some t :=
    ⟨_, by simp [workerFinishes, hp, Pool.worker?, hslot, hfinish]; rfl⟩
  obtain ⟨t, ht⟩ := hsome
  obtain ⟨pool', slot', w', c', hp', hslot', hw', ha⟩ := work_of_finish ht
  cases hp.symm.trans hp'
  cases hslot.symm.trans hslot'
  cases hfinish.symm.trans hw'
  have hmove : s.move (.finish k task ending) = some t := (if_pos hrenders).trans ht
  exact ⟨t, .of_move rfl hmove, ha.phase, slots_setWorker hp hslot (by rw [ha.core]; rfl)⟩

/-- Every worker that is still there comes to empty its box, and is gone if it has been told to
stop.  If it is at work, its invocation is brought to an end first. -/
theorem exists_emptied {slot : Slot} {work : Work} (hslot : s.core.slots[k]? = some slot)
    (hopen : slot.worker.activity ≠ .gone) (hbox : slot.worker.inbox = some work) :
    ∃ t w, s.Reaches t ∧ t.phase = s.phase ∧
      t.core.slots = s.core.slots.set k { slot with worker := w } ∧ w.inbox = none ∧
      (work = .stop → w.activity = .gone) := by
  -- For a worker that waits; one that renders comes to wait and is then in this case.
  have hwaiting : ∀ {s : Service ω} {slot : Slot}, s.core.slots[k]? = some slot →
      slot.worker.activity = .waiting → slot.worker.inbox = some work →
      ∃ t w, s.Reaches t ∧ t.phase = s.phase ∧
        t.core.slots = s.core.slots.set k { slot with worker := w } ∧ w.inbox = none ∧
        (work = .stop → w.activity = .gone) := by
    intro s slot hslot hactivity hbox
    cases work with
    | render task =>
        have hw : slot.worker.take = some { inbox := none, activity := .rendering task } := by
          rw [Worker.take, hactivity, hbox]
        obtain ⟨t, hreach, hphase, hslots⟩ := exists_take hslot hw
        exact ⟨t, _, hreach, hphase, hslots, rfl, nofun⟩
    | stop =>
        have hw : slot.worker.take = some { inbox := none, activity := .gone } := by
          rw [Worker.take, hactivity, hbox]
        obtain ⟨t, hreach, hphase, hslots⟩ := exists_take hslot hw
        exact ⟨t, _, hreach, hphase, hslots, rfl, fun _ => rfl⟩
  cases hactivity : slot.worker.activity with
  | waiting => exact hwaiting hslot hactivity hbox
  | rendering task =>
      obtain ⟨t, hreach, hphase, hslots⟩ := exists_finish hslot hactivity .panicked
      have hlt := (List.getElem?_eq_some_iff.mp hslot).1
      have hslot' : t.core.slots[k]? =
          some { slot with worker := { slot.worker with activity := .waiting } } := by
        rw [hslots]
        exact List.getElem?_set_self hlt
      obtain ⟨u, w, hreach', hphase', hslots', hempty, hgone⟩ := hwaiting hslot' rfl hbox
      refine ⟨u, w, hreach.trans hreach', hphase'.trans hphase, ?_, hempty, hgone⟩
      rw [hslots', hslots, List.set_set]
  | gone => exact absurd hactivity hopen

/-! ## The end -/

/-- The service can come to its end by itself.  What counts is that it can: that it does by itself,
and by when, is a matter of the clock. -/
def CanEnd (s : Service ω) : Prop := ∃ t, s.Reaches t ∧ t.hasEnded

theorem CanEnd.of_reaches (h : s.Reaches t) (ht : t.CanEnd) : s.CanEnd := by
  obtain ⟨u, hu, hended⟩ := ht
  exact ⟨u, h.trans hu, hended⟩

theorem canEnd_of_move (hm : m.isOwn) (h : s.move m = some t) (ht : t.hasEnded) : s.CanEnd :=
  ⟨t, .of_move hm h, ht⟩

/-- With no limit to wait, the loop waits until every worker has gone.  By induction on the number
of workers that are still to be looked at: the next one is gone, or it goes. -/
theorem canEnd_of_gone (n : Nat) (hs : s.Told) (hphase : s.phase = .farewell none)
    (hgone : ∀ j < k, ∀ slot, s.core.slots[j]? = some slot → slot.worker.activity = .gone)
    (hn : s.core.slots.length ≤ k + n) : s.CanEnd := by
  induction n generalizing s k with
  | zero =>
      -- All workers have been looked at.
      have hall : s.allGone := by
        unfold allGone
        split
        · rfl
        · rename_i pool hp
          refine List.all_eq_true.mpr fun slot hmem => ?_
          obtain ⟨j, hj⟩ := List.mem_iff_getElem?.mp hmem
          rw [Dispatcher.slots_of_pool hp] at hn hgone
          have hlt := (List.getElem?_eq_some_iff.mp hj).1
          simp [hgone j (Nat.lt_of_lt_of_le hlt hn) slot hj]
      refine canEnd_of_move (m := .farewell) (t := s.finish) rfl ?_ rfl
      rw [move, hphase]
      simp [hall]
  | succ n ih =>
      cases hslot : s.core.slots[k]? with
      | none =>
          have hlength := List.getElem?_eq_none_iff.mp hslot
          exact ih hs hphase hgone (Nat.le_trans hlength (Nat.le_add_right k n))
      | some slot =>
          -- With this worker gone as well, the others before it are as they were.
          have hnext : ∀ {t : Service ω}, t.Told → t.phase = .farewell none →
              t.core.slots.length = s.core.slots.length →
              (∀ j, j ≠ k → t.core.slots[j]? = s.core.slots[j]?) →
              (∀ slot, t.core.slots[k]? = some slot → slot.worker.activity = .gone) →
              t.CanEnd := by
            intro t ht hphase' hlength hothers hself
            refine ih (k := k + 1) ht hphase' (fun j hj slot' hslot' => ?_) (by omega)
            rcases Nat.lt_succ_iff_lt_or_eq.mp hj with hlt | rfl
            · exact hgone j hlt slot' (hothers j (Nat.ne_of_lt hlt) ▸ hslot')
            · exact hself slot' hslot'
          -- It is gone already, or it goes when it takes the stop in its box.
          by_cases hactivity : slot.worker.activity = .gone
          · refine hnext hs hphase rfl (fun _ _ => rfl) fun slot' hslot' => ?_
            cases hslot.symm.trans hslot'
            exact hactivity
          · have hbox : slot.worker.inbox = some .stop :=
              (hs k slot hslot (by rw [hphase]; trivial)).resolve_left hactivity
            obtain ⟨t, w, hreach, hphase', hslots, -, hw⟩ := exists_emptied hslot hactivity hbox
            refine .of_reaches hreach (hnext (hreach.told hs) (hphase'.trans hphase) ?_ ?_ ?_)
            · rw [hslots, List.length_set]
            · intro j hj
              rw [hslots, List.getElem?_set_ne (Ne.symm hj)]
            · intro slot' hslot'
              rw [hslots, List.getElem?_set_self (List.getElem?_eq_some_iff.mp hslot).1] at hslot'
              cases hslot'
              exact hw rfl

/-- A limit runs out, and without a limit the workers are brought to go. -/
theorem canEnd_of_farewell {limit : Option Nat} (hs : s.Told) (hphase : s.phase = .farewell limit) :
    s.CanEnd := by
  cases limit with
  | none => exact canEnd_of_gone (k := 0) _ hs hphase nofun (Nat.le_add_left _ _)
  | some limit =>
      -- It waits until the limit, and ends.
      have hpass : s.Reaches { s with clock := s.clock + limit } :=
        .of_move (m := .pass limit) rfl rfl
      have hend : ({ s with clock := s.clock + limit } : Service ω).move .farewell =
          some { s with clock := s.clock + limit }.finish := by
        rw [move, hphase]
        simp [isPast]
      exact .of_reaches hpass (canEnd_of_move rfl hend rfl)

/-- A worker that is gone, or has room in its box, is passed or told.  Either way the loop comes to
the next worker. -/
theorem exists_dismiss {slot : Slot} (hphase : s.phase = .dismissing k)
    (hslot : s.core.slots[k]? = some slot)
    (hroom : slot.worker.activity = .gone ∨ slot.worker.inbox = none) :
    ∃ t, s.Reaches t ∧ t.phase = .dismissing (k + 1) ∧
      t.core.slots.length = s.core.slots.length := by
  obtain ⟨pool, hp, hslot⟩ := exists_pool_of_slot hslot
  have hsome : ∃ t, s.dismiss k = some t := by
    rcases hroom with hgone | hbox
    · exact ⟨_, by simp [dismiss, hp, Pool.worker?, hslot, Worker.isOpen, hgone]; rfl⟩
    · by_cases hopen : slot.worker.isOpen
      · exact ⟨_, by simp [dismiss, hp, Pool.worker?, hslot, hopen, hbox]; rfl⟩
      · exact ⟨_, by simp [dismiss, hp, Pool.worker?, hslot, hopen]; rfl⟩
  obtain ⟨t, ht⟩ := hsome
  have hmove : s.move .dismiss = some t := by
    rw [move, hphase]
    exact ht
  refine ⟨t, .of_move rfl hmove, ?_⟩
  -- What the loop has done is read off the cases of a step.
  cases steps_of_dismiss hphase ht with
  | aside hm => cases hm
  | alone _ hnone => rw [hp] at hnone; cases hnone
  | await hphase' hp' hk =>
      cases hp.symm.trans hp'
      cases hphase.symm.trans hphase'
      simp [Pool.worker?, hslot] at hk
  | skip hphase' =>
      cases hphase.symm.trans hphase'
      exact ⟨rfl, rfl⟩
  | @tell _ pool' w os hphase' hp' =>
      cases hphase.symm.trans hphase'
      refine ⟨rfl, ?_⟩
      rw [Dispatcher.slots_of_pool hp']
      exact List.length_modify _ _ _

/-- After the last worker the loop waits for them, unless there is none.  With no workers at all the
service ends on the spot. -/
theorem canEnd_of_dismissed (hs : s.Told) (hphase : s.phase = .dismissing k)
    (hslot : s.core.slots[k]? = none) : s.CanEnd := by
  have hsome : ∃ t, s.dismiss k = some t := by
    cases hp : s.core.pool with
    | none => exact ⟨_, by simp [dismiss, hp]; rfl⟩
    | some pool =>
        rw [Dispatcher.slots_of_pool hp] at hslot
        exact ⟨_, by simp only [dismiss, hp, Pool.worker?, hslot]; rfl⟩
  obtain ⟨t, ht⟩ := hsome
  have hmove : s.move .dismiss = some t := by
    rw [move, hphase]
    exact ht
  have hreach : s.Reaches t := .of_move rfl hmove
  have hworker : ∀ {pool : Pool}, s.core.pool = some pool → pool.worker? k = none := fun hp => by
    rw [Dispatcher.slots_of_pool hp] at hslot
    rw [Pool.worker?, hslot]
    rfl
  -- With all workers told the loop waits for them, or ends if there are none.
  cases steps_of_dismiss hphase ht with
  | aside hm => cases hm
  | alone => exact ⟨_, hreach, rfl⟩
  | await => exact .of_reaches hreach (canEnd_of_farewell (hreach.told hs) rfl)
  | skip hphase' hp hk | tell hphase' hp hk =>
      cases hphase.symm.trans hphase'
      rw [hworker hp] at hk
      cases hk

/-- A loop that is telling its workers to stop can end.  By induction on the number of workers that
are still to be told. -/
theorem canEnd_of_dismissing (n : Nat) (hs : s.Told) (hphase : s.phase = .dismissing k)
    (hn : s.core.slots.length ≤ k + n) : s.CanEnd := by
  induction n generalizing s k with
  | zero => exact canEnd_of_dismissed hs hphase (List.getElem?_eq_none_iff.mpr hn)
  | succ n ih =>
      cases hslot : s.core.slots[k]? with
      | none => exact canEnd_of_dismissed hs hphase hslot
      | some slot =>
          -- A worker with room is told, or passed over, and the rest is the induction hypothesis.
          have hnext : ∀ {s : Service ω} (slot : Slot), s.Told → s.phase = .dismissing k →
              s.core.slots.length ≤ k + (n + 1) → s.core.slots[k]? = some slot →
              (slot.worker.activity = .gone ∨ slot.worker.inbox = none) → s.CanEnd := by
            intro s slot hs hphase hn hslot hroom
            obtain ⟨t, hreach, hphase', hlength⟩ := exists_dismiss hphase hslot hroom
            exact .of_reaches hreach (ih (hreach.told hs) hphase' (by omega))
          by_cases hgone : slot.worker.activity = .gone
          · exact hnext slot hs hphase hn hslot (.inl hgone)
          · cases hbox : slot.worker.inbox with
            | none => exact hnext slot hs hphase hn hslot (.inr hbox)
            | some work =>
                -- The box is full: the worker is brought to empty it first.
                obtain ⟨t, w, hreach, hphase', hslots, hempty, -⟩ := exists_emptied hslot hgone hbox
                have hlt := (List.getElem?_eq_some_iff.mp hslot).1
                refine .of_reaches hreach (hnext { slot with worker := w }
                  (hreach.told hs) (hphase'.trans hphase) ?_ ?_ (.inr hempty))
                · rw [hslots, List.length_set]
                  exact hn
                · rw [hslots]
                  exact List.getElem?_set_self hlt

/-- **A stop comes to its end**: from every state of a stop the service can end by itself. -/
theorem canEnd_of_isStopping (hs : s.Told) (hstop : s.isStopping) : s.CanEnd := by
  cases hphase : s.phase with
  | starting | serving => simp [isStopping, hphase] at hstop
  | grace deadline =>
      -- The loop leaves at the deadline at the latest.
      have hpass : s.Reaches { s with clock := s.clock + deadline } :=
        .of_move (m := .pass deadline) rfl rfl
      have hleave : ∃ t, ({ s with clock := s.clock + deadline } : Service ω).move .leave = some t ∧
          t.phase = .dismissing 0 := by
        simp only [move, hphase]
        split
        · exact ⟨_, rfl, rfl⟩
        · exact ⟨_, if_pos (by simp [isPast]), rfl⟩
      obtain ⟨t, hmove, hphase'⟩ := hleave
      have hreach := hpass.trans (.of_move rfl hmove)
      exact .of_reaches hreach
        (canEnd_of_dismissing _ (hreach.told hs) hphase' (Nat.le_add_left _ _))
  -- In the later phases the way to the end is shorter.
  | dismissing k => exact canEnd_of_dismissing _ hs hphase (Nat.le_add_left _ _)
  | farewell limit => exact canEnd_of_farewell hs hphase
  | ended => exact ⟨s, ⟨[], List.forall_mem_nil _, rfl⟩, (hasEnded_iff s).mpr hphase⟩

end Service

end AvatarPool
