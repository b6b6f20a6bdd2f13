import AvatarPool.Proofs.Service.Story

/-! # What each move does

`Service.Steps` lists, with all its guards, what every move of the service makes of it: callers, the
gate and the clock leave the dispatcher and the loop's phase alone, workers change their own slots,
and the loop takes one of its steps.

`Steps` is the only place where the program of a move is taken apart, branch by branch, and each of
its cases says under which circumstances the branch is taken.  A property of all moves is shown by
its cases; for the moves from outside, of which there are many and which do little, the common part
is `Aside`, so that they count as one case. -/

namespace AvatarPool

variable {ω : Type}

/-- Whether the move is made by a caller, by who holds the gate, or by the clock, or is one of the
loop that changes nothing but its alerts. -/
def Move.isOutside : Move ω → Bool
  | .request _ _ | .stop _ | .share | .unshare | .setGate _ | .releaseGate | .pass _ | .rest
  | .postpone => true
  | _ => false

/-- The command that a move sends. -/
def Move.command? : Move ω → Option (Command ω)
  | .request job caller => some (.request job caller)
  | .stop caller => some (.stop caller)
  | _ => none

/-- What an output tells one who asked for a stop. -/
def Output.stop? : Output ω → Option (ω × Except Failure Unit)
  | .stopped caller => some (caller, .ok ())
  | .stopRefused caller => some (caller, .error .shuttingDown)
  | _ => none

namespace Service

variable {s t u : Service ω} {m : Move ω}

/-! ## Moves from outside -/

/-- The answers to those who asked for a stop. -/
def stopAnswers (s : Service ω) : List (ω × Except Failure Unit) :=
  s.outputs.filterMap Output.stop?

/-- The command that a move puts into the channel, which is open until the service has ended. -/
def sentBy (s : Service ω) (m : Move ω) : List (Command ω) :=
  if s.hasEnded then [] else m.command?.toList

/-- The answer to who asks for a stop after the end. -/
def refusedBy (s : Service ω) (m : Move ω) : List (ω × Except Failure Unit) :=
  if s.hasEnded then (m.command?.bind Command.stopper?).toList.map fun w => (w, .error .shuttingDown)
  else []

/-- Only the channel changes, by these commands, and those who asked for a stop are told this; what
belongs to the dispatcher and to the loop stays as it is. -/
structure Aside (s : Service ω) (cs : List (Command ω)) (rs : List (ω × Except Failure Unit))
    (t : Service ω) : Prop where
  core : t.core = s.core
  phase : t.phase = s.phase
  timeout : t.timeout = s.timeout
  clock : s.clock ≤ t.clock
  stoppers : t.stoppers = s.stoppers
  commands : t.commands = s.commands ++ cs
  stopAnswers : t.stopAnswers = s.stopAnswers ++ rs
  /-- Nobody but who comes after the end is told anything else. -/
  story : ¬ s.hasEnded → t.story = s.story

namespace Aside

variable {cs cs' : List (Command ω)} {rs rs' : List (ω × Except Failure Unit)}

/-- Nothing has changed but the gate, the handles, the reports or the alerts. -/
theorem of_eq (hcore : t.core = s.core) (hphase : t.phase = s.phase)
    (htimeout : t.timeout = s.timeout) (hclock : s.clock ≤ t.clock)
    (hstoppers : t.stoppers = s.stoppers) (hcommands : t.commands = s.commands)
    (houtputs : t.outputs = s.outputs) : s.Aside [] [] t where
  core := hcore
  phase := hphase
  timeout := htimeout
  clock := hclock
  stoppers := hstoppers
  commands := hcommands.trans (List.append_nil _).symm
  stopAnswers := by rw [Service.stopAnswers, houtputs]; exact (List.append_nil _).symm
  story _ := by rw [Service.story, Service.story, hcore, houtputs]

theorem refl (s : Service ω) : s.Aside [] [] s :=
  of_eq rfl rfl rfl (Nat.le_refl _) rfl rfl rfl

/-- What is sent and what is told is added up. -/
theorem trans (h : s.Aside cs rs t) (h' : t.Aside cs' rs' u) :
    s.Aside (cs ++ cs') (rs ++ rs') u where
  core := h'.core.trans h.core
  phase := h'.phase.trans h.phase
  timeout := h'.timeout.trans h.timeout
  clock := Nat.le_trans h.clock h'.clock
  stoppers := h'.stoppers.trans h.stoppers
  commands := by rw [h'.commands, h.commands, List.append_assoc]
  stopAnswers := by rw [h'.stopAnswers, h.stopAnswers, List.append_assoc]
  story hs := by
    -- The end of the service is a matter of its phase.
    have ht : ¬ t.hasEnded := by rwa [hasEnded, h.phase]
    exact (h'.story ht).trans (h.story hs)

/-- A step that leaves the channel and the answers alone comes after. -/
theorem quiet (h : s.Aside cs rs t) (h' : t.Aside [] [] u) : s.Aside cs rs u := by
  have happend := h.trans h'
  rwa [List.append_nil, List.append_nil] at happend

/-- Outputs other than effects are for those who asked for a stop. -/
theorem emit (s : Service ω) (os : List (Output ω))
    (hos : ¬ s.hasEnded → os.filterMap Output.effect? = []) :
    s.Aside [] (os.filterMap Output.stop?) (s.emit os) where
  core := rfl
  phase := rfl
  timeout := rfl
  clock := Nat.le_refl _
  stoppers := rfl
  commands := (List.append_nil _).symm
  stopAnswers := List.filterMap_append
  story hs := (Quiet.emit s os (hos hs)).story_eq

/-- Rousing the loop is noted for its scheduler, and changes nothing else. -/
theorem rouse (s : Service ω) (a : Alert) : s.Aside [] [] (s.rouse a) := by
  -- The loop waits for this alert, or is not roused.
  unfold Service.rouse
  split
  · have herase : s.Aside [] [] { s with alerts := s.alerts.erase a } :=
      of_eq rfl rfl rfl (Nat.le_refl _) rfl rfl rfl
    exact herase.quiet (emit _ [.roused] fun _ => rfl)
  · exact refl s

theorem post (s : Service ω) (c : Command ω) : s.Aside [c] [] (s.post c) := by
  have hput : s.Aside [c] [] { s with commands := s.commands ++ [c] } :=
    ⟨rfl, rfl, rfl, Nat.le_refl _, rfl, rfl, (List.append_nil _).symm, fun _ => rfl⟩
  exact hput.quiet (rouse _ .commands)

/-- A gate that is set to what it shows rouses nobody. -/
theorem setGate (s : Service ω) (gate : Gate) : s.Aside [] [] (s.setGate gate) := by
  -- The gate shows this already, or it changes.
  unfold Service.setGate
  split
  · exact refl s
  · have hset : s.Aside [] [] { s with gate := gate } :=
      of_eq rfl rfl rfl (Nat.le_refl _) rfl rfl rfl
    exact hset.quiet (rouse _ .gate)

/-- The loop is roused with the last handle, for it has to notice that there is none. -/
theorem unshare (s : Service ω) : s.Aside [] [] s.unshare := by
  have hless : s.Aside [] [] { s with handles := s.handles - 1 } :=
    of_eq rfl rfl rfl (Nat.le_refl _) rfl rfl rfl
  -- The last handle has gone, or others are held.
  unfold Service.unshare
  dsimp only
  split
  · exact hless.quiet (rouse _ .commands)
  · exact hless

theorem rest (s : Service ω) : s.Aside [] [] s.rest := by
  unfold Service.rest
  dsimp only
  split <;> exact of_eq rfl rfl rfl (Nat.le_refl _) rfl rfl rfl

/-- A move that sends no command. -/
theorem of_silent {m : Move ω} (hm : m.command? = none) (h : s.Aside [] [] t) :
    s.Aside (s.sentBy m) (s.refusedBy m) t := by
  simpa [sentBy, refusedBy, hm] using h

/-- A move from outside sends its command as long as the channel is open, and is refused afterwards.
-/
theorem of_move (hm : m.isOutside) (h : s.move m = some t) :
    s.Aside (s.sentBy m) (s.refusedBy m) t := by
  -- A request and a stop are sent or refused; the other moves send nothing.
  cases m with
  | request job w =>
      obtain ⟨-, rfl⟩ := Option.ite_some_none_eq_some.mp h
      unfold request sentBy refusedBy
      split
      · rename_i hended
        exact emit s [.effect (.answered w (.error .shuttingDown))] (absurd hended)
      · exact post s _
  | stop w =>
      obtain ⟨-, rfl⟩ := Option.ite_some_none_eq_some.mp h
      unfold stop sentBy refusedBy
      split
      · exact emit s [.stopRefused w] fun _ => rfl
      · exact post s _
  | share =>
      obtain ⟨-, rfl⟩ := Option.ite_some_none_eq_some.mp h
      exact of_silent rfl (of_eq rfl rfl rfl (Nat.le_refl _) rfl rfl rfl)
  | unshare =>
      obtain ⟨-, rfl⟩ := Option.ite_some_none_eq_some.mp h
      exact of_silent rfl (unshare s)
  | setGate | releaseGate =>
      obtain ⟨-, rfl⟩ := Option.ite_some_none_eq_some.mp h
      exact of_silent rfl (setGate s _)
  | pass millis =>
      cases h
      exact of_silent rfl (of_eq rfl rfl rfl (Nat.le_add_right _ _) rfl rfl rfl)
  | rest =>
      cases h
      exact of_silent rfl (rest s)
  | postpone =>
      cases h
      exact of_silent rfl (emit s [.postponed] fun _ => rfl)
  | _ => cases hm

end Aside

/-! ## Workers -/

/-- A worker takes a message.  Apart from its own slot there is only the loop to be roused. -/
theorem work_of_take {k : Nat} (h : s.workerTakes k = some t) :
    ∃ pool slot w, s.core.pool = some pool ∧ pool.slots[k]? = some slot ∧
      slot.worker.take = some w ∧ (s.withPool (pool.setWorker k w)).Aside [] [] t := by
  obtain ⟨pool, slot, w, hpool, hslot, htake, rfl⟩ := exists_of_workerTakes h
  refine ⟨pool, slot, w, hpool, hslot, htake, ?_⟩
  -- The loop is told that there is room, and perhaps that everyone has gone.
  have hroused := Aside.rouse (s.withPool (pool.setWorker k w)) (.room k)
  split
  · exact hroused
  · exact hroused.quiet (.rouse _ .farewell)

/-- A worker's invocation ends.  Its report goes to the loop, unless that has ended. -/
theorem work_of_finish {k : Nat} {ending : Ending} (h : s.workerFinishes k ending = some t) :
    ∃ pool slot w c, s.core.pool = some pool ∧ pool.slots[k]? = some slot ∧
      slot.worker.finish k ending = some (w, c) ∧ (s.withPool (pool.setWorker k w)).Aside [] [] t := by
  obtain ⟨pool, slot, w, c, hpool, hslot, hfinish, rfl⟩ := exists_of_workerFinishes h
  refine ⟨pool, slot, w, c, hpool, hslot, hfinish, ?_⟩
  -- The loop has ended, or the report is put behind the others.
  split
  · exact .refl _
  · have hput : (s.withPool (pool.setWorker k w)).Aside [] []
        { s.withPool (pool.setWorker k w) with reports := s.reports ++ [c] } :=
      .of_eq rfl rfl rfl (Nat.le_refl _) rfl rfl rfl
    exact hput.quiet (.rouse _ .reports)

/-! ## All moves -/

/-- **What a move does**, and when it can be made.  The loop's moves are divided by what they find:
a gate that is lost is not looked at, and a stop may be asked for or come with the last handle being
dropped. -/
inductive Steps (s : Service ω) : Move ω → Service ω → Prop
  | aside {m : Move ω} {t : Service ω} (hm : m.isOutside)
      (ha : s.Aside (s.sentBy m) (s.refusedBy m) t) : s.Steps m t
  | take {k : Nat} {pool : Pool} {slot : Slot} {w : Worker} {t : Service ω}
      (hp : s.core.pool = some pool) (hslot : pool.slots[k]? = some slot)
      (hw : slot.worker.take = some w) (ha : (s.withPool (pool.setWorker k w)).Aside [] [] t) :
      s.Steps (.take k) t
  | finish {k : Nat} {task : Task} {ending : Ending} {pool : Pool} {slot : Slot} {w : Worker}
      {c : WorkReport} {t : Service ω} (hp : s.core.pool = some pool)
      (hslot : pool.slots[k]? = some slot) (hactivity : slot.worker.activity = .rendering task)
      (hw : slot.worker.finish k ending = some (w, c))
      (ha : (s.withPool (pool.setWorker k w)).Aside [] [] t) : s.Steps (.finish k task ending) t
  | begin (hphase : s.phase = .starting) : s.Steps .begin { s.takeGate with phase := .serving }
  | report {c : WorkReport} {rest : List WorkReport} (hl : s.isListening)
      (hr : s.reports = c :: rest) :
      s.Steps (.report c)
        (({ s with reports := rest }.withCore fun d => d.takeReport c).afterInput true)
  | look (hl : s.isListening) : s.Steps .watch (s.takeGate.afterInput false)
  | lose (hl : s.isListening) : s.Steps .watch ({ s with gateLive := false }.afterInput false)
  | intake {job : Job} {w : ω} {rest : List (Command ω)} (hphase : s.phase = .serving)
      (hc : s.commands = .request job w :: rest) :
      s.Steps .command
        (({ s with commands := rest }.withCore fun d => d.accept job w).afterInput false)
  | stop {w : ω} {rest : List (Command ω)} (hphase : s.phase = .serving)
      (hc : s.commands = .stop w :: rest) :
      s.Steps .command
        ({ s with commands := rest, stoppers := s.stoppers ++ [w] }.beginStop.afterInput false)
  | desert (hphase : s.phase = .serving) (hc : s.commands = []) (hh : s.handles = 0) :
      s.Steps .command (s.beginStop.afterInput false)
  | leave {deadline : Nat} (hphase : s.phase = .grace deadline) (hidle : s.core.running = 0) :
      s.Steps .leave s.leave
  | giveUp {deadline : Nat} (hphase : s.phase = .grace deadline) (hbusy : s.core.running ≠ 0)
      (hpast : deadline ≤ s.clock) : s.Steps .leave (s.leave.afterInput false)
  | alone {k : Nat} (hphase : s.phase = .dismissing k) (hp : s.core.pool = none) :
      s.Steps .dismiss s.finish
  | await {k : Nat} {pool : Pool} (hphase : s.phase = .dismissing k) (hp : s.core.pool = some pool)
      (hk : pool.worker? k = none) :
      s.Steps .dismiss { s with phase := .farewell (s.timeout.limitFrom? s.clock) }
  | skip {k : Nat} {pool : Pool} {w : Worker} (hphase : s.phase = .dismissing k)
      (hp : s.core.pool = some pool) (hk : pool.worker? k = some w) (hw : w.isOpen = false) :
      s.Steps .dismiss { s with phase := .dismissing (k + 1) }
  | tell {k : Nat} {pool : Pool} {w : Worker} {os : List (Output ω)}
      (hphase : s.phase = .dismissing k) (hp : s.core.pool = some pool)
      (hk : pool.worker? k = some w) (hw : w.inbox = none)
      (hos : os = [] ∨ os = [.dismissed k]) :
      s.Steps .dismiss
        ({ s.withPool (pool.setWorker k { w with inbox := some .stop }) with
          phase := .dismissing (k + 1) }.emit os)
  | part {deadline : Option Nat} (hphase : s.phase = .farewell deadline)
      (hdone : s.allGone || s.isPast deadline) : s.Steps .farewell s.finish

/-- In the phase of serving the loop takes the first command there is, and stops when there can be
none. -/
theorem steps_of_command (hphase : s.phase = .serving) (h : s.takeCommand = some u) :
    s.Steps .command (u.afterInput false) := by
  -- The command at the front, or the lack of handles, decides.
  unfold takeCommand at h
  split at h
  · cases h
    exact .intake hphase ‹_›
  · cases h
    exact .stop hphase ‹_›
  · split at h <;> cases h
    exact .desert hphase ‹_› ‹_›

/-- The next worker is told, or passed over, or there is none left. -/
theorem steps_of_dismiss {k : Nat} (hphase : s.phase = .dismissing k)
    (h : s.dismiss k = some t) : s.Steps .dismiss t := by
  -- The worker is not there, has left, or is told.
  unfold dismiss at h
  split at h
  · cases h
    exact .alone hphase ‹_›
  · rename_i pool hp
    split at h
    · cases h
      exact .await hphase hp ‹_›
    · rename_i w hk
      split at h
      · rename_i hw
        cases h
        exact .skip hphase hp hk (by simpa using hw)
      · split at h
        · cases h
        · rename_i hw
          cases h
          -- Whether the worker has to be woken makes no difference to what it is told.
          have htold := fun os hos => @Steps.tell _ s k _ _ os hphase hp hk hw hos
          split
          · exact htold [.dismissed k] (.inr rfl)
          · have hnil := htold [] (.inl rfl)
            rw [emit, List.append_nil] at hnil
            exact hnil

/-- **Every move is one of these steps.** By the moves; the loop is looked at in the phase in which
it can make the move. -/
theorem steps_of_move (h : s.move m = some t) : s.Steps m t := by
  -- The moves of the workers.
  cases m with
  | take k =>
      obtain ⟨pool, slot, w, hp, hslot, hw, ha⟩ := work_of_take h
      exact .take hp hslot hw ha
  | finish k task ending =>
      obtain ⟨hrenders, hfinish⟩ := Option.ite_none_right_eq_some.mp h
      obtain ⟨pool, slot, w, c, hp, hslot, hw, ha⟩ := work_of_finish hfinish
      exact .finish hp hslot (activity_of_renders hrenders hp hslot) hw ha
  -- The moves of the loop.
  | begin =>
      obtain ⟨hphase, rfl⟩ := Option.ite_some_none_eq_some.mp h
      exact .begin hphase
  | report c =>
      obtain ⟨⟨hl, hc⟩, hmap⟩ := Option.ite_none_right_eq_some.mp h
      obtain ⟨u, hu, rfl⟩ := Option.map_eq_some_iff.mp hmap
      unfold nextReport at hu
      split at hu
      · cases hu
      · rename_i c' rest hr
        cases hu
        obtain rfl : c' = c := by simpa [hr] using hc
        exact .report hl hr
  | watch =>
      obtain ⟨hl, hmap⟩ := Option.ite_none_right_eq_some.mp h
      obtain ⟨u, hu, rfl⟩ := Option.map_eq_some_iff.mp hmap
      unfold watchGate at hu
      split at hu
      · cases hu
      · split at hu
        · cases hu
          exact .look hl
        · split at hu <;> cases hu
          exact .lose hl
  | command =>
      obtain ⟨hphase, hmap⟩ := Option.ite_none_right_eq_some.mp h
      obtain ⟨u, hu, rfl⟩ := Option.map_eq_some_iff.mp hmap
      exact steps_of_command hphase hu
  | leave =>
      simp only [move] at h
      split at h
      -- Nobody is at work, or the time is up.
      · rename_i deadline hphase
        split at h
        · rename_i hidle
          cases h
          exact .leave hphase hidle
        · rename_i hbusy
          obtain ⟨hpast, rfl⟩ := Option.ite_some_none_eq_some.mp h
          exact .giveUp hphase hbusy (by simpa [isPast] using hpast)
      · cases h
  | dismiss =>
      simp only [move] at h
      split at h
      · exact steps_of_dismiss ‹_› h
      · cases h
  | farewell =>
      simp only [move] at h
      split at h
      · rename_i hphase
        obtain ⟨hdone, rfl⟩ := Option.ite_some_none_eq_some.mp h
        exact .part hphase hdone
      · cases h
  -- All other moves come from outside.
  | _ => exact .aside rfl (.of_move rfl h)

end Service

end AvatarPool
