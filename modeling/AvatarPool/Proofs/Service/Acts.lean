import AvatarPool.Proofs.Dispatch.Gating
import AvatarPool.Proofs.Service.Shifts
import AvatarPool.Proofs.Service.Stopping

/-! # What a move has the dispatcher do

The loop runs one handler of the dispatcher with each input it takes, and everyone else leaves the
dispatcher alone but for what its workers are at.  `Acts` sorts the moves by it.

Each case names the handler and the input it runs with, and the dispatcher that the handler leaves
is given before its effects are collected.  So a property of the dispatcher, once it is known for
each handler, is known for every move, and no property has to be looked for in the program of the
loop again. -/

namespace AvatarPool.Service

variable {ω : Type} {s t u : Service ω} {m : Move ω} {d : Dispatcher ω}

/-- Once the effects have been collected, nobody is noted as handed a task. -/
theorem handed_of_collected (hs : s.core.effects = []) : s.core.handedKeys = [] := by
  rw [Dispatcher.handedKeys, hs]
  rfl

theorem answered_of_collected (hs : s.core.effects = []) : s.core.answered = [] := by
  rw [Dispatcher.answered, hs]
  rfl

/-- The dispatcher has become `d`, and the effects have been collected.  The story of the service is
that of `d` with all earlier effects before its own. -/
structure Handled (s : Service ω) (d : Dispatcher ω) (t : Service ω) : Prop where
  core : t.core = { d with effects := [] }
  story : t.story = d.after (s.outputs.filterMap Output.effect?)

namespace Handled

/-- Running a handler is all that is needed, whatever else of the service has been changed before.
-/
theorem of_withCore {s' : Service ω} {f : Dispatcher ω → Dispatcher ω} (hcore : s'.core = s.core)
    (hout : s'.outputs = s.outputs) (hd : f s.core = d) : Handled s d (s'.withCore f) where
  core := by rw [← hd, ← hcore]; rfl
  story := by rw [story_withCore, hcore, hout, hd]

theorem quiet (h : Handled s d t) (hq : t.Quiet u) : Handled s d u where
  core := hq.core.trans h.core
  story := hq.story_eq.trans h.story

theorem afterInput (h : Handled s d t) (isReport : Bool) : Handled s d (t.afterInput isReport) :=
  h.quiet (.afterInput t isReport)

/-- A handler runs with an input. -/
theorem of_input {s' : Service ω} {f : Dispatcher ω → Dispatcher ω} {isReport : Bool}
    (hcore : s'.core = s.core) (hout : s'.outputs = s.outputs) (hd : f s.core = d) :
    Handled s d ((s'.withCore f).afterInput isReport) :=
  (of_withCore hcore hout hd).afterInput isReport

/-- What is told is added to what has been told. -/
theorem answers (h : Handled s d t) : t.answers = s.answers ++ d.answered := by
  rw [answers_eq, answers_eq, h.story]
  exact List.filterMap_append

theorem handedKeys (h : Handled s d t) : t.handedKeys = s.handedKeys ++ d.handedKeys := by
  rw [handedKeys_eq, handedKeys_eq, h.story]
  exact List.filterMap_append

/-- Where the tasks are is not an effect, so collecting effects leaves it. -/
theorem holdings (h : Handled s d t) : t.core.holdings = d.holdings := by
  rw [h.core]
  rfl

end Handled

/-- **What a move has the dispatcher do**: nothing, or its workers go on, or the loop runs one of
its handlers.  The workers going on is set apart from idleness: the pool is another one, but every
worker holds what it held. -/
inductive Acts (s : Service ω) (m : Move ω) (t : Service ω) : Prop
  | idle (hcore : t.core = s.core) (htells : s.OnlyTells t) (hstory : t.isRunning → t.story = s.story)
  | worked {pool pool' : Pool} (hp : s.core.pool = some pool)
      (hheld : pool'.slots.map Slot.held = pool.slots.map Slot.held)
      (hcore : t.core = { s.core with pool := some pool' })
      (hstory : t.story = { s.story with pool := some pool' })
  | admitted {job : Job} {w : ω} {rest : List (Command ω)} (hm : m = .command)
      (hrun : s.isRunning) (hc : s.commands = .request job w :: rest)
      (h : Handled s (s.core.accept job w) t)
  | reported {c : WorkReport} {rest : List WorkReport} (hm : m = .report c) (hrun : s.isRunning)
      (hr : s.reports = c :: rest) (h : Handled s (s.core.takeReport c) t)
  | saw {state : Readiness} (hm : s.seen m = [state]) (hrun : s.isRunning)
      (h : Handled s (s.core.observe state) t)
  | stopped (hm : m = .command) (hstop : t.isStopping) (hrun : s.isRunning)
      (h : Handled s (s.core.rejectQueue .shuttingDown) t)
  | left (hm : m = .leave) (hrun : ¬ t.isRunning)
      (h : Handled s (s.core.rejectPending .shuttingDown) t)

/-- A worker that goes on holds the task it held, since only its own part of the slot changes. -/
theorem acts_of_worker {pool : Pool} {k : Nat} {w : Worker} (hp : s.core.pool = some pool)
    (hcore : t.core = (s.withPool (pool.setWorker k w)).core)
    (hstory : t.story = (s.withPool (pool.setWorker k w)).story) : s.Acts m t :=
  .worked hp (map_held_setWorker pool k w) hcore hstory

theorem handled_takeGate (s : Service ω) : Handled s (s.core.observe s.gate.state) s.takeGate :=
  .of_withCore rfl rfl rfl

/-- A state of the gate that is seen goes to the dispatcher. -/
theorem handled_of_seen {state : Readiness} (hm : s.seen m = [state]) (h : s.move m = some t) :
    s.isRunning ∧ Handled s (s.core.observe state) t := by
  unfold seen at hm
  split at hm
  · cases hm
    obtain ⟨hphase, heq⟩ := Option.ite_none_right_eq_some.mp h
    cases heq
    have htook := handled_takeGate s
    exact ⟨by simp [isRunning, hphase], htook.core, htook.story⟩
  · split at hm
    · rename_i hnew
      cases hm
      obtain ⟨hl, hmap⟩ := Option.ite_none_right_eq_some.mp h
      -- There is news on a live gate, so looking at the gate takes it in.
      have htake : s.watchGate = some s.takeGate := by
        rw [watchGate, if_neg (by simp [hnew.1]), if_pos hnew.2]
      rw [htake] at hmap
      cases hmap
      exact ⟨isRunning_of_isListening hl, (handled_takeGate s).afterInput false⟩
    · cases hm
  · cases hm

/-- The first command in the channel goes to the dispatcher. -/
theorem handled_of_request {job : Job} {w : ω} {rest : List (Command ω)}
    (hc : s.commands = .request job w :: rest) (h : s.move .command = some t) :
    s.isRunning ∧ Handled s (s.core.accept job w) t := by
  -- Only a request is first in the channel.
  cases steps_of_move h with
  | aside hm => cases hm
  | intake hphase hfirst =>
      cases hc.symm.trans hfirst
      exact ⟨by simp [isRunning, hphase], .of_input rfl rfl rfl⟩
  | stop _ hfirst | desert _ hfirst => cases hc.symm.trans hfirst

/-- A report goes to the dispatcher. -/
theorem handled_of_report {c : WorkReport} (h : s.move (.report c) = some t) :
    s.isRunning ∧ (∃ rest, s.reports = c :: rest) ∧ Handled s (s.core.takeReport c) t := by
  cases steps_of_move h with
  | aside hm => cases hm
  | report hl hr => exact ⟨isRunning_of_isListening hl, ⟨_, hr⟩, .of_input rfl rfl rfl⟩

/-- Looking at the gate is idle exactly if it brings no news, for then the gate is found to be gone.
-/
theorem acts_of_watch (h : s.move .watch = some t) : s.Acts .watch t := by
  by_cases hnew : s.gateLive ∧ s.gate.isNew
  · have hseen : s.seen .watch = [s.gate.state] := if_pos hnew
    obtain ⟨hrun, hd⟩ := handled_of_seen hseen h
    exact .saw hseen hrun hd
  -- There is no news, so the watch was still live and ends here.
  · obtain ⟨-, hmap⟩ := Option.ite_none_right_eq_some.mp h
    obtain ⟨u, hu, rfl⟩ := Option.map_eq_some_iff.mp hmap
    unfold watchGate at hu
    split at hu
    · cases hu
    · rename_i hlive
      have hlive : s.gateLive = true := by simpa using hlive
      rw [if_neg fun hboth => hnew ⟨hlive, hboth⟩] at hu
      obtain ⟨-, heq⟩ := Option.ite_none_left_eq_some.mp hu
      cases heq
      have hquiet : s.Quiet ({ s with gateLive := false }.afterInput false) :=
        ⟨rfl, rfl, rfl, rfl, rfl⟩
      exact .idle hquiet.core hquiet.onlyTells fun _ => hquiet.story_eq

/-- **Every move is an act.** By the cases of a step, of which most leave the dispatcher alone. -/
theorem acts_of_move (h : s.move m = some t) : s.Acts m t := by
  have hsteps := steps_of_move h
  cases hsteps with
  | aside hm ha =>
      refine .idle ha.core (onlyTells_of_outside hm h) fun hrun => ha.story ?_
      rw [isRunning, ha.phase] at hrun
      exact not_hasEnded_of_isRunning hrun
  -- Workers touch the dispatcher by their slots alone, and wake the loop.
  | @take k =>
      obtain ⟨pool, slot, w, hp, -, -, rfl⟩ := exists_of_workerTakes h
      have hroused := Quiet.rouse (s.withPool (pool.setWorker k w)) (.room k)
      split
      · exact acts_of_worker hp hroused.core hroused.story_eq
      · have hboth := hroused.trans (.rouse _ .farewell)
        exact acts_of_worker hp hboth.core hboth.story_eq
  | @finish k =>
      obtain ⟨-, hfinish⟩ := Option.ite_none_right_eq_some.mp h
      obtain ⟨pool, slot, w, c, hp, -, -, rfl⟩ := exists_of_workerFinishes hfinish
      split
      · exact acts_of_worker hp rfl rfl
      · have hroused := Quiet.rouse { s.withPool (pool.setWorker k w) with
          reports := s.reports ++ [c] } .reports
        exact acts_of_worker hp hroused.core hroused.story_eq
  | begin =>
      obtain ⟨hrun, hd⟩ := handled_of_seen rfl h
      exact .saw rfl hrun hd
  | look | lose => exact acts_of_watch h
  | report _ hr =>
      obtain ⟨hrun, -, hd⟩ := handled_of_report h
      exact .reported rfl hrun hr hd
  | intake _ hc =>
      obtain ⟨hrun, hd⟩ := handled_of_request hc h
      exact .admitted rfl hrun hc hd
  | stop hphase | desert hphase =>
      exact .stopped rfl rfl (by simp [isRunning, hphase]) (.of_input rfl rfl rfl)
  | leave =>
      exact .left rfl Bool.false_ne_true (.of_withCore rfl rfl rfl)
  | giveUp =>
      exact .left rfl Bool.false_ne_true (.of_input rfl rfl rfl)
  | alone | part => exact .idle rfl (onlyTells_finish s) fun hrun => absurd hrun Bool.false_ne_true
  | await | skip => exact .idle rfl (onlyTells_of_story rfl) fun _ => rfl
  | @tell k pool w os _ hp hk _ hos =>
      obtain ⟨slot, -, rfl⟩ := Option.map_eq_some_iff.mp hk
      -- What the loop says when it tells a worker is nothing that a caller hears.
      have hemitted : os.filterMap Output.effect? = [] := by
        rcases hos with rfl | rfl <;> rfl
      have hemit := Quiet.emit { s.withPool (pool.setWorker k { slot.worker with inbox := some .stop })
        with phase := .dismissing (k + 1) } os hemitted
      exact .worked hp (map_held_setWorker pool k _) hemit.core hemit.story_eq

end AvatarPool.Service
