import AvatarPool.Service
import Mathlib.Data.List.Induction

/-! # Runs of the service

Callers, workers, the gate and the control loop take turns in any order.  A move is what one of them
does in one go: between two moves of the loop anything else can happen, and where the loop could take
one of several inputs, any of them may come first.  So whatever holds after every run holds however
the parties are scheduled; the loop's own steps and turns, which take reports before anything else,
are among the moves.

`play_induction` goes by the last move of a run, because what is to be shown of a state is shown
from the state before it.  `turn_induction` is the same for the loop by itself, and is used where
the loop runs on its own until it rests. -/

namespace AvatarPool

/-- What one of the parties does in one go. -/
inductive Move (ω : Type) where
  /-- A caller sends a request. -/
  | request (job : Job) (caller : ω)
  /-- A caller asks the service to stop. -/
  | stop (caller : ω)
  | share
  | unshare
  | setGate (state : Readiness)
  | releaseGate
  /-- A worker takes its next message. -/
  | take (worker : Nat)
  /-- A worker's invocation for a task ends. -/
  | finish (worker : Nat) (task : Task) (ending : Ending)
  /-- Time passes. -/
  | pass (millis : Nat)
  /-- The loop looks at the gate for the first time. -/
  | begin
  /-- The loop takes the next report. -/
  | report (report : WorkReport)
  /-- The loop looks at the gate again. -/
  | watch
  /-- The loop takes the next command, or notices that there will be none. -/
  | command
  /-- The loop gives up the callers who still wait. -/
  | leave
  /-- The loop tells the next worker to stop. -/
  | dismiss
  /-- The loop waits for the workers no longer. -/
  | farewell
  | rest
  | postpone
  deriving DecidableEq, Repr

/-- Whether the move is one of the control loop. -/
def Move.isLoop {ω : Type} : Move ω → Bool
  | .begin | .report _ | .watch | .command | .leave | .dismiss | .farewell | .rest | .postpone => true
  | _ => false

/-- Whether the move is a step of the control loop: a loop that rests or puts off its work takes
none. -/
def Move.isStep {ω : Type} : Move ω → Bool
  | .begin | .report _ | .watch | .command | .leave | .dismiss | .farewell => true
  | _ => false

theorem Move.isLoop_of_isStep {ω : Type} {m : Move ω} (h : m.isStep) : m.isLoop := by
  cases m with
  | begin | report | watch | command | leave | dismiss | farewell => rfl
  | _ => cases h

namespace Service

variable {ω : Type} {s t : Service ω}

/-- Whether the control loop still takes inputs. -/
def isRunning (s : Service ω) : Bool :=
  match s.phase with
  | .starting | .serving | .grace _ => true
  | _ => false

/-- Whether the control loop waits for reports and for the gate. -/
def isListening (s : Service ω) : Bool :=
  match s.phase with
  | .serving => true
  | .grace _ => s.core.running != 0
  | _ => false

/-- Whether a worker is at work on a task. -/
def renders (s : Service ω) (k : Nat) (task : Task) : Bool :=
  (s.core.pool.bind fun p => p.worker? k).any fun w => w.activity == .rendering task

/-- **One move**, or none where it cannot be made.  Only a handle sends commands, and only who holds
the gate sets it. -/
def move (s : Service ω) : Move ω → Option (Service ω)
  | .request job caller => if 0 < s.handles then some (s.request job caller) else none
  | .stop caller => if 0 < s.handles then some (s.stop caller) else none
  | .share => if 0 < s.handles then some s.share else none
  | .unshare => if 0 < s.handles then some s.unshare else none
  | .setGate state => if s.gate.isHeld then some (s.setGate (s.gate.set state)) else none
  | .releaseGate => if s.gate.isHeld then some (s.setGate s.gate.release) else none
  | .take k => s.workerTakes k
  | .finish k task ending => if s.renders k task then s.workerFinishes k ending else none
  | .pass millis => some { s with clock := s.clock + millis }
  | .begin => if s.phase = .starting then some { s.takeGate with phase := .serving } else none
  | .report c =>
    if s.isListening ∧ s.reports.head? = some c then s.nextReport.map (afterInput · true) else none
  | .watch => if s.isListening then s.watchGate.map (afterInput · false) else none
  | .command => if s.phase = .serving then s.takeCommand.map (afterInput · false) else none
  | .leave =>
    match s.phase with
    | .grace deadline =>
      if s.core.running = 0 then some s.leave
      else if s.isPast (some deadline) then some (s.leave.afterInput false) else none
    | _ => none
  | .dismiss =>
    match s.phase with
    | .dismissing k => s.dismiss k
    | _ => none
  | .farewell =>
    match s.phase with
    | .farewell deadline => if s.allGone || s.isPast deadline then some s.finish else none
    | _ => none
  | .rest => some s.rest
  | .postpone => some (s.emit [.postponed])

/-- **A run**: moves one after the other. -/
def play (s : Service ω) : List (Move ω) → Option (Service ω)
  | [] => some s
  | m :: τ => (s.move m).bind fun t => t.play τ

/-- A run that is cut in two is its two parts, one after the other. -/
theorem play_append (s : Service ω) (τ τ' : List (Move ω)) :
    s.play (τ ++ τ') = (s.play τ).bind fun t => t.play τ' := by
  induction τ generalizing s with
  | nil => rfl
  | cons m τ ih =>
      show (s.move m).bind (fun t => t.play (τ ++ τ')) = _
      rw [play, Option.bind_assoc]
      exact congrArg _ (funext fun t => ih t)

/-- If the first part is known, the second one begins where it has ended. -/
theorem play_append_of_play {τ : List (Move ω)} (h : s.play τ = some t) (τ' : List (Move ω)) :
    s.play (τ ++ τ') = t.play τ' := by
  rw [play_append, h]
  rfl

theorem play_singleton (s : Service ω) (m : Move ω) : s.play [m] = s.move m :=
  Option.bind_fun_some (s.move m)

/-- One more move is made. -/
theorem play_concat {τ : List (Move ω)} {m : Move ω} {u : Service ω} (h : s.play τ = some t)
    (hm : t.move m = some u) : s.play (τ ++ [m]) = some u :=
  (play_append_of_play h [m]).trans ((play_singleton t m).trans hm)

/-- **Induction on runs**: what holds at first and is kept by the last move holds after every
run. -/
theorem play_induction {P : List (Move ω) → Service ω → Prop} (first : P [] s)
    (last : ∀ τ m t u, s.play τ = some t → P τ t → t.move m = some u → P (τ ++ [m]) u)
    {τ : List (Move ω)} (h : s.play τ = some t) : P τ t := by
  induction τ using List.reverseRecOn generalizing t with
  | nil =>
      cases h
      exact first
  | append_singleton τ m ih =>
      rw [play_append] at h
      obtain ⟨u, hu, hm⟩ := Option.bind_eq_some_iff.mp h
      rw [play_singleton] at hm
      exact last τ m u t hu (ih hu) hm

/-- The run makes this move in that state.  It is used to speak of what happened somewhere in the
middle of a run. -/
def Makes (s : Service ω) (τ : List (Move ω)) (m : Move ω) (u : Service ω) : Prop :=
  ∃ τ₁ τ₂, τ = τ₁ ++ m :: τ₂ ∧ s.play τ₁ = some u

theorem not_makes_nil {m : Move ω} {u : Service ω} : ¬ s.Makes [] m u := by
  rintro ⟨τ₁, τ₂, heq, -⟩
  simp at heq

/-- A run of one move makes that one, where it begins. -/
theorem Makes.of_singleton {m m' : Move ω} {u : Service ω} (h : s.Makes [m] m' u) :
    m' = m ∧ u = s := by
  obtain ⟨τ₁, τ₂, heq, hu⟩ := h
  cases τ₁ with
  | nil =>
      cases hu
      exact ⟨(List.head_eq_of_cons_eq heq).symm, rfl⟩
  | cons => simp at heq

/-- A run that goes on makes the moves of both parts. -/
theorem makes_append {τ τ' : List (Move ω)} {m : Move ω} {u : Service ω} (h : s.play τ = some t) :
    s.Makes (τ ++ τ') m u ↔ s.Makes τ m u ∨ t.Makes τ' m u := by
  constructor
  · rintro ⟨τ₁, τ₂, heq, hu⟩
    rcases List.append_eq_append_iff.mp heq with ⟨σ, rfl, rfl⟩ | ⟨σ, rfl, hrest⟩
    · rw [play_append_of_play h] at hu
      exact .inr ⟨σ, τ₂, rfl, hu⟩
    · cases σ with
      | nil =>
          rw [List.append_nil, hu] at h
          cases h
          exact .inr ⟨[], τ₂, hrest.symm, rfl⟩
      | cons m' σ =>
          obtain ⟨rfl, -⟩ := List.cons.inj hrest
          exact .inl ⟨τ₁, σ, rfl, hu⟩
  · rintro (⟨τ₁, τ₂, rfl, hu⟩ | ⟨τ₁, τ₂, rfl, hu⟩)
    · exact ⟨τ₁, τ₂ ++ τ', by simp, hu⟩
    · exact ⟨τ ++ τ₁, τ₂, by simp, (play_append_of_play h τ₁).trans hu⟩

/-- What a run does before and after one of its moves. -/
theorem Makes.exists_play {τ : List (Move ω)} {m : Move ω} {u : Service ω} (h : s.Makes τ m u)
    (hplay : s.play τ = some t) :
    ∃ τ₁ τ₂ v, s.play τ₁ = some u ∧ u.move m = some v ∧ v.play τ₂ = some t := by
  obtain ⟨τ₁, τ₂, rfl, hu⟩ := h
  rw [play_append_of_play hu] at hplay
  obtain ⟨v, hv, ht⟩ := Option.bind_eq_some_iff.mp hplay
  exact ⟨τ₁, τ₂, v, hu, hv, ht⟩

/-! ## What a worker needs for its moves -/

/-- There is a worker with that number, which can take something, and perhaps somebody waits for the
room that this makes. -/
theorem exists_of_workerTakes {k : Nat} (h : s.workerTakes k = some t) :
    ∃ pool slot w, s.core.pool = some pool ∧ pool.slots[k]? = some slot ∧
      slot.worker.take = some w ∧
      t = if w.isOpen then (s.withPool (pool.setWorker k w)).rouse (.room k)
        else ((s.withPool (pool.setWorker k w)).rouse (.room k)).rouse .farewell := by
  obtain ⟨pool, hpool, h₁⟩ := Option.bind_eq_some_iff.mp h
  obtain ⟨w, hw, h₂⟩ := Option.bind_eq_some_iff.mp h₁
  obtain ⟨w', htake, h₃⟩ := Option.bind_eq_some_iff.mp h₂
  obtain ⟨slot, hslot, rfl⟩ := Option.map_eq_some_iff.mp hw
  exact ⟨pool, slot, w', hpool, hslot, htake, (Option.some.inj h₃).symm⟩

/-- A report is filed unless the service has ended. -/
theorem exists_of_workerFinishes {k : Nat} {ending : Ending}
    (h : s.workerFinishes k ending = some t) :
    ∃ pool slot w c, s.core.pool = some pool ∧ pool.slots[k]? = some slot ∧
      slot.worker.finish k ending = some (w, c) ∧
      t = if s.hasEnded then s.withPool (pool.setWorker k w)
        else { s.withPool (pool.setWorker k w) with reports := s.reports ++ [c] }.rouse .reports := by
  obtain ⟨pool, hpool, h₁⟩ := Option.bind_eq_some_iff.mp h
  obtain ⟨w, hw, h₂⟩ := Option.bind_eq_some_iff.mp h₁
  obtain ⟨⟨w', c⟩, hfinish, h₃⟩ := Option.bind_eq_some_iff.mp h₂
  obtain ⟨slot, hslot, rfl⟩ := Option.map_eq_some_iff.mp hw
  exact ⟨pool, slot, w', c, hpool, hslot, hfinish, (Option.some.inj h₃).symm⟩

/-- The two ways of looking at a worker agree. -/
theorem activity_of_renders {k : Nat} {task : Task} {pool : Pool} {slot : Slot}
    (h : s.renders k task) (hpool : s.core.pool = some pool) (hslot : pool.slots[k]? = some slot) :
    slot.worker.activity = .rendering task := by
  have hworker : pool.worker? k = some slot.worker := by rw [Pool.worker?, hslot]; rfl
  rw [renders, hpool, Option.bind_some, hworker] at h
  simpa using h

/-- A worker reports on the task it renders. -/
theorem report_of_finish {k : Nat} {task : Task} {ending : Ending} {w w' : Worker} {c : WorkReport}
    (hw : w.activity = .rendering task) (h : w.finish k ending = some (w', c)) :
    c = ⟨k, task.fingerprint, ending.outcome task.fingerprint⟩ := by
  rw [Worker.finish, hw] at h
  exact (Prod.mk.inj (Option.some.inj h)).2.symm

/-! ## The loop's own steps and turns -/

/-- Reading the next report is a move for that very report. -/
theorem move_report_of_nextReport (hl : s.isListening) (hn : s.nextReport = some t) :
    ∃ c, s.move (.report c) = some (t.afterInput true) := by
  cases hr : s.reports with
  | nil => simp [nextReport, hr] at hn
  | cons c rest =>
      refine ⟨c, ?_⟩
      have hguard : s.isListening ∧ s.reports.head? = some c := ⟨hl, by rw [hr]; rfl⟩
      rw [move, if_pos hguard, hn]
      rfl

theorem move_watch_of_watchGate (hl : s.isListening) (hw : s.watchGate = some t) :
    s.move .watch = some (t.afterInput false) := by
  rw [move, if_pos hl, hw]
  rfl

/-- **A step of the loop is a move.**  In each phase the loop tries its inputs in an order of its
own; whichever it takes, a move takes it too. -/
theorem exists_isStep_of_step (h : s.step = some t) :
    ∃ m : Move ω, m.isStep ∧ s.move m = some t := by
  unfold step at h
  simp only [Option.orElse_eq_orElse, Option.orElse_eq_or] at h
  split at h
  -- The loop begins.
  · rename_i hphase
    exact ⟨.begin, rfl, by rw [move, if_pos hphase, h]⟩
  -- It serves: reports come before news of the gate, and these before commands.
  · rename_i hphase
    have hl : s.isListening := by simp [isListening, hphase]
    rcases Option.or_eq_some_iff.mp h with hn | ⟨-, hn⟩
    · obtain ⟨u, hu, rfl⟩ := Option.map_eq_some_iff.mp hn
      obtain ⟨c, hc⟩ := move_report_of_nextReport hl hu
      exact ⟨.report c, rfl, hc⟩
    · obtain ⟨u, hu, rfl⟩ := Option.map_eq_some_iff.mp hn
      rcases Option.or_eq_some_iff.mp hu with hw | ⟨-, hc⟩
      · exact ⟨.watch, rfl, move_watch_of_watchGate hl hw⟩
      · exact ⟨.command, rfl, by rw [move, if_pos hphase, hc]; rfl⟩
  -- In the grace period it leaves if nothing is in flight or if time is up, and takes no commands.
  · rename_i deadline hphase
    split at h
    · rename_i hidle
      exact ⟨.leave, rfl, by rw [move, hphase]; simp only [if_pos hidle, h]⟩
    · rename_i hbusy
      have hl : s.isListening := by simpa [isListening, hphase] using hbusy
      rcases Option.or_eq_some_iff.mp h with hn | ⟨-, hn⟩
      · obtain ⟨u, hu, rfl⟩ := Option.map_eq_some_iff.mp hn
        obtain ⟨c, hc⟩ := move_report_of_nextReport hl hu
        exact ⟨.report c, rfl, hc⟩
      · obtain ⟨u, hu, rfl⟩ := Option.map_eq_some_iff.mp hn
        rcases Option.or_eq_some_iff.mp hu with hw | ⟨-, hd⟩
        · exact ⟨.watch, rfl, move_watch_of_watchGate hl hw⟩
        · split at hd
          · rename_i hpast
            cases hd
            exact ⟨.leave, rfl, by rw [move, hphase]; simp only [if_neg hbusy, if_pos hpast]⟩
          · cases hd
  · rename_i k hphase
    exact ⟨.dismiss, rfl, by rw [move, hphase]; exact h⟩
  · rename_i deadline hphase
    exact ⟨.farewell, rfl, by rw [move, hphase]; exact h⟩
  · cases h

theorem move_of_step (h : s.step = some t) : ∃ m : Move ω, m.isLoop ∧ s.move m = some t := by
  obtain ⟨m, hm, hmove⟩ := exists_isStep_of_step h
  exact ⟨m, Move.isLoop_of_isStep hm, hmove⟩

/-- **Induction on turns**: what holds between a state and the next step of the loop, and between a
state and the rest after it, holds between the two ends of a turn. -/
theorem turn_induction {R : Service ω → Service ω → Prop} (refl : ∀ s, R s s)
    (trans : ∀ {s t u}, R s t → R t u → R s u) (step : ∀ {s t}, s.step = some t → R s t)
    (rest : ∀ s, R s s.rest) (postpone : ∀ s, R s (s.emit [.postponed])) (inputs : Nat)
    (s : Service ω) : R s (s.turn inputs) := by
  -- What the loop does without an input is a step or nothing.
  have hmoveOn : ∀ s, R s (moveOn s) := by
    intro s
    unfold moveOn
    split
    · cases hs : s.step with
      | none => exact refl s
      | some t => exact step hs
    · exact refl s
  induction inputs generalizing s with
  | zero =>
      have hfree := trans (hmoveOn s) (hmoveOn s.moveOn)
      unfold turn
      dsimp only
      split
      · exact hfree
      · exact trans hfree (postpone _)
  | succ inputs ih =>
      have hfree := trans (hmoveOn s) (hmoveOn s.moveOn)
      unfold turn
      dsimp only
      split
      · exact trans hfree (rest _)
      · rename_i t hs
        exact trans (trans hfree (step hs)) (ih t)

/-- The loop alone gets from one state to another. -/
def Proceeds (s t : Service ω) : Prop :=
  ∃ τ : List (Move ω), (∀ m ∈ τ, m.isLoop) ∧ s.play τ = some t

namespace Proceeds

theorem refl (s : Service ω) : s.Proceeds s := ⟨[], by simp, rfl⟩

theorem of_move {m : Move ω} (hm : m.isLoop) (h : s.move m = some t) : s.Proceeds t :=
  ⟨[m], by simpa using hm, (play_singleton s m).trans h⟩

theorem trans {u : Service ω} (h : s.Proceeds t) (h' : t.Proceeds u) : s.Proceeds u := by
  obtain ⟨τ, hτ, ht⟩ := h
  obtain ⟨τ', hτ', hu⟩ := h'
  refine ⟨τ ++ τ', fun m hm => ?_, by rw [play_append_of_play ht, hu]⟩
  exact (List.mem_append.mp hm).elim (hτ m) (hτ' m)

theorem of_step (h : s.step = some t) : s.Proceeds t := by
  obtain ⟨m, hm, hmove⟩ := move_of_step h
  exact of_move hm hmove

/-- **A turn of the loop is a run of its moves.** -/
theorem turn (inputs : Nat) (s : Service ω) : s.Proceeds (s.turn inputs) :=
  turn_induction refl trans of_step (fun _ => of_move (m := .rest) rfl rfl)
    (fun _ => of_move (m := .postpone) rfl rfl) inputs s

end Proceeds

end Service

end AvatarPool
