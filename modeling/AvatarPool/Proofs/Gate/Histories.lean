import AvatarPool.Proofs.Gate.Timeline
import Mathlib.Data.List.Perm.Basic

/-! # The histories of an engine's gate

A start that ends settles the gate; a bound that elapses before makes it fail first.  Which of them
comes first is decided by the clock, except where both come at one moment: then either history is
possible.  The watch goes through its stages along one of these histories, and what a gate shows at
any moment follows from its stage.

There are two ways of looking at a gate over time.  `History` says which sequences of changes are
possible for a bound and a start, and knows nothing of the watch.  `Stage` says how far the watch
has come, what it has shown and what it shows.  The lemmas of this module go from stage to stage,
with one case for each constructor; that a stage always lies on a history, and can be continued to
one, is `exists_rest`.

Moments are compared with `clock`, and the only freedom is at a moment at which something is due but
has not been done.  `Idle` excludes it: if nothing happens now, whatever is still to come is later.
-/

namespace AvatarPool

variable {limit : Option Span} {course : Option EngineStart}

/-- **The histories of a gate**: the changes of its state with their moments.  Only a bound that
elapses no later than the start ends makes it fail first, and only one that elapses no earlier lets
it settle at once. -/
inductive History (limit : Option Span) : Option EngineStart → List (Nat × Readiness) → Prop
  | silent (h : limit = none) : History limit none []
  | expired {W : Span} (h : limit = some W) :
    History limit none [(W.sleep, .failed (.readinessTimeout W))]
  | prompt {c : EngineStart} (h : ∀ W ∈ limit, c.delay ≤ W.sleep) :
    History limit (some c) [(c.delay, c.outcome)]
  | late {c : EngineStart} {W : Span} (h : limit = some W) (hle : W.sleep ≤ c.delay) :
    History limit (some c) [(W.sleep, .failed (.readinessTimeout W)), (c.delay, c.outcome)]

/-- What has become of a start that is watched: it has not ended too late, and if it has ended then
just now.  A start is watched as long as the watch has not seen its end; so it may have ended only
at this very moment, for time does not pass before the end has been seen. -/
def EngineStart.Watched (course : Option EngineStart) (clock : Nat) : Option Startup → Prop
  | none => ∀ c ∈ course, clock ≤ c.delay
  | some ended => ∃ c ∈ course, ended = c.ended ∧ clock = c.delay

open EngineStart (Watched)
open Timeline (changed)

/-- **The stages of a watch**: what it awaits, and what the gate has shown so far and shows now.
The gate is pending in the first three; in `expired` the bound has elapsed and the start is still
watched; in `settled` the start has ended, and the watch is over. -/
inductive Stage (limit : Option Span) (course : Option EngineStart) (start : Option Startup) :
    Watch → Nat → List (Nat × Readiness) → Readiness → Prop
  | fresh (hwatched : Watched course 0 start) :
    Stage limit course start (.fresh limit) 0 [] .pending
  | bounded {W : Span} {clock : Nat} (hlimit : limit = some W) (hclock : clock ≤ W.sleep)
      (hwatched : Watched course clock start) :
    Stage limit course start (.bounded W W.sleep) clock [] .pending
  | unbounded {clock : Nat} (hlimit : limit = none) (hwatched : Watched course clock start) :
    Stage limit course start .unbounded clock [] .pending
  | expired {W : Span} {clock : Nat} (hlimit : limit = some W) (hclock : W.sleep ≤ clock)
      (hwatched : Watched course clock start) :
    Stage limit course start .unbounded clock [(W.sleep, .failed (.readinessTimeout W))]
      (.failed (.readinessTimeout W))
  | settled {c : EngineStart} {clock : Nat} {changes : List (Nat × Readiness)}
      (hcourse : course = some c) (hstart : start = some c.ended) (hclock : c.delay ≤ clock)
      (history : History limit course changes) :
    Stage limit course start .closed clock changes c.outcome

/-! ## What the watch sees -/

namespace EngineStart

theorem outcome_ne_pending (c : EngineStart) : c.outcome ≠ .pending := by
  have h := c.settles
  intro heq
  cases hended : c.ended <;> rw [hended, heq] at h <;> cases h

/-- An end of the start is never the failure that the bound leaves, so that the two can be told
apart. -/
theorem outcome_ne_timeout (c : EngineStart) (W : Span) :
    c.outcome ≠ .failed (.readinessTimeout W) := by
  have h := c.settles
  intro heq
  cases hended : c.ended <;> rw [hended, heq] at h <;> cases h

end EngineStart

namespace Timeline

theorem changed_same (changes : List (Nat × Readiness)) (clock : Nat) (state : Readiness) :
    changed changes clock state state = changes := if_pos rfl

theorem changed_of_ne {before after : Readiness} (h : after ≠ before)
    (changes : List (Nat × Readiness)) (clock : Nat) :
    changed changes clock before after = changes ++ [(clock, after)] := if_neg h

end Timeline

open Timeline (changed_same changed_of_ne)

/-- A start that has ended settles the gate.  This is so in every stage but the last, whether the
gate has failed by the bound or not. -/
theorem Watch.look_ended {w : Watch} (h : w ≠ .closed) (now : Nat) (c : EngineStart) (g : Gate) :
    w.look now (some c.ended) g = (.closed, (g.set c.outcome).release) := by
  cases w with
  | closed => exact absurd rfl h
  | fresh | bounded | unbounded => simp only [look, c.settles]

/-- A watch that would see nothing new is not about to see the end of a start.  Otherwise that look
would close it. -/
theorem EngineStart.Watched.eq_none {w : Watch} {start : Option Startup} {clock : Nat} {g : Gate}
    (h : Watched course clock start) (hopen : w ≠ .closed)
    (hrest : w.look clock start g = (w, g)) : start = none := by
  cases start with
  | none => rfl
  | some ended =>
      obtain ⟨c, -, rfl, -⟩ := h
      rw [Watch.look_ended hopen] at hrest
      exact absurd (congrArg Prod.fst hrest).symm hopen

/-- A span sleeps for no tick exactly if it is empty.  So a watch with an empty bound expires at its
first look, and any other not before time has passed. -/
theorem Span.sleep_eq_zero_iff {s : Span} : s.sleep = 0 ↔ s.nanos = 0 := by
  have hfar : 0 < farFuture.ticks := by decide
  have hticks : s.ticks = 0 ↔ s.nanos = 0 := by
    unfold ticks nanosPerMilli
    omega
  rw [← hticks, sleep]
  omega

namespace Stage

variable {w : Watch} {start : Option Startup} {clock : Nat} {changes : List (Nat × Readiness)}
  {state : Readiness} {g : Gate}

/-- The watch looks at the clock alone.  It goes from its first stage to the one that the bound
calls for, and from a bound that is due to a gate that has failed by it; in all other stages nothing
changes. -/
theorem glance (h : Stage limit course start w clock changes state) (hg : g.state = state) :
    Stage limit course start (w.look clock none g).1 clock
      (changed changes clock state (w.look clock none g).2.state)
      (w.look clock none g).2.state := by
  cases h with
  | fresh hwatched =>
      cases limit with
      | none =>
          simp only [Watch.look, hg, changed_same]
          exact .unbounded rfl hwatched
      | some W =>
          -- An empty bound is due at once, without a stage of its own.
          by_cases hzero : W.nanos = 0
          · have hsleep := Span.sleep_eq_zero_iff.mpr hzero
            have hexpired : Stage (some W) course start .unbounded 0
                [(W.sleep, .failed (.readinessTimeout W))] (.failed (.readinessTimeout W)) :=
              .expired rfl (Nat.le_of_eq hsleep) hwatched
            rw [hsleep] at hexpired
            simp only [Watch.look, if_pos hzero]
            exact hexpired
          · have hsleep : Span.sleepFrom 0 W = W.sleep := Nat.zero_add _
            simp only [Watch.look, if_neg hzero, hg, changed_same, hsleep]
            exact .bounded rfl (Nat.zero_le _) hwatched
  | @bounded W _ hlimit hclock hwatched =>
      -- The bound is due, and time has not gone beyond it.
      by_cases hdue : W.sleep ≤ clock
      · obtain rfl : clock = W.sleep := Nat.le_antisymm hclock hdue
        simp only [Watch.look, if_pos hdue]
        exact .expired hlimit hdue hwatched
      · simp only [Watch.look, if_neg hdue, hg, changed_same]
        exact .bounded hlimit hclock hwatched
  | unbounded hlimit hwatched =>
      simp only [Watch.look, hg, changed_same]
      exact .unbounded hlimit hwatched
  | expired hlimit hclock hwatched =>
      simp only [Watch.look, hg, changed_same]
      exact .expired hlimit hclock hwatched
  | settled hcourse hstart hclock history =>
      simp only [Watch.look, hg, changed_same]
      exact .settled hcourse hstart hclock history

/-- The watch, awaiting a start, sees that it has ended.  The history must end with this change,
which each stage has to see to. -/
theorem of_ended {c : EngineStart} (hopen : w ≠ .closed) (hne : c.outcome ≠ state)
    (history : History limit (some c) (changes ++ [(c.delay, c.outcome)])) (g : Gate) :
    Stage limit (some c) (some c.ended) (w.look c.delay (some c.ended) g).1 c.delay
      (changed changes c.delay state (w.look c.delay (some c.ended) g).2.state)
      (w.look c.delay (some c.ended) g).2.state := by
  rw [Watch.look_ended hopen]
  show Stage limit (some c) _ .closed c.delay (changed changes c.delay state c.outcome) c.outcome
  rw [changed_of_ne hne]
  exact .settled rfl rfl (Nat.le_refl _) history

/-- The watch looks at a start that has ended.  In each stage the end makes one change more, and the
history is the one that fits what the gate has shown before. -/
theorem look_ended {ended : Startup} (h : Stage limit course (some ended) w clock changes state)
    (hg : g.state = state) :
    Stage limit course (some ended) (w.look clock (some ended) g).1 clock
      (changed changes clock state (w.look clock (some ended) g).2.state)
      (w.look clock (some ended) g).2.state := by
  cases h with
  | fresh hwatched =>
      obtain ⟨c, rfl, rfl, hnow⟩ := hwatched
      rw [hnow]
      exact of_ended Watch.noConfusion c.outcome_ne_pending
        (.prompt fun W _ => hnow ▸ Nat.zero_le _) g
  | bounded hlimit hclock hwatched =>
      obtain ⟨c, rfl, rfl, rfl⟩ := hwatched
      refine of_ended Watch.noConfusion c.outcome_ne_pending (.prompt fun W hW => ?_) g
      obtain rfl := Option.some.inj (hlimit.symm.trans hW)
      exact hclock
  | unbounded hlimit hwatched =>
      obtain ⟨c, rfl, rfl, rfl⟩ := hwatched
      refine of_ended Watch.noConfusion c.outcome_ne_pending (.prompt fun W hW => ?_) g
      cases hlimit.symm.trans hW
  | expired hlimit hclock hwatched =>
      obtain ⟨c, rfl, rfl, rfl⟩ := hwatched
      exact of_ended Watch.noConfusion (c.outcome_ne_timeout _) (.late hlimit hclock) g
  | settled hcourse hstart hclock history =>
      simp only [Watch.look, hg, changed_same]
      exact .settled hcourse hstart hclock history

/-- The watch looks, whether it notices that the start has ended or not.  Where both are due the
watch may see only the clock, and so either history may come about. -/
theorem look {seen : Option Startup} (h : Stage limit course start w clock changes state)
    (hg : g.state = state) (hseen : seen = start ∨ seen = none) :
    Stage limit course start (w.look clock seen g).1 clock
      (changed changes clock state (w.look clock seen g).2.state)
      (w.look clock seen g).2.state := by
  cases seen with
  | none => exact h.glance hg
  | some ended =>
      obtain rfl : start = some ended := (hseen.resolve_right (Option.some_ne_none _)).symm
      exact h.look_ended hg

/-- The start ends.  It ends at the moment at which it is expected, for the watch as well as for the
clock. -/
theorem finish {c : EngineStart} (h : Stage limit (some c) none w c.delay changes state) :
    Stage limit (some c) (some c.ended) w c.delay changes state := by
  have hwatched : Watched (some c) c.delay (some c.ended) := ⟨c, rfl, rfl, rfl⟩
  generalize hnow : c.delay = clock at h hwatched ⊢
  cases h with
  | fresh _ => exact .fresh hwatched
  | bounded hlimit hclock _ => exact .bounded hlimit hclock hwatched
  | unbounded hlimit _ => exact .unbounded hlimit hwatched
  | expired hlimit hclock _ => exact .expired hlimit hclock hwatched
  | settled _ hstart _ _ => cases hstart

/-! ## Time passes -/

/-- The first look of a watch is never without effect.  Without a bound, or with one that is not
empty, it moves on to the stage that awaits it; with an empty one it makes the gate fail. -/
theorem look_fresh_ne (hwatched : Watched course clock start) :
    (Watch.fresh limit).look clock start g ≠ (.fresh limit, g) := by
  intro hrest
  obtain rfl := hwatched.eq_none Watch.noConfusion hrest
  have hwatch := congrArg Prod.fst hrest
  cases limit with
  | none => cases hwatch
  | some W =>
      by_cases hzero : W.nanos = 0
      · simp only [Watch.look, if_pos hzero] at hwatch
        cases hwatch
      · simp only [Watch.look, if_neg hzero] at hwatch
        cases hwatch

/-- Time passes while nothing is to be seen, up to the bound and up to the end of the start.
Neither the bound nor the end of the start is passed by, so the stage is still the right one. -/
theorem pass {n : Nat} (h : Stage limit course start w clock changes state)
    (hrest : w.look clock start g = (w, g)) (hdeadline : ∀ d ∈ w.deadline?, clock + n ≤ d)
    (hend : start = none → ∀ c ∈ course, clock + n ≤ c.delay) :
    Stage limit course start w (clock + n) changes state := by
  cases h with
  | fresh hwatched => exact absurd hrest (look_fresh_ne hwatched)
  | bounded hlimit hclock hwatched =>
      obtain rfl := hwatched.eq_none Watch.noConfusion hrest
      exact .bounded hlimit (hdeadline _ rfl) (hend rfl)
  | unbounded hlimit hwatched =>
      obtain rfl := hwatched.eq_none Watch.noConfusion hrest
      exact .unbounded hlimit (hend rfl)
  | expired hlimit hclock hwatched =>
      obtain rfl := hwatched.eq_none Watch.noConfusion hrest
      exact .expired hlimit (Nat.le_add_right_of_le hclock) (hend rfl)
  | settled hcourse hstart hclock history =>
      exact .settled hcourse hstart (Nat.le_add_right_of_le hclock) history

/-! ## What is still to come -/

/-- There is a history, of moments at which the bound elapses or the start ends.  It is the history
of a gate that has shown nothing yet. -/
theorem exists_history (limit : Option Span) (course : Option EngineStart) :
    ∃ history, History limit course history ∧ ∀ e ∈ history,
      (∃ W ∈ limit, e.1 = W.sleep) ∨ ∃ c ∈ course, e.1 = c.delay := by
  cases limit with
  | none =>
      cases course with
      | none => exact ⟨[], .silent rfl, fun e he => nomatch he⟩
      | some c =>
          refine ⟨_, .prompt (fun W hW => nomatch hW), fun e he => .inr ⟨c, rfl, ?_⟩⟩
          rw [List.mem_singleton.mp he]
  | some W =>
      cases course with
      | none =>
          refine ⟨_, .expired rfl, fun e he => .inl ⟨W, rfl, ?_⟩⟩
          rw [List.mem_singleton.mp he]
      | some c =>
          -- Where both come at one moment either history will do.
          rcases Nat.le_total c.delay W.sleep with hle | hle
          · have hprompt : ∀ W' ∈ some W, c.delay ≤ W'.sleep := fun _ hW =>
              Option.some.inj hW ▸ hle
            refine ⟨_, .prompt hprompt, fun e he => .inr ⟨c, rfl, ?_⟩⟩
            rw [List.mem_singleton.mp he]
          · refine ⟨_, .late rfl hle, fun e he => ?_⟩
            rcases List.mem_pair.mp he with rfl | rfl
            · exact .inl ⟨W, rfl, rfl⟩
            · exact .inr ⟨c, rfl, rfl⟩

/-- The end of a start that is watched is still to come, or has come just now.  This follows from
how a start is watched, in every stage but the last. -/
theorem le_delay {c : EngineStart} (hwatched : Watched course clock start) (hc : c ∈ course) :
    clock ≤ c.delay := by
  cases start with
  | none => exact hwatched c hc
  | some ended =>
      obtain ⟨c', hc', -, hnow⟩ := hwatched
      rw [Option.mem_unique hc hc']
      exact Nat.le_of_eq hnow

/-- Nothing happens now: the watch would see nothing new, and the start does not end. -/
def Idle (course : Option EngineStart) (start : Option Startup) (w : Watch) (clock : Nat)
    (g : Gate) : Prop :=
  w.look clock start g = (w, g) ∧ (start = none → ∀ c ∈ course, clock ≠ c.delay)

/-- The end of a start that is watched comes later if nothing happens now.  If it came now, either
it would be seen or it would have to be noticed first. -/
theorem lt_delay {c : EngineStart} (hwatched : Watched course clock start) (hc : c ∈ course)
    (hopen : w ≠ .closed) (hidle : Idle course start w clock g) : clock < c.delay :=
  Nat.lt_of_le_of_ne (le_delay hwatched hc) (hidle.2 (hwatched.eq_none hopen hidle.1) c hc)

/-- The bound of a watch elapses later if nobody has anything to do.  A bound that is due would be
seen to. -/
theorem lt_sleep {W : Span} (hwatched : Watched course clock start)
    (hrest : (Watch.bounded W W.sleep).look clock start g = (.bounded W W.sleep, g)) :
    clock < W.sleep := by
  obtain rfl := hwatched.eq_none Watch.noConfusion hrest
  refine Nat.lt_of_not_le fun hdue => ?_
  simp only [Watch.look, if_pos hdue] at hrest
  cases congrArg Prod.fst hrest

/-- A start that has not ended is watched.  Its watch is not over, and its end is not overdue. -/
theorem watched_of_none (h : Stage limit course none w clock changes state) :
    w.isWaiting = true ∧ ∀ c ∈ course, clock ≤ c.delay := by
  cases h with
  | fresh hwatched | bounded _ _ hwatched | unbounded _ hwatched | expired _ _ hwatched =>
      exact ⟨rfl, hwatched⟩
  | settled _ hstart => cases hstart

/-- The bound of a watch that would see nothing new elapses later.  In the other stages no bound is
awaited. -/
theorem lt_deadline (h : Stage limit course start w clock changes state)
    (hrest : w.look clock start g = (w, g)) : ∀ d ∈ w.deadline?, clock < d := by
  cases h with
  | bounded _ _ hwatched =>
      rintro d ⟨⟩
      exact lt_sleep hwatched hrest
  | _ => exact fun d hd => nomatch hd

/-- **A gate has shown what its history holds up to now**: what is still to come will come later, or
may come now as long as something happens.  With what it has shown it makes up one history, also
where the history is not decided yet. -/
theorem exists_rest (h : Stage limit course start w clock changes state) (g : Gate) :
    ∃ rest, History limit course (changes ++ rest) ∧ ∀ e ∈ rest, clock ≤ e.1 ∧
      (Idle course start w clock g → clock < e.1) := by
  cases h with
  | fresh hwatched =>
      -- Nothing has been shown, so any history will do, and a first look is always due.
      obtain ⟨history, hhistory, -⟩ := exists_history limit course
      exact ⟨history, hhistory, fun e _ =>
        ⟨Nat.zero_le _, fun hidle => absurd hidle.1 (look_fresh_ne hwatched)⟩⟩
  | bounded hlimit hclock hwatched =>
      obtain ⟨history, hhistory, hmem⟩ := exists_history limit course
      -- Whatever is still to come is due to the bound or to the start.
      refine ⟨history, hhistory, fun e he => ?_⟩
      rcases hmem e he with ⟨W, hW, heq⟩ | ⟨c, hc, heq⟩
      · obtain rfl := Option.some.inj (hlimit.symm.trans hW)
        rw [heq]
        exact ⟨hclock, fun hidle => lt_sleep hwatched hidle.1⟩
      · rw [heq]
        exact ⟨le_delay hwatched hc, lt_delay hwatched hc Watch.noConfusion⟩
  | unbounded hlimit hwatched =>
      obtain ⟨history, hhistory, hmem⟩ := exists_history limit course
      refine ⟨history, hhistory, fun e he => ?_⟩
      rcases hmem e he with ⟨W, hW, -⟩ | ⟨c, hc, heq⟩
      · cases hlimit.symm.trans hW
      · rw [heq]
        exact ⟨le_delay hwatched hc, lt_delay hwatched hc Watch.noConfusion⟩
  -- The bound has elapsed, so only the end of the start is left.
  | expired hlimit hclock hwatched =>
      cases course with
      | none => exact ⟨[], .expired hlimit, fun e he => nomatch he⟩
      | some c =>
          have hdelay := le_delay hwatched rfl
          refine ⟨[(c.delay, c.outcome)], .late hlimit (Nat.le_trans hclock hdelay), fun e he => ?_⟩
          rw [List.mem_singleton.mp he]
          exact ⟨hdelay, lt_delay hwatched rfl Watch.noConfusion⟩
  -- The history is complete.
  | settled hcourse hstart hclock history =>
      refine ⟨[], ?_, fun e he => nomatch he⟩
      rw [List.append_nil]
      exact history

end Stage

/-! ## What has been shown -/

/-- The state after these changes.  A gate is pending before its first change. -/
def lastShown (changes : List (Nat × Readiness)) : Readiness :=
  (changes.getLast?.map Prod.snd).getD .pending

theorem lastShown_concat (changes : List (Nat × Readiness)) (clock : Nat) (state : Readiness) :
    lastShown (changes ++ [(clock, state)]) = state := by
  rw [lastShown, List.getLast?_concat]
  rfl

/-- The end of a start is the last change of every history.  There is at most one before it, by the
bound, and that not later. -/
theorem History.exists_before {c : EngineStart} {changes : List (Nat × Readiness)}
    (h : History limit (some c) changes) :
    ∃ before, changes = before ++ [(c.delay, c.outcome)] ∧ ∀ e ∈ before, e.1 ≤ c.delay := by
  cases h with
  | prompt => exact ⟨[], rfl, fun e he => nomatch he⟩
  | late _ hle =>
      refine ⟨[_], rfl, fun e he => ?_⟩
      rw [List.mem_singleton.mp he]
      exact hle

namespace Stage

variable {w : Watch} {start : Option Startup} {clock : Nat} {changes : List (Nat × Readiness)}
  {state : Readiness}

/-- Every change has come by now.  The moments of the changes are those of the bound and of the
start, which have been reached. -/
theorem le_clock (h : Stage limit course start w clock changes state) :
    ∀ e ∈ changes, e.1 ≤ clock := by
  cases h with
  | fresh | bounded | unbounded => exact fun e he => nomatch he
  | expired _ hclock _ =>
      intro e he
      rw [List.mem_singleton.mp he]
      exact hclock
  | settled hcourse _ hclock history =>
      subst hcourse
      obtain ⟨before, rfl, hbefore⟩ := history.exists_before
      intro e he
      rcases List.mem_append.mp he with he | he
      · exact Nat.le_trans (hbefore e he) hclock
      · rw [List.mem_singleton.mp he]
        exact hclock

/-- The gate shows the state of the last change.  So the state can be read off the changes. -/
theorem state_eq (h : Stage limit course start w clock changes state) :
    state = lastShown changes := by
  cases h with
  | fresh | bounded | unbounded | expired => rfl
  | settled hcourse _ _ history =>
      subst hcourse
      obtain ⟨before, rfl, -⟩ := history.exists_before
      exact (lastShown_concat before _ _).symm

/-- As long as nothing has changed the gate is pending, and only so long.  No change leads to a
pending gate. -/
theorem eq_pending_iff (h : Stage limit course start w clock changes state) :
    state = .pending ↔ changes = [] := by
  cases h with
  | fresh | bounded | unbounded => exact ⟨fun _ => rfl, fun _ => rfl⟩
  | expired => exact ⟨fun h => (nomatch h), fun h => (nomatch h)⟩
  | @settled c _ _ hcourse _ _ history =>
      subst hcourse
      obtain ⟨before, rfl, -⟩ := history.exists_before
      exact ⟨fun h => absurd h c.outcome_ne_pending,
        fun h => absurd h (List.append_ne_nil_of_right_ne_nil _ (List.cons_ne_nil _ _))⟩

/-- As long as the gate is pending the start is watched.  A gate whose watch is over has been
settled by the start. -/
theorem isWaiting (h : Stage limit course start w clock changes state) (hstate : state = .pending) :
    w.isWaiting = true := by
  cases h with
  | fresh | bounded | unbounded => rfl
  | expired => cases hstate
  | settled => exact absurd hstate (EngineStart.outcome_ne_pending _)

/-- Only a watch that is over has settled the gate.  By this the outcome of a start is known to be
final, as a closed watch does nothing more. -/
theorem eq_closed {c : EngineStart} (h : Stage limit course start w clock changes state)
    (hstate : state = c.outcome) : w = .closed := by
  cases h with
  | fresh | bounded | unbounded => exact absurd hstate.symm c.outcome_ne_pending
  | expired => exact absurd hstate.symm (c.outcome_ne_timeout _)
  | settled => rfl

/-- What a watch that is over has settled the gate to.  There is only one start, so it is that one's
outcome. -/
theorem eq_outcome {c : EngineStart} (h : Stage limit course start .closed clock changes state)
    (hc : c ∈ course) : state = c.outcome := by
  cases h with
  | settled hcourse =>
      obtain rfl := Option.some.inj (hcourse.symm.trans hc)
      rfl

/-! ## Moment by moment

What the gate shows at a given moment, by which of the two moments have been reached.  At the
moments themselves this is so as soon as nothing is left to be done. -/

/-- Before the bound elapses and before the start ends the gate is pending.  Both ways of settling
it take a moment that has been reached. -/
theorem before (h : Stage limit course start w clock changes state)
    (hlimit : ∀ W ∈ limit, clock < W.sleep) (hcourse : ∀ c ∈ course, clock < c.delay) :
    state = .pending := by
  cases h with
  | fresh | bounded | unbounded => rfl
  | expired hW hclock => exact absurd (hlimit _ hW) (Nat.not_lt.mpr hclock)
  | settled hc _ hclock => exact absurd (hcourse _ hc) (Nat.not_lt.mpr hclock)

/-- From the moment at which the bound elapses until the start ends the gate has failed by it.  In
the first stages the bound is still to be seen to, which cannot be: either it has elapsed already,
or nothing is left to be done. -/
theorem between {W : Span} (h : Stage limit course start w clock changes state) {g : Gate}
    (hlimit : W ∈ limit) (hclock : W.sleep < clock ∨ W.sleep = clock ∧ Idle course start w clock g)
    (hcourse : ∀ c ∈ course, clock < c.delay) : state = .failed (.readinessTimeout W) := by
  cases h with
  | fresh hwatched =>
      obtain ⟨-, hidle⟩ := hclock.resolve_left (Nat.not_lt_zero _)
      exact absurd hidle.1 (look_fresh_ne hwatched)
  | bounded hW hle hwatched =>
      obtain rfl := Option.some.inj (hW.symm.trans hlimit)
      obtain ⟨hnow, hidle⟩ := hclock.resolve_left (Nat.not_lt.mpr hle)
      exact absurd (lt_sleep hwatched hidle.1) (Nat.not_lt.mpr (Nat.le_of_eq hnow))
  | unbounded hnone => cases hnone.symm.trans hlimit
  | expired hW =>
      obtain rfl := Option.some.inj (hW.symm.trans hlimit)
      rfl
  | settled hc _ hle => exact absurd (hcourse _ hc) (Nat.not_lt.mpr hle)

/-- From the moment at which the start ends the gate is settled by it.  In all stages but the last
the end of the start has not been seen, which cannot be by now. -/
theorem after {c : EngineStart} (h : Stage limit course start w clock changes state) {g : Gate}
    (hcourse : c ∈ course)
    (hclock : c.delay < clock ∨ c.delay = clock ∧ Idle course start w clock g) :
    state = c.outcome := by
  have houtcome (hopen : w ≠ .closed) (hwatched : Watched course clock start) :
      state = c.outcome := by
    obtain ⟨hnow, hidle⟩ := hclock.resolve_left (Nat.not_lt.mpr (le_delay hwatched hcourse))
    exact absurd (lt_delay hwatched hcourse hopen hidle) (Nat.not_lt.mpr (Nat.le_of_eq hnow))
  cases h with
  | fresh hwatched | bounded _ _ hwatched | unbounded _ hwatched | expired _ _ hwatched =>
      exact houtcome Watch.noConfusion hwatched
  | settled hc =>
      obtain rfl := Option.some.inj (hc.symm.trans hcourse)
      rfl

/-- A start that ends before the bound elapses makes the only change.  The bound elapses only later,
and is not awaited any more then. -/
theorem prompt {c : EngineStart} (h : Stage limit course start w clock changes state)
    (hcourse : c ∈ course) (hlimit : ∀ W ∈ limit, c.delay < W.sleep) :
    ∀ e ∈ changes, e = (c.delay, c.outcome) := by
  cases h with
  | fresh | bounded | unbounded => exact fun e he => nomatch he
  | expired hW hle hwatched =>
      have hdelay := le_delay hwatched hcourse
      exact absurd (hlimit _ hW) (Nat.not_lt.mpr (Nat.le_trans hle hdelay))
  | settled hc _ _ history =>
      subst hcourse
      cases history with
      | prompt => exact fun e he => List.mem_singleton.mp he
      | late hW hle => exact absurd (hlimit _ hW) (Nat.not_lt.mpr hle)

end Stage

end AvatarPool
