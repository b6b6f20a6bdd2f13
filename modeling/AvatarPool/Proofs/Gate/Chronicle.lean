import AvatarPool.Proofs.Gate.Histories

/-! # The chronicle of an engine's gate

Whatever the parties do and in whichever order, a gate follows a history, and every caller that
waits is told as soon as the gate shows anything.

A run is a sequence of moves on a `Timeline`.  The law that every move keeps has two parts: the
stage of the watch, from `Gate.Histories`, and the attendance of the callers, who have all been told
or wait.  From the law everything else is read off at one moment, with no further induction; this is
`Chronicle`.  Two things need a run of their own: that changes are never taken back, and that the
clock can always go on, for which the moves must be shown to be possible.

Time passes only when nobody has anything to do.  So a caller who still waits when time passes has
found the gate pending, and it is told at the very moment of the first change or, if it comes later,
at once. -/

namespace AvatarPool

/-- What a state tells the callers that wait, if it tells them anything.  This is the specification
of what a caller hears; the model's gate also asks whether anybody still holds it. -/
def Readiness.verdict? : Readiness → Option (Except Failure Unit)
  | pending => none
  | ready => some (.ok ())
  | failed why => some (.error why)

/-- A gate with these changes shows the state at some point of the moment.  Where two changes come
at one moment, a caller may have found the gate before, between or after them. -/
def ShownAt (changes : List (Nat × Readiness)) (clock : Nat) (state : Readiness) : Prop :=
  ∃ before after, changes = before ++ after ∧ (∀ e ∈ before, e.1 ≤ clock) ∧
    (∀ e ∈ after, clock ≤ e.1) ∧ lastShown before = state

/-- What a caller has been told is right: it was told as soon as it waited and the gate was no
longer pending, and what the state says that the gate showed then. -/
structure Told.Right (changes : List (Nat × Readiness)) (a : Told) : Prop where
  moment : ∃ e ∈ changes.head?, a.heard = max a.began e.1
  shown : ShownAt changes a.heard a.shown
  verdict : a.shown.verdict? = some a.verdict

/-- A right answer remains right when the gate changes later. -/
theorem Told.Right.changed {changes : List (Nat × Readiness)} {clock : Nat} {a : Told}
    (h : a.Right changes) (hheard : a.heard ≤ clock) (before after : Readiness) :
    a.Right (Timeline.changed changes clock before after) := by
  unfold Timeline.changed
  split
  · exact h
  -- The new change is not earlier than what was told, so it goes to those after it, and the first
  -- change stays the first.
  · obtain ⟨first, hfirst, hmoment⟩ := h.moment
    obtain ⟨pre, post, hchanges, hpre, hpost, hlast⟩ := h.shown
    refine ⟨⟨first, ?_, hmoment⟩, ⟨pre, post ++ [(clock, after)], ?_, hpre, ?_, hlast⟩, h.verdict⟩
    · exact List.mem_head?_append_of_mem_head? hfirst
    · rw [hchanges, List.append_assoc]
    · exact List.forall_mem_append.mpr ⟨hpost, List.forall_mem_singleton.mpr hheard⟩

namespace Timeline

variable {limit : Option Span} {course : Option EngineStart} {s t : Timeline}

/-- The callers of a gate: they have all been told or wait, and those who wait have not waited
longer than the gate has been pending.  The last two say of each caller, by its number, when it
began to wait; the numbers are given out in order. -/
structure Attended (s : Timeline) : Prop where
  begun : s.begun.length = s.trial.calls
  everyone : (s.answers.map Told.call ++ s.trial.waiting).Perm (List.range s.trial.calls)
  waiting : ∀ n ∈ s.trial.waiting, ∃ began, s.begun[n]? = some began ∧ began ≤ s.trial.clock ∧
    ∀ e ∈ s.changes.head?, s.trial.clock = max began e.1
  answered : ∀ a ∈ s.answers, s.begun[a.call]? = some a.began ∧ a.heard ≤ s.trial.clock ∧
    a.Right s.changes

/-- What holds along every run.  The hold on the gate is what lets callers wait: whoever watches
lets go of it when it is over. -/
structure Lawful (limit : Option Span) (course : Option EngineStart) (s : Timeline) : Prop where
  stage : Stage limit course s.trial.start s.trial.watch s.trial.clock s.changes s.trial.gate.state
  held : s.trial.gate.isHeld = s.trial.watch.isWaiting
  attended : s.Attended

/-! ## The gate as callers find it -/

/-- Callers wait as long as the gate is pending.  While the gate is pending it is held, so that the
model's gate never tells that its holder has gone. -/
theorem Lawful.settled?_eq (h : s.Lawful limit course) :
    s.trial.gate.settled? = s.trial.gate.state.verdict? := by
  unfold Gate.settled?
  cases hstate : s.trial.gate.state with
  | ready | failed => rfl
  | pending =>
      have hheld : s.trial.gate.isHeld = true := h.held.trans (h.stage.isWaiting hstate)
      simp only [hheld, Readiness.verdict?, if_true]

/-- A gate that shows callers nothing is pending.  So there is nothing to be told as yet, and
nothing has changed. -/
theorem Lawful.eq_pending (h : s.Lawful limit course) (hnone : s.trial.gate.settled?.isNone) :
    s.trial.gate.state = .pending := by
  rw [h.settled?_eq] at hnone
  cases hstate : s.trial.gate.state with
  | pending => rfl
  | ready | failed => rw [hstate] at hnone; cases hnone

/-- A watch lets go of the gate when it is over.  In all other cases it keeps the hold it had. -/
theorem isHeld_look {w : Watch} {g : Gate} (h : g.isHeld = w.isWaiting) (now : Nat)
    (start : Option Startup) :
    (w.look now start g).2.isHeld = (w.look now start g).1.isWaiting := by
  unfold Watch.look
  split
  · exact h
  · split <;> rfl
  · exact h
  · split <;> exact h
  · split <;> exact h
  · exact h

/-! ## Changes while callers wait -/

/-- The first change is the one there was, or the new one if there was none. -/
theorem head?_changed {changes : List (Nat × Readiness)} {clock : Nat} {before after : Readiness}
    {e : Nat × Readiness} (h : e ∈ (changed changes clock before after).head?) :
    e ∈ changes.head? ∨ changes = [] ∧ e.1 = clock := by
  unfold changed at h
  split at h
  · exact .inl h
  · cases changes with
    | nil => exact .inr ⟨rfl, by cases h; rfl⟩
    | cons e' rest => exact .inl h

/-! ## What one move preserves

One lemma for each kind of move, on the attendance, on the stage, or on both; `Lawful.move` puts
them together. -/

/-- A look that changes the state does so now.  Those who wait for the first change have then waited
until just this moment. -/
theorem Attended.seen (h : s.Attended) (start : Option Startup) : (s.seen start).Attended where
  begun := h.begun
  everyone := h.everyone
  waiting n hn := by
    obtain ⟨began, hbegan, hle, hhead⟩ := h.waiting n hn
    refine ⟨began, hbegan, hle, fun e he => ?_⟩
    rcases head?_changed he with he | ⟨-, hnow⟩
    -- The first change was there before, or it is the one that this look makes.
    · exact hhead e he
    · rw [hnow]
      exact (Nat.max_eq_right hle).symm
  answered a ha := by
    obtain ⟨hbegan, hheard, hright⟩ := h.answered a ha
    exact ⟨hbegan, hheard, hright.changed hheard _ _⟩

/-- The stage goes on as the watch looks, and callers are not concerned but by the change. -/
theorem Lawful.seen (h : s.Lawful limit course) {start : Option Startup}
    (hstart : start = s.trial.start ∨ start = none) : (s.seen start).Lawful limit course where
  stage := h.stage.look rfl hstart
  held := isHeld_look h.held _ _
  attended := h.attended.seen start

/-- The start's end is put before the watch, and nothing else happens.  Where nobody watches any
more nothing changes at all. -/
theorem Lawful.finish (h : s.Lawful limit course) {c : EngineStart} (hc : course = some c)
    (hend : s.end? course = some s.trial.clock) :
    Lawful limit course { s with trial := (s.trial.play (.ready c.ended)).1 } := by
  subst hc
  obtain ⟨hstart, hdelay⟩ := Option.ite_none_right_eq_some.mp hend
  have hstage := h.stage
  rw [Option.isNone_iff_eq_none.mp hstart, ← Option.some.inj hdelay] at hstage
  by_cases hwaiting : s.trial.watch.isWaiting
  · simp only [Trial.GateTrial.play, if_pos hwaiting]
    refine ⟨?_, h.held, ⟨h.attended.begun, h.attended.everyone, h.attended.waiting,
      h.attended.answered⟩⟩
    show Stage limit (some c) (some c.ended) s.trial.watch s.trial.clock _ _
    rw [← Option.some.inj hdelay]
    exact hstage.finish
  · simp only [Trial.GateTrial.play, if_neg hwaiting]
    exact h

/-- The stage lets time pass, and every caller who has been told was told before. -/
theorem Lawful.pass (h : s.Lawful limit course) {n : Nat} (hpass : s.MayPass course n) :
    Lawful limit course { s with trial := (s.trial.play (.advance n)).1 } := by
  obtain ⟨⟨hrest, hquiet, -⟩, hdeadline, hend⟩ := hpass
  have hstage : Stage limit course s.trial.start s.trial.watch (s.trial.clock + n) s.changes
      s.trial.gate.state :=
    h.stage.pass hrest hdeadline fun hstart c hc => hend _ (by
      rw [end?, hstart, hc]
      rfl)
  refine ⟨hstage, h.held, ⟨h.attended.begun, h.attended.everyone, ?_, ?_⟩⟩
  · intro k hk
    obtain ⟨began, hbegan, hle, -⟩ := h.attended.waiting k hk
    refine ⟨began, hbegan, Nat.le_add_right_of_le hle, fun e he => ?_⟩
    -- Somebody waits, so the gate is still pending and nothing has changed.
    have hpending := h.eq_pending (hquiet.resolve_left (List.ne_nil_of_mem hk))
    have hnil : s.changes = [] := h.stage.eq_pending_iff.mp hpending
    rw [hnil] at he
    cases he
  · intro a ha
    obtain ⟨hbegan, hheard, hright⟩ := h.attended.answered a ha
    exact ⟨hbegan, Nat.le_add_right_of_le hheard, hright⟩

theorem getElem?_concat_of_some {l : List Nat} {n b : Nat} (h : l[n]? = some b) (x : Nat) :
    (l ++ [x])[n]? = some b := by
  rw [List.getElem?_append_left (List.getElem?_eq_some_iff.mp h).1]
  exact h

/-- The new caller has the next number, begins now, and has not waited past the first change. -/
theorem Lawful.wait (h : s.Lawful limit course) :
    Lawful limit course
      { s with trial := (s.trial.play .wait).1, begun := s.begun ++ [s.trial.clock] } := by
  refine ⟨h.stage, h.held, ⟨?_, ?_, ?_, ?_⟩⟩
  · show (s.begun ++ [_]).length = s.trial.calls + 1
    rw [List.length_append, h.attended.begun]
    rfl
  · show (_ ++ (s.trial.waiting ++ [s.trial.calls])).Perm (List.range (s.trial.calls + 1))
    rw [← List.append_assoc, List.range_succ]
    exact h.attended.everyone.append_right _
  · intro n hn
    rcases List.mem_append.mp hn with hn | hn
    · obtain ⟨began, hbegan, hrest⟩ := h.attended.waiting n hn
      -- A caller who waited before.
      exact ⟨began, getElem?_concat_of_some hbegan _, hrest⟩
    · obtain rfl := List.mem_singleton.mp hn
      refine ⟨s.trial.clock, ?_, Nat.le_refl _, fun e he => ?_⟩
      · rw [← h.attended.begun]
        exact List.getElem?_concat_length
      -- The new one, for whom the first change, if there is one, has come already.
      · exact (Nat.max_eq_left (h.stage.le_clock e (List.mem_of_mem_head? he))).symm
  · intro a ha
    obtain ⟨hbegan, hrest⟩ := h.attended.answered a ha
    exact ⟨getElem?_concat_of_some hbegan _, hrest⟩

/-- What is told is right.  The caller has waited until now: if the first change had come before,
the caller would have been told then, and otherwise it comes now. -/
theorem Lawful.right (h : s.Lawful limit course) {call began : Nat} {told : Except Failure Unit}
    (hwaits : call ∈ s.trial.waiting) (hbegan : s.begun[call]? = some began)
    (htold : s.trial.gate.settled? = some told) :
    Told.Right s.changes ⟨call, began, s.trial.clock, s.trial.gate.state, told⟩ where
  moment := by
    obtain ⟨began', hbegan', -, hhead⟩ := h.attended.waiting call hwaits
    obtain rfl := Option.some.inj (hbegan'.symm.trans hbegan)
    -- What tells callers something is no pending gate, so something has changed.
    have hsome : s.changes ≠ [] := by
      intro hnil
      rw [h.settled?_eq, h.stage.eq_pending_iff.mpr hnil] at htold
      cases htold
    exact ⟨_, List.head?_eq_some_head hsome, hhead _ (List.head?_eq_some_head hsome)⟩
  shown := ⟨s.changes, [], (List.append_nil _).symm, h.stage.le_clock, List.forall_mem_nil _,
    h.stage.state_eq.symm⟩
  verdict := h.settled?_eq.symm.trans htold

/-- The caller is struck off those who wait and put to those who have been told. -/
theorem Lawful.tell (h : s.Lawful limit course) {call : Nat} (ht : s.tell call = some t) :
    t.Lawful limit course := by
  unfold Timeline.tell at ht
  split at ht
  · rename_i began told hbegan htold
    obtain ⟨hwaits, ht⟩ := Option.ite_none_right_eq_some.mp ht
    cases ht
    refine ⟨h.stage, h.held, ⟨h.attended.begun, ?_, ?_, ?_⟩⟩
    · show ((s.answers ++ [_]).map Told.call ++ s.trial.waiting.erase call).Perm _
      rw [List.map_append, List.append_assoc]
      exact ((List.perm_cons_erase hwaits).symm.append_left _).trans h.attended.everyone
    · exact fun n hn => h.attended.waiting n (List.mem_of_mem_erase hn)
    · intro a ha
      rcases List.mem_append.mp ha with ha | ha
      · exact h.attended.answered a ha
      · obtain rfl := List.mem_singleton.mp ha
        exact ⟨hbegan, Nat.le_refl _, h.right hwaits hbegan htold⟩
  · cases ht

/-- **One move keeps the law.**  By cases on the move; those that cannot be made are none. -/
theorem Lawful.move (h : s.Lawful limit course) {m : Tick} (hm : s.move course m = some t) :
    t.Lawful limit course := by
  cases m with
  | look => cases hm; exact h.seen (.inl rfl)
  | glance => cases hm; exact h.seen (.inr rfl)
  | finish =>
      cases hcourse : course with
      | none => rw [hcourse] at hm; cases hm
      | some c =>
          rw [hcourse] at hm h
          obtain ⟨hend, ht⟩ := Option.ite_none_right_eq_some.mp hm
          cases ht
          exact h.finish rfl hend
  | pass n =>
      obtain ⟨hpass, ht⟩ := Option.ite_none_right_eq_some.mp hm
      cases ht
      exact h.pass hpass
  | wait => cases hm; exact h.wait
  | hear call => exact h.tell hm

/-! ## Runs -/

/-- At first nothing has been shown, nobody waits, and the clock is at zero. -/
theorem lawful_ofEngine (limit : Option Span) (course : Option EngineStart) :
    (ofEngine limit).Lawful limit course where
  stage := .fresh fun _ _ => Nat.zero_le _
  held := rfl
  attended := ⟨rfl, .refl _, List.forall_mem_nil _, List.forall_mem_nil _⟩

/-- What one move preserves a whole run preserves.  The predicate is one of timelines alone, so that
the run may be forgotten. -/
theorem play_induction {P : Timeline → Prop} {τ : List Tick}
    (hmove : ∀ s m t, P s → s.move course m = some t → P t) (hs : P s)
    (hplay : s.play course τ = some t) : P t := by
  induction τ generalizing s with
  | nil => cases hplay; exact hs
  | cons m τ ih =>
      obtain ⟨u, hu, hrest⟩ := Option.bind_eq_some_iff.mp hplay
      exact ih (hmove s m u hs hu) hrest

theorem Lawful.play {τ : List Tick} (h : s.Lawful limit course)
    (hplay : s.play course τ = some t) : t.Lawful limit course :=
  play_induction (fun _ _ _ hs hm => hs.move hm) h hplay

/-- Runs can be put together; it is needed where runs are built to show that something can happen.
-/
theorem play_append {τ τ' : List Tick} (hplay : s.play course τ = some t) :
    s.play course (τ ++ τ') = t.play course τ' := by
  induction τ generalizing s with
  | nil => cases hplay; rfl
  | cons m τ ih =>
      obtain ⟨u, hu, hrest⟩ := Option.bind_eq_some_iff.mp hplay
      show (s.move course m).bind (fun t => t.play course (τ ++ τ')) = _
      rw [hu]
      exact ih hrest

/-! ## Changes are never taken back

For this the law is not needed, only what moves do to the watch and to the changes. -/

/-- Only a look changes the watch and what the gate shows.  All other moves leave these three as
they are, whatever else they do. -/
theorem move_cases {m : Tick} (hm : s.move course m = some t) :
    (∃ start, t = s.seen start) ∨
      t.trial.watch = s.trial.watch ∧ t.trial.gate = s.trial.gate ∧ t.changes = s.changes := by
  cases m with
  | look => cases hm; exact .inl ⟨_, rfl⟩
  | glance => cases hm; exact .inl ⟨_, rfl⟩
  | finish =>
      cases course with
      | none => cases hm
      | some c =>
          -- The end of the start is noted, and shows only when somebody looks.
          obtain ⟨-, ht⟩ := Option.ite_none_right_eq_some.mp hm
          cases ht
          refine .inr ⟨?_, ?_, rfl⟩ <;> simp only [Trial.GateTrial.play] <;> split <;> rfl
  | pass n =>
      obtain ⟨-, ht⟩ := Option.ite_none_right_eq_some.mp hm
      cases ht
      exact .inr ⟨rfl, rfl, rfl⟩
  | wait => cases hm; exact .inr ⟨rfl, rfl, rfl⟩
  | hear call =>
      simp only [Timeline.move, tell] at hm
      split at hm
      · obtain ⟨-, ht⟩ := Option.ite_none_right_eq_some.mp hm
        cases ht
        exact .inr ⟨rfl, rfl, rfl⟩
      · cases hm

/-- A look adds at most one change at the end. -/
theorem changed_isPrefix (changes : List (Nat × Readiness)) (clock : Nat)
    (before after : Readiness) : changes <+: changed changes clock before after := by
  unfold changed
  split
  · exact List.prefix_rfl
  · exact List.prefix_append _ _

/-- Changes stay.  So what has been shown is a beginning of what will have been shown later. -/
theorem changes_isPrefix {m : Tick} (hm : s.move course m = some t) : s.changes <+: t.changes := by
  rcases move_cases hm with ⟨start, rfl⟩ | ⟨-, -, hchanges⟩
  · exact changed_isPrefix _ _ _ _
  · exact hchanges ▸ List.prefix_rfl

/-- A watch that is over stays over.  A closed watch sees nothing, and no move opens it again. -/
theorem closed_of_move {m : Tick} (hm : s.move course m = some t)
    (hclosed : s.trial.watch = .closed) : t.trial.watch = .closed := by
  rcases move_cases hm with ⟨start, rfl⟩ | ⟨hwatch, -, -⟩
  · show (s.trial.watch.look _ start _).1 = .closed
    rw [hclosed]
    rfl
  · exact hwatch.trans hclosed

/-- **What the start has settled the gate to is final.**  The watch is over by then, so that the
stage keeps the state. -/
theorem Lawful.final (h : s.Lawful limit course) {m : Tick} (hm : s.move course m = some t)
    {c : EngineStart} (hc : c ∈ course) (hstate : s.trial.gate.state = c.outcome) :
    t.trial.gate.state = c.outcome := by
  have hstage := (h.move hm).stage
  rw [closed_of_move hm (h.stage.eq_closed hstate)] at hstage
  exact hstage.eq_outcome hc

/-! ## The clock can always go on

A clock that could get stuck would make statements about later moments empty.  So it is shown that
from every lawful timeline all that is due can be done at once, after which time may pass. -/

/-- A second look sees nothing new.  Otherwise a watch could stay busy at one moment for ever. -/
theorem look_look (w : Watch) (now : Nat) (start : Option Startup) (g : Gate) :
    (w.look now start g).1.look now start (w.look now start g).2 = w.look now start g := by
  cases start with
  | some ended => cases w <;> cases ended <;> rfl
  | none =>
      cases w with
      | closed | unbounded => rfl
      | fresh limit =>
          cases limit with
          | none => rfl
          | some W =>
              by_cases hzero : W.nanos = 0
              · simp only [Watch.look, if_pos hzero]
              -- A bound that is not empty is not due at the moment at which it is set.
              · have hsleep : ¬W.sleepFrom now ≤ now := by
                  have hpos : W.sleep ≠ 0 := mt Span.sleep_eq_zero_iff.mp hzero
                  show ¬now + W.sleep ≤ now
                  omega
                simp only [Watch.look, if_neg hzero, if_neg hsleep]
      | bounded W deadline =>
          by_cases hdue : deadline ≤ now
          · simp only [Watch.look, if_pos hdue]
          · simp only [Watch.look, if_neg hdue]

/-- All callers that wait can be told when the gate shows something.  By induction on those who
wait, one move for each. -/
theorem Lawful.exists_told (h : s.Lawful limit course) {told : Except Failure Unit}
    (htold : s.trial.gate.settled? = some told) :
    ∃ τ t, s.play course τ = some t ∧ t.trial = { s.trial with waiting := [] } := by
  generalize hwaiting : s.trial.waiting = waiting
  induction waiting generalizing s with
  | nil => exact ⟨[], s, rfl, by rw [← hwaiting]⟩
  | cons n rest ih =>
      have hn : n ∈ s.trial.waiting := hwaiting ▸ List.mem_cons_self
      obtain ⟨began, hbegan, -⟩ := h.attended.waiting n hn
      have hmove : s.move course (.hear n) = some { s with
          trial := { s.trial with waiting := s.trial.waiting.erase n }
          answers := s.answers ++ [⟨n, began, s.trial.clock, s.trial.gate.state, told⟩] } := by
        simp only [Timeline.move, Timeline.tell, hbegan, htold, if_pos hn]
      have herase : s.trial.waiting.erase n = rest := by rw [hwaiting, List.erase_cons_head]
      obtain ⟨τ, t, hplay, ht⟩ := ih (h.move hmove) htold herase
      exact ⟨.hear n :: τ, t, Option.bind_eq_some_iff.mpr ⟨_, hmove, hplay⟩, ht⟩

/-- **What a trial does when it settles is a run**: the watch looks, and callers are told.  The
trial is the way in which the model plays a gate for an outside observer; it takes its moves in an
order of its own, which is one of those allowed here. -/
theorem Lawful.exists_settle (h : s.Lawful limit course) :
    ∃ τ t, s.play course (.look :: τ) = some t ∧ t.trial = s.trial.settle.1 := by
  have hseen : (s.seen s.trial.start).Lawful limit course := h.seen (.inl rfl)
  cases hsettled : (s.seen s.trial.start).trial.gate.settled? with
  | none =>
      refine ⟨[], s.seen s.trial.start, rfl, ?_⟩
      have hgate : (s.trial.watch.look s.trial.clock s.trial.start s.trial.gate).2.settled? =
          none := hsettled
      simp only [Trial.GateTrial.settle, hgate]
      rfl
  -- The gate shows something, so everyone who waits is told.
  | some told =>
      obtain ⟨τ, t, hplay, ht⟩ := hseen.exists_told hsettled
      refine ⟨τ, t, hplay, ht.trans ?_⟩
      have hgate : (s.trial.watch.look s.trial.clock s.trial.start s.trial.gate).2.settled? =
          some told := hsettled
      simp only [Trial.GateTrial.settle, hgate]
      rfl

/-- After it has settled a trial is at rest, unless the start ends just then.  Neither a second look
nor any caller finds anything to do. -/
theorem atRest_of_settle (hsettle : t.trial = s.trial.settle.1)
    (hend : s.end? course ≠ some s.trial.clock) :
    t.AtRest course ∧ t.trial.clock = s.trial.clock := by
  have hlook := look_look s.trial.watch s.trial.clock s.trial.start s.trial.gate
  cases hsettled :
      (s.trial.watch.look s.trial.clock s.trial.start s.trial.gate).2.settled? with
  | none =>
      simp only [Trial.GateTrial.settle, hsettled] at hsettle
      rw [AtRest, end?, hsettle]
      exact ⟨⟨hlook, .inr (by rw [hsettled]; rfl), hend⟩, rfl⟩
  | some told =>
      simp only [Trial.GateTrial.settle, hsettled] at hsettle
      rw [AtRest, end?, hsettle]
      exact ⟨⟨hlook, .inl rfl, hend⟩, rfl⟩

/-- A start that ends now can do so.  Its end is due at this moment, and its watch is still there to
be told. -/
theorem Lawful.exists_finish (h : s.Lawful limit course)
    (hend : s.end? course = some s.trial.clock) :
    ∃ t, s.move course .finish = some t ∧ t.end? course = none ∧
      t.trial.clock = s.trial.clock := by
  obtain ⟨hstart, hcourse⟩ := Option.ite_none_right_eq_some.mp hend
  obtain ⟨c, rfl, -⟩ := Option.map_eq_some_iff.mp hcourse
  have hstage := h.stage
  rw [Option.isNone_iff_eq_none.mp hstart] at hstage
  refine ⟨_, if_pos hend, ?_⟩
  simp only [Trial.GateTrial.play, if_pos hstage.watched_of_none.1]
  exact ⟨rfl, trivial⟩

/-- Whoever has something to do can do it at once.  First the start ends, if it is due, and then the
watch looks and everyone is told. -/
theorem Lawful.exists_atRest (h : s.Lawful limit course) :
    ∃ τ t, s.play course τ = some t ∧ t.AtRest course ∧ t.trial.clock = s.trial.clock := by
  by_cases hend : s.end? course = some s.trial.clock
  · obtain ⟨u, hmove, hended, hclock⟩ := h.exists_finish hend
    obtain ⟨τ, t, hplay, ht⟩ := (h.move hmove).exists_settle
    obtain ⟨hrest, hclock'⟩ := atRest_of_settle ht (hended ▸ Option.some_ne_none _ |>.symm)
    exact ⟨.finish :: .look :: τ, t, Option.bind_eq_some_iff.mpr ⟨u, hmove, hplay⟩, hrest,
      hclock'.trans hclock⟩
  · obtain ⟨τ, t, hplay, ht⟩ := h.exists_settle
    exact ⟨.look :: τ, t, hplay, atRest_of_settle ht hend⟩

/-- A moment may pass whenever nobody has anything to do.  Nothing is due now, so that the bound and
the start's end are at least one moment away. -/
theorem Lawful.mayPass_one (h : s.Lawful limit course) (hrest : s.AtRest course) :
    s.MayPass course 1 := by
  have ⟨hlook, _, hnow⟩ := hrest
  refine ⟨hrest, h.stage.lt_deadline hlook, fun d hd => ?_⟩
  obtain ⟨hstart, hcourse⟩ := Option.ite_none_right_eq_some.mp hd
  obtain ⟨c, hc, rfl⟩ := Option.map_eq_some_iff.mp hcourse
  have hstage := h.stage
  rw [Option.isNone_iff_eq_none.mp hstart] at hstage
  refine Nat.lt_of_le_of_ne (hstage.watched_of_none.2 c hc) ?_
  rintro heq
  exact hnow (heq ▸ hd)

/-- **The clock can always go on**, and come to any later moment.  By induction on how much later it
is, one moment at a time. -/
theorem Lawful.exists_later (h : s.Lawful limit course) (n : Nat) :
    ∃ τ t, s.play course τ = some t ∧ t.AtRest course ∧ t.trial.clock = s.trial.clock + n := by
  induction n with
  | zero => exact h.exists_atRest
  | succ n ih =>
      obtain ⟨τ, t, hplay, hrest, hclock⟩ := ih
      have ht := h.play hplay
      have hpass : t.move course (.pass 1) = some _ := if_pos (ht.mayPass_one hrest)
      obtain ⟨τ', u, hplay', hrest', hclock'⟩ := (ht.move hpass).exists_atRest
      refine ⟨τ ++ .pass 1 :: τ', u, ?_, hrest', ?_⟩
      · rw [play_append hplay]
        exact Option.bind_eq_some_iff.mpr ⟨_, hpass, hplay'⟩
      · rw [hclock']
        show t.trial.clock + 1 = _
        rw [hclock]
        rfl

/-! ## The chronicle

All that is known of a gate is put into one structure, so that each clause can be read by itself.
It follows from the law at this moment. -/

/-- **What an engine's gate shows, and when**, with `W.sleep` the ticks after which the bound `W`
elapses.  Where the start ends, or the bound elapses, at this very moment, the gate shows it as soon
as nobody has anything to do. -/
structure Chronicle (limit : Option Span) (course : Option EngineStart) (s : Timeline) : Prop where
  /-- Before the bound elapses and the start ends the gate is pending. -/
  pending : (∀ W ∈ limit, s.trial.clock < W.sleep) → (∀ c ∈ course, s.trial.clock < c.delay) →
    s.trial.gate.state = .pending
  /-- From the moment at which the bound elapses until the start ends it has failed by the bound. -/
  timeout : ∀ W ∈ limit, (W.sleep < s.trial.clock ∨ W.sleep = s.trial.clock ∧ s.AtRest course) →
    (∀ c ∈ course, s.trial.clock < c.delay) →
    s.trial.gate.state = .failed (.readinessTimeout W)
  /-- From the moment at which the start ends it is settled by it. -/
  settled : ∀ c ∈ course, (c.delay < s.trial.clock ∨ c.delay = s.trial.clock ∧ s.AtRest course) →
    s.trial.gate.state = c.outcome
  /-- A start that ends before the bound elapses makes the only change. -/
  prompt : ∀ c ∈ course, (∀ W ∈ limit, c.delay < W.sleep) →
    ∀ e ∈ s.changes, e = (c.delay, c.outcome)
  /-- The changes so far are a history as far as the clock has come. -/
  history : (∀ e ∈ s.changes, e.1 ≤ s.trial.clock) ∧
    ∃ rest, History limit course (s.changes ++ rest) ∧
      ∀ e ∈ rest, s.trial.clock ≤ e.1 ∧ (s.AtRest course → s.trial.clock < e.1)
  /-- The gate shows the last change. -/
  shown : s.trial.gate.state = lastShown s.changes
  /-- Every caller waits or has been told, once. -/
  everyone : s.begun.length = s.trial.calls ∧
    (s.answers.map Told.call ++ s.trial.waiting).Perm (List.range s.trial.calls)
  /-- Who has been told has been told as soon as the gate was not pending, and what it showed. -/
  answered : ∀ a ∈ s.answers, s.begun[a.call]? = some a.began ∧ a.Right s.changes
  /-- Nobody waits for a gate that is not pending. -/
  heard : s.AtRest course → s.trial.gate.state ≠ .pending → s.trial.waiting = []

/-- Who has nothing to do sees nothing new, and the start does not end now. -/
theorem AtRest.idle (hrest : s.AtRest course) :
    Stage.Idle course s.trial.start s.trial.watch s.trial.clock s.trial.gate := by
  obtain ⟨hlook, -, hnow⟩ := hrest
  refine ⟨hlook, fun hstart c hc hclock => hnow ?_⟩
  rw [end?, hstart, Option.mem_def.mp hc, hclock]
  rfl

/-- Each clause is a lemma on the stage, or a part of the attendance. -/
theorem Lawful.chronicle (h : s.Lawful limit course) : s.Chronicle limit course where
  pending := h.stage.before
  timeout _ hW hclock := h.stage.between hW (hclock.imp_right (.imp_right AtRest.idle))
  settled _ hc hclock := h.stage.after hc (hclock.imp_right (.imp_right AtRest.idle))
  prompt _ hc := h.stage.prompt hc
  history := by
    obtain ⟨rest, hhistory, hrest⟩ := h.stage.exists_rest s.trial.gate
    exact ⟨h.stage.le_clock, rest, hhistory, fun e he =>
      ⟨(hrest e he).1, fun hidle => (hrest e he).2 (AtRest.idle hidle)⟩⟩
  shown := h.stage.state_eq
  everyone := ⟨h.attended.begun, h.attended.everyone⟩
  answered a ha := ⟨(h.attended.answered a ha).1, (h.attended.answered a ha).2.2⟩
  heard hrest hstate := by
    refine hrest.2.1.resolve_right fun hunsettled => hstate ?_
    exact h.eq_pending hunsettled

/-- A run takes no change back, and leaves what the start has settled the gate to.  Along the run
the law is carried with it, since the last clause needs it at every move. -/
theorem Lawful.kept (h : s.Lawful limit course) {τ : List Tick}
    (hplay : s.play course τ = some t) :
    s.changes <+: t.changes ∧
      ∀ c ∈ course, s.trial.gate.state = c.outcome → t.trial.gate.state = c.outcome := by
  have hkept : t.Lawful limit course ∧ s.changes <+: t.changes ∧
      ∀ c ∈ course, s.trial.gate.state = c.outcome → t.trial.gate.state = c.outcome := by
    refine play_induction (P := fun t => t.Lawful limit course ∧ s.changes <+: t.changes ∧
      ∀ c ∈ course, s.trial.gate.state = c.outcome → t.trial.gate.state = c.outcome) ?_
      ⟨h, List.prefix_rfl, fun _ _ hstate => hstate⟩ hplay
    rintro u m v ⟨hu, hchanges, hfinal⟩ hm
    exact ⟨hu.move hm, hchanges.trans (changes_isPrefix hm),
      fun c hc hstate => hu.final hm hc (hfinal c hc hstate)⟩
  exact hkept.2

/-- **An engine's gate over time**: it follows its chronicle; changes are never taken back and the
outcome of the start is final; and the clock can always go on to any later moment. -/
theorem chronicle_of_play {τ : List Tick} (h : (ofEngine limit).play course τ = some s) :
    s.Chronicle limit course ∧
    (∀ τ' t, s.play course τ' = some t → s.changes <+: t.changes ∧
      ∀ c ∈ course, s.trial.gate.state = c.outcome → t.trial.gate.state = c.outcome) ∧
    ∀ clock, s.trial.clock ≤ clock →
      ∃ τ' t, s.play course τ' = some t ∧ t.AtRest course ∧ t.trial.clock = clock := by
  have hs : s.Lawful limit course := (lawful_ofEngine limit course).play h
  refine ⟨hs.chronicle, fun τ' t hplay => hs.kept hplay, fun clock hclock => ?_⟩
  obtain ⟨n, rfl⟩ := Nat.exists_eq_add_of_le hclock
  exact hs.exists_later n

/-- An engine that is ready after seven ticks. -/
def readyAfterSeven : EngineStart := ⟨7, .ready, .ready, rfl⟩

/-- The run of a caller that hears of a bound of five ticks, before the start ends after all.  The
gate fails at the fifth tick and is settled at the seventh, as the history of a late start has it.
-/
theorem chronicle_of_late_start :
    ∃ s, (ofEngine (some (.ofMillis 5))).play (some readyAfterSeven)
        [.look, .wait, .pass 5, .look, .hear 0, .pass 2, .finish, .look] = some s ∧
      s.changes = [(5, .failed (.readinessTimeout (.ofMillis 5))), (7, .ready)] ∧
      s.Chronicle (some (.ofMillis 5)) (some readyAfterSeven) := by
  have hplay : (ofEngine (some (.ofMillis 5))).play (some readyAfterSeven)
      [.look, .wait, .pass 5, .look, .hear 0, .pass 2, .finish, .look] = some
        { trial :=
            { gate := ⟨.ready, true, false⟩, watch := .closed, start := some .ready, clock := 7,
              calls := 1 }
          changes := [(5, .failed (.readinessTimeout (.ofMillis 5))), (7, .ready)]
          begun := [0]
          answers := [⟨0, 0, 5, .failed (.readinessTimeout (.ofMillis 5)),
            .error (.readinessTimeout (.ofMillis 5))⟩] } := rfl
  exact ⟨_, hplay, rfl, (chronicle_of_play hplay).1⟩

/-- A bound of more than thirty years elapses early: the gate has failed before as many ticks as the
bound holds have passed.  A sleep is cut at that many ticks, so such a bound cannot be waited for.
This is why the chronicle speaks of sleeps and not of the bounds themselves. -/
theorem timeout_before_bound :
    ∃ s, (ofEngine (some ⟨946080000000000001⟩)).play none [.look, .pass 946080000000, .look] =
        some s ∧
      s.trial.clock < Span.ticks ⟨946080000000000001⟩ ∧
      s.trial.gate.state = .failed (.readinessTimeout ⟨946080000000000001⟩) :=
  ⟨_, rfl, by decide, rfl⟩

end Timeline

end AvatarPool
