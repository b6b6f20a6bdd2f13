import AvatarPool.Proofs.Session.Attendance
import AvatarPool.Proofs.Text.Lines

/-! # The stages of a lines host

A lines host that nobody interrupts reads all lines of its input, waits until its handlers have
replied, has the service stop, and ends once everything is written.  Until the handlers have replied
the service serves; so no reply is about a stop.

The stages come in a fixed order, so `Standing` is stated once for all of them: what it requires
depends on whether the service has been asked to stop.  `Winding` is what the host has to show from
the end of its input on; each stage is entered by a lemma that assumes what the one before has
reached. -/

namespace AvatarPool.Session

variable {e : PureEngine} {fs : List String} {live : List Nat} {l : LinesHost} {s : Session}

/-- The handles that handlers do not hold: the session's own, and that of the host until it ends. -/
def spare (owns : Bool) (stage : LinesStage) : Nat :=
  owns.toNat + if stage = .ended then 0 else 1

theorem spare_pos {stage : LinesStage} (h : stage ≠ .ended) (owns : Bool) : 0 < spare owns stage := by
  unfold spare
  rw [if_neg h]
  exact Nat.succ_pos _

/-- The session may give its own handle back, and the host still has one. -/
theorem spare_true (stage : LinesStage) : spare true stage = spare false stage + 1 := by
  rw [spare, spare, Bool.toNat_true, Bool.toNat_false]
  omega

/-- Whether the service has not been asked to stop at this stage. -/
def LinesStage.isServing : LinesStage → Bool
  | .starting | .reading | .answering => true
  | _ => false

/-- While the service serves, the host holds its handle. -/
theorem LinesStage.spare_pos_of_isServing {stage : LinesStage} (h : stage.isServing) (owns : Bool) :
    0 < spare owns stage := by
  refine spare_pos ?_ owns
  rintro rfl
  cases h

/-- **What holds at every stage** of a lines host that nobody interrupts: until it has the service
stop, the service agrees with the engine, and from then on all handlers have replied. -/
structure Standing (e : PureEngine) (live : List Nat) (l : LinesHost) (s : Session) : Prop where
  -- Nobody has told the host to stop.
  uninterrupted : l.stage ≠ .stopping true ∧ l.stage ≠ .answeringLast
  serving : l.stage.isServing → s.service.Agrees e
  replied : ¬ l.stage.isServing → live = []
  reading : l.isReading → ¬ l.writer.finished
  ended : l.stage = .ended → l.writer.finished
  -- Nobody else runs a call, and it ends when the host does.
  done : ∀ d ∈ s.done, d = (0, Answer.stopped) ∧ l.stage = .ended

namespace Standing

variable {live' : List Nat} {l' : LinesHost} {t : Session}

theorem done_eq_nil (h : Standing e live l s) (hstage : l.stage ≠ .ended) : s.done = [] :=
  List.eq_nil_iff_forall_not_mem.mpr fun d hd => hstage (h.done d hd).2

theorem reads (hstage : l.stage = .reading) (hopen : ¬ l.writer.finished)
    (ha : s.service.Agrees e) (hdone : s.done = []) : Standing e live l s := by
  refine ⟨?_, fun _ => ha, ?_, fun _ => hopen, ?_, by simp [hdone]⟩ <;>
    simp [hstage, LinesStage.isServing]

theorem answering (hstage : l.stage = .answering) (ha : s.service.Agrees e) (hdone : s.done = []) :
    Standing e live l s := by
  refine ⟨?_, fun _ => ha, ?_, ?_, ?_, by simp [hdone]⟩ <;>
    simp [hstage, LinesStage.isServing, LinesHost.isReading]

theorem stopping (hstage : l.stage = .stopping false ∨ l.stage = .closing) (hdone : s.done = []) :
    Standing e [] l s := by
  refine ⟨?_, ?_, fun _ => rfl, ?_, ?_, by simp [hdone]⟩ <;> rcases hstage with heq | heq <;>
    simp [heq, LinesStage.isServing, LinesHost.isReading]

theorem ending (hstage : l.stage = .ended) (hfin : l.writer.finished)
    (hdone : ∀ d ∈ s.done, d = (0, Answer.stopped)) : Standing e [] l s := by
  refine ⟨?_, ?_, fun _ => rfl, ?_, fun _ => hfin, fun d hd => ⟨hdone d hd, hstage⟩⟩ <;>
    simp [hstage, LinesStage.isServing, LinesHost.isReading]

/-- **A step of somebody else** leaves the host at its stage. -/
theorem step (h : Standing e live l s) (hstage : l'.stage = l.stage)
    (hagrees : l.stage.isServing → t.service.Agrees e) (hlive : live = [] → live' = [])
    (hclosed : l.writer.finished → l'.writer.finished)
    (hopen : l'.writer.finished → l.writer.finished ∨ l.isSilent) (hdone : t.done = s.done) :
    Standing e live' l' t where
  uninterrupted := hstage ▸ h.uninterrupted
  serving := hstage ▸ hagrees
  replied hstopped := hlive (h.replied (hstage ▸ hstopped))
  reading hreading hfin := by
    rw [LinesHost.isReading, hstage] at hreading
    -- A writer that finishes on its own has nothing more to wait for, and a host that reads has.
    rcases hopen hfin with hfin | hsilent
    · exact h.reading hreading hfin
    · unfold LinesHost.isSilent at hsilent
      revert hreading hsilent
      cases l.stage <;> simp
  ended hended := hclosed (h.ended (hstage ▸ hended))
  done := by
    rw [hdone, hstage]
    exact h.done

end Standing

/-- A lines host that has read its whole input, with the frames `fs` to answer. -/
def Winding (e : PureEngine) (fs : List String) (s : Session) : Prop :=
  ∃ live l, Attends e (spare s.ownsHandle l.stage) fs live l s ∧ Standing e live l s ∧ ¬ l.isReading

/-! ## The end -/

theorem Attends.endCall {base : Nat} (h : Attends e base fs live l s) (n : Nat) (a : Option Answer) :
    Attends e base fs live l (s.endCall n a) := by
  obtain ⟨gone, hs⟩ := h.staffed
  exact .of_staffed (hs.endCall n a) h.uncancelled

/-- The host gives a handle back. -/
theorem Attends.unshare {base : Nat} (h : Attends e (base + 1) fs live l s) :
    Attends e base fs live l s.unshare := h.alter (.setService s _) h.tended.unshare rfl

/-- A lines host whose writer has finished ends. -/
theorem Attends.endLines (h : Attends e (spare s.ownsHandle .closing) fs [] l s)
    (hdone : s.done = []) (hfin : l.writer.finished) :
    Winding e fs (s.endLines 0 0 (some .stopped)) := by
  -- The host is marked as ended and wakes its writer, gives its handle back, and its call ends.
  have hstopped := (Alters.modifyLines (f := fun l => { l with input := [], stage := .ended }) s
    fun _ => rfl).trans (.hushWriter _ 0)
  have hended := h.alter hstopped
    (h.tended.neutral ((Neutral.modifyLines s 0 _).trans (.hushWriter _ 0))) rfl
  have hbody : s.endLines 0 0 (some .stopped) =
      (((s.modifyLines 0 fun l => { l with input := [], stage := .ended }).hushWriter 0).unshare
        ).endCall 0 (some .stopped) := rfl
  rw [hbody]
  generalize (s.modifyLines 0 fun l => { l with input := [], stage := .ended }).hushWriter 0 = t at *
  have hgiven : Alters id t t.unshare := .setService t _
  refine ⟨[], { l with input := [], stage := .ended }, ?_, .ending rfl hfin fun d hd => ?_,
    Bool.false_ne_true⟩
  · rw [owns_endCall, hgiven.owns, hstopped.owns]
    exact hended.unshare.endCall 0 (some .stopped)
  -- The call that ends is the only one reported.
  · rcases done_endCall _ d hd with hmem | heq
    · rw [hgiven.done, hstopped.done, hdone] at hmem
      exact absurd hmem List.not_mem_nil
    · exact heq

/-- A lines host waits for its writer. -/
theorem Attends.awaitWriter (h : Attends e (spare s.ownsHandle .closing) fs [] l s)
    (hstage : l.stage = .closing) (hdone : s.done = []) : Winding e fs (s.awaitWriter 0) := by
  obtain ⟨gone, hs⟩ := h.staffed
  -- The writer has finished, or the host waits for it.
  rw [hs.awaitWriter_eq]
  split
  · rename_i hfin
    exact h.endLines hdone hfin
  · refine ⟨[], l, by rw [hstage]; exact h, .stopping (.inr hstage) hdone, ?_⟩
    simp [LinesHost.isReading, hstage]

/-- A lines host has no more frames to write. -/
theorem Attends.closeLines (h : Attends e (spare s.ownsHandle .closing) fs [] l s)
    (hdone : s.done = []) : Winding e fs (s.closeLines 0) := by
  have hclosing := (Alters.modifyLines (f := fun l => { l with stage := .closing }) s
    fun _ => rfl).trans (.hushWriter _ 0)
  have hclosed := h.alter hclosing
    (h.tended.neutral ((Neutral.modifyLines s 0 _).trans (.hushWriter _ 0))) rfl
  rw [← hclosing.owns] at hclosed
  exact hclosed.awaitWriter rfl (hclosing.done.trans hdone)

/-- A lines host has the service stop, once all requests read are answered. -/
theorem Attends.stopFor (h : Attends e (spare s.ownsHandle .closing) fs [] l s)
    (ha : s.service.Agrees e) (hdone : s.done = []) : Winding e fs (s.stopFor 0 false) := by
  -- The host notes that it stops, and asks the service.
  have hnoted := Alters.modifyLines (f := fun l => { l with stage := .stopping false }) s
    fun _ => rfl
  have hstopping := h.alter hnoted (h.tended.neutral (.modifyLines s 0 _)) rfl
  have hasked := Alters.setService (s.modifyLines 0 fun l => { l with stage := .stopping false })
    (s.service.stop (.lines 0))
  have hhandles : 0 < s.service.handles := Nat.lt_of_lt_of_le (spare_pos (by decide) _)
    (Nat.le_trans (Nat.le_add_right _ _) h.tended.handles)
  have hasking := hstopping.alter hasked (hstopping.tended.stopService hhandles (.lines 0)) rfl
  unfold Session.stopFor
  -- The service has not ended, since it agrees with the engine.
  rw [if_neg ha.not_hasEnded]
  refine ⟨[], { l with stage := .stopping false }, ?_,
    .stopping (.inl rfl) (hasked.done.trans hdone), Bool.false_ne_true⟩
  have howns : (Session.stopService (s.modifyLines 0 fun l => { l with stage := .stopping false })
    (.lines 0)).ownsHandle = s.ownsHandle := hasked.owns
  rw [howns]
  exact hasking

/-- A lines host at the end of its input waits until the requests read are answered. -/
theorem Attends.answerLines (h : Attends e (spare s.ownsHandle .closing) fs live l s)
    (ha : s.service.Agrees e) (hdone : s.done = []) : Winding e fs (s.answerLines 0) := by
  obtain ⟨gone, hs⟩ := h.staffed
  -- All handlers have replied, or the host waits for them.
  rw [hs.answerLines_eq]
  split
  · rename_i hnil
    subst hnil
    exact h.stopFor ha hdone
  · have hnoted := Alters.modifyLines (f := fun l => { l with stage := .answering }) s
      fun _ => rfl
    exact ⟨live, { l with stage := .answering },
      h.alter hnoted (h.tended.neutral (.modifyLines s 0 _)) rfl, .answering rfl ha hdone,
      Bool.false_ne_true⟩

/-! ## A turn after the input has ended -/

/-- **A lines host that has read its input goes from stage to stage.** -/
theorem Attends.runLines (h : Attends e (spare s.ownsHandle l.stage) fs live l s)
    (hs : Standing e live l s) (hread : ¬ l.isReading) : Winding e fs (s.runLines 0) := by
  obtain ⟨l₀, hl₀, rfl⟩ := h.exists_host
  have hcall : l₀.call = 0 := h.call
  have hkept : ¬ s.isAbandoned 0 := h.not_isAbandoned 0
  -- Some turns change nothing.
  have hsame : Winding e fs s := ⟨live, l₀.plain, h, hs, hread⟩
  have hplain : l₀.plain.stage = l₀.stage := rfl
  unfold Session.runLines
  rw [hl₀, List.getElem?_cons_zero]
  dsimp only
  rw [hcall, if_neg hkept]
  -- One case for each stage.
  cases hstage : l₀.stage with
  | starting | reading => simp [LinesHost.isReading, hplain, hstage] at hread
  | answering =>
      rw [if_neg nofun]
      rw [hplain, hstage] at h
      exact h.answerLines (hs.serving (by rw [hplain, hstage]; rfl))
        (hs.done_eq_nil (by rw [hplain, hstage]; nofun))
  -- It waits for the service, and goes on once that has stopped.
  | stopping interrupted =>
      have huninterrupted := hs.uninterrupted.1
      rw [hplain, hstage] at huninterrupted
      obtain rfl : interrupted = false := by
        -- It has not been interrupted.
        cases interrupted
        · rfl
        · exact absurd rfl huninterrupted
      rw [if_neg nofun]
      dsimp only
      split
      · obtain rfl := hs.replied (by rw [hplain, hstage]; exact Bool.false_ne_true)
        rw [hplain, hstage] at h
        exact h.closeLines (hs.done_eq_nil (by rw [hplain, hstage]; nofun))
      · exact hsame
  | answeringLast => exact absurd hstage hs.uninterrupted.2
  | closing =>
      obtain rfl := hs.replied (by rw [hplain, hstage]; exact Bool.false_ne_true)
      rw [if_neg nofun]
      rw [hplain, hstage] at h
      exact h.awaitWriter hstage (hs.done_eq_nil (by rw [hplain, hstage]; nofun))
  | ended =>
      rw [if_pos rfl]
      exact hsame

end AvatarPool.Session
