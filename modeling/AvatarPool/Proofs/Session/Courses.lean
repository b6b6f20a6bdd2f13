import AvatarPool.Proofs.Session.Stages

/-! # The course of a lines host that anybody may interrupt

A lines host reads until its input ends, until it is told to stop, or until it comes upon a line that
is no text.  At the end of its input it has everything answered before it has the service stop; when
it is interrupted it has the service stop first; a line that is no text ends it at once.  `Course`
goes through its stages, and `Manned` says what holds at each of them of its handlers, its writer and
the service.

From each stage there is one way on, and it is taken when something has come about: when the
handlers are done, when the service has ended, when the writer has finished.  The lemmas from
`awaitWriter` to `answerLines` say this for one stage each, in the reverse order of the stages, so
that each of them can use the ones after it; `runLines` brings them together.  Steps of everybody
else leave the host at its stage (`Course.step`). -/

namespace AvatarPool.Session

variable {L : Law} {base base' : Nat} {fs : List String} {gone : List (Nat × Option Response)}
  {live live' : List Nat} {l l' : LinesHost} {s t : Session}

/-! ## A lawful service behind the host -/

/-- **A lines host in front of a lawful service**, of which it hears nothing but the truth. -/
structure Manned (L : Law) (base : Nat) (fs : List String) (gone : List (Nat × Option Response))
    (live : List Nat) (l : LinesHost) (s : Session) : Prop
    extends Staffed L base fs gone live l s where
  lawful : s.service.Lawful L
  notified : Notified s

/-- A lawful service is lawful also when its outputs have taken place. -/
theorem lawful_clear {v : Service Caller} (h : v.Lawful L) :
    { v with outputs := [] }.Lawful L := ⟨h.core, h.gate, h.reports⟩

namespace Manned

/-- A step within the host that leaves the staff alone. -/
theorem step {f : LinesHost → LinesHost} (h : Manned L base fs gone live l s) (hw : Within f s t)
    (hcall : (f l).call = l.call) (hcount : (f l).inFlight = l.inFlight)
    (hwriter : (f l).writer = l.writer) : Manned L base fs gone live (f l) t :=
  ⟨h.within hw hcall hcount hwriter, hw.neutral.service ▸ h.lawful, h.notified.within hw⟩

/-- **A move of the service** by which nobody sends a request. -/
theorem setService (h : Manned L base fs gone live l s) (hstop : L.AllowsStop) {m : Move Caller}
    {v : Service Caller} (hmove : s.service.move m = some v) (hobeys : m.Obeys L)
    (hquiet : m.request? = none) (hhandles : base' + live.length ≤ v.handles) :
    Manned L base' fs gone live l (s.setService v) := by
  -- What is told is what the law allows, by what is known of the service alone.
  have hheeds := Service.heeds_of_move h.lawful h.kept.settled hstop hmove
  have hsends : Kept.Sends live s m := by
    intro job w hr
    rw [hquiet] at hr
    cases hr
  have htold : ∀ a ∈ v.answers, ∀ n, a.1 = .handler n →
      ∃ k, s.service.Awaits a.1 k ∧ L.told k a.2 := by
    intro a ha n _
    -- It was told before, or it has waited, or it has just asked; only the second can be.
    rcases hheeds.told a ha with hold | ⟨k, hawaits | ⟨job, hr, -⟩, ho⟩
    · rw [h.kept.answers_eq_nil] at hold
      exact absurd hold List.not_mem_nil
    · exact ⟨k, hawaits, ho⟩
    · rw [hquiet] at hr
      cases hr
  have hkept := h.kept.setService hmove hsends htold hhandles
  refine ⟨h.alter (.setService s v) hkept rfl rfl rfl, ?_,
    h.notified.setService h.kept.outputs hmove⟩
  rw [service_setService]
  exact lawful_clear (h.lawful.move h.kept.settled hstop hobeys hmove)

/-- The host gives a handle back. -/
theorem unshare (h : Manned L (base + 1) fs gone live l s) (hstop : L.AllowsStop) :
    Manned L base fs gone live l s.unshare := by
  have hpos := h.handles_pos (Nat.succ_pos base)
  have hmove : s.service.move .unshare = some s.service.unshare := if_pos hpos
  refine h.setService hstop hmove trivial rfl ?_
  have hcount : s.service.unshare.handles = s.service.handles - 1 :=
    -- One handle less is held, and one less is required.
    congrArg Prod.snd (Service.doors_of_move hmove)
  have hhandles := h.kept.handles
  omega

/-- The host has the service stop. -/
theorem stopService (h : Manned L base fs gone live l s) (hstop : L.AllowsStop) (hpos : 0 < base)
    (w : Caller) : Manned L base fs gone live l (s.stopService w) := by
  have hmove : s.service.move (.stop w) = some (s.service.stop w) := if_pos (h.handles_pos hpos)
  refine h.setService hstop hmove trivial rfl ?_
  have hcount : (s.service.stop w).handles = s.service.handles :=
    congrArg Prod.snd (Service.doors_of_move hmove)
  have hhandles := h.kept.handles
  omega

/-- Only the call that the host runs for is concerned. -/
theorem endCall (h : Manned L base fs gone live l s) (n : Nat) (a : Option Answer) :
    Manned L base fs gone live l (s.endCall n a) := by
  refine ⟨h.toStaffed.endCall n a, ?_, ?_⟩
  -- The call is there or not; neither the service nor what the host has heard depends on it.
  · unfold Session.endCall
    split
    · exact h.lawful
    · exact h.lawful
  · unfold Session.endCall
    split
    · exact h.notified
    · exact h.notified

/-- A visit leaves the service lawful, and the host hears nothing but the truth.  Sending a request,
taking a handle and giving one back obey every law. -/
theorem of_visits (h : Manned L base fs gone live l s) (hstop : L.AllowsStop) {fs' : List String}
    {gone' : List (Nat × Option Response)} (ht : Staffed L base' fs' gone' live' l' t)
    (hvisits : Visits s t) : Manned L base' fs' gone' live' l' t := by
  obtain ⟨m, v, hm, hmove, hservice⟩ := hvisits.service
  have hobeys : m.Obeys L := by
    -- The law binds the gate and the ends of invocations, and a visit is neither.
    cases m with
    | request | share | unshare => trivial
    | _ => cases hm
  refine ⟨ht, ?_, hvisits.notified h.notified⟩
  rw [hservice]
  exact lawful_clear (h.lawful.move h.kept.settled hstop hobeys hmove)

/-- A frame is handed to a new handler. -/
theorem addHandler (h : Manned L base fs gone live l s) (hstop : L.AllowsStop) (hpos : 0 < base)
    (hopen : ¬ l.writer.finished) (f : String) :
    Manned L base (fs ++ [f]) gone (live ++ [fs.length]) { l with inFlight := l.inFlight + 1 }
        (s.addHandler (.lines 0) f) ∧ Visits s (s.addHandler (.lines 0) f) := by
  have halters := Alters.addHandler s f
  have hservice := service_addHandler s (.lines 0) f
  -- The host does not hear of a stop by handing a frame out.
  have hlines : (s.addHandler (.lines 0) f).linesHosts.map LinesHost.serviceStopped =
      s.linesHosts.map LinesHost.serviceStopped := by
    have hbody := body_schedule ((Session.share { s with handlers := s.handlers ++
      [{ outlet := .lines 0, frame := f }] }).countInFlight (.lines 0) (· + 1))
        (.handler s.handlers.length)
    have hcounted := Within.modifyLines (f := fun l => { l with inFlight := l.inFlight + 1 }) s
      (fun _ => rfl) fun _ => rfl
    exact (congrArg (fun b : Session => b.linesHosts.map LinesHost.serviceStopped) hbody).trans
      hcounted.heard
  have hvisits : Visits s (s.addHandler (.lines 0) f) := by
    -- Handing a frame out takes a handle, which gives no outputs.
    refine ⟨⟨.share, _, rfl, if_pos (h.handles_pos hpos), ?_⟩, fun hn => ?_, halters.done,
      halters.owns⟩
    · have houtputs : s.service.share.outputs = [] := h.kept.outputs
      rw [hservice, ← houtputs]
      rfl
    · refine hn.of_map hlines fun hended => ?_
      rw [hservice]
      exact hended
  exact ⟨h.of_visits hstop (h.toStaffed.addHandler hpos hopen f) hvisits, hvisits⟩

end Manned

/-! ## Stages -/

/-- Why a lines host reads no further. -/
inductive Halt where
  | endOfInput
  | interrupted
  /-- A line is no text. -/
  | unreadable
  deriving DecidableEq, Repr

/-- **The stages of a lines host** that still reads, or reads no further for the given reason. -/
inductive Course (live : List Nat) (l : LinesHost) (s : Session) : Option Halt → Prop
  | reads (hstage : l.isReading) (hopen : ¬ l.writer.finished) (hunasked : Unasked s)
      (hdone : s.done = []) : Course live l s none
  /-- At the end of the input everything is answered. -/
  | answers (hstage : l.stage = .answering) (hunasked : Unasked s) (hdone : s.done = []) :
      Course live l s (some .endOfInput)
  /-- Then the service stops. -/
  | stops (hstage : l.stage = .stopping false) (hlive : live = []) (hdone : s.done = []) :
      Course live l s (some .endOfInput)
  /-- At an interruption the service stops at once. -/
  | breaksOff (hstage : l.stage = .stopping true) (hdone : s.done = []) :
      Course live l s (some .interrupted)
  /-- Then everything is answered. -/
  | answersLast (hstage : l.stage = .answeringLast) (hended : s.service.hasEnded)
      (hdone : s.done = []) : Course live l s (some .interrupted)
  | closes {why : Halt} (hwhy : why ≠ .unreadable) (hstage : l.stage = .closing) (hlive : live = [])
      (hended : s.service.hasEnded) (hdone : s.done = []) : Course live l s (some why)
  | ends {why : Halt} (hwhy : why ≠ .unreadable) (hstage : l.stage = .ended)
      (hended : s.service.hasEnded) (hfin : l.writer.finished)
      (hdone : ∀ d ∈ s.done, d = (0, Answer.stopped)) : Course live l s (some why)
  /-- At a line that is no text the host ends. -/
  | fails (hstage : l.stage = .ended) (hunasked : Unasked s)
      (hdone : ∀ d ∈ s.done, d = (0, Answer.fault .invalidData)) :
      Course live l s (some .unreadable)

/-- What a step of somebody else leaves of a lines host. -/
structure Spares (live live' : List Nat) (l l' : LinesHost) (s t : Session) : Prop where
  stage : l'.stage = l.stage
  ended : s.service.hasEnded → t.service.hasEnded
  unasked : Unasked s → Unasked t
  live : live = [] → live' = []
  closed : l.writer.finished → l'.writer.finished
  opened : l'.writer.finished → l.writer.finished ∨ l.isSilent
  done : t.done = s.done

/-- **A step of somebody else** leaves the host at its stage. -/
theorem Course.step {why : Option Halt} (h : Course live l s why) (hs : Spares live live' l l' s t) :
    Course live' l' t why := by
  have hstage := hs.stage
  have hdone := hs.done
  cases h with
  -- The host that reads is the only one that says something about its writer.
  | reads hreads hunfinished hunasked hnone =>
      have hreading : l'.isReading := by
        unfold LinesHost.isReading
        rw [hstage]
        exact hreads
      refine .reads hreading (fun hfin => ?_) (hs.unasked hunasked) (hdone.trans hnone)
      -- The writer had finished before, or it has, as nothing more could come.
      rcases hs.opened hfin with hfin | hsilent
      · exact hunfinished hfin
      -- A host that reads may still send frames to the writer.
      · unfold LinesHost.isReading at hreads
        unfold LinesHost.isSilent at hsilent
        revert hreads hsilent
        cases l.stage <;> simp
  | answers h hunasked hnone =>
      exact .answers (hstage.trans h) (hs.unasked hunasked) (hdone.trans hnone)
  | stops h hnil hnone => exact .stops (hstage.trans h) (hs.live hnil) (hdone.trans hnone)
  | breaksOff h hnone => exact .breaksOff (hstage.trans h) (hdone.trans hnone)
  | answersLast h hend hnone =>
      exact .answersLast (hstage.trans h) (hs.ended hend) (hdone.trans hnone)
  | closes hwhy h hnil hend hnone =>
      exact .closes hwhy (hstage.trans h) (hs.live hnil) (hs.ended hend) (hdone.trans hnone)
  | ends hwhy h hend hfin htold =>
      exact .ends hwhy (hstage.trans h) (hs.ended hend) (hs.closed hfin) (hdone ▸ htold)
  | fails h hunasked htold =>
      exact .fails (hstage.trans h) (hs.unasked hunasked) (hdone ▸ htold)

/-- A lines host that reads no further, with the frames `fs` handed out.  Whichever stage it has
come to, it is one on the way out for that reason. -/
def Halted (L : Law) (fs : List String) (why : Halt) (s : Session) : Prop :=
  ∃ gone live l, Manned L (spare s.ownsHandle l.stage) fs gone live l s ∧ Course live l s (some why)

/-! ## From stage to stage -/

namespace Manned

/-- **The host ends**, whatever it answers to the one who runs it. -/
theorem endLines (h : Manned L (spare s.ownsHandle .closing) fs gone live l s)
    (hstop : L.AllowsStop) (a : Answer) :
    Manned L (spare (s.endLines 0 0 (some a)).ownsHandle .ended) fs gone live
        { l with input := [], stage := .ended } (s.endLines 0 0 (some a)) ∧
      (s.service.hasEnded → (s.endLines 0 0 (some a)).service.hasEnded) ∧
        (Unasked s → Unasked (s.endLines 0 0 (some a))) ∧
        ∀ d ∈ (s.endLines 0 0 (some a)).done, d ∈ s.done ∨ d = (0, a) := by
  have hnoted := (Within.modifyLines (f := fun l => { l with input := [], stage := .ended }) s
    (fun _ => rfl) fun _ => rfl).trans (.hushWriter _)
  -- The host notes that it has ended, gives its handle back, and its call is over.
  have hended := h.step hnoted rfl rfl rfl
  have hbody : s.endLines 0 0 (some a) =
      (((s.modifyLines 0 fun l => { l with input := [], stage := .ended }).hushWriter 0).unshare
        ).endCall 0 (some a) := rfl
  rw [hbody]
  generalize (s.modifyLines 0 fun l => { l with input := [], stage := .ended }).hushWriter 0 = t at *
  have hgiven : Alters id t t.unshare := .setService t _
  have hmove : t.service.move .unshare = some t.service.unshare :=
    if_pos (hended.handles_pos (Nat.succ_pos _))
  -- Ending the call does not touch the service.
  have hservice : (t.unshare.endCall 0 (some a)).service = t.unshare.service := by
    unfold Session.endCall
    split <;> rfl
  refine ⟨?_, fun hends => ?_, fun hunasked => ?_, fun d hd => ?_⟩
  · rw [owns_endCall, hgiven.owns, hnoted.alters.owns]
    exact (hended.unshare hstop).endCall 0 (some a)
  · rw [hservice]
    exact hasEnded_setService hmove (hnoted.neutral.service ▸ hends)
  · have hkept : Unasked t := by
      unfold Unasked
      rw [hnoted.neutral.service]
      exact hunasked
    exact hkept.of_move hmove nofun (hservice.trans (service_setService t _))
  · rcases done_endCall _ d hd with hmem | heq
    · rw [hgiven.done, hnoted.alters.done] at hmem
      exact .inl hmem
    · exact .inr heq

variable {why : Halt}

/-- The host waits for its writer. -/
theorem awaitWriter (h : Manned L (spare s.ownsHandle .closing) fs gone [] l s)
    (hstop : L.AllowsStop) (hwhy : why ≠ .unreadable) (hstage : l.stage = .closing)
    (hended : s.service.hasEnded) (hdone : s.done = []) : Halted L fs why (s.awaitWriter 0) := by
  rw [h.awaitWriter_eq]
  split
  · rename_i hfin
    obtain ⟨hmanned, hends, -, htold⟩ := h.endLines hstop .stopped
    refine ⟨gone, [], { l with input := [], stage := .ended }, hmanned,
      .ends hwhy rfl (hends hended) hfin fun d hd => ?_⟩
    rcases htold d hd with hmem | heq
    · rw [hdone] at hmem
      exact absurd hmem List.not_mem_nil
    · exact heq
  · exact ⟨gone, [], l, by rw [hstage]; exact h, .closes hwhy hstage rfl hended hdone⟩

/-- The host has no more frames to write. -/
theorem closeLines (h : Manned L (spare s.ownsHandle .closing) fs gone [] l s)
    (hstop : L.AllowsStop) (hwhy : why ≠ .unreadable) (hended : s.service.hasEnded)
    (hdone : s.done = []) : Halted L fs why (s.closeLines 0) := by
  have hnoted := (Within.modifyLines (f := fun l => { l with stage := .closing }) s
    (fun _ => rfl) fun _ => rfl).trans (.hushWriter _)
  have hclosing := h.step hnoted rfl rfl rfl
  rw [← hnoted.alters.owns] at hclosing
  exact hclosing.awaitWriter hstop hwhy rfl (hnoted.neutral.service ▸ hended)
    (hnoted.alters.done.trans hdone)

/-- An interrupted host waits until the requests read are answered. -/
theorem answerLast (h : Manned L (spare s.ownsHandle .closing) fs gone live l s)
    (hstop : L.AllowsStop) (hended : s.service.hasEnded) (hdone : s.done = []) :
    Halted L fs .interrupted (s.answerLast 0) := by
  rw [h.answerLast_eq]
  -- All handlers are done, or the host waits for them.
  split
  · rename_i hnil
    subst hnil
    exact h.closeLines hstop nofun hended hdone
  · have hnoted := Within.modifyLines (f := fun l => { l with stage := .answeringLast }) s
      (fun _ => rfl) fun _ => rfl
    exact ⟨gone, live, { l with stage := .answeringLast }, h.step hnoted rfl rfl rfl,
      .answersLast rfl hended hdone⟩

/-- The host has the service stop. -/
theorem beginsStop (h : Manned L (spare s.ownsHandle .closing) fs gone live l s)
    (hstop : L.AllowsStop) (interrupted : Bool) (hdone : s.done = [])
    (hcourse : ∀ l t, l.stage = .stopping interrupted → t.done = [] →
      Course live l t (some why)) :
    Halted L fs why ((s.modifyLines 0 fun l => { l with stage := .stopping interrupted }).stopService
      (.lines 0)) := by
  -- The host notes that it stops, and then asks.
  have hnoted := Within.modifyLines (f := fun l => { l with stage := .stopping interrupted }) s
    (fun _ => rfl) fun _ => rfl
  have hstopping := h.step hnoted rfl rfl rfl
  have hasked := Alters.setService
    (s.modifyLines 0 fun l => { l with stage := .stopping interrupted }) (s.service.stop (.lines 0))
  have howns : (Session.stopService (s.modifyLines 0 fun l =>
    { l with stage := .stopping interrupted }) (.lines 0)).ownsHandle = s.ownsHandle := hasked.owns
  refine ⟨gone, live, { l with stage := .stopping interrupted }, ?_,
    hcourse _ _ rfl (hasked.done.trans hdone)⟩
  rw [howns]
  exact hstopping.stopService hstop (spare_pos (by simp) _) (.lines 0)

/-- The host has the service stop, once all requests read are answered. -/
theorem stopForEnd (h : Manned L (spare s.ownsHandle .closing) fs gone [] l s)
    (hstop : L.AllowsStop) (hdone : s.done = []) : Halted L fs .endOfInput (s.stopFor 0 false) := by
  unfold Session.stopFor
  split
  -- A service that has ended does not have to be asked.
  · rename_i hended
    exact h.closeLines hstop nofun hended hdone
  · exact h.beginsStop hstop false hdone fun l t hstage hnone => .stops hstage rfl hnone

/-- An interrupted host has the service stop at once. -/
theorem stopForInterruption (h : Manned L (spare s.ownsHandle .closing) fs gone live l s)
    (hstop : L.AllowsStop) (hdone : s.done = []) : Halted L fs .interrupted (s.stopFor 0 true) := by
  unfold Session.stopFor
  split
  · rename_i hended
    exact h.answerLast hstop hended hdone
  · exact h.beginsStop hstop true hdone fun l t hstage hnone => .breaksOff hstage hnone

/-- A host at the end of its input waits until the requests read are answered. -/
theorem answerLines (h : Manned L (spare s.ownsHandle .closing) fs gone live l s)
    (hstop : L.AllowsStop) (hunasked : Unasked s) (hdone : s.done = []) :
    Halted L fs .endOfInput (s.answerLines 0) := by
  rw [h.answerLines_eq]
  split
  -- All handlers are done, or the host waits for them.
  · rename_i hnil
    subst hnil
    exact h.stopForEnd hstop hdone
  · have hnoted := Within.modifyLines (f := fun l => { l with stage := .answering }) s
      (fun _ => rfl) fun _ => rfl
    exact ⟨gone, live, { l with stage := .answering }, h.step hnoted rfl rfl rfl,
      .answers rfl hunasked hdone⟩

/-- A line that is no text ends the host at once. -/
theorem fail (h : Manned L (spare s.ownsHandle .closing) fs gone live l s)
    (hstop : L.AllowsStop) (hunasked : Unasked s) (hdone : s.done = []) :
    -- Neither the handlers nor the writer are waited for.
    Halted L fs .unreadable (s.endLines 0 0 (some (.fault .invalidData))) := by
  obtain ⟨hmanned, -, hkept, htold⟩ := h.endLines hstop (.fault .invalidData)
  refine ⟨gone, live, { l with input := [], stage := .ended }, hmanned,
    .fails rfl (hkept hunasked) fun d hd => ?_⟩
  rcases htold d hd with hmem | heq
  · rw [hdone] at hmem
    exact absurd hmem List.not_mem_nil
  · exact heq

/-- **A host that reads no further goes from stage to stage.** -/
theorem runLines (h : Manned L (spare s.ownsHandle l.stage) fs gone live l s)
    (hcourse : Course live l s (some why)) (hstop : L.AllowsStop) :
    Halted L fs why (s.runLines 0) := by
  obtain ⟨l₀, hl₀, rfl⟩ := h.exists_host
  have hcall : l₀.call = 0 := h.call
  have hkept : ¬ s.isAbandoned 0 := h.not_isAbandoned 0
  -- A turn in which nothing has come about changes nothing.
  have hsame : Halted L fs why s := ⟨gone, live, l₀.plain, h, hcourse⟩
  have hplain : l₀.plain.stage = l₀.stage := rfl
  unfold Session.runLines
  rw [hl₀, List.getElem?_cons_zero]
  dsimp only
  rw [hcall, if_neg hkept]
  -- One case for each stage at which the host reads no further.
  cases hcourse with
  | answers hstage hunasked hdone =>
      rw [hstage] at h
      rw [← hplain, hstage, if_neg nofun]
      exact h.answerLines hstop hunasked hdone
  | stops hstage hlive hdone =>
      subst hlive
      rw [hstage] at h
      rw [← hplain, hstage, if_neg nofun]
      dsimp only
      split
      -- It has heard of the stop, so the service has ended.
      · rename_i hheard
        have hended := h.notified l₀ (hl₀ ▸ List.mem_singleton_self l₀) hheard
        exact h.closeLines hstop nofun hended hdone
      · exact hsame
  | breaksOff hstage hdone =>
      rw [hstage] at h
      rw [← hplain, hstage, if_neg nofun]
      dsimp only
      split
      -- It has heard of the stop; what is still in work has been given up.
      · rename_i hheard
        have hended := h.notified l₀ (hl₀ ▸ List.mem_singleton_self l₀) hheard
        exact h.answerLast hstop hended hdone
      · exact hsame
  | answersLast hstage hended hdone =>
      rw [hstage] at h
      rw [← hplain, hstage, if_neg nofun]
      exact h.answerLast hstop hended hdone
  | closes hwhy hstage hlive hended hdone =>
      subst hlive
      rw [hstage] at h
      rw [← hplain, hstage, if_neg nofun]
      exact h.awaitWriter hstop hwhy hstage hended hdone
  | ends _ hstage | fails hstage =>
      rw [← hplain, hstage, if_pos rfl]
      exact hsame

end Manned

end AvatarPool.Session
