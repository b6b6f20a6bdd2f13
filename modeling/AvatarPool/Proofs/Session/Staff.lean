import AvatarPool.Proofs.Session.Hearing

/-! # A lines host with its handlers and its writer, under a law

Every frame that a lines host hands out is in the care of one handler.  `Staffed` keeps the accounts:
of the handlers some are still at work, and each of the others has made the proper reply to its
frame, or rightly none; what has been written and what the writer still has to write are these
replies, in some order.

The numbers of the handlers are the positions of their frames in `fs`.  So the accounts are two
permutations: those that are gone and those at work are together the positions of `fs` (`parted`),
and what stands in the output and in the queue is what those that are gone have replied (`replies`).
A turn of a handler moves one number from `live` to `gone` and one reply into the queue; a turn of
the writer moves the queue to the output. -/

namespace AvatarPool

namespace Writer

/-- An output without a limit accepts all that is queued. -/
theorem flush_of_limit {w : Writer} (h : w.limit = none) :
    w.flush.2 = w.queue ∧ ∃ size, w.flush.1 = { w with queue := [], written := size } := by
  -- By induction on the frames that are left, with those already written in reverse order.
  have hfrom : ∀ (fs done : List String) (w : Writer), w.limit = none →
      (w.writeFrom done fs).2 = done.reverse ++ fs ∧
        ∃ size, (w.writeFrom done fs).1 = { w with queue := [], written := size } := by
    intro fs
    induction fs with
    | nil => exact fun done w _ => ⟨by rw [writeFrom, List.append_nil], w.written, rfl⟩
    | cons f fs ih =>
        intro done w hw
        -- Without a limit no write fails, neither that of a frame nor that of its line break.
        have hwrite : ∀ size, ∀ w : Writer, w.limit = none →
            w.write size = some { w with written := w.written + size } := by
          intro size w hw
          rw [write, hw]
        rw [writeFrom, hwrite _ w hw]
        dsimp only
        rw [hwrite 1 { w with written := w.written + (Text.utf8 f).length } hw]
        obtain ⟨hframes, size, hwriter⟩ :=
          ih (f :: done) { w with written := w.written + (Text.utf8 f).length + 1 } hw
        exact ⟨by rw [hframes]; simp, size, hwriter⟩
  exact hfrom w.queue [] w h

end Writer

namespace Session

/-- What stays of a lines host when it hands out frames or writes. -/
def LinesHost.still (l : LinesHost) : LinesStage × List UInt8 × Bool := (l.stage, l.input, l.atEnd)

/-- What stays of a lines host when it reads or goes to another stage. -/
def LinesHost.staff (l : LinesHost) : Nat × Bool × Nat × Writer :=
  (l.call, l.cancelled, l.inFlight, l.writer)

/-- The writer of a lines host after a turn in which it was open. -/
def LinesHost.written (l : LinesHost) : Writer :=
  let writer := l.writer.flush.1
  if writer.isOpen && l.isSilent then { writer with finished := true } else writer

/-- A writer without a limit writes all that is queued, and finishes only if no more can come. -/
theorem LinesHost.written_of_limit (l : LinesHost) (hlimit : l.writer.limit = none)
    (hunbroken : ¬ l.writer.failed) :
    l.written.limit = none ∧ ¬ l.written.failed ∧ l.written.queue = [] ∧
      (l.written.finished → l.writer.finished ∨ l.isSilent) := by
  obtain ⟨-, size, hwriter⟩ := Writer.flush_of_limit (w := l.writer) hlimit
  unfold LinesHost.written
  dsimp only
  rw [hwriter]
  -- It finishes if the host is silent: no handler is at work, and the input is done.
  split
  · rename_i hsilent
    exact ⟨hlimit, hunbroken, rfl, fun _ => .inr (Bool.and_eq_true_iff.mp hsilent).2⟩
  · exact ⟨hlimit, hunbroken, rfl, .inl⟩

/-- The turn of an open writer: it flushes its queue, and wakes a host that waits for it once it has
finished. -/
theorem runWriter_eq {s : Session} {i : Nat} {l : LinesHost} (hl : s.linesHosts[i]? = some l)
    (hopen : l.writer.isOpen) :
    s.runWriter i =
      if !l.written.isOpen && l.stage == .closing then
        { s.modifyLines i fun l' => { l' with writer := l.written } with
          frames := s.frames ++ l.writer.flush.2 }.wake (.lines i)
      else
        { s.modifyLines i fun l' => { l' with writer := l.written } with
          frames := s.frames ++ l.writer.flush.2 } := by
  unfold runWriter
  rw [hl]
  exact if_neg (by simpa using hopen)

/-- Whether a move is one that hosts and handlers make: a request, or a handle that comes or goes. -/
def Move.isVisit {ω : Type} : Move ω → Bool
  | .request _ _ | .share | .unshare => true
  | _ => false

/-- **A visit**: somebody makes one such move, and otherwise nothing changes that a host looks at. -/
structure Visits (s t : Session) : Prop where
  -- The move is the only one, and its outputs have been carried out.
  service : ∃ m v, Move.isVisit m ∧ s.service.move m = some v ∧ t.service = { v with outputs := [] }
  notified : Notified s → Notified t
  done : t.done = s.done
  owns : t.ownsHandle = s.ownsHandle

namespace Visits

variable {s t : Session}

theorem hasEnded (h : Visits s t) (hended : s.service.hasEnded) : t.service.hasEnded := by
  obtain ⟨m, v, -, hmove, hservice⟩ := h.service
  rw [hservice]
  exact (Service.stopAnswers_of_hasEnded hended hmove).1

/-- A visit is not a stop. -/
theorem unasked (h : Visits s t) (hs : Unasked s) : Unasked t := by
  obtain ⟨m, v, hm, hmove, hservice⟩ := h.service
  refine hs.of_move hmove ?_ hservice
  cases m with
  | request | share | unshare => nofun
  | _ => cases hm

end Visits

variable {L : Law} {base base' : Nat} {fs : List String} {gone : List (Nat × Option Response)}
  {live : List Nat} {l : LinesHost} {s t u : Session}

/-! ## The accounts of a lines host -/

/-- **A lines host that has handed out the frames `fs`**: the handlers `live` still work on theirs,
and those that are `gone` have made a proper reply.  The output accepts whatever is written, and the
one who runs the host stays. -/
structure Staffed (L : Law) (base : Nat) (fs : List String) (gone : List (Nat × Option Response))
    (live : List Nat) (l : LinesHost) (s : Session) : Prop where
  kept : Kept L base live s
  -- There is one lines host, run by the first call.
  host : s.linesHosts.map LinesHost.plain = [l]
  call : l.call = 0
  limit : l.writer.limit = none
  unbroken : ¬ l.writer.failed
  callers : ∀ c ∈ s.calls, ¬ c.abandoned
  -- Every handler has one of the frames, in the order in which they were handed out.
  errands : s.handlers.map Handler.errand = fs.map fun f => (.lines 0, f)
  counted : l.inFlight = live.length
  -- Everyone who has been given a frame is gone or at work, and not both.
  parted : (gone.map Prod.fst ++ live).Perm (List.range fs.length)
  proper : ∀ g ∈ gone, ∃ f, fs[g.1]? = some f ∧ Proper L f g.2
  replies : (s.frames ++ l.writer.queue).Perm ((gone.filterMap Prod.snd).map Response.frame)
  -- A writer finishes only when nothing can come any more.
  closed : l.writer.finished → live = [] ∧ l.writer.queue = []

/-- A list is read off at its positions. -/
theorem filterMap_range {α : Type} (xs : List α) :
    (List.range xs.length).filterMap (fun n => xs[n]?) = xs := by
  have hmap : (List.range xs.length).map (fun n => xs[n]?) = xs.map some := by
    refine List.ext_getElem (by simp) fun n hn hn' => ?_
    have hlt : n < xs.length := by simpa using hn
    simp [hlt]
  calc (List.range xs.length).filterMap (fun n => xs[n]?)
      = ((List.range xs.length).map fun n => xs[n]?).filterMap id := by
        rw [List.filterMap_map]; rfl
    _ = xs := by rw [hmap, List.filterMap_map]; exact List.filterMap_some

namespace Staffed

theorem exists_host (h : Staffed L base fs gone live l s) :
    ∃ l₀, s.linesHosts = [l₀] ∧ l₀.plain = l := List.map_eq_singleton_iff.mp h.host

theorem length_handlers (h : Staffed L base fs gone live l s) : s.handlers.length = fs.length := by
  have hlength := congrArg List.length h.errands
  rwa [List.length_map, List.length_map] at hlength

/-- A handler has the frame at its position. -/
theorem errand_of_getElem? (h : Staffed L base fs gone live l s) {n : Nat} {x : Handler}
    (hx : s.handlers[n]? = some x) : x.outlet = .lines 0 ∧ fs[n]? = some x.frame := by
  have hget := congrArg (fun es : List (Outlet × String) => es[n]?) h.errands
  simp only [List.getElem?_map, hx, Option.map_some] at hget
  obtain ⟨f, hf, heq⟩ := Option.map_eq_some_iff.mp hget.symm
  cases x
  cases heq
  exact ⟨rfl, hf⟩

/-- The handlers have the frames that were handed out. -/
theorem map_frame (h : Staffed L base fs gone live l s) : s.handlers.map Handler.frame = fs := by
  calc s.handlers.map Handler.frame
      = (s.handlers.map Handler.errand).map Prod.snd := by rw [List.map_map]; rfl
    _ = (fs.map fun f => ((.lines 0, f) : Outlet × String)).map Prod.snd := by rw [h.errands]
    _ = fs := by rw [List.map_map]; exact List.map_id fs

/-- **The frames handed out are settled or open**: each of the settled ones has its reply, and only
handlers at work have open ones. -/
theorem accounts (h : Staffed L base fs gone live l s) :
    ∃ settled left, fs.Perm (settled ++ left) ∧
      List.Forall₂ (Proper L) settled (gone.map Prod.snd) ∧ (live = [] → left = []) := by
  have hsplit := h.parted.filterMap fun n => fs[n]?
  rw [filterMap_range, List.filterMap_append, List.filterMap_map] at hsplit
  refine ⟨_, _, hsplit.symm, ?_, fun hnil => by rw [hnil]; rfl⟩
  -- Those who are gone have made proper replies, one after the other.
  have hproper := h.proper
  clear hsplit
  generalize gone = gs at hproper
  induction gs with
  | nil => exact .nil
  | cons g gs ih =>
      obtain ⟨f, hf, hg⟩ := hproper g List.mem_cons_self
      rw [List.filterMap_cons, Function.comp_apply, hf]
      exact .cons hg (ih fun g' hg' => hproper g' (List.mem_cons_of_mem g hg'))

/-- Nobody who runs a host has gone away. -/
theorem not_isAbandoned (h : Staffed L base fs gone live l s) (n : Nat) : ¬ s.isAbandoned n := by
  unfold isAbandoned
  cases hc : s.calls[n]? with
  | none => exact Bool.false_ne_true
  | some c => exact h.callers c (List.mem_of_getElem? hc)

/-- While a handler is at work the writer is open. -/
theorem isOpen_of_mem (h : Staffed L base fs gone live l s) {n : Nat} (hn : n ∈ live) :
    l.writer.isOpen := by
  have hfailed := h.unbroken
  have hfinished : ¬ l.writer.finished := fun hfin =>
    absurd ((h.closed hfin).1 ▸ hn) List.not_mem_nil
  simp [Writer.isOpen, hfailed, hfinished]

/-- The service is open as long as somebody besides the handlers holds a handle. -/
theorem handles_pos (h : Staffed L base fs gone live l s) (hpos : 0 < base) :
    0 < s.service.handles := by
  have hhandles := h.kept.handles
  omega

/-- A step that leaves the staff alone, but for whether the host is cancelled. -/
theorem alter {f : LinesHost → LinesHost} (h : Staffed L base fs gone live l s) (ha : Alters f s t)
    (ht : Kept L base' live t) (hcall : (f l).call = l.call) (hcount : (f l).inFlight = l.inFlight)
    (hwriter : (f l).writer = l.writer) : Staffed L base' fs gone live (f l) t := by
  refine ⟨ht, ha.host l h.host, hcall ▸ h.call, hwriter ▸ h.limit, hwriter ▸ h.unbroken,
    ha.callers h.callers, ha.errands.trans h.errands, hcount ▸ h.counted, h.parted, h.proper, ?_,
    hwriter ▸ h.closed⟩
  rw [ha.frames, hwriter]
  exact h.replies

/-- A step within the host that leaves the staff alone. -/
theorem within {f : LinesHost → LinesHost} (h : Staffed L base fs gone live l s)
    (hw : Within f s t) (hcall : (f l).call = l.call) (hcount : (f l).inFlight = l.inFlight)
    (hwriter : (f l).writer = l.writer) : Staffed L base fs gone live (f l) t :=
  h.alter hw.alters (h.kept.neutral hw.neutral) hcall hcount hwriter

/-! ## Handlers come and go -/

/-- A frame is handed to a new handler. -/
theorem addHandler (h : Staffed L base fs gone live l s) (hpos : 0 < base)
    (hopen : ¬ l.writer.finished) (f : String) :
    Staffed L base (fs ++ [f]) gone (live ++ [fs.length]) { l with inFlight := l.inFlight + 1 }
      (s.addHandler (.lines 0) f) := by
  have hkept := h.kept.addHandler (h.handles_pos hpos) (.lines 0) f
  rw [h.length_handlers] at hkept
  have halters := Alters.addHandler s f
  refine ⟨hkept, halters.host l h.host, h.call, h.limit, h.unbroken, halters.callers h.callers,
    halters.errands.trans ?_, ?_, ?_, fun g hg => ?_, ?_, fun hfin => absurd hfin hopen⟩
  -- The frame and its handler come last.
  · rw [List.map_append, List.map_append, h.errands]
    rfl
  · rw [List.length_append, h.counted]
    rfl
  -- Its number is the next position.
  · rw [List.length_append, List.length_singleton, List.range_succ, ← List.append_assoc]
    exact h.parted.append_right _
  -- Those that are gone have replied to frames that stand where they stood.
  · obtain ⟨f', hf', hproper⟩ := h.proper g hg
    refine ⟨f', ?_, hproper⟩
    rw [List.getElem?_append_left (List.getElem?_eq_some_iff.mp hf').1]
    exact hf'
  · rw [halters.frames]
    exact h.replies

/-- A handler that has made its reply is gone. -/
theorem conclude (h : Staffed L base fs gone live l s) {n : Nat} (hturn : MayTurn live s n)
    {x : Handler} (hx : s.handlers[n]? = some x) {r : Option Response}
    (hr : Proper L x.frame r) :
    Staffed L base fs (gone ++ [(n, r)]) (live.erase n)
      { l with
        writer := { l.writer with queue := l.writer.queue ++ (r.map Response.frame).toList }
        inFlight := l.inFlight - 1 }
      ({ s with agenda := s.agenda.erase (.handler n) }.conclude (.lines 0) r) := by
  obtain ⟨-, hf⟩ := h.errand_of_getElem? hx
  have hconcluded := (h.kept.retire hturn).conclude (.lines 0) r
  have halters := Alters.conclude { s with agenda := s.agenda.erase (.handler n) } r
  -- The writer is open, so the reply is queued.
  have hwriter : (r.elim l.writer fun r => l.writer.push r.frame) =
      { l.writer with queue := l.writer.queue ++ (r.map Response.frame).toList } := by
    cases r with
    | none => simp
    | some r => exact if_pos (h.isOpen_of_mem hturn.1)
  have hhost := halters.host l h.host
  rw [hwriter] at hhost
  refine ⟨hconcluded, hhost, h.call, h.limit, h.unbroken, halters.callers h.callers,
    halters.errands.trans h.errands, ?_, ?_, fun g hg => ?_, ?_, fun hfin => ?_⟩
  · rw [List.length_erase_of_mem hturn.1, ← h.counted]
  -- The handler is counted among those that are gone from now on.
  · rw [List.map_append, List.append_assoc]
    exact ((List.perm_cons_erase hturn.1).symm.append_left _).trans h.parted
  · rcases List.mem_append.mp hg with hold | hnew
    · exact h.proper g hold
    · obtain rfl := List.mem_singleton.mp hnew
      exact ⟨x.frame, hf, hr⟩
  -- What has been written or queued is now one reply more.
  · have hlast : (([(n, r)] : List (Nat × Option Response)).filterMap Prod.snd).map Response.frame =
        (r.map Response.frame).toList := by
      cases r <;> rfl
    rw [halters.frames, List.filterMap_append, List.map_append, hlast, ← List.append_assoc]
    exact h.replies.append_right _
  -- A writer that had finished would have had no handlers.
  · exact absurd ((h.closed hfin).1 ▸ hturn.1) List.not_mem_nil

/-- **The turn of a handler**: it sends its request to a service that has not ended, or it makes its
reply. -/
theorem runHandler (h : Staffed L base fs gone live l s)
    (hrefuse : s.service.hasEnded → L.AllowsStop) {n : Nat} (hn : .handler n ∈ s.agenda) :
    ∃ gone' live' l', Staffed L base fs gone' live' l'
        ({ s with agenda := s.agenda.erase (.handler n) }.runHandler n) ∧
      Visits s ({ s with agenda := s.agenda.erase (.handler n) }.runHandler n) ∧
        l'.still = l.still ∧ l'.cancelled = l.cancelled ∧
          l'.writer.finished = l.writer.finished ∧ live ≠ [] := by
  have hturn := h.kept.orderly.turns n hn
  have hlive : live ≠ [] := List.ne_nil_of_mem hturn.1
  have hhandles := h.kept.handles_pos_of_mem hturn.1
  obtain ⟨x, hx⟩ := h.kept.known n hturn.1
  obtain ⟨hlines, -⟩ := h.errand_of_getElem? hx
  rcases h.kept.runHandler_eq hturn hx hrefuse (s.agenda.erase (.handler n)) with
    ⟨hended, rid, job, hfresh, hread, heq⟩ | ⟨r, hr, heq⟩
  -- It reads a request: the handlers at work stay the same.
  · have hasked := h.kept.ask hended hturn hx hfresh hread
    have halters := (Alters.note s (s.agenda.erase (.handler n)) n rid).trans
      (Alters.setService _ (s.service.request job (.handler n)))
    have hnotified : Notified s → Notified (Session.request { s with
        agenda := s.agenda.erase (.handler n)
        handlers := s.handlers.modify n fun x => { x with id := some rid } } job (.handler n)) := by
      intro hnotified
      have hnoted : Notified { s with
        agenda := s.agenda.erase (.handler n)
        handlers := s.handlers.modify n fun x => { x with id := some rid } } := hnotified
      exact hnoted.request h.kept.outputs hhandles job (.handler n)
    have hvisits : Visits s (Session.request { s with
        agenda := s.agenda.erase (.handler n)
        handlers := s.handlers.modify n fun x => { x with id := some rid } } job (.handler n)) :=
      ⟨⟨.request job (.handler n), _, rfl, if_pos hhandles, service_setService _ _⟩, hnotified,
        halters.done, halters.owns⟩
    rw [heq]
    exact ⟨gone, live, l, h.alter halters hasked rfl rfl rfl, hvisits, rfl, rfl, rfl, hlive⟩
  -- It makes its reply: from now on it is gone.
  · have halters := Alters.conclude { s with agenda := s.agenda.erase (.handler n) } r
    have hnotified : Notified s →
        Notified ({ s with agenda := s.agenda.erase (.handler n) }.conclude (.lines 0) r) := by
      intro hnotified
      have herased : Notified { s with agenda := s.agenda.erase (.handler n) } := hnotified
      exact herased.conclude h.kept.outputs hhandles r
    have hvisits : Visits s ({ s with agenda := s.agenda.erase (.handler n) }.conclude (.lines 0) r) :=
      ⟨⟨.unshare, _, rfl, if_pos hhandles, (service_conclude _ _ r).trans (service_setService _ _)⟩,
        hnotified, halters.done, halters.owns⟩
    rw [heq, hlines]
    exact ⟨_, _, _, h.conclude hturn hx hr, hvisits, rfl, rfl, rfl, hlive⟩

/-! ## The host goes on -/

/-- There is one lines host, and no other takes a turn. -/
theorem getElem?_linesHosts (h : Staffed L base fs gone live l s) {i : Nat} (hi : i ≠ 0) :
    s.linesHosts[i]? = none := by
  obtain ⟨l₀, hl₀, -⟩ := h.exists_host
  rw [hl₀, List.getElem?_eq_none_iff, List.length_singleton]
  omega

theorem runLines_of_ne (h : Staffed L base fs gone live l s) {i : Nat} (hi : i ≠ 0) :
    s.runLines i = s := by
  unfold Session.runLines
  rw [h.getElem?_linesHosts hi]

theorem runWriter_of_ne (h : Staffed L base fs gone live l s) {i : Nat} (hi : i ≠ 0) :
    s.runWriter i = s := by
  unfold Session.runWriter
  rw [h.getElem?_linesHosts hi]

/-- A host that waits for its writer ends once that has finished. -/
theorem awaitWriter_eq (h : Staffed L base fs gone live l s) :
    s.awaitWriter 0 = if l.writer.finished then s.endLines 0 0 (some .stopped) else s := by
  obtain ⟨l₀, hl₀, rfl⟩ := h.exists_host
  have hunbroken : ¬ l₀.writer.failed := h.unbroken
  have hcall : l₀.call = 0 := h.call
  unfold Session.awaitWriter
  rw [hl₀, List.getElem?_cons_zero]
  dsimp only
  rw [if_neg hunbroken, hcall]
  rfl

theorem inFlight_eq_zero_iff (h : Staffed L base fs gone live l s) : l.inFlight = 0 ↔ live = [] := by
  rw [h.counted, List.length_eq_zero_iff]

/-- A host that waits for its handlers goes on once none is left. -/
theorem answerLines_eq (h : Staffed L base fs gone live l s) :
    s.answerLines 0 = if live = [] then s.stopFor 0 false
      else s.modifyLines 0 fun l => { l with stage := .answering } := by
  obtain ⟨l₀, hl₀, rfl⟩ := h.exists_host
  have hidle : l₀.inFlight = 0 ↔ live = [] := h.inFlight_eq_zero_iff
  unfold Session.answerLines
  rw [hl₀, List.getElem?_cons_zero]
  simp only [hidle]

/-- A host that has stopped the service waits for the last handlers, and closes its writer after
them. -/
theorem answerLast_eq (h : Staffed L base fs gone live l s) :
    s.answerLast 0 = if live = [] then s.closeLines 0
      else s.modifyLines 0 fun l => { l with stage := .answeringLast } := by
  obtain ⟨l₀, hl₀, rfl⟩ := h.exists_host
  have hidle : l₀.inFlight = 0 ↔ live = [] := h.inFlight_eq_zero_iff
  unfold Session.answerLast
  rw [hl₀, List.getElem?_cons_zero]
  simp only [hidle]

/-! ## The writer writes -/

/-- **The turn of the writer**: everything queued is written. -/
theorem runWriter (h : Staffed L base fs gone live l s) :
    ∃ l', Staffed L base fs gone live l' (s.runWriter 0) ∧ l'.still = l.still ∧
      l'.cancelled = l.cancelled ∧ (l.writer.finished → l'.writer.finished) ∧
        (l'.writer.finished → l.writer.finished ∨ l.isSilent) ∧
          (s.runWriter 0).service = s.service ∧ (s.runWriter 0).done = s.done ∧
            (s.runWriter 0).ownsHandle = s.ownsHandle ∧ (Notified s → Notified (s.runWriter 0)) := by
  obtain ⟨l₀, hl₀, rfl⟩ := h.exists_host
  -- A writer that is closed does nothing.
  have hget : s.linesHosts[0]? = some l₀ := by rw [hl₀, List.getElem?_cons_zero]
  by_cases hopen : l₀.writer.isOpen
  · obtain ⟨hframes, -⟩ := Writer.flush_of_limit (w := l₀.writer) h.limit
    obtain ⟨hlimit, hunbroken, hqueue, hfinished⟩ := l₀.written_of_limit h.limit h.unbroken
    have hwrote : Staffed L base fs gone live { l₀.plain with writer := l₀.written }
        { s.modifyLines 0 fun l => { l with writer := l₀.written } with
          frames := s.frames ++ l₀.writer.queue } := by
      refine ⟨h.kept.neutral ⟨rfl, rfl, fun _ hs => hs.of_body rfl rfl⟩, ?_, h.call, hlimit,
        hunbroken, h.callers, h.errands, h.counted, h.parted, h.proper, ?_,
        fun hfin => ⟨?_, hqueue⟩⟩
      · show (s.linesHosts.modify 0 _).map _ = _
        rw [hl₀]
        rfl
      -- What was queued has been written, in the same order.
      · show (s.frames ++ l₀.writer.queue ++ l₀.written.queue).Perm _
        rw [hqueue, List.append_nil]
        exact h.replies
      -- It finishes because it had finished, or because the host is silent, and so no handler is at
      -- work.
      · rcases hfinished hfin with hfin | hsilent
        · exact (h.closed hfin).1
        · simp only [LinesHost.isSilent, Bool.and_eq_true, beq_iff_eq] at hsilent
          exact h.inFlight_eq_zero_iff.mp hsilent.1
    have hnotified : Notified s → Notified { s.modifyLines 0 fun l => { l with writer := l₀.written } with
        frames := s.frames ++ l₀.writer.queue } := by
      intro hnotified
      have hwithin := Within.modifyLines (f := fun l => { l with writer := l₀.written }) s
        (fun _ => rfl) fun _ => rfl
      have hwrote : Notified (s.modifyLines 0 fun l => { l with writer := l₀.written }) :=
        hnotified.within hwithin
      exact hwrote
    refine ⟨{ l₀.plain with writer := l₀.written }, ?_, rfl, rfl, fun hfin => ?_, hfinished, ?_⟩
    -- The host is woken only if its writer has finished and it waits for that.
    · rw [runWriter_eq hget hopen, hframes]
      split
      · exact hwrote.within (.wake (v := .lines 0) _ nofun) rfl rfl rfl
      · exact hwrote
    · have hclosed : l₀.writer.finished = true := hfin
      simp [Writer.isOpen, hclosed] at hopen
    · rw [runWriter_eq hget hopen, hframes]
      split
      · have hwoken := Within.wake (v := .lines 0) { s.modifyLines 0 fun l =>
          { l with writer := l₀.written } with frames := s.frames ++ l₀.writer.queue } nofun
        exact ⟨hwoken.neutral.service, hwoken.alters.done, hwoken.alters.owns,
          fun hs => (hnotified hs).within hwoken⟩
      · exact ⟨rfl, rfl, rfl, hnotified⟩
  · have hsame : s.runWriter 0 = s := by
      unfold Session.runWriter
      rw [hget]
      exact if_pos (by simpa using hopen)
    rw [hsame]
    exact ⟨l₀.plain, h, rfl, rfl, id, .inl, rfl, rfl, rfl, id⟩

/-! ## The call of the host ends -/

/-- The call that runs the host ends; neither the handlers nor the writer notice. -/
theorem endCall (h : Staffed L base fs gone live l s) (n : Nat) (a : Option Answer) :
    Staffed L base fs gone live l (s.endCall n a) := by
  unfold Session.endCall
  split
  · refine ⟨h.kept.neutral ⟨rfl, rfl, fun _ hs => hs.of_body rfl rfl⟩, h.host, h.call, h.limit,
      h.unbroken, fun c hc => ?_, h.errands, h.counted, h.parted, h.proper, h.replies, h.closed⟩
    obtain ⟨k, hk⟩ := List.getElem?_of_mem hc
    have hget : (s.calls.modify n fun c => { c with waiting := false })[k]? = some c := hk
    rw [List.getElem?_modify] at hget
    obtain ⟨c', hc', rfl⟩ := Option.map_eq_some_iff.mp hget
    have hkept := h.callers c' (List.mem_of_getElem? hc')
    split <;> exact hkept
  · exact h

end Staffed

/-- A call that ends is told its answer, and nobody else is told anything. -/
theorem done_endCall {n : Nat} {a : Answer} (s : Session) :
    ∀ d ∈ (s.endCall n (some a)).done, d ∈ s.done ∨ d = (n, a) := by
  intro d hd
  unfold endCall at hd
  split at hd
  · refine (List.mem_append.mp hd).imp_right fun hnew => ?_
    split at hnew
    · exact absurd hnew List.not_mem_nil
    · exact List.mem_singleton.mp hnew
  · exact .inl hd

theorem owns_endCall (s : Session) (n : Nat) (a : Option Answer) :
    (s.endCall n a).ownsHandle = s.ownsHandle := by
  unfold endCall
  split <;> rfl

end Session

end AvatarPool
