import AvatarPool.Proofs.Session.Moves

/-! # What the service of a session leaves alone

A lines host hears from the service only that it has stopped, and no handler gets another errand.
`Alters f` says of a step that it changes the only lines host of a session by `f`, and nothing else
that is read, counted or written.

Steps compose (`Alters.trans`), with what they do to the host composed as well; so the effect of a
larger operation is read off its parts.  The host is compared up to whether it has heard of the
stop, because that is the one thing which the service may tell it at any time. -/

namespace AvatarPool.Session

/-- A lines host, whether or not it has heard that the service has stopped. -/
def LinesHost.plain (l : LinesHost) : LinesHost := { l with serviceStopped := false }

/-- Where the reply goes, and the frame that it is for. -/
def Handler.errand (x : Handler) : Outlet × String := (x.outlet, x.frame)

/-- **A step that alters the lines host by `f`**: no frame is written, no call ends, no handler
comes, and no caller goes away. -/
structure Alters (f : LinesHost → LinesHost) (s t : Session) : Prop where
  host : ∀ l, s.linesHosts.map LinesHost.plain = [l] → t.linesHosts.map LinesHost.plain = [f l]
  frames : t.frames = s.frames
  done : t.done = s.done
  owns : t.ownsHandle = s.ownsHandle
  errands : t.handlers.map Handler.errand = s.handlers.map Handler.errand
  callers : (∀ c ∈ s.calls, ¬ c.abandoned) → ∀ c ∈ t.calls, ¬ c.abandoned

namespace Alters

variable {f g : LinesHost → LinesHost} {s t u : Session}

/-- First by `f`, then by `g`. -/
theorem trans (h : Alters f s t) (h' : Alters g t u) : Alters (g ∘ f) s u where
  host l hl := h'.host (f l) (h.host l hl)
  frames := h'.frames.trans h.frames
  done := h'.done.trans h.done
  owns := h'.owns.trans h.owns
  errands := h'.errands.trans h.errands
  callers := h'.callers ∘ h.callers

/-- Only the service and the agenda have changed. -/
theorem of_body (service : Service Caller) (h : { t.body with service := service } =
    { s.body with service := service }) : Alters id s t where
  host l hl := by
    have hlines : t.linesHosts = s.linesHosts := (congrArg Session.linesHosts h :)
    rw [hlines]
    exact hl
  frames := (congrArg Session.frames h :)
  done := (congrArg Session.done h :)
  owns := (congrArg Session.ownsHandle h :)
  errands := (congrArg (fun b : Session => b.handlers.map Handler.errand) h :)
  callers hs := by
    have hcalls : t.calls = s.calls := (congrArg Session.calls h :)
    rw [hcalls]
    exact hs

theorem schedule (s : Session) (t : Turn) : Alters id s (s.schedule t) :=
  of_body s.service (by rw [body_schedule])

theorem wake (s : Session) (t : Turn) : Alters id s (s.wake t) :=
  of_body s.service (by rw [body_wake])

theorem share (s : Session) : Alters id s s.share := of_body s.service rfl

/-- The service moves, and its outputs take place. -/
theorem setService (s : Session) (service : Service Caller) :
    Alters id s (s.setService service) := by
  have h := delivered_setService s service
  refine ⟨fun l hl => ?_, (congrArg Session.frames h.unheard :), (congrArg Session.done h.unheard :),
    (congrArg Session.ownsHandle h.unheard :), ?_, fun hs c hc => ?_⟩
  -- The host may have heard that the service has stopped.
  · rw [id_eq, ← hl]
    refine List.ext_getElem? fun i => ?_
    rw [List.getElem?_map, List.getElem?_map]
    rcases h.lines i with hsame | hset
    · rw [hsame]
    · rw [hset, Option.map_map]
      rfl
  -- A handler may have its outcome, for the same frame.
  · refine List.ext_getElem? fun n => ?_
    rw [List.getElem?_map, List.getElem?_map]
    rcases h.handlers n with ⟨hsame, -⟩ | ⟨o, -, hset⟩
    · rw [hsame]
    · rw [hset, Option.map_map]
      rfl
  -- A call may have its answer, and whoever made it is still there.
  · obtain ⟨n, hn⟩ := List.getElem?_of_mem hc
    obtain ⟨c', hc', hears⟩ := h.calls n c hn
    have hkept := hs c' (List.mem_of_getElem? hc')
    rcases hears with rfl | ⟨o, -, rfl⟩ | ⟨r, -, rfl⟩ <;> exact hkept

/-- The lines host is changed where it stands. -/
theorem modifyLines (s : Session) (hf : ∀ l, (f l).plain = f l.plain) :
    Alters f s (s.modifyLines 0 f) where
  host l hl := by
    obtain ⟨l', hl', rfl⟩ := List.map_eq_singleton_iff.mp hl
    show (s.linesHosts.modify 0 f).map LinesHost.plain = _
    rw [hl']
    exact congrArg (fun x => [x]) (hf l')
  frames := rfl
  done := rfl
  owns := rfl
  errands := rfl
  callers := id

theorem hushWriter (s : Session) (i : Nat) : Alters id s (s.hushWriter i) := by
  rcases s.hushWriter_eq i with heq | heq <;> rw [heq]
  · exact wake s _
  · exact of_body s.service rfl

theorem hushLines (s : Session) (i : Nat) : Alters id s (s.hushLines i) := by
  rcases s.hushLines_eq i with heq | heq <;> rw [heq]
  · exact wake s _
  · exact of_body s.service rfl

/-! ## Handlers -/

/-- A handler notes the id of its request. -/
theorem note (s : Session) (agenda : List Turn) (n : Nat) (rid : RequestId) :
    Alters id s { s with
      agenda := agenda
      handlers := s.handlers.modify n fun x => { x with id := some rid } } := by
  refine ⟨fun l hl => hl, rfl, rfl, rfl, ?_, fun hs => hs⟩
  -- Only a handler's id changes, which is not its errand.
  refine List.ext_getElem? fun k => ?_
  rw [List.getElem?_map, List.getElem?_map, List.getElem?_modify]
  cases s.handlers[k]? with
  | none => rfl
  | some x =>
      show some (Handler.errand (if n = k then { x with id := some rid } else x)) = some x.errand
      split <;> rfl

/-- One more or one less request is on its way to the lines host. -/
theorem countInFlight (s : Session) (g : Nat → Nat) :
    Alters (fun l => { l with inFlight := g l.inFlight }) s (s.countInFlight (.lines 0) g) :=
  modifyLines s fun _ => rfl

/-- A frame is handed to a new handler, apart from its errand. -/
theorem addHandler (s : Session) (frame : String) :
    Alters (fun l => { l with inFlight := l.inFlight + 1 })
      { s with handlers := s.handlers ++ [{ outlet := .lines 0, frame := frame }] }
      (s.addHandler (.lines 0) frame) :=
  (share _).trans ((countInFlight _ (· + 1)).trans (schedule _ _))

/-- A reply reaches the writer of the lines host. -/
theorem send (s : Session) (r : Response) :
    Alters (fun l => { l with writer := l.writer.push r.frame }) s (s.send (.lines 0) r) := by
  have hpushed : Alters (fun l => { l with writer := l.writer.push r.frame }) s
      (s.modifyLines 0 fun l => { l with writer := l.writer.push r.frame }) :=
    modifyLines s fun _ => rfl
  unfold Session.send
  dsimp only
  split
  · rename_i l hl
    -- An open output queues the frame; a closed one does nothing.
    split
    · exact hpushed.trans (wake _ _)
    · rename_i hclosed
      have hkept : l.writer.push r.frame = l.writer := if_neg hclosed
      refine ⟨fun l' hl' => ?_, rfl, rfl, rfl, rfl, id⟩
      obtain ⟨l'', hl'', rfl⟩ := List.map_eq_singleton_iff.mp hl'
      rw [hl'', List.getElem?_cons_zero] at hl
      cases hl
      rw [hl']
      exact congrArg (fun w => [{ l.plain with writer := w }]) hkept.symm
  -- There would be no host at all.
  · rename_i hnone
    refine ⟨fun l' hl' => ?_, rfl, rfl, rfl, rfl, id⟩
    obtain ⟨l'', hl'', -⟩ := List.map_eq_singleton_iff.mp hl'
    rw [hl''] at hnone
    cases hnone

/-- A handler has done its part. -/
theorem endHandler (s : Session) :
    Alters (fun l => { l with inFlight := l.inFlight - 1 }) s (s.endHandler (.lines 0)) :=
  (((setService s s.service.unshare).trans (countInFlight _ (· - 1))).trans
    (hushWriter _ 0)).trans (hushLines _ 0)

/-- A handler concludes. -/
theorem conclude (s : Session) (r : Option Response) :
    Alters (fun l => { l with
      writer := r.elim l.writer fun r => l.writer.push r.frame
      inFlight := l.inFlight - 1 }) s (s.conclude (.lines 0) r) := by
  cases r with
  | none => exact endHandler s
  | some r => exact (send s r).trans (endHandler _)

end Alters

end AvatarPool.Session
