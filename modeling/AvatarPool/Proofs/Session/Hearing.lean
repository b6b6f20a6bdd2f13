import AvatarPool.Proofs.Service.StopAnswers
import AvatarPool.Proofs.Session.Scene

/-! # What a lines host does by itself, and what it hears

Most of what a lines host does concerns itself alone: it goes from stage to stage, writes and wakes.
`Within` says so of a step.  From outside it hears but one thing, that the service has ended, and
`Notified` says that it hears this only when it is true.

What the service gives out is followed through `setService`: an output that does not answer a stop
leaves the lines hosts alone (`linesHosts_carryOut`), so a move after which no stop has been
answered leaves them alone as a whole.  The answers to a stop are given by the move that ends the
service, or later; hence a host that hears one is right. -/

namespace AvatarPool.Session

variable {s t u : Session}

/-! ## Steps within the host -/

/-- **A step within the host** alters the lines host by `f`, and neither the service nor a handler;
nor does the host hear of a stop. -/
structure Within (f : LinesHost → LinesHost) (s t : Session) : Prop where
  alters : Alters f s t
  neutral : Neutral s t
  heard : t.linesHosts.map LinesHost.serviceStopped = s.linesHosts.map LinesHost.serviceStopped

namespace Within

variable {f g : LinesHost → LinesHost}

theorem trans (h : Within f s t) (h' : Within g t u) : Within (g ∘ f) s u :=
  ⟨h.alters.trans h'.alters, h.neutral.trans h'.neutral, h'.heard.trans h.heard⟩

/-- Somebody who is no handler is put on the agenda. -/
theorem schedule (s : Session) {v : Turn} (hv : ∀ n, v ≠ .handler n) :
    Within id s (s.schedule v) where
  alters := .schedule s v
  neutral := by
    -- The agenda has changed, and nothing else.
    have hbody := body_schedule s v
    refine ⟨(congrArg Session.service hbody :), (congrArg Session.handlers hbody :), fun P hs => ?_⟩
    exact hs.schedule fun n hn => absurd hn (hv n)
  heard := (congrArg (fun b : Session => b.linesHosts.map LinesHost.serviceStopped)
    (body_schedule s v) :)

/-- Somebody who is no handler is woken. -/
theorem wake (s : Session) {v : Turn} (hv : ∀ n, v ≠ .handler n) : Within id s (s.wake v) where
  alters := .wake s v
  neutral := .wake s hv
  heard := (congrArg (fun b : Session => b.linesHosts.map LinesHost.serviceStopped)
    (body_wake s v) :)

theorem erase (s : Session) (v : Turn) : Within id s { s with agenda := s.agenda.erase v } where
  alters := .of_body s.service rfl
  neutral := ⟨rfl, rfl, fun _ hs => (hs.erase v).mono fun _ hn => hn.1⟩
  heard := rfl

/-- The lines host is changed where it stands. -/
theorem modifyLines (s : Session) (hf : ∀ l, (f l).plain = f l.plain)
    (hheard : ∀ l, (f l).serviceStopped = l.serviceStopped) :
    Within f s (s.modifyLines 0 f) where
  alters := .modifyLines s hf
  neutral := .modifyLines s 0 f
  heard := by
    show (s.linesHosts.modify 0 f).map LinesHost.serviceStopped = _
    -- The host may not be there; then nothing is changed.
    cases s.linesHosts with
    | nil => rfl
    | cons l ls => simp [hheard]

/-- The only lines host is changed, and it is woken if it reads. -/
theorem withLines {l : LinesHost} (hl : s.linesHosts = [l]) (hf : ∀ l, (f l).plain = f l.plain)
    (hheard : ∀ l, (f l).serviceStopped = l.serviceStopped) : Within f s (s.withLines f) := by
  have hnoted := modifyLines s hf hheard
  -- The host that is changed is the last one, and so the first.
  have hlast : s.linesHosts.length - 1 = 0 := by
    rw [hl]
    rfl
  unfold Session.withLines
  dsimp only
  rw [hlast]
  split
  · exact hnoted.trans (.wake _ (v := .lines 0) nofun)
  · exact hnoted

theorem hushWriter (s : Session) : Within id s (s.hushWriter 0) := by
  rcases s.hushWriter_eq 0 with heq | heq <;> rw [heq]
  · exact wake s nofun
  · exact ⟨.of_body s.service rfl, .refl s, rfl⟩

theorem hushLines (s : Session) : Within id s (s.hushLines 0) := by
  rcases s.hushLines_eq 0 with heq | heq <;> rw [heq]
  · exact wake s nofun
  · exact ⟨.of_body s.service rfl, .refl s, rfl⟩

/-- A reply reaches the writer. -/
theorem send (s : Session) (r : Response) :
    Within (fun l => { l with writer := l.writer.push r.frame }) s (s.send (.lines 0) r) where
  alters := .send s r
  neutral := .send s (.lines 0) r
  heard := by
    -- What is sent is pushed to the writer, if that is open.
    have hpushed := modifyLines (f := fun l => { l with writer := l.writer.push r.frame }) s
      (fun _ => rfl) fun _ => rfl
    unfold Session.send
    dsimp only
    split
    · split
      · exact (hpushed.trans (wake (v := .writer 0) _ nofun)).heard
      · rfl
    · rfl

end Within

/-! ## What the host hears of the service -/

/-- A host that has heard of a stop is right: the service has ended. -/
def Notified (s : Session) : Prop := ∀ l ∈ s.linesHosts, l.serviceStopped → s.service.hasEnded

/-- A service that has ended stays so. -/
theorem hasEnded_setService {m : Move Caller} {v : Service Caller} (hmove : s.service.move m = some v)
    (hended : s.service.hasEnded) : (s.setService v).service.hasEnded := by
  rw [service_setService]
  exact (Service.stopAnswers_of_hasEnded hended hmove).1

/-- The host has not asked the service to stop. -/
def Unasked (s : Session) : Prop := Caller.lines 0 ∉ s.service.askers

/-- Somebody else makes a move of the service. -/
theorem Unasked.of_move (h : Unasked s) {m : Move Caller} {v : Service Caller}
    (hmove : s.service.move m = some v) (hm : m.stopper? ≠ some (.lines 0))
    (ht : t.service = { v with outputs := [] }) : Unasked t := by
  intro hasked
  -- Whoever has asked had asked before, or asks by this move.
  rw [ht] at hasked
  exact (Service.mem_askers_of_move hmove hasked).elim h hm

/-- Outputs that do not answer a stop leave the lines hosts alone. -/
theorem linesHosts_carryOut {o : Output Caller} (ho : o.stop? = none) (s : Session) :
    (s.carryOut o).linesHosts = s.linesHosts := by
  -- Outputs are carried out by waking and telling, neither of which is done to a lines host.
  have hfold : ∀ (ks : List Nat) (s : Session),
      (ks.foldl (fun s k => s.schedule (.worker k)) s).linesHosts = s.linesHosts := by
    intro ks
    induction ks with
    | nil => exact fun s => rfl
    | cons k ks ih =>
        exact fun s => (ih _).trans (congrArg Session.linesHosts (body_schedule s (.worker k)) :)
  have harrive : ∀ (s : Session) (n : Nat) (a : Answer), (s.arrive n a).linesHosts = s.linesHosts := by
    intro s n a
    unfold arrive
    split
    · split
      · exact (congrArg Session.linesHosts (body_wake _ _) :)
      · rfl
    · rfl
  -- Of all outputs only those that answer a stop reach a lines host.
  cases o with
  | effect e =>
      cases e with
      | answered caller outcome =>
          cases caller with
          | call n =>
              show (s.arriveOutcome (.call n) outcome).linesHosts = _
              unfold arriveOutcome
              dsimp only
              split
              · exact harrive s n _
              · rfl
          | handler h => exact (congrArg Session.linesHosts (body_wake _ _) :)
          | lines i => rfl
      | handed k task => exact (congrArg Session.linesHosts (body_wake s (.worker k)) :)
      | started size => exact hfold (List.range size) s
      | published | queued | dropped => rfl
  | stopped | stopRefused => cases ho
  | dismissed k => exact (congrArg Session.linesHosts (body_wake s (.worker k)) :)
  | roused => exact (congrArg Session.linesHosts (body_schedule s .dispatcher) :)
  | postponed => rfl

/-- Only a service that has ended tells a host of a stop. -/
theorem linesHosts_setService {v : Service Caller} (hnone : v.stopAnswers = []) :
    (s.setService v).linesHosts = s.linesHosts := by
  -- Output by output, for none of them answers a stop.
  have hfold : ∀ (os : List (Output Caller)) (s : Session), os.filterMap Output.stop? = [] →
      (os.foldl carryOut s).linesHosts = s.linesHosts := by
    intro os
    induction os with
    | nil => exact fun s _ => rfl
    | cons o os ih =>
        intro s hos
        obtain ⟨ho, hrest⟩ : o.stop? = none ∧ os.filterMap Output.stop? = [] := by
          simpa [List.filterMap_eq_nil_iff] using hos
        exact (ih _ hrest).trans (linesHosts_carryOut ho s)
  exact hfold v.outputs _ hnone

namespace Notified

/-- No host hears anything new. -/
theorem of_map (h : Notified s)
    (hlines : t.linesHosts.map LinesHost.serviceStopped = s.linesHosts.map LinesHost.serviceStopped)
    (hended : s.service.hasEnded → t.service.hasEnded) : Notified t := by
  intro l hl hstopped
  have hmem : true ∈ s.linesHosts.map LinesHost.serviceStopped := by
    rw [← hlines]
    exact List.mem_map.mpr ⟨l, hl, hstopped⟩
  obtain ⟨l', hl', heq⟩ := List.mem_map.mp hmem
  exact hended (h l' hl' heq)

theorem within {f : LinesHost → LinesHost} (h : Notified s) (hw : Within f s t) : Notified t :=
  h.of_map hw.heard fun hended => hw.neutral.service ▸ hended

/-- **A move of the service** leaves a host alone, or the service has ended. -/
theorem setService (h : Notified s) (houtputs : s.service.outputs = []) {m : Move Caller}
    {v : Service Caller} (hmove : s.service.move m = some v) : Notified (s.setService v) := by
  have hnothing : s.service.stopAnswers = [] := by
    rw [Service.stopAnswers, houtputs]
    rfl
  intro l hl hstopped
  by_cases hended : s.service.hasEnded
  · exact hasEnded_setService hmove hended
  · rcases Service.askers_of_move hended hmove with ⟨-, hsame, -⟩ | ⟨hends, -, -⟩
    · rw [linesHosts_setService (hsame.trans hnothing)] at hl
      exact absurd (h l hl hstopped) hended
    · rw [service_setService]
      exact hends

theorem request (h : Notified s) (houtputs : s.service.outputs = []) (hpos : 0 < s.service.handles)
    (job : Job) (w : Caller) : Notified (s.request job w) :=
  h.setService (m := .request job w) houtputs (if_pos hpos)

theorem unshare (h : Notified s) (houtputs : s.service.outputs = []) (hpos : 0 < s.service.handles) :
    Notified s.unshare :=
  h.setService (m := .unshare) houtputs (if_pos hpos)

/-- A handler of the host concludes.  It may send a reply, and gives its handle back. -/
theorem conclude (h : Notified s) (houtputs : s.service.outputs = []) (hpos : 0 < s.service.handles)
    (r : Option Response) : Notified (s.conclude (.lines 0) r) := by
  have hended : ∀ s : Session, Notified s → s.service.outputs = [] → 0 < s.service.handles →
      Notified (s.endHandler (.lines 0)) := by
    intro s h houtputs hpos
    have hcounted := Within.modifyLines (f := fun l => { l with inFlight := l.inFlight - 1 })
      s.unshare (fun _ => rfl) fun _ => rfl
    exact (h.unshare houtputs hpos).within ((hcounted.trans (.hushWriter _)).trans (.hushLines _))
  cases r with
  | none => exact hended s h houtputs hpos
  | some r =>
      have hsent := Within.send s r
      refine hended _ (h.within hsent) ?_ ?_
      · rw [hsent.neutral.service]
        exact houtputs
      · rw [hsent.neutral.service]
        exact hpos

end Notified

end AvatarPool.Session
