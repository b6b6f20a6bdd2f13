import AvatarPool.Proofs.Service.Purity
import AvatarPool.Proofs.Session.Duties

/-! # Handlers in front of a pure engine

In front of a pure engine a handler that does its duty tells what the engine yields, and the one proper
reply to a frame is that of the engine.  `Tended` says of a session what `Kept` says under the law of
the engine.

The law of an engine leaves one outcome for each job, so that what is only bounded in front of any
engine is determined here.  Everything is proved under a law, and `tended_iff` carries it over. -/

namespace AvatarPool

/-- The reply to a frame when its job is done directly by a pure engine. -/
def PureEngine.reply? (e : PureEngine) (frame : String) : Option Response :=
  match BridgeHost.readFrame frame with
  | .work id job => some (BridgeHost.respond id (e.direct job))
  | .reply r => some r
  | .ignore => none

namespace Session

/-- A handler that has read its frame answers under the id that stands there, with what the engine
yields for the job. -/
structure Handler.Faithful (e : PureEngine) (x : Handler) : Prop where
  read : ∀ id, x.id = some id → ∃ job, BridgeHost.readFrame x.frame = .work id job
  told : ∀ o, x.outcome = some o →
    ∃ id job, x.id = some id ∧ BridgeHost.readFrame x.frame = .work id job ∧ o = e.direct job

variable {e : PureEngine} {base : Nat} {live : List Nat} {s t : Session}

/-- Faithful to an engine means honest under its law. -/
theorem Handler.faithful_iff {x : Handler} : x.Faithful e ↔ x.Honest e.law := by
  constructor
  · intro h
    refine ⟨h.read, fun o ho => ?_⟩
    obtain ⟨id, job, hid, hread, rfl⟩ := h.told o ho
    exact ⟨id, job, hid, hread, (e.told_fingerprint job).symm⟩
  · intro h
    refine ⟨h.read, fun o ho => ?_⟩
    obtain ⟨id, job, hid, hread, hallowed⟩ := h.told o ho
    exact ⟨id, job, hid, hread, hallowed.trans (e.told_fingerprint job)⟩

/-- **The proper reply is that of the engine.** -/
theorem Proper.eq_reply {frame : String} {r : Option Response} (h : Proper e.law frame r) :
    r = e.reply? frame := by
  -- Only where the request was worked on does the law come in.
  cases h with
  | ignored hread | immediate hread => rw [PureEngine.reply?, hread]
  | @worked id job o hread ho =>
      have hdirect : o = e.direct job := ho.trans (e.told_fingerprint job)
      rw [PureEngine.reply?, hread, hdirect]

/-- **Handlers in order**: those that have not replied are `live`, only such take turns, and the
service owes each of them at most one answer, which it awaits. -/
structure Tended (e : PureEngine) (base : Nat) (live : List Nat) (s : Session) : Prop where
  outputs : s.service.outputs = []
  settled : s.service.Settled
  handles : base + live.length ≤ s.service.handles
  nodup : live.Nodup
  known : ∀ h ∈ live, ∃ x, s.handlers[h]? = some x
  faithful : ∀ x ∈ s.handlers, x.Faithful e
  orderly : Orderly (MayTurn live s) s
  waiters : s.service.waiters.Nodup
  awaited : ∀ h k, s.service.Awaits (.handler h) k →
    h ∈ live ∧ ∃ x, s.handlers[h]? = some x ∧ x.awaits? = some k

/-- **Tended in front of an engine is kept under its law**: the two differ in what is said of
handlers that have been told. -/
theorem tended_iff : Tended e base live s ↔ Kept e.law base live s := by
  constructor
  · intro h
    exact ⟨h.outputs, h.settled, h.handles, h.nodup, h.known,
      fun x hx => Handler.faithful_iff.mp (h.faithful x hx), h.orderly, h.waiters, h.awaited⟩
  · intro h
    exact ⟨h.outputs, h.settled, h.handles, h.nodup, h.known,
      fun x hx => Handler.faithful_iff.mpr (h.honest x hx), h.orderly, h.waiters, h.awaited⟩

namespace Tended

theorem kept (h : Tended e base live s) : Kept e.law base live s := tended_iff.mp h

theorem neutral (h : Tended e base live s) (hn : Neutral s t) : Tended e base live t :=
  tended_iff.mpr (h.kept.neutral hn)

theorem answers_eq_nil (h : Tended e base live s) : s.service.answers = [] := h.kept.answers_eq_nil

/-- **A move of the service**, whose outputs take place. -/
theorem setService (h : Tended e base live s) {m : Move Caller} {u : Service Caller}
    (hmove : s.service.move m = some u) (hsends : Kept.Sends live s m)
    (htold : ∀ a ∈ u.answers, ∀ n, a.1 = .handler n →
      ∃ k, s.service.Awaits a.1 k ∧ a.2 = e.told k)
    {base' : Nat} (hhandles : base' + live.length ≤ u.handles) :
    Tended e base' live (s.setService u) :=
  tended_iff.mpr (h.kept.setService hmove hsends htold hhandles)

/-- A handle goes away. -/
theorem unshare (h : Tended e (base + 1) live s) : Tended e base live s.unshare :=
  tended_iff.mpr h.kept.unshare

/-- One more handle. -/
theorem share (h : Tended e base live s) (hpos : 0 < s.service.handles) :
    Tended e (base + 1) live s.share := tended_iff.mpr (h.kept.share hpos)

/-- Somebody who awaits nothing sends a request to a service that has not ended. -/
theorem request (h : Tended e base live s) (hpos : 0 < s.service.handles)
    (hended : ¬ s.service.hasEnded) {job : Job} {w : Caller} (hnew : w ∉ s.service.waiters)
    (hhandler : ∀ n, w = .handler n →
      n ∈ live ∧ ∃ x, s.handlers[n]? = some x ∧ x.awaits? = some job.fingerprint) :
    Tended e base live (s.request job w) :=
  tended_iff.mpr (h.kept.request hpos hended hnew hhandler)

/-- Somebody asks for a stop. -/
theorem stopService (h : Tended e base live s) (hpos : 0 < s.service.handles) (w : Caller) :
    Tended e base live (s.stopService w) := tended_iff.mpr (h.kept.stopService hpos w)

/-- Somebody is put on the agenda, who may take a turn if he is a handler. -/
theorem schedule (h : Tended e base live s) {u : Turn}
    (hu : ∀ n, u = .handler n → MayTurn live s n) : Tended e base live (s.schedule u) :=
  tended_iff.mpr (h.kept.schedule hu)

/-- A host hands a frame to a new handler. -/
theorem addHandler (h : Tended e base live s) (hpos : 0 < s.service.handles) (outlet : Outlet)
    (frame : String) :
    Tended e base (live ++ [s.handlers.length]) (s.addHandler outlet frame) :=
  tended_iff.mpr (h.kept.addHandler hpos outlet frame)

/-- A handler that takes its turn without awaiting anything is about to reply: it is not counted any
more, but for its handle. -/
theorem retire (h : Tended e base live s) {n : Nat} (hturn : MayTurn live s n) :
    Tended e (base + 1) (live.erase n) { s with agenda := s.agenda.erase (.handler n) } :=
  tended_iff.mpr (h.kept.retire hturn)

/-- A handler that reads a request awaits its answer from now on. -/
theorem read (h : Tended e base live s) {n : Nat} {x : Handler} (hturn : MayTurn live s n)
    (hx : s.handlers[n]? = some x) (hfresh : x.id = none) {id : RequestId} {job : Job}
    (hread : BridgeHost.readFrame x.frame = .work id job) :
    Tended e base live
      { s with
        agenda := s.agenda.erase (.handler n)
        handlers := s.handlers.modify n fun x => { x with id := some id } } :=
  tended_iff.mpr (h.kept.read hturn hx hfresh hread)

/-- A handler reads a request and sends it to the service. -/
theorem ask (h : Tended e base live s) (hended : ¬ s.service.hasEnded) {n : Nat}
    {x : Handler} (hturn : MayTurn live s n) (hx : s.handlers[n]? = some x) (hfresh : x.id = none)
    {id : RequestId} {job : Job} (hread : BridgeHost.readFrame x.frame = .work id job) :
    Tended e base live
      ({ s with
        agenda := s.agenda.erase (.handler n)
        handlers := s.handlers.modify n fun x => { x with id := some id } }.request job
          (.handler n)) :=
  tended_iff.mpr (h.kept.ask hended hturn hx hfresh hread)

theorem conclude (h : Tended e (base + 1) live s) (outlet : Outlet) (r : Option Response) :
    Tended e base live (s.conclude outlet r) := tended_iff.mpr (h.kept.conclude outlet r)

/-- What a turn of a handler is: it reads a request and sends it to the service, or it concludes with
the reply that is due. -/
theorem runHandler_eq (h : Tended e base live s) {n : Nat} {x : Handler}
    (hturn : MayTurn live s n) (hx : s.handlers[n]? = some x) (hended : ¬ s.service.hasEnded)
    (agenda : List Turn) :
    (∃ id job, x.id = none ∧ BridgeHost.readFrame x.frame = .work id job ∧
      ({ s with agenda := agenda }.runHandler n) =
        ({ s with
          agenda := agenda
          handlers := s.handlers.modify n fun x => { x with id := some id } }.request job
            (.handler n))) ∨
      ({ s with agenda := agenda }.runHandler n) =
        ({ s with agenda := agenda }.conclude x.outlet (e.reply? x.frame)) := by
  -- A service that has not ended refuses nobody, and the proper reply is the one of the engine.
  rcases h.kept.runHandler_eq hturn hx (absurd · hended) agenda with ⟨-, hasks⟩ | ⟨r, hr, heq⟩
  · exact .inl hasks
  · exact .inr (hr.eq_reply ▸ heq)

end Tended

end Session

end AvatarPool
