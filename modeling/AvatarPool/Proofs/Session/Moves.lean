import AvatarPool.Proofs.Session.Handlers

/-! # The service of a session moves

What the loop, the workers, the gate and the clock do concerns no handler but those that are told;
and before a stop, everybody who is told is told what the engine yields.

Both come from what is known of the service alone: a move conserves its waiters, so that whoever is
told has waited, and in front of a pure engine it tells whoever it tells what the engine yields.  At
the end stand the equations that say what joining, replying and leaving do to the service of a
session. -/

namespace AvatarPool

variable {ω : Type}

/-- Whether a move is one of the loop, the workers, the gate or the clock: nobody sends a command,
and no handle comes or goes. -/
def Move.isInner : Move ω → Bool
  | .request _ _ | .stop _ | .share | .unshare => false
  | _ => true

theorem Readiness.pending_ne_failed : ∀ why, Readiness.pending ≠ .failed why := nofun

theorem Readiness.ready_ne_failed : ∀ why, Readiness.ready ≠ .failed why := nofun

instance (e : PureEngine) (m : Move ω) : Decidable (m.IsCalm e) :=
  match m with
  | .stop _ => .isFalse id
  | .setGate .pending => .isTrue Readiness.pending_ne_failed
  | .setGate .ready => .isTrue Readiness.ready_ne_failed
  | .setGate (.failed why) => .isFalse fun h => h why rfl
  | .finish _ task ending => inferInstanceAs (Decidable (ending = e.ending task.job))
  | .request _ _ | .share | .unshare | .releaseGate | .take _ | .pass _ | .begin | .report _
  | .watch | .command | .leave | .dismiss | .farewell | .rest | .postpone => .isTrue trivial

theorem Move.request?_of_isInner {m : Move ω} (hm : m.isInner) : m.request? = none := by
  cases m <;> first | rfl | cases hm

namespace Service

variable {s t : Service ω} {m : Move ω} {e : PureEngine}

theorem handles_of_isInner (hm : m.isInner) (h : s.move m = some t) : t.handles = s.handles := by
  have hdoors : t.handles = (m.doors s.doors).2 := congrArg Prod.snd (doors_of_move h)
  rw [hdoors]
  cases m <;> first | rfl | cases hm

/-- The outputs are no part of the agreement. -/
theorem Agrees.clear (h : s.Agrees e) : { s with outputs := [] }.Agrees e :=
  ⟨h.serves, h.ledger, h.core, h.gate, h.reports, h.unasked⟩

theorem Agrees.not_hasEnded (h : s.Agrees e) : ¬ s.hasEnded :=
  not_hasEnded_of_isRunning (isRunning_of_not_isStopping h.serves)

end Service

namespace Session

variable {e : PureEngine} {base : Nat} {live : List Nat} {s : Session} {u : Service Caller}
  {m : Move Caller}

/-- The service of the session afterwards is the one that moved, whose outputs have taken place. -/
@[simp] theorem service_setService (s : Session) (u : Service Caller) :
    (s.setService u).service = { u with outputs := [] } :=
  (congrArg Session.service (delivered_setService s u).unheard :)

/-- A calm move of the service keeps its agreement. -/
theorem agrees_setService (ha : s.service.Agrees e) (hs : s.service.Settled)
    (hpos : 0 < s.service.handles) (hcalm : m.IsCalm e) (hmove : s.service.move m = some u) :
    (s.setService u).service.Agrees e := by
  rw [service_setService]
  exact (ha.move hs.sound hpos hcalm hmove).clear

/-! ## Moves of the service itself -/

/-- While it agrees with the engine, the service tells handlers what the engine yields. -/
theorem Tended.move (h : Tended e base live s) (ha : s.service.Agrees e) (hpos : 0 < base)
    (hm : m.isInner) (hcalm : m.IsCalm e) (hmove : s.service.move m = some u) :
    Tended e base live (s.setService u) ∧ (s.setService u).service.Agrees e := by
  have hhandles : 0 < s.service.handles := Nat.lt_of_lt_of_le hpos
    (Nat.le_trans (Nat.le_add_right _ _) h.handles)
  have hyields := Service.yields_of_move ha h.settled.sound hhandles hcalm hmove
  -- It sends no request, tells only what the engine yields, and keeps the handles.
  refine ⟨h.setService hmove (fun job w hr => ?_) (fun a hnew n hn => ?_) ?_, ?_⟩
  · rw [Move.request?_of_isInner hm] at hr
    cases hr
  · rcases hyields.told a hnew with hold | htold
    · rw [h.answers_eq_nil] at hold
      exact absurd hold List.not_mem_nil
    · exact htold
  · rw [Service.handles_of_isInner hm hmove]
    exact h.handles
  · exact agrees_setService ha h.settled hhandles hcalm hmove

/-- Once every handler has replied, none of them is told anything, whatever the service does. -/
theorem Tended.move_of_nil (h : Tended e base [] s) (hm : m.isInner)
    (hmove : s.service.move m = some u) : Tended e base [] (s.setService u) := by
  obtain ⟨as, hcons⟩ := Service.exists_conserves h.settled hmove
  have hwaiters := hcons.waiters
  rw [Move.request?_of_isInner hm] at hwaiters
  have has : u.answers = as := by rw [hcons.answers, h.answers_eq_nil, List.nil_append]
  -- A handler that was told would have waited, and would not have replied.
  refine h.setService hmove (fun job w hr => ?_) (fun a hnew n hn => ?_) ?_
  · rw [Move.request?_of_isInner hm] at hr
    cases hr
  · have hmem : a.1 ∈ u.waiters ++ as.map Prod.fst :=
      List.mem_append_right _ (List.mem_map_of_mem (has ▸ hnew))
    have hwaits : Caller.handler n ∈ s.service.waiters := by
      rw [← hn]
      simpa using hwaiters.mem_iff.mp hmem
    obtain ⟨k, hk⟩ := (Service.mem_waiters_iff h.settled.wellFormed).mp hwaits
    exact absurd (h.awaited n k hk).1 List.not_mem_nil
  · rw [Service.handles_of_isInner hm hmove]
    exact h.handles

/-! ## The start -/

/-- At the start no handler is there, and the session holds one handle. -/
theorem kept_create (L : Law) (config : PoolSettings) (engine : Session.Engine)
    (drive : GateDrive) : Kept L 1 [] (create config engine drive) := by
  have hagenda : ∀ isWaiting : Bool,
      let agenda : List Turn := if isWaiting then [.watch, .dispatcher] else [.dispatcher]
      -- Only the loop is on the agenda, and somebody who watches the gate, if it may change.
      agenda.Nodup ∧ ∀ n, .handler n ∉ agenda := by
    intro isWaiting
    cases isWaiting <;> exact ⟨by decide, by simp⟩
  obtain ⟨hnodup, hnone⟩ := hagenda (drive.watch config.readinessTimeout).isWaiting
  refine ⟨rfl, Service.settled_ofConfig config drive.gate, Nat.le_refl 1, .nil, nofun, nofun,
    ⟨hnodup, fun n hn => absurd hn (hnone n), nofun⟩, .nil, ?_⟩
  rintro n k (hwaits | ⟨job, hjob, -⟩)
  · cases hwaits
  · cases hjob

theorem tended_create (e : PureEngine) (config : PoolSettings) (engine : Session.Engine)
    (drive : GateDrive) : Tended e 1 [] (create config engine drive) :=
  tended_iff.mpr (kept_create e.law config engine drive)

/-- At the start the service obeys any law: whatever drives the gate, it has not failed yet. -/
theorem lawful_create (L : Law) (config : PoolSettings) (engine : Session.Engine)
    (drive : GateDrive) : (create config engine drive).service.Lawful L :=
  Service.lawful_ofConfig L config (by cases drive <;> nofun)

theorem agrees_create (e : PureEngine) (config : PoolSettings) (engine : Session.Engine)
    (drive : GateDrive) : (create config engine drive).service.Agrees e :=
  Service.agrees_ofConfig e config (by cases drive <;> nofun)

/-! ## What handles and requests change -/

theorem agrees_share (ha : s.service.Agrees e) (hs : s.service.Settled)
    (hpos : 0 < s.service.handles) : s.share.service.Agrees e :=
  ha.move (m := .share) hs.sound hpos trivial (if_pos hpos)

theorem agrees_unshare (ha : s.service.Agrees e) (hs : s.service.Settled)
    (hpos : 0 < s.service.handles) : s.unshare.service.Agrees e :=
  agrees_setService (m := .unshare) ha hs hpos trivial (if_pos hpos)

/-- A new handler only takes a handle. -/
theorem service_addHandler (s : Session) (outlet : Outlet) (frame : String) :
    (s.addHandler outlet frame).service = s.share.service := by
  unfold addHandler
  dsimp only
  exact (congrArg Session.service (body_schedule _ _) :).trans
    (Neutral.countInFlight _ outlet (· + 1)).service

/-- Handing out a frame keeps the agreement. -/
theorem agrees_addHandler (ha : s.service.Agrees e) (hs : s.service.Settled)
    (hpos : 0 < s.service.handles) (outlet : Outlet) (frame : String) :
    (s.addHandler outlet frame).service.Agrees e := by
  rw [service_addHandler]
  exact agrees_share ha hs hpos

/-- A handler that concludes only gives its handle back. -/
theorem service_conclude (s : Session) (outlet : Outlet) (r : Option Response) :
    (s.conclude outlet r).service = s.unshare.service := by
  -- Counting and waking do not concern the service, wherever the handler replies.
  have hended : ∀ s : Session, (s.endHandler outlet).service = s.unshare.service := by
    intro s
    have hcounted := Neutral.countInFlight s.unshare outlet (· - 1)
    unfold endHandler
    dsimp only
    cases outlet with
    | view => exact hcounted.service
    | lines i => exact (hcounted.trans ((Neutral.hushWriter _ i).trans (.hushLines _ i))).service
    | bridge b => exact (hcounted.trans (.hushLink _ b)).service
  cases r with
  | none => exact hended s
  | some r =>
      refine (hended (s.send outlet r)).trans ?_
      rw [unshare, unshare, service_setService, service_setService, (Neutral.send s outlet r).service]

end Session

end AvatarPool
