import AvatarPool.Proofs.Session.Calls
import AvatarPool.Proofs.Session.Scene

/-! # What runs through the bridges of a session

A request crosses a bridge from its client to a host and a handler, and the response comes back to
the client.  `Wired` says of all that is on its way that every request is for a job that the client
has minted the id for, and every response is the engine's answer to such a request.

`wiring` forgets everything of a session that no frame runs through, and every operation is
described by what it does to that: most leave it alone, and the others change one bridge or one
host, or add a handler.  The equations are simp lemmas where they need no choice. -/

namespace AvatarPool.Session

/-- A bridge, apart from what is counted and published on it. -/
structure Wire where
  client : BridgeClient Nat
  host : Nat
  responses : List String

/-- What of a bridge belongs to the wiring. -/
def Link.wire (k : Link) : Wire := ⟨k.client, k.host, k.responses⟩

/-- What frames run through: the bridges, their hosts, and what the handlers have been given. -/
structure Wiring where
  wires : List Wire
  hosts : List FrameHost
  errands : List (Outlet × String)

/-- A bridge is changed where it stands. -/
def Wiring.modifyWire (w : Wiring) (b : Nat) (f : Wire → Wire) : Wiring :=
  { w with wires := w.wires.modify b f }

/-- The wiring of a session. -/
def wiring (s : Session) : Wiring :=
  ⟨s.links.map Link.wire, s.hosts, s.handlers.map Handler.errand⟩

/-! ## What leaves the wiring alone -/

variable {s t : Session}

theorem wiring_of_body (h : t.body = s.body) : t.wiring = s.wiring := (congrArg wiring h :)

@[simp] theorem wiring_schedule (s : Session) (u : Turn) : (s.schedule u).wiring = s.wiring :=
  wiring_of_body (body_schedule s u)

@[simp] theorem wiring_wake (s : Session) (u : Turn) : (s.wake u).wiring = s.wiring :=
  wiring_of_body (body_wake s u)

@[simp] theorem wiring_resume (s : Session) : s.resume.wiring = s.wiring :=
  wiring_of_body (body_resume s)

/-- The outputs of the service reach handlers and calls, whose errands stay what they are. -/
@[simp] theorem wiring_setService (s : Session) (v : Service Caller) :
    (s.setService v).wiring = s.wiring := by
  -- Bridges and hosts are among what the service cannot change.
  have hdelivered := delivered_setService s v
  have hlinks : (s.setService v).links = s.links := (congrArg Session.links hdelivered.unheard :)
  have hhosts : (s.setService v).hosts = s.hosts := (congrArg Session.hosts hdelivered.unheard :)
  rw [wiring, hlinks, hhosts, (Alters.setService s v).errands]
  rfl

@[simp] theorem wiring_modifyHost (s : Session) (i : Nat) (f : FrameHost → FrameHost) :
    (s.modifyHost i f).wiring = { s.wiring with hosts := s.hosts.modify i f } := rfl

/-- A bridge is changed, counters and notices apart. -/
theorem wiring_modifyLink (s : Session) (b : Nat) {f : Link → Link} {g : Wire → Wire}
    (h : ∀ k, (f k).wire = g k.wire) : (s.modifyLink b f).wiring = s.wiring.modifyWire b g := by
  -- Changing a bridge and forgetting its counters can be done in either order.
  have hmap : (s.links.modify b f).map Link.wire = (s.links.map Link.wire).modify b g := by
    refine List.ext_getElem? fun i => ?_
    rw [List.getElem?_map, List.getElem?_modify, List.getElem?_modify, List.getElem?_map]
    cases s.links[i]? with
    | none => rfl
    | some k =>
        show some (if b = i then f k else k).wire = some (if b = i then g k.wire else k.wire)
        split
        · rw [h k]
        · rfl
  show (⟨(s.links.modify b f).map Link.wire, _, _⟩ : Wiring) = _
  rw [hmap]
  rfl

theorem wiring_modifyLink_same (s : Session) (b : Nat) {f : Link → Link}
    (h : ∀ k, (f k).wire = k.wire) : (s.modifyLink b f).wiring = s.wiring := by
  rw [wiring_modifyLink s b (g := id) h, Wiring.modifyWire, List.modify_id]

/-- The requests that a host has in work are counted, for a bridge beside the client. -/
@[simp] theorem wiring_countInFlight (s : Session) (outlet : Outlet) (f : Nat → Nat) :
    (s.countInFlight outlet f).wiring = s.wiring := by
  cases outlet with
  | view | lines => rfl
  | bridge b => exact wiring_modifyLink_same s b fun _ => rfl

/-- A bridge that hears that its host is done is woken, or nothing happens. -/
theorem body_hushLink (s : Session) (b : Nat) : (s.hushLink b).body = s.body := by
  rcases s.hushLink_eq b with heq | heq <;> rw [heq]
  · exact body_wake s _

@[simp] theorem wiring_hushLink (s : Session) (b : Nat) : (s.hushLink b).wiring = s.wiring :=
  wiring_of_body (body_hushLink s b)

/-- A reply goes out through a bridge. -/
theorem wiring_send (s : Session) (b : Nat) (r : Response) :
    (s.send (.bridge b) r).wiring =
      s.wiring.modifyWire b fun k => { k with responses := k.responses ++ [r.frame] } :=
  (wiring_wake _ _).trans (wiring_modifyLink s b fun _ => rfl)

/-- A handler that ends gives its handle back, and frames do not run through it any more than
before. -/
theorem wiring_endHandler (s : Session) (b : Nat) :
    (s.endHandler (.bridge b)).wiring = s.wiring := by
  unfold endHandler
  dsimp only
  rw [wiring_hushLink, wiring_countInFlight]
  exact wiring_setService s _

/-- A host hands a frame to a new handler. -/
theorem wiring_addHandler (s : Session) (outlet : Outlet) (frame : String) :
    (s.addHandler outlet frame).wiring =
      { s.wiring with errands := s.wiring.errands ++ [(outlet, frame)] } := by
  unfold addHandler
  dsimp only
  rw [wiring_schedule, wiring_countInFlight]
  show (⟨_, _, (s.handlers ++ [_]).map Handler.errand⟩ : Wiring) = _
  rw [List.map_append]
  rfl

/-! ## A bridge client takes a step -/

/-- A call that is told something. -/
theorem neutral_tell (s : Session) (n : Nat) (o : Outcome) :
    Neutral s (s.arriveOutcome (.call n) o) := by
  -- A call is neither the service nor a handler.
  have hmodified : ∀ f : Call → Call, Neutral s (s.modifyCall n f) :=
    fun f => ⟨rfl, rfl, fun _ hs => hs.of_body rfl rfl⟩
  unfold arriveOutcome arrive
  -- The call may be there or not, may still wait or not, and may have its answer already.
  dsimp only
  split
  · split
    · split
      · exact (hmodified _).trans (.wake _ nofun)
      · exact .refl s
    · exact .refl s
  · exact .refl s

/-- No frame runs through a call. -/
@[simp] theorem wiring_tell (s : Session) (n : Nat) (o : Outcome) :
    (s.arriveOutcome (.call n) o).wiring = s.wiring := by
  unfold arriveOutcome arrive
  dsimp only
  split
  · split
    · split
      · exact wiring_wake _ _
      · rfl
    · rfl
  · rfl

/-- What the effects of a bridge client change: calls are told, and notices are published. -/
theorem carryOutBridge_spec (b : Nat) (s : Session) (x : BridgeEffect Nat) :
    Neutral s (carryOutBridge b s x) ∧ (carryOutBridge b s x).wiring = s.wiring ∧
      Informed (fun n o => x.answer? = some (n, o)) s (carryOutBridge b s x) := by
  cases x with
  | answered n o =>
      refine ⟨neutral_tell s n o, wiring_tell s n o, ?_⟩
      refine (Informed.of_delivered (delivered_answer s (.call n) o) rfl).mono fun m o' ho => ?_
      cases List.mem_singleton.mp ho
      rfl
  | published event =>
      exact ⟨.modifyLink s b _, wiring_modifyLink_same s b fun _ => rfl, .of_eq rfl rfl⟩
  | posted r => exact ⟨.refl s, rfl, .of_eq rfl rfl⟩

/-- **A bridge client takes a step**, and its effects are carried out: its client is put in place,
and whoever is told anything is told what the client has answered. -/
theorem setClient_spec (s : Session) (b : Nat) (c : BridgeClient Nat) :
    Neutral s (s.setClient b c) ∧
      (s.setClient b c).wiring =
        s.wiring.modifyWire b (fun k => { k with client := { c with effects := [] } }) ∧
      Informed (fun n o => (n, o) ∈ c.answered) s (s.setClient b c) := by
  -- The effects are carried out one by one, and what each of them tells is among the answers.
  have hfold : ∀ (es : List (BridgeEffect Nat)) (s : Session),
      Neutral s (es.foldl (carryOutBridge b) s) ∧ (es.foldl (carryOutBridge b) s).wiring = s.wiring ∧
        Informed (fun n o => (n, o) ∈ es.filterMap BridgeEffect.answer?) s
          (es.foldl (carryOutBridge b) s) := by
    intro es
    induction es with
    | nil => exact fun s => ⟨.refl s, rfl, .of_eq rfl rfl⟩
    | cons x rest ih =>
        intro s
        obtain ⟨hneutral, hwiring, htold⟩ := carryOutBridge_spec b s x
        obtain ⟨hneutral', hwiring', htold'⟩ := ih (carryOutBridge b s x)
        -- Told by the first effect.
        refine ⟨hneutral.trans hneutral', hwiring'.trans hwiring, .trans (htold.mono ?_)
          (htold'.mono ?_)⟩
        · exact fun n o ho => List.mem_filterMap.mpr ⟨x, List.mem_cons_self, ho⟩
        -- Told by one of the others.
        · intro n o ho
          obtain ⟨y, hy, hanswer⟩ := List.mem_filterMap.mp ho
          exact List.mem_filterMap.mpr ⟨y, List.mem_cons_of_mem _ hy, hanswer⟩
  -- The client stands in its place before its effects are carried out.
  have hset := wiring_modifyLink s b (f := fun k => { k with client := { c with effects := [] } })
    (g := fun k => { k with client := { c with effects := [] } }) fun _ => rfl
  obtain ⟨hneutral, hwiring, htold⟩ := hfold c.effects
    (s.modifyLink b fun k => { k with client := { c with effects := [] } })
  have hcleared : Informed (fun n o => (n, o) ∈ c.answered) s
      (s.modifyLink b fun k => { k with client := { c with effects := [] } }) := .of_eq rfl rfl
  exact ⟨(Neutral.modifyLink s b _).trans hneutral, hwiring.trans hset, hcleared.trans htold⟩

end AvatarPool.Session
