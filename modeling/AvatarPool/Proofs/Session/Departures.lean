import AvatarPool.Proofs.Bridge.Requests
import AvatarPool.Proofs.Service.Acts
import AvatarPool.Proofs.Session.AlikeSteps
import AvatarPool.Proofs.Session.Clients

/-! # Callers leave, and nobody notices

Callers use a service and its bridges in every way there is, and some who have only asked for
something drop their requests.  The engine does what it likes, posts fail, any frame may reach the
client of a bridge, and connections are lost.  The run in which the callers leave and the run in
which they stay go the same way, step for step: what is cached, queued, rendered, posted, published
and counted is the same, and so is what every caller who stays is told.  A caller who holds a handle
of the service as well gives it back on leaving, which the service may notice; these are not meant. -/

namespace AvatarPool

open Session

/-- What happens in one go. -/
inductive Happening where
  /-- Something is done to the session from outside. -/
  | step (step : Session.Step)
  /-- The service makes a move: its loop or a worker goes on, or someone uses a handle of it. -/
  | service (m : Move Session.Caller)
  /-- Somebody takes a turn. -/
  | turn (t : Session.Turn)
  /-- The next round begins. -/
  | resume
  /-- A call asks the client of a bridge for a job, which is to be posted. -/
  | through (b : Nat) (job : Job) (form : Session.Form)
  /-- The client of a bridge posts a request. -/
  | post (b : Nat) (r : Request)
  /-- The post of a request fails. -/
  | failPost (b : Nat) (r : Request) (why : Failure)
  /-- A frame comes to the client of a bridge, wherever it is from. -/
  | receive (b : Nat) (frame : String)
  /-- The client of a bridge loses its connection. -/
  | disconnect (b : Nat)
  /-- A caller who has only asked for something drops the request. -/
  | leave (n : Nat)

/-- The caller who leaves. -/
def Happening.leaver? : Happening → Option Nat
  | leave n => some n
  | _ => none

/-- Whether it is the turn of a call. -/
def Session.Turn.isOfCall : Session.Turn → Bool
  | .call _ => true
  | _ => false

namespace Clientele

/-- The post of a request fails, and the client of the bridge gives it up. -/
def failPost (s : Session) (b : Nat) (r : Request) (why : Failure) : Session :=
  match s.links[b]? with
  | none => s
  | some link => s.setClient b (link.client.giveUp r.id why)

/-- **What follows**, or nothing where it cannot happen: whoever takes a turn has been woken, unless
it is a call, which may look for its answer at any time. -/
def after (p : Clientele) : Happening → Option Clientele
  | .step step => some { p with session := (p.session.perform step).1 }
  | .service m => (p.session.service.move m).map fun u => { p with session := p.session.setService u }
  | .turn t =>
    if t ∈ p.session.agenda ∨ t.isOfCall then
      some { p with session := { p.session with agenda := p.session.agenda.erase t }.run t }
    else none
  | .resume => some { p with session := p.session.resume }
  | .through b job form => some (p.callThrough b job form)
  | .post b r =>
    if p.unposted.contains (b, r) then
      some { session := Session.post b p.session r, unposted := p.unposted.erase (b, r) }
    else none
  | .failPost b r why =>
    if p.unposted.contains (b, r) then
      some { session := failPost p.session b r why, unposted := p.unposted.erase (b, r) }
    else none
  | .receive b frame => some { p with session := takeResponse b p.session frame }
  | .disconnect b => some { p with session := p.session.loseLink b }
  | .leave n =>
    if p.session.IsRequest n then some { p with session := p.session.abandon n } else none

/-- What follows one after the other. -/
def afterAll (p : Clientele) : List Happening → Option Clientele
  | [] => some p
  | x :: τ => (p.after x).bind fun q => q.afterAll τ

/-- Those who leave, in order. -/
def left (τ : List Happening) : List Nat := τ.filterMap Happening.leaver?

/-- **The run in which they stay.** -/
def stayed (τ : List Happening) : List Happening := τ.filter fun x => x.leaver?.isNone

/-- **What two sessions share** that are told apart by callers who have left, and by nothing else. -/
structure SameBut (gone : List Nat) (s t : Session) : Prop where
  /-- The cache, the entries that callers wait under, the queue, the workers with what they render,
  and the counters. -/
  service : s.service = t.service
  /-- What the engine has been asked for, and what it holds. -/
  engine : s.engine = t.engine
  started : s.started = t.started
  invocations : s.invocations = t.invocations
  mostRunning : s.mostRunning = t.mostRunning
  held : s.held = t.held
  released : s.released = t.released
  /-- What has been published. -/
  bus : s.bus = t.bus
  /-- The clients of the bridges, with what they have cached, posted and published. -/
  links : s.links = t.links
  /-- The hosts of the bridges, with the frames that have been posted to them. -/
  hosts : s.hosts = t.hosts
  handlers : s.handlers = t.handlers
  linesHosts : s.linesHosts = t.linesHosts
  /-- What has been sent out. -/
  frames : s.frames = t.frames
  /-- Whose turn it is. -/
  due : ∀ v : Session.Turn, ¬ v.isOf gone → (v ∈ s.agenda ↔ v ∈ t.agenda)
  /-- The calls of the others, with the answers that have arrived. -/
  calls : ∀ n ∉ gone, s.calls[n]? = t.calls[n]?
  /-- What the others have been told, in order. -/
  done : s.done.filter (fun d => d.1 ∉ gone) = t.done.filter fun d => d.1 ∉ gone

/-- What is cached for a key, by the service or by the client of a bridge. -/
def cached (s : Session) (k : Fingerprint) : Option Nat → Option Artifact
  | none => s.service.core.cache.get? k
  | some b => s.links[b]?.bind fun link => link.client.cache.get? k

/-- **Work that has led to an artifact is finished**: the loop of the service takes the report of it,
or the client of a bridge the response to a request under way. -/
inductive Finishes (s : Session) : Happening → Fingerprint → Option Nat → Prop
  | reported {c : WorkReport} {artifact : Artifact} (h : c.outcome = .ok artifact) :
      Finishes s (.service (.report c)) c.fingerprint none
  | answered {b : Nat} {link : Link} {frame : String} {r : Response} {k : Fingerprint}
      {artifact : Artifact} (hlink : s.links[b]? = some link)
      (hframe : Response.ofFrame frame = .ok r)
      (hk : link.client.outstanding.lookup r.id = some k)
      (h : BridgeClient.outcome k r = .ok artifact) : Finishes s (.receive b frame) k (some b)

variable {gone : List Nat} {p q p' : Clientele} {s t : Session} {x : Happening}
  {τ σ : List Happening}

theorem sameBut_of_alike (h : Alike gone s t) : SameBut gone s t where
  service := h.service
  engine := (congrArg Session.engine h.seen :)
  started := (congrArg Session.started h.seen :)
  invocations := (congrArg Session.invocations h.seen :)
  mostRunning := (congrArg Session.mostRunning h.seen :)
  held := (congrArg Session.held h.seen :)
  released := (congrArg Session.released h.seen :)
  bus := (congrArg Session.bus h.seen :)
  links := h.links
  hosts := h.hosts
  handlers := h.handlers
  linesHosts := h.linesHosts
  frames := (congrArg Session.frames h.seen :)
  due _ hv := h.mem_agenda hv
  calls _ hn := h.getElem?_calls hn
  done := (congrArg Session.done h.seen :)

/-! ## One happening -/

/-- Whoever takes a turn is off both agendas. -/
theorem alike_erase (h : Alike gone s t) (v : Session.Turn) :
    Alike gone { s with agenda := s.agenda.erase v } { t with agenda := t.agenda.erase v } := by
  refine h.of_body rfl ?_
  have herased : ∀ u : Session, without gone { u with agenda := u.agenda.erase v } =
      { u.without gone with agenda := (u.without gone).agenda.erase v } := by
    intro u
    exact congrArg (fun l => { u.without gone with agenda := l }) List.erase_filter.symm
  rw [herased, herased, h.seen]

/-- **The same happens in both sessions**, and they stay alike. -/
theorem alike_of_after (h : Alike gone p.session q.session) (hposts : p.unposted = q.unposted)
    (hp : p.after x = some p') :
    ∃ q', q.after x = some q' ∧ Alike gone p'.session q'.session ∧ p'.unposted = q'.unposted := by
  cases x with
  | step step =>
      cases hp
      exact ⟨_, rfl, h.perform step, hposts⟩
  | service m =>
      obtain ⟨u, hu, rfl⟩ := Option.map_eq_some_iff.mp hp
      rw [h.service] at hu
      refine ⟨{ q with session := q.session.setService u }, ?_, h.setService u, hposts⟩
      rw [after, hu, Option.map_some]
  | turn v =>
      obtain ⟨hdue, rfl⟩ := Option.ite_some_none_eq_some.mp hp
      -- The agendas may differ in the turns of those who have left.  These are turns of calls,
      -- which may be taken at any time.
      have hdue' : v ∈ q.session.agenda ∨ v.isOfCall := by
        by_cases hv : v.isOf gone
        · right
          cases v with
          | call n => rfl
          | _ => cases hv
        · rwa [h.mem_agenda hv] at hdue
      exact ⟨_, if_pos hdue', (alike_erase h v).run v, hposts⟩
  | resume =>
      cases hp
      exact ⟨_, rfl, h.resume, hposts⟩
  | through b job form =>
      cases hp
      -- The call gets the same number in both sessions, and so the requests are the same.
      have hcalled := h.newCall (.call p.session.calls.length) form false
      obtain ⟨haccepted, hrequests⟩ := hcalled.acceptThrough b job p.session.calls.length
      refine ⟨_, rfl, ?_, ?_⟩
      · unfold callThrough
        dsimp only
        rw [← h.length_calls]
        exact haccepted.schedule _
      · unfold callThrough
        dsimp only
        rw [← h.length_calls, hposts, hrequests]
  | post b r =>
      obtain ⟨hmem, rfl⟩ := Option.ite_some_none_eq_some.mp hp
      refine ⟨_, if_pos (hposts ▸ hmem), h.post b r, ?_⟩
      dsimp only
      rw [hposts]
  | failPost b r why =>
      obtain ⟨hmem, rfl⟩ := Option.ite_some_none_eq_some.mp hp
      refine ⟨_, if_pos (hposts ▸ hmem), ?_, ?_⟩
      · unfold failPost
        rw [h.links]
        split
        · exact h
        · exact h.setClient b _
      · dsimp only
        rw [hposts]
  | receive b frame =>
      cases hp
      exact ⟨_, rfl, h.takeResponse b frame, hposts⟩
  | disconnect b =>
      cases hp
      exact ⟨_, rfl, h.loseLink b, hposts⟩
  | leave n =>
      obtain ⟨hn, rfl⟩ := Option.ite_some_none_eq_some.mp hp
      have hn' : q.session.IsRequest n := by rwa [IsRequest, ← h.kind?]
      exact ⟨_, if_pos hn', h.abandon n, hposts⟩

/-- **What is finished is cached**, whether or not anybody waits for it. -/
theorem cached_of_after {k : Fingerprint} {w : Option Nat} (hfinishes : Finishes p.session x k w)
    (hx : p.after x = some p') : (cached p'.session k w).isSome := by
  cases hfinishes with
  | @reported c artifact h =>
      obtain ⟨u, hu, rfl⟩ := Option.map_eq_some_iff.mp hx
      obtain ⟨-, -, hhandled⟩ := Service.handled_of_report hu
      -- The service keeps the artifact of a report that it takes.
      have hcache : u.core.cache = (p.session.service.core.takeReport c).cache := by
        rw [hhandled.core]
      show ((p.session.setService u).service.core.cache.get? c.fingerprint).isSome
      rw [service_setService]
      show (u.core.cache.get? c.fingerprint).isSome
      rw [hcache, Dispatcher.get?_takeReport h]
      rfl
  | @answered b link frame r k artifact hlink hframe hk h =>
      cases hx
      -- The link after the frame is found by the wiring, which does not see what else has changed.
      have hwiring := (setClient_spec p.session b (link.client.takeFrame frame)).2.1
      have hwires := congrArg (fun w : Wiring => w.wires[b]?.map Wire.client) hwiring
      have hclient : (p.session.setClient b (link.client.takeFrame frame)).links[b]?.map Link.client =
          some { link.client.takeFrame frame with effects := [] } := by
        simpa [wiring, Wiring.modifyWire, Link.wire, hlink] using hwires
      obtain ⟨link', hlink', heq⟩ := Option.map_eq_some_iff.mp hclient
      show (cached (takeResponse b p.session frame) k (some b)).isSome
      rw [takeResponse, hlink]
      show ((p.session.setClient b (link.client.takeFrame frame)).links[b]?.bind fun link =>
        link.client.cache.get? k).isSome
      rw [hlink', Option.bind_some, heq]
      show ((link.client.takeFrame frame).cache.get? k).isSome
      rw [BridgeClient.takeFrame_of_ok hframe, BridgeClient.takeResponse_of_lookup hk, h,
        BridgeClient.get?_settle_ok]
      rfl

/-! ## Runs -/

theorem afterAll_append (p : Clientele) (τ σ : List Happening) :
    p.afterAll (τ ++ σ) = (p.afterAll τ).bind fun q => q.afterAll σ := by
  induction τ generalizing p with
  | nil => rfl
  | cons x τ ih =>
      rw [List.cons_append, afterAll, afterAll, Option.bind_assoc]
      exact congrArg _ (funext ih)

theorem afterAll_concat_eq_some_iff :
    p.afterAll (τ ++ [x]) = some p' ↔ ∃ q, p.afterAll τ = some q ∧ q.after x = some p' := by
  rw [afterAll_append, Option.bind_eq_some_iff]
  simp [afterAll]

/-- The same happens one after the other in both sessions. -/
theorem alike_of_afterAll (h : Alike gone p.session q.session) (hposts : p.unposted = q.unposted)
    (hp : p.afterAll τ = some p') :
    ∃ q', q.afterAll τ = some q' ∧ Alike gone p'.session q'.session ∧ p'.unposted = q'.unposted := by
  induction τ generalizing p q with
  | nil =>
      cases hp
      exact ⟨q, rfl, h, hposts⟩
  | cons x τ ih =>
      obtain ⟨p₁, hx, hrest⟩ := Option.bind_eq_some_iff.mp hp
      obtain ⟨q₁, hx', h₁, hposts₁⟩ := alike_of_after h hposts hx
      obtain ⟨q', hq', h'⟩ := ih h₁ hposts₁ hrest
      exact ⟨q', Option.bind_eq_some_iff.mpr ⟨q₁, hx', hq'⟩, h'⟩

/-- **A run goes the same way if those stay who leave in it.** -/
theorem alike_stayed {config : PoolSettings} {engine : Session.Engine} {drive : GateDrive}
    (h : (start config engine drive).afterAll τ = some p) :
    ∃ q, (start config engine drive).afterAll (stayed τ) = some q ∧
      Alike (left τ) p.session q.session ∧ p.unposted = q.unposted := by
  -- The last one to leave is added to those who have left before.
  induction τ using List.reverseRecOn generalizing p with
  | nil =>
      cases h
      exact ⟨_, rfl, .create config engine drive, rfl⟩
  | append_singleton τ x ih =>
      obtain ⟨p₀, hp₀, hx⟩ := afterAll_concat_eq_some_iff.mp h
      obtain ⟨q₀, hq₀, halike, hposts⟩ := ih hp₀
      have hleft : left (τ ++ [x]) = left τ ++ x.leaver?.toList := by
        rw [left, List.filterMap_append, filterMap_singleton, left]
      have hstayed : stayed (τ ++ [x]) = stayed τ ++ stayed [x] := List.filter_append τ [x]
      rw [hleft, hstayed]
      cases hleaver : x.leaver? with
      | none =>
          obtain ⟨q, hq, h', hposts'⟩ := alike_of_after halike hposts hx
          have hstays : stayed [x] = [x] := by simp [stayed, hleaver]
          rw [hstays, Option.toList_none, List.append_nil]
          exact ⟨q, afterAll_concat_eq_some_iff.mpr ⟨q₀, hq₀, hq⟩, h', hposts'⟩
      | some n =>
          cases x with
          | leave m =>
              cases hleaver
              obtain ⟨hn, rfl⟩ := Option.ite_some_none_eq_some.mp hx
              have hgone : stayed [.leave n] = [] := rfl
              rw [hgone, List.append_nil]
              exact ⟨q₀, hq₀, halike.leave hn, hposts⟩
          | _ => cases hleaver

/-- Whoever has only asked for something can leave at any time. -/
theorem exists_leave {config : PoolSettings} {engine : Session.Engine} {drive : GateDrive} {n : Nat}
    (h : (start config engine drive).afterAll (τ ++ σ) = some q)
    (hτ : (start config engine drive).afterAll τ = some p) (hn : p.session.IsRequest n) :
    ∃ p', (start config engine drive).afterAll (τ ++ .leave n :: σ) = some p' ∧
      SameBut (left τ ++ [n]) p'.session q.session := by
  obtain ⟨q₀, -, halike, -⟩ := alike_stayed hτ
  rw [afterAll_append, hτ, Option.bind_some] at h
  have hleft := (halike.trans halike.symm).leave hn
  obtain ⟨p', hp', h', -⟩ := alike_of_afterAll (q := { p with session := p.session.abandon n })
    hleft.symm rfl h
  refine ⟨p', ?_, sameBut_of_alike h'.symm⟩
  rw [afterAll_append, hτ, Option.bind_some, afterAll, after, if_pos hn, Option.bind_some]
  exact hp'

/-- **Nobody notices who leaves.**  At every point of any run in which callers drop their requests,
the run in which they stay has come to the same point: everything but their own calls is the same.
What is finished next is cached, even if everybody who has asked for it has left. -/
theorem departures_unnoticed {config : PoolSettings} {engine : Session.Engine} {drive : GateDrive}
    (h : (start config engine drive).afterAll τ = some p) (hσ : σ <+: τ) :
    ∃ p' q', (start config engine drive).afterAll σ = some p' ∧
      (start config engine drive).afterAll (stayed σ) = some q' ∧ p'.unposted = q'.unposted ∧
      SameBut (left σ) p'.session q'.session ∧
      ∀ x k w r, Finishes p'.session x k w → p'.after x = some r →
        (cached r.session k w).isSome := by
  obtain ⟨rest, rfl⟩ := hσ
  rw [afterAll_append] at h
  obtain ⟨p', hp', -⟩ := Option.bind_eq_some_iff.mp h
  obtain ⟨q', hq', halike, hposts⟩ := alike_stayed hp'
  exact ⟨p', q', hp', hq', hposts, sameBut_of_alike halike,
    fun x k w r hfinishes hr => cached_of_after hfinishes hr⟩

/-- A response with the picture, in a frame. -/
def pixelsFrame : String := (Response.resolved (.counter 1) "iVBO").frame

/-- One caller leaves before its request has been looked at, and one while its request is on its way
over a bridge.  The work goes on, and a third one is answered by what has come of it. -/
def desertedRun : List Happening :=
  [.step (.connect .native), .step (.ask pixels .artifact false), .through 0 pixels .artifact, .leave 0,
    .turn (.call 0), .post 0 (.ofJob (.counter 1) pixels), .leave 1, .turn (.call 1),
    .service .begin, .service .command, .service (.take 0),
    .service (.finish 0 (.ofJob pixels) (strict.ending pixels)),
    .service (.report ⟨0, pixels.fingerprint, strict.direct pixels⟩), .receive 0 pixelsFrame,
    .step (.ask pixels .artifact false), .service .command, .turn (.call 2)]

set_option maxRecDepth 100000 in
/-- Nobody who has asked for the picture is left when it is rendered and when it crosses the bridge;
both the service and the client of the bridge have it all the same, and so has the one who asks for
it later. -/
theorem departures_unnoticed_deserted :
    ∃ p q, (start { poolSize := 2 } .builtIn .opened).afterAll desertedRun = some p ∧
      (start { poolSize := 2 } .builtIn .opened).afterAll (stayed desertedRun) = some q ∧
      left desertedRun = [0, 1] ∧ SameBut [0, 1] p.session q.session ∧
      (cached p.session pixels.fingerprint none).isSome ∧
      (cached p.session pixels.fingerprint (some 0)).isSome ∧
      p.session.done.map Prod.fst = [2] := by
  have hplay : ((start { poolSize := 2 } .builtIn .opened).afterAll desertedRun).any fun p =>
      (cached p.session pixels.fingerprint none).isSome ∧
        (cached p.session pixels.fingerprint (some 0)).isSome ∧
        p.session.done.map Prod.fst = [2] := by
    decide +kernel
  obtain ⟨p, hp, hends⟩ := (Option.any_eq_true _ _).mp hplay
  obtain ⟨hservice, hclient, hdone⟩ := of_decide_eq_true hends
  obtain ⟨p', q, hp', hq, -, hsame, -⟩ := departures_unnoticed hp (List.prefix_refl desertedRun)
  obtain rfl := Option.some.inj (hp.symm.trans hp')
  exact ⟨p, q, hp, hq, rfl, hsame, hservice, hclient, hdone⟩

end Clientele

end AvatarPool
