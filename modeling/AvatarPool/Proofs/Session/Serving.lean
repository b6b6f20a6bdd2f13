import AvatarPool.Proofs.Session.Crossings

/-! # A session that serves its clients

While nobody stops anything and the gate does not fail, a session is `Sound`: its handlers are in
order, it is fair to its calls, and its bridges are in order.  The service, the calls, the handlers,
the hosts and the clients keep it so, whoever of them goes on.

The three parts speak of one another: the service may only answer a call with what the call asked
for (`Fair` from `Tended`), and a handler may only reply with what its frame calls for (`Wired` from
`Tended`).  Hence each kind of turn is proved to keep all three at once.  Requests that a client has
minted but that have not reached a host yet are no part of a session; they are the parameter
`unposted`, and `acceptThrough` adds to them what `post` takes away. -/

namespace AvatarPool.Session

/-- **A session that is sound** for its clients, whose requests `unposted` are still to be posted:
the handlers are in order and the service has a handle to spare, the calls get what they have asked
for, and so do the bridges. -/
structure Sound (e : PureEngine) (asks : List Ask) (unposted : List (Nat × Request)) (s : Session) :
    Prop where
  tended : ∃ live, Tended e 1 live s
  fair : Fair e asks s
  wired : ∃ made, Wired e asks made unposted s.wiring

variable {e : PureEngine} {asks : List Ask} {unposted : List (Nat × Request)} {live : List Nat}
  {base : Nat} {s t : Session}

/-! ## What handles and requests change -/

theorem Tended.pos (h : Tended e base live s) (hpos : 0 < base) : 0 < s.service.handles :=
  Nat.lt_of_lt_of_le hpos (Nat.le_trans (Nat.le_add_right _ _) h.handles)

/-- A handle that nobody holds is one more for whoever comes. -/
theorem Tended.spare (h : Tended e (base + 1) live s) : Tended e base live s where
  outputs := h.outputs
  settled := h.settled
  handles := by have := h.handles; omega
  nodup := h.nodup
  known := h.known
  faithful := h.faithful
  orderly := h.orderly
  waiters := h.waiters
  awaited := h.awaited

namespace Fair

theorem share (h : Fair e asks s) (ht : Tended e base live s) (hpos : 0 < s.service.handles) :
    Fair e asks s.share :=
  ⟨agrees_share h.agrees ht.settled hpos, h.heard.congr rfl rfl, h.awaited⟩

theorem unshare (h : Fair e asks s) (ht : Tended e base live s) (hpos : 0 < s.service.handles) :
    Fair e asks s.unshare :=
  h.setService (m := .unshare) ht hpos trivial (if_pos hpos) nofun

/-- A request to the service is fair if a call makes it only for what it has asked for. -/
theorem request (h : Fair e asks s) (ht : Tended e base live s) (hpos : 0 < s.service.handles)
    {job : Job} {w : Caller} (hw : ∀ n, w = .call n → AsksFor asks none n job.fingerprint) :
    Fair e asks (s.request job w) := by
  -- The only new waiter is the one of this request.
  refine h.setService (m := .request job w) ht hpos trivial (if_pos hpos) fun job' n hr => ?_
  cases hr
  exact hw n rfl

/-- A new handler is not a call. -/
theorem addHandler (h : Fair e asks s) (ht : Tended e base live s) (hpos : 0 < s.service.handles)
    (outlet : Outlet) (frame : String) : Fair e asks (s.addHandler outlet frame) := by
  have hshared := h.share ht hpos
  have hcalls : (s.addHandler outlet frame).calls = s.calls := by
    cases outlet <;> exact (congrArg Session.calls (body_schedule _ _) :)
  have hdone : (s.addHandler outlet frame).done = s.done := by
    cases outlet <;> exact (congrArg Session.done (body_schedule _ _) :)
  refine ⟨?_, h.heard.congr hcalls hdone, ?_⟩ <;> rw [service_addHandler]
  · exact hshared.agrees
  · exact hshared.awaited

/-- A handler replies through a bridge. -/
theorem reply (h : Fair e asks s) (ht : Tended e base live s) (hpos : 0 < s.service.handles) (b : Nat)
    (r : Response) : Fair e asks (s.reply (.bridge b) r) := by
  -- The response is sent, the handle given back, and the handler no longer counted.
  have hneutral := Neutral.send s (.bridge b) r
  have hsent := h.neutral hneutral (congrArg Session.calls (body_wake _ _) :)
    (congrArg Session.done (body_wake _ _) :)
  have hended := hsent.unshare (ht.neutral hneutral) (hneutral.service ▸ hpos)
  have hcounted := hended.neutral (.countInFlight _ (.bridge b) (· - 1)) rfl rfl
  exact hcounted.neutral (.hushLink _ b) (congrArg Session.calls (body_hushLink _ b) :)
    (congrArg Session.done (body_hushLink _ b) :)

end Fair

namespace Sound

theorem pos (h : Sound e asks unposted s) : 0 < s.service.handles := by
  obtain ⟨live, ht⟩ := h.tended
  exact ht.pos Nat.one_pos

/-- Nothing has changed for the service, the handlers, the calls and the bridges. -/
theorem neutral (h : Sound e asks unposted s) (hn : Neutral s t) (hcalls : t.calls = s.calls)
    (hdone : t.done = s.done) (hwiring : t.wiring = s.wiring) : Sound e asks unposted t where
  tended := h.tended.imp fun _ ht => ht.neutral hn
  fair := h.fair.neutral hn hcalls hdone
  wired := hwiring ▸ h.wired

/-- Only what calls have heard has changed. -/
theorem of_heard (h : Sound e asks unposted s) (hheard : Heard e asks t) (hn : Neutral s t)
    (hwiring : t.wiring = s.wiring) : Sound e asks unposted t where
  tended := h.tended.imp fun _ ht => ht.neutral hn
  fair := ⟨hn.service ▸ h.fair.agrees, hheard, hn.service ▸ h.fair.awaited⟩
  wired := hwiring ▸ h.wired

theorem erase (h : Sound e asks unposted s) (u : Turn) :
    Sound e asks unposted { s with agenda := s.agenda.erase u } :=
  h.neutral ⟨rfl, rfl, fun _ hs => (hs.erase u).mono fun _ hn => hn.1⟩ rfl rfl rfl

/-- Anybody but a handler may be put on the agenda. -/
theorem schedule (h : Sound e asks unposted s) {u : Turn} (hu : ∀ n, u ≠ .handler n) :
    Sound e asks unposted (s.schedule u) := by
  have hbody := body_schedule s u
  exact h.neutral ⟨(congrArg Session.service hbody :), (congrArg Session.handlers hbody :),
    fun _ hs => hs.schedule fun n hn => absurd hn (hu n)⟩ (congrArg Session.calls hbody :)
    (congrArg Session.done hbody :) (wiring_schedule s u)

/-- Those who had put off their turns come back. -/
theorem resume (h : Sound e asks unposted s) : Sound e asks unposted s.resume := by
  have hbody := body_resume s
  exact h.neutral ⟨(congrArg Session.service hbody :), (congrArg Session.handlers hbody :),
    fun _ hs => hs.resume⟩ (congrArg Session.calls hbody :) (congrArg Session.done hbody :)
    (wiring_resume s)

/-- A session is sound from the start. -/
theorem create (e : PureEngine) (config : PoolSettings) (engine : Session.Engine)
    (drive : GateDrive) : Sound e [] [] (create config engine drive) where
  tended := ⟨[], tended_create e config engine drive⟩
  fair := by
    refine ⟨agrees_create e config engine drive, .empty e rfl rfl, fun n k hk => ?_⟩
    rcases hk with hwaits | ⟨job, hjob, -⟩
    · cases hwaits
    · cases hjob
  wired := ⟨[], .empty e⟩

/-! ## The service -/

/-- **The service goes on.** -/
theorem move (h : Sound e asks unposted s) {m : Move Caller} {u : Service Caller} (hm : m.isInner)
    (hcalm : m.IsCalm e) (hmove : s.service.move m = some u) :
    Sound e asks unposted (s.setService u) where
  tended := h.tended.imp fun _ ht => (ht.move h.fair.agrees Nat.one_pos hm hcalm hmove).1
  fair := by
    obtain ⟨live, ht⟩ := h.tended
    -- A move inside the service is not a request, so no call becomes a waiter.
    refine h.fair.setService ht h.pos hcalm hmove fun job n hr => ?_
    rw [Move.request?_of_isInner hm] at hr
    cases hr
  wired := (wiring_setService s u).symm ▸ h.wired

/-! ## Calls -/

/-- A call asks for something, and nobody has heard of it yet. -/
theorem newCall (h : Sound e asks unposted s) (q : Ask) :
    Sound e (asks ++ [q]) unposted (s.newCall (.call s.calls.length) q.form false) where
  tended := h.tended.imp fun _ ht => ht.neutral ⟨rfl, rfl, fun _ hs => hs.of_body rfl rfl⟩
  fair := ⟨h.fair.agrees, h.fair.heard.newCall q, fun n k hk => (h.fair.awaited n k hk).append [q]⟩
  wired := h.wired.imp fun _ hw => hw.ask q

/-- **A call asks the service.** -/
theorem ask (h : Sound e asks unposted s) (job : Job) (form : Form) :
    Sound e (asks ++ [⟨none, job, form⟩]) unposted (s.perform (.ask job form false)).1 := by
  have hnew := h.newCall ⟨none, job, form⟩
  obtain ⟨live, ht⟩ := hnew.tended
  -- The call gets the next number, under which it is noted what it asks for.
  have hasks : AsksFor (asks ++ [⟨none, job, form⟩]) none s.calls.length job.fingerprint := by
    rw [h.fair.heard.count]
    exact ⟨_, List.getElem?_concat_length, rfl, rfl⟩
  -- Its number is new, and so it awaits nothing yet.
  have hunknown : .call s.calls.length ∉ s.service.waiters := by
    intro hmem
    obtain ⟨k, hk⟩ := (Service.mem_waiters_iff ht.settled.wellFormed).mp hmem
    obtain ⟨q, hq, -⟩ := h.fair.awaited _ k hk
    rw [h.fair.heard.count] at hq
    exact absurd (List.getElem?_eq_some_iff.mp hq).1 (Nat.lt_irrefl _)
  have hrequested : Sound e (asks ++ [⟨none, job, form⟩]) unposted
      ((s.newCall (.call s.calls.length) form false).request job (.call s.calls.length)) :=
    ⟨⟨live, ht.request hnew.pos hnew.fair.agrees.not_hasEnded hunknown nofun⟩,
      hnew.fair.request ht hnew.pos fun n hn => by cases hn; exact hasks,
      (wiring_setService _ _).symm ▸ hnew.wired⟩
  exact hrequested.schedule nofun

/-- **The turn of a call.** -/
theorem runCall (h : Sound e asks unposted s) (n : Nat) : Sound e asks unposted (s.runCall n) := by
  have hheard := h.fair.heard.runCall n
  -- Besides what the call has heard nothing changes, whichever way its turn goes.
  have hkept : Neutral s (s.runCall n) ∧ (s.runCall n).wiring = s.wiring := by
    unfold Session.runCall
    split
    · rename_i c hc
      obtain ⟨q, -, hfits⟩ := h.fair.heard.calls n c hc
      split
      -- The call holds no handle, so none is given back.
      · rw [if_neg hfits.holds, endCall, hc]
        exact ⟨⟨rfl, rfl, fun _ hs => hs.of_body rfl rfl⟩, rfl⟩
      · exact ⟨.refl s, rfl⟩
    · exact ⟨.refl s, rfl⟩
  exact h.of_heard hheard hkept.1 hkept.2

/-- **A caller goes away.** -/
theorem abandon (h : Sound e asks unposted s) (n : Nat) : Sound e asks unposted (s.abandon n) := by
  have hheard := h.fair.heard.abandon n
  have hkept : Neutral s (s.abandon n) ∧ (s.abandon n).wiring = s.wiring := by
    unfold Session.abandon
    split
    · rename_i c hc
      obtain ⟨q, -, hfits⟩ := h.fair.heard.calls n c hc
      split
      -- The call is marked, and gets a turn in which it is taken off.
      · rw [hfits.turn]
        have hbody := body_schedule (s.modifyCall n fun c => { c with abandoned := true }) (.call n)
        refine ⟨⟨(congrArg Session.service hbody :), (congrArg Session.handlers hbody :),
          fun P hs => ?_⟩, wiring_schedule _ _⟩
        have hmarked : Orderly P (s.modifyCall n fun c => { c with abandoned := true }) :=
          hs.of_body rfl rfl
        exact hmarked.schedule nofun
      · exact ⟨.refl s, rfl⟩
    · exact ⟨.refl s, rfl⟩
  exact h.of_heard hheard hkept.1 hkept.2

/-! ## Handlers and hosts -/

/-- **The turn of a handler.** -/
theorem runHandler (h : Sound e asks unposted s) {n : Nat} (hn : .handler n ∈ s.agenda) :
    Sound e asks unposted ({ s with agenda := s.agenda.erase (.handler n) }.runHandler n) := by
  obtain ⟨live, ht⟩ := h.tended
  obtain ⟨made, hw⟩ := h.wired
  have hturn := ht.orderly.turns n hn
  have hended := h.fair.agrees.not_hasEnded
  obtain ⟨x, hx⟩ := ht.known n hturn.1
  -- Either the frame is a request and the service is asked, or the handler concludes.
  rcases ht.runHandler_eq hturn hx hended (s.agenda.erase (.handler n)) with
    ⟨rid, job, hfresh, hread, heq⟩ | heq
  -- The handler notes the id before it asks.
  · rw [heq]
    have halters := Alters.note s (s.agenda.erase (.handler n)) n rid
    have hnoted : Fair e asks { s with
        agenda := s.agenda.erase (.handler n)
        handlers := s.handlers.modify n fun x => { x with id := some rid } } :=
      ⟨h.fair.agrees, h.fair.heard.congr rfl rfl, h.fair.awaited⟩
    refine ⟨⟨live, ht.ask hended hturn hx hfresh hread⟩,
      hnoted.request (ht.read hturn hx hfresh hread) h.pos nofun, made, ?_⟩
    have hwiring : ({ s with
        agenda := s.agenda.erase (.handler n)
        handlers := s.handlers.modify n fun x => { x with id := some rid } } : Session).wiring =
          s.wiring := congrArg (Wiring.mk _ _) halters.errands
    rw [Session.request, wiring_setService, hwiring]
    exact hw
  -- What it says is the reply that its frame calls for, by the way the frame was made.
  · have herrand : x.errand ∈ s.wiring.errands :=
      List.mem_map_of_mem (List.mem_of_getElem? hx)
    obtain ⟨b, hb, id, job, hid, hframe⟩ := hw.errand _ herrand
    have hreply : e.reply? x.frame = some (BridgeHost.respond id (e.direct job)) := by
      rw [show x.frame = (Request.ofJob id job).frame from hframe, PureEngine.reply?,
        BridgeHost.readFrame_ofJob]
    rw [show x.outlet = .bridge b from hb, hreply] at heq
    rw [heq]
    have hretired := ht.retire hturn
    have herased := (h.erase (.handler n)).fair
    refine ⟨⟨_, hretired.conclude (.bridge b) (some _)⟩, herased.reply hretired h.pos b _, made, ?_⟩
    rw [Session.conclude, Session.reply, wiring_endHandler, wiring_send]
    exact hw.respond hid

/-- A host takes a frame, and hands it to a handler. -/
theorem addHandler (h : Sound e asks unposted s) {b : Nat} {x : FrameHost}
    (hx : s.hosts[b]? = some x) {frame : String} {rest : List String}
    (hinbox : x.inbox = frame :: rest) :
    Sound e asks unposted
      ((s.modifyHost b fun y => { y with inbox := rest }).addHandler x.outlet frame) := by
  obtain ⟨live, ht⟩ := h.tended
  obtain ⟨made, hw⟩ := h.wired
  have htaken : Neutral s (s.modifyHost b fun y => { y with inbox := rest }) :=
    ⟨rfl, rfl, fun _ hs => hs.of_body rfl rfl⟩
  have hfair := h.fair.neutral htaken rfl rfl
  refine ⟨⟨_, (ht.neutral htaken).addHandler h.pos x.outlet frame⟩,
    hfair.addHandler (ht.neutral htaken) h.pos x.outlet frame, made, ?_⟩
  rw [wiring_addHandler, wiring_modifyHost]
  exact hw.read hx hinbox

/-- **The turn of a host.** -/
theorem runHost (h : Sound e asks unposted s) (b : Nat) : Sound e asks unposted (s.runHost b) := by
  -- The invariant is kept frame by frame; a sound session has neither cancelled nor closed hosts.
  have htaken : ∀ inputs, Sound e asks unposted (s.takeFrames b inputs) := by
    intro inputs
    fun_induction Session.takeFrames s b inputs with
    | case1 s =>
        exact h.neutral ⟨rfl, rfl, fun _ hs => hs.postpone nofun⟩ rfl rfl rfl
    | case2 => exact h
    | case3 s inputs x hx hcancelled =>
        obtain ⟨made, hw⟩ := h.wired
        exact absurd hcancelled (hw.host b x hx).uncancelled
    | case4 s inputs x hx _ frame rest hinbox taken ih => exact ih (h.addHandler hx hinbox)
    | case5 => exact h
    | case6 s inputs x hx _ hinbox hclosed =>
        obtain ⟨made, hw⟩ := h.wired
        exact absurd (hw.host b x hx).isOpen hclosed
  unfold Session.runHost
  split
  · exact h
  · rename_i x hx
    obtain ⟨made, hw⟩ := h.wired
    have hfits := hw.host b x hx
    rw [hfits.running, hfits.call]
    exact htaken turnBudget

/-! ## Bridges -/

/-- **A bridge is connected.** -/
theorem connectWith (h : Sound e asks unposted s) (m : Minting) :
    Sound e asks unposted (s.connectWith m) := by
  obtain ⟨live, ht⟩ := h.tended
  obtain ⟨made, hw⟩ := h.wired
  let link : Link := { client := { minting := m }, host := s.hosts.length }
  let joined : Session := { s with
    links := s.links ++ [link]
    hosts := s.hosts ++ [{ outlet := .bridge s.links.length }] }
  -- The new bridge takes a handle; it is the one kept to spare.
  have hneutral : Neutral s joined := ⟨rfl, rfl, fun _ hs => hs.of_body rfl rfl⟩
  have hfair := (h.fair.neutral hneutral rfl rfl).share (ht.neutral hneutral) h.pos
  have hshared : Sound e asks unposted joined.share := by
    refine ⟨⟨live, ((ht.neutral hneutral).share h.pos).spare⟩, hfair, made ++ [(m, [])], ?_⟩
    -- Seen from the bridges, one wire and one host have been added.
    have hwires : joined.share.wiring = { s.wiring with
        wires := s.wiring.wires ++ [⟨{ minting := m }, s.wiring.hosts.length, []⟩]
        hosts := s.wiring.hosts ++ [{ outlet := .bridge s.wiring.wires.length }] } := by
      simp [joined, link, wiring, Session.share, Link.wire]
    rw [hwires]
    exact hw.connect m
  have hscheduled := hshared.schedule (u := .host s.hosts.length) fun n h => by cases h
  exact hscheduled.schedule fun n h => by cases h

/-- **A request is posted.** -/
theorem post (h : Sound e asks unposted s) {b : Nat} {r : Request} (hr : (b, r) ∈ unposted) :
    Sound e asks (unposted.erase (b, r)) (post b s r) := by
  obtain ⟨made, hw⟩ := h.wired
  -- The bridge exists, because its client has minted the request.
  obtain ⟨id, job, ⟨m, jobs, hmade, -⟩, -⟩ := hw.request _ hr
  have hlt := (List.getElem?_eq_some_iff.mp hmade).1
  have hlinks : s.links.length = made.length := (List.length_map _).symm.trans hw.wires
  obtain ⟨link, hlink⟩ : ∃ link, s.links[b]? = some link :=
    ⟨_, List.getElem?_eq_getElem (hlinks ▸ hlt)⟩
  obtain ⟨x, hx⟩ : ∃ x, s.hosts[b]? = some x :=
    ⟨_, List.getElem?_eq_getElem ((hw.count : s.hosts.length = _) ▸ hlt)⟩
  have hwire : s.wiring.wires[b]? = some link.wire := by
    rw [wiring, List.getElem?_map, hlink]
    rfl
  obtain ⟨_, _, _, hfits⟩ := hw.wire b _ hwire
  have hhost : link.host = b := hfits.host
  -- Its host runs, so the request reaches the inbox.
  have hposted : Session.post b s r =
      (s.modifyHost b fun y => { y with inbox := y.inbox ++ [r.frame] }).wake (.host b) := by
    unfold Session.post pushFrame
    rw [hlink]
    dsimp only
    rw [hhost, hx]
    dsimp only
    rw [if_pos (hw.host b x hx).running]
  have hneutral : Neutral s (Session.post b s r) := by
    rw [hposted]
    have hpushed : Neutral s (s.modifyHost b fun y => { y with inbox := y.inbox ++ [r.frame] }) :=
      ⟨rfl, rfl, fun _ hs => hs.of_body rfl rfl⟩
    exact hpushed.trans (.wake _ fun n h => by cases h)
  refine ⟨h.tended.imp fun _ ht => ht.neutral hneutral, h.fair.neutral hneutral ?_ ?_, made, ?_⟩ <;>
    rw [hposted]
  · exact (congrArg Session.calls (body_wake _ _) :)
  · exact (congrArg Session.done (body_wake _ _) :)
  · rw [wiring_wake, wiring_modifyHost]
    exact hw.post hr

/-- A bridge of a sound session is in order, whichever invariant is needed of it. -/
theorem exists_fits (h : Sound e asks unposted s) {b : Nat} {link : Link}
    (hlink : s.links[b]? = some link) : ∃ made m jobs, Wired e asks made unposted s.wiring ∧
      made[b]? = some (m, jobs) ∧ link.wire.Fits e asks b m jobs := by
  obtain ⟨made, hw⟩ := h.wired
  have hwire : s.wiring.wires[b]? = some link.wire := by
    rw [wiring, List.getElem?_map, hlink]
    rfl
  obtain ⟨m, jobs, hb, hfits⟩ := hw.wire b _ hwire
  exact ⟨made, m, jobs, hw, hb, hfits⟩

/-- **A client takes a step**, and whoever is told anything is told what comes over the bridge. -/
theorem setClient (h : Sound e asks unposted s) {made : Mints}
    (hw : Wired e asks made unposted s.wiring) {b : Nat} {k : Wire} {m : Minting} {jobs : List Job}
    (hb : made[b]? = some (m, jobs)) (hfits : k.Fits e asks b m jobs) {c : BridgeClient Nat}
    {more : List Job} (hminting : c.minting = m) (hc : c.Agrees e (jobs ++ more))
    {entered : List (Nat × Fingerprint)} (hyields : k.client.Yields e entered c)
    (hentered : ∀ p ∈ entered, AsksFor asks (some b) p.1 p.2) {posts : List Request}
    (hposts : ∀ r ∈ posts, ∃ id job, m.Assigns (jobs ++ more) id job ∧ r = Request.ofJob id job) :
    Sound e asks (unposted ++ posts.map (b, ·)) (s.setClient b c) := by
  obtain ⟨hneutral, hwiring, htold⟩ := setClient_spec s b c
  have hasks : ∀ n key, n ∈ k.client.pending.waiting key ∨ (n, key) ∈ entered →
      AsksFor asks (some b) n key :=
    fun n key hn => hn.elim (hfits.waiting key n) (hentered (n, key))
  have hheard : Heard e asks (s.setClient b c) := by
    refine h.fair.heard.informed htold fun n o ho => ?_
    -- Whoever is told anything waited for it, before the step or by the step.
    rcases hyields.told _ ho with hold | ⟨key, hwaits, rfl⟩
    · rw [BridgeClient.answered, hfits.drained] at hold
      exact absurd hold List.not_mem_nil
    · obtain ⟨q, hq, hlink, rfl⟩ := hasks n key hwaits
      refine ⟨q, hq, ?_⟩
      -- What comes over a bridge depends on the fingerprint only.
      rw [Ask.outcome, hlink, ← e.remoteTold_fingerprint]
  refine ⟨h.tended.imp fun _ ht => ht.neutral hneutral,
    ⟨hneutral.service ▸ h.fair.agrees, hheard, hneutral.service ▸ h.fair.awaited⟩,
    made.set b (m, jobs ++ more), ?_⟩
  rw [hwiring]
  exact hw.setClient hb hminting hc (fun key n hn => hasks n key (hyields.waiting key n hn)) hposts

/-- **A call asks the client of a bridge.** -/
theorem acceptThrough (h : Sound e asks unposted s) {b n : Nat} {job : Job}
    (hn : AsksFor asks (some b) n job.fingerprint) :
    Sound e asks (unposted ++ (s.acceptThrough b job n).2.map (b, ·)) (s.acceptThrough b job n).1 := by
  unfold Session.acceptThrough
  -- There is no such bridge: nothing is asked and nothing posted.
  split
  · rw [List.map_nil, List.append_nil]
    exact h
  · rename_i link hlink
    obtain ⟨made, m, jobs, hw, hb, hfits⟩ := h.exists_fits hlink
    -- The client may have minted an id; then the request is among those to be posted.
    obtain ⟨more, hagrees, hyields, hposts⟩ := hfits.client.accept job n
    have hminting := (BridgeClient.grows_accept link.client job n).minting.trans hfits.minting
    refine h.setClient hw hb hfits hminting hagrees hyields (fun p hp => ?_) fun r hr => ?_
    · obtain rfl := List.mem_singleton.mp hp
      exact hn
    · rcases hposts r hr with hold | ⟨id, job', hassigns, heq⟩
      · rw [BridgeClient.posts, hfits.drained] at hold
        exact absurd hold List.not_mem_nil
      · exact ⟨id, job', hfits.minting ▸ hassigns, heq⟩

/-- **A response comes to the client of its bridge**, whose ids are fresh. -/
theorem takeResponse (h : Sound e asks unposted s) {b i : Nat} {link : Link}
    (hlink : s.links[b]? = some link) {frame : String} (hframe : link.responses[i]? = some frame)
    (hfresh : link.client.minting.Fresh link.client.minted) :
    Sound e asks unposted (takeResponse b
      (s.modifyLink b fun k => { k with responses := k.responses.eraseIdx i }) frame) := by
  obtain ⟨made, m, jobs, hw, hb, hfits⟩ := h.exists_fits hlink
  -- Only what hosts have replied can be in the queue of responses.
  obtain ⟨id, job, hassigns, rfl⟩ := hfits.responses frame (List.mem_of_getElem? hframe)
  obtain ⟨hagrees, hyields⟩ := hfits.client.takeFrame hfresh (hfits.minting.symm ▸ hassigns)
  have hneutral := Neutral.modifyLink s b fun k => { k with responses := k.responses.eraseIdx i }
  -- The response is taken out of the queue before the client reads it.
  have hreceived := hw.receive b i
  have hwiring := wiring_modifyLink s b
    (f := fun k => { k with responses := k.responses.eraseIdx i })
    (g := fun k => { k with responses := k.responses.eraseIdx i }) fun _ => rfl
  rw [← hwiring] at hreceived
  have hkept : Sound e asks unposted
      (s.modifyLink b fun k => { k with responses := k.responses.eraseIdx i }) :=
    ⟨h.tended.imp fun _ ht => ht.neutral hneutral, h.fair.neutral hneutral rfl rfl, made, hreceived⟩
  have hmodified : (s.modifyLink b fun k => { k with responses := k.responses.eraseIdx i }).links[b]? =
      some { link with responses := link.responses.eraseIdx i } := by
    show (s.links.modify b _)[b]? = _
    rw [List.getElem?_modify, hlink]
    simp
  unfold Session.takeResponse
  rw [hmodified]
  have hminting := (BridgeClient.kept_takeFrame link.client
    (BridgeHost.respond id (e.direct job)).frame).minting.trans hfits.minting
  -- Taking a response mints nothing: the list of jobs is extended by none.
  rw [← List.append_nil jobs] at hagrees
  have hnone : ∀ r ∈ ([] : List Request),
      ∃ id job', m.Assigns (jobs ++ []) id job' ∧ r = Request.ofJob id job' := nofun
  have hset := hkept.setClient hreceived hb hfits hminting hagrees hyields nofun hnone
  rwa [List.map_nil, List.append_nil] at hset

end Sound

end AvatarPool.Session
