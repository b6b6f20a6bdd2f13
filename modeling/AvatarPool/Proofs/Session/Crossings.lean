import AvatarPool.Proofs.Session.Wiring

/-! # What crosses the bridges of a session

Every request on its way is for a job that the client of its bridge has minted the id for, and every
response is what a pure engine makes of such a job.  Each party on the way keeps this, in whatever
order it goes about its frames.

The ids that clients mint are what ties a response to a job, so a record of them is kept beside the
bridges: `Mints` holds for each bridge the jobs in the order in which ids have been minted for them.
A frame on its way is described by that record, and stays so described when further ids are minted.
-/

namespace AvatarPool.Session

/-- The ids minted so far, bridge by bridge: how they are minted, and the jobs they are for. -/
abbrev Mints := List (Minting × List Job)

/-- Bridge `b` has minted the id for the job. -/
def Mints.Has (made : Mints) (b : Nat) (id : RequestId) (job : Job) : Prop :=
  ∃ m jobs, made[b]? = some (m, jobs) ∧ m.Assigns jobs id job

/-- Further ids have been minted. -/
def Mints.Extends (made made' : Mints) : Prop :=
  ∀ (b : Nat) m jobs, made[b]? = some (m, jobs) → ∃ more, made'[b]? = some (m, jobs ++ more)

/-- The frame of a request that bridge `b` has minted the id for. -/
def Mints.Carries (made : Mints) (b : Nat) (frame : String) : Prop :=
  ∃ id job, made.Has b id job ∧ frame = (Request.ofJob id job).frame

namespace Mints.Extends

variable {made made' : Mints} {b : Nat}

theorem refl (made : Mints) : made.Extends made :=
  fun _ _ jobs h => ⟨[], by rw [List.append_nil]; exact h⟩

/-- An id that has been minted stays the id for its job. -/
theorem has (h : made.Extends made') {id : RequestId} {job : Job} (hid : made.Has b id job) :
    made'.Has b id job := by
  obtain ⟨m, jobs, hb, hassigns⟩ := hid
  obtain ⟨more, hmore⟩ := h b m jobs hb
  exact ⟨m, jobs ++ more, hmore, hassigns.append more⟩

/-- A frame that carries a request goes on doing so when further ids are minted. -/
theorem carries (h : made.Extends made') {frame : String} (hf : made.Carries b frame) :
    made'.Carries b frame := by
  obtain ⟨id, job, hid, heq⟩ := hf
  exact ⟨id, job, h.has hid, heq⟩

end Mints.Extends

variable {e : PureEngine} {asks : List Ask} {made made' : Mints} {b : Nat} {m : Minting}
  {jobs : List Job} {unposted : List (Nat × Request)} {w : Wiring}

/-- **A bridge in order**: its client agrees with the engine and makes requests for `jobs`, the
responses on their way are what the engine makes of them, and who waits has asked for it. -/
structure Wire.Fits (e : PureEngine) (asks : List Ask) (b : Nat) (m : Minting) (jobs : List Job)
    (k : Wire) : Prop where
  host : k.host = b
  minting : k.client.minting = m
  client : k.client.Agrees e jobs
  drained : k.client.effects = []
  responses : ∀ f ∈ k.responses, ∃ id job,
    m.Assigns jobs id job ∧ f = (BridgeHost.respond id (e.direct job)).frame
  waiting : ∀ key, ∀ n ∈ k.client.pending.waiting key, AsksFor asks (some b) n key

/-- **A frame host in order**: it serves bridge `b`, reads on, and has got nothing but requests. -/
structure FrameHost.Fits (made : Mints) (b : Nat) (h : FrameHost) : Prop where
  outlet : h.outlet = .bridge b
  call : h.call = none
  isOpen : h.isOpen
  running : h.running
  uncancelled : ¬ h.cancelled
  inbox : ∀ f ∈ h.inbox, made.Carries b f

/-- **Bridges in order**, with the requests `unposted` that their clients have yet to post. -/
structure Wired (e : PureEngine) (asks : List Ask) (made : Mints) (unposted : List (Nat × Request))
    (w : Wiring) : Prop where
  wires : w.wires.length = made.length
  count : w.hosts.length = made.length
  wire : ∀ (b : Nat) k, w.wires[b]? = some k →
    ∃ m jobs, made[b]? = some (m, jobs) ∧ k.Fits e asks b m jobs
  host : ∀ (b : Nat) h, w.hosts[b]? = some h → h.Fits made b
  errand : ∀ x ∈ w.errands, ∃ b, x.1 = .bridge b ∧ made.Carries b x.2
  request : ∀ p ∈ unposted, ∃ id job, made.Has p.1 id job ∧ p.2 = Request.ofJob id job

namespace Wired

/-- Without bridges there is nothing to be in order. -/
theorem empty (e : PureEngine) : Wired e [] [] [] ⟨[], [], []⟩ where
  wires := rfl
  count := rfl
  wire := nofun
  host := nofun
  errand := nofun
  request := nofun

/-- More calls ask for something. -/
theorem ask (h : Wired e asks made unposted w) (q : Ask) :
    Wired e (asks ++ [q]) made unposted w where
  wires := h.wires
  count := h.count
  wire b k hk := by
    obtain ⟨m, jobs, hb, hfits⟩ := h.wire b k hk
    exact ⟨m, jobs, hb, hfits.host, hfits.minting, hfits.client, hfits.drained, hfits.responses,
      fun key n hn => (hfits.waiting key n hn).append [q]⟩
  host := h.host
  errand := h.errand
  request := h.request

/-- A request is posted: it is in the inbox of the host. -/
theorem post (h : Wired e asks made unposted w) {r : Request} (hr : (b, r) ∈ unposted) :
    Wired e asks made (unposted.erase (b, r))
      { w with hosts := w.hosts.modify b fun x => { x with inbox := x.inbox ++ [r.frame] } } where
  wires := h.wires
  count := (List.length_modify _ _ _).trans h.count
  wire := h.wire
  host i x hx := by
    obtain ⟨id, job, hid, rfl⟩ := h.request _ hr
    rw [List.getElem?_modify] at hx
    obtain ⟨y, hy, rfl⟩ := Option.map_eq_some_iff.mp hx
    have hfits := h.host i y hy
    -- Host `b` has one request more, and any other one what it had.
    split
    · rename_i hb
      subst hb
      refine ⟨hfits.outlet, hfits.call, hfits.isOpen, hfits.running, hfits.uncancelled,
        fun f hf => ?_⟩
      rcases List.mem_append.mp hf with hold | hnew
      · exact hfits.inbox f hold
      · exact ⟨id, job, hid, List.mem_singleton.mp hnew⟩
    · exact hfits
  errand := h.errand
  request p hp := h.request p (List.mem_of_mem_erase hp)

/-- A host takes a frame from its inbox and hands it to a handler. -/
theorem read (h : Wired e asks made unposted w) {x : FrameHost} (hx : w.hosts[b]? = some x)
    {frame : String} {rest : List String} (hinbox : x.inbox = frame :: rest) :
    Wired e asks made unposted { w with
      hosts := w.hosts.modify b fun x => { x with inbox := rest }
      errands := w.errands ++ [(x.outlet, frame)] } where
  wires := h.wires
  count := (List.length_modify _ _ _).trans h.count
  wire := h.wire
  host i y hy := by
    rw [List.getElem?_modify] at hy
    obtain ⟨z, hz, rfl⟩ := Option.map_eq_some_iff.mp hy
    have hfits := h.host i z hz
    -- What is left in the inbox was in it before.
    split
    · rename_i hb
      subst hb
      obtain rfl := Option.some.inj (hx.symm.trans hz)
      refine ⟨hfits.outlet, hfits.call, hfits.isOpen, hfits.running, hfits.uncancelled,
        fun f hf => ?_⟩
      exact hfits.inbox f (hinbox ▸ List.mem_cons_of_mem _ hf)
    · exact hfits
  errand y hy := by
    -- The new errand is the frame taken.
    rcases List.mem_append.mp hy with hold | hnew
    · exact h.errand y hold
    · obtain rfl := List.mem_singleton.mp hnew
      have hfits := h.host b x hx
      exact ⟨b, hfits.outlet, hfits.inbox frame (hinbox ▸ List.mem_cons_self)⟩
  request := h.request

/-- A bridge is changed, and remains in order.  The jobs for which ids have been minted may become
more, on this bridge alone; requests that are to be posted are added. -/
theorem modifyWire (h : Wired e asks made unposted w) (hext : made.Extends made')
    (hlength : made'.length = made.length) {f : Wire → Wire} {posts : List Request}
    (hf : ∀ k m jobs, made[b]? = some (m, jobs) → k.Fits e asks b m jobs →
      ∃ jobs', made'[b]? = some (m, jobs') ∧ (f k).Fits e asks b m jobs')
    (hsame : ∀ i ≠ b, made'[i]? = made[i]?)
    (hposts : ∀ r ∈ posts, ∃ id job, made'.Has b id job ∧ r = Request.ofJob id job) :
    Wired e asks made' (unposted ++ posts.map (b, ·)) (w.modifyWire b f) where
  wires := (List.length_modify _ _ _).trans (h.wires.trans hlength.symm)
  count := h.count.trans hlength.symm
  -- Bridge `b` is changed, and the others are as they were.
  wire i k hk := by
    have hget : (w.wires.modify b f)[i]? = some k := hk
    rw [List.getElem?_modify] at hget
    obtain ⟨k', hk', rfl⟩ := Option.map_eq_some_iff.mp hget
    obtain ⟨m, jobs, hi, hfits⟩ := h.wire i k' hk'
    split
    · rename_i hb
      subst hb
      obtain ⟨jobs', hi', hfits'⟩ := hf k' m jobs hi hfits
      exact ⟨m, jobs', hi', hfits'⟩
    · rename_i hb
      exact ⟨m, jobs, (hsame i (Ne.symm hb)).trans hi, hfits⟩
  -- What hosts and handlers have is described by what has been minted, which is only added to.
  host i x hx := by
    have hfits := h.host i x hx
    exact ⟨hfits.outlet, hfits.call, hfits.isOpen, hfits.running, hfits.uncancelled,
      fun f hf => hext.carries (hfits.inbox f hf)⟩
  errand x hx := by
    obtain ⟨i, houtlet, hcarries⟩ := h.errand x hx
    exact ⟨i, houtlet, hext.carries hcarries⟩
  request p hp := by
    -- A request was to be posted before, or is new.
    rcases List.mem_append.mp hp with hold | hnew
    · obtain ⟨id, job, hid, heq⟩ := h.request p hold
      exact ⟨id, job, hext.has hid, heq⟩
    · obtain ⟨r, hr, rfl⟩ := List.mem_map.mp hnew
      exact hposts r hr

/-- A bridge is changed without a new request. -/
theorem alter (h : Wired e asks made unposted w) (b : Nat) {f : Wire → Wire}
    (hf : ∀ k m jobs, made[b]? = some (m, jobs) → k.Fits e asks b m jobs →
      (f k).Fits e asks b m jobs) :
    Wired e asks made unposted (w.modifyWire b f) := by
  have hnone : ∀ r ∈ ([] : List Request), ∃ id job, made.Has b id job ∧ r = Request.ofJob id job :=
    nofun
  -- No request is new.
  have hchanged := h.modifyWire (f := f) (.refl made) rfl
    (fun k m jobs hb hfits => ⟨jobs, hb, hf k m jobs hb hfits⟩) (fun _ _ => rfl) hnone
  rwa [List.map_nil, List.append_nil] at hchanged

/-- A handler sends the response to a request.  The id is one that the bridge has minted, so the
response is what the engine makes of that job. -/
theorem respond (h : Wired e asks made unposted w) {id : RequestId} {job : Job}
    (hid : made.Has b id job) :
    Wired e asks made unposted (w.modifyWire b fun k =>
      { k with responses := k.responses ++ [(BridgeHost.respond id (e.direct job)).frame] }) := by
  refine h.alter b fun k m jobs hb hfits => ?_
  refine ⟨hfits.host, hfits.minting, hfits.client, hfits.drained, fun f hf => ?_, hfits.waiting⟩
  -- The response was on its way before, or it is this one.
  rcases List.mem_append.mp hf with hold | hnew
  · exact hfits.responses f hold
  · obtain ⟨m', jobs', hb', hassigns⟩ := hid
    obtain ⟨rfl, rfl⟩ := Prod.mk.inj (Option.some.inj (hb.symm.trans hb'))
    exact ⟨id, job, hassigns, List.mem_singleton.mp hnew⟩

/-- A response has come, and is not on its way any more. -/
theorem receive (h : Wired e asks made unposted w) (b i : Nat) :
    Wired e asks made unposted
      (w.modifyWire b fun k => { k with responses := k.responses.eraseIdx i }) :=
  h.alter b fun _ _ _ _ hfits => ⟨hfits.host, hfits.minting, hfits.client, hfits.drained,
    fun f hf => hfits.responses f (List.mem_of_mem_eraseIdx hf), hfits.waiting⟩

/-- **A client takes a step**, in which it mints ids for `more` jobs and makes requests for them.
The step belongs to the client; what is asked here is that the client still agrees with the engine,
and that its requests are for jobs it has just minted ids for. -/
theorem setClient (h : Wired e asks made unposted w) (hb : made[b]? = some (m, jobs))
    {c : BridgeClient Nat} {more : List Job} (hminting : c.minting = m)
    (hc : c.Agrees e (jobs ++ more))
    (hwaiting : ∀ key, ∀ n ∈ c.pending.waiting key, AsksFor asks (some b) n key)
    {posts : List Request}
    (hposts : ∀ r ∈ posts, ∃ id job, m.Assigns (jobs ++ more) id job ∧ r = Request.ofJob id job) :
    Wired e asks (made.set b (m, jobs ++ more)) (unposted ++ posts.map (b, ·))
      (w.modifyWire b fun k => { k with client := { c with effects := [] } }) := by
  have hlt := (List.getElem?_eq_some_iff.mp hb).1
  have hset : (made.set b (m, jobs ++ more))[b]? = some (m, jobs ++ more) :=
    List.getElem?_set_self hlt
  refine h.modifyWire (fun i m' jobs' hi => ?_) (List.length_set ..) (fun k m' jobs' hb' hfits => ?_)
    (fun i hi => List.getElem?_set_ne (Ne.symm hi)) fun r hr => ?_
  -- Only what is minted on bridge `b` has become more.
  · by_cases hib : b = i
    · subst hib
      obtain ⟨rfl, rfl⟩ := Prod.mk.inj (Option.some.inj (hb.symm.trans hi))
      exact ⟨more, hset⟩
    · refine ⟨[], ?_⟩
      rw [List.getElem?_set_ne hib, List.append_nil]
      exact hi
  · obtain ⟨rfl, rfl⟩ := Prod.mk.inj (Option.some.inj (hb.symm.trans hb'))
    refine ⟨jobs ++ more, hset, hfits.host, hminting, hc.clear, rfl, fun f hf => ?_, hwaiting⟩
    obtain ⟨id, job, hassigns, heq⟩ := hfits.responses f hf
    exact ⟨id, job, hassigns.append more, heq⟩
  · obtain ⟨id, job, hassigns, heq⟩ := hposts r hr
    exact ⟨id, job, ⟨m, _, hset, hassigns⟩, heq⟩

/-- A bridge is connected, with a host of its own.  Nothing is on its way over it, and nobody waits.
-/
theorem connect (h : Wired e asks made unposted w) (m : Minting) :
    Wired e asks (made ++ [(m, [])]) unposted { w with
      wires := w.wires ++ [⟨{ minting := m }, w.hosts.length, []⟩]
      hosts := w.hosts ++ [{ outlet := .bridge w.wires.length }] } := by
  have hext : made.Extends (made ++ [(m, [])]) := by
    intro b m' jobs hb
    refine ⟨[], ?_⟩
    rw [List.append_nil, List.getElem?_append_left (List.getElem?_eq_some_iff.mp hb).1]
    exact hb
  -- The new bridge comes last, and nothing has been minted on it.
  have hlast : (made ++ [(m, [])])[made.length]? = some (m, []) := List.getElem?_concat_length
  refine ⟨?_, ?_, fun b k hk => ?_, fun b x hx => ?_, fun x hx => ?_, fun p hp => ?_⟩
  · rw [List.length_append, List.length_append, h.wires]
    rfl
  · rw [List.length_append, List.length_append, h.count]
    rfl
  · rcases getElem?_snoc_eq_some_iff.mp hk with hold | ⟨rfl, rfl⟩
    · obtain ⟨m', jobs, hb, hfits⟩ := h.wire b k hold
      obtain ⟨more, hmore⟩ := hext b m' jobs hb
      rw [List.getElem?_append_left (List.getElem?_eq_some_iff.mp hb).1] at hmore ⊢
      exact ⟨m', jobs, hb, hfits⟩
    · rw [h.wires]
      exact ⟨m, [], hlast, h.count, rfl, .ofMinting e m, rfl, nofun, nofun⟩
  · rcases getElem?_snoc_eq_some_iff.mp hx with hold | ⟨rfl, rfl⟩
    · have hfits := h.host b x hold
      exact ⟨hfits.outlet, hfits.call, hfits.isOpen, hfits.running, hfits.uncancelled,
        fun f hf => hext.carries (hfits.inbox f hf)⟩
    · rw [h.wires, h.count]
      exact ⟨rfl, rfl, rfl, rfl, Bool.false_ne_true, nofun⟩
  · obtain ⟨i, houtlet, hcarries⟩ := h.errand x hx
    exact ⟨i, houtlet, hext.carries hcarries⟩
  · obtain ⟨id, job, hid, heq⟩ := h.request p hp
    exact ⟨id, job, hext.has hid, heq⟩

end Wired

end AvatarPool.Session
