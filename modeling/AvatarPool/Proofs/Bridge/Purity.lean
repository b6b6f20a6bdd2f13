import AvatarPool.Proofs.Bridge.Requests
import AvatarPool.Proofs.Dispatch.Purity
import AvatarPool.Proofs.Wire.Payload

/-! # A bridge client far from a pure engine

The host at the other end answers every request with what a pure engine yields for its job.  Then a
bridge client keeps nothing but the engine's artifacts, and tells every caller the artifact of his
job, or in what words the engine has failed, in whatever order requests and responses cross.

The client does not know the engine, only responses.  What ties them together is the id:
`Minting.Assigns` says for which job an id was minted, and a fresh id was minted for one job only.
So a response that carries the id of a request under way is the response to that very request, and
what the client makes of it is what the engine yields for its job. -/

namespace AvatarPool

/-- **The outcome of a job over a bridge**: the artifact of the job done directly, or the wording of
its failure. -/
def PureEngine.remote (e : PureEngine) (job : Job) : Outcome :=
  match e.direct job with
  | .ok artifact => .ok artifact
  | .error why => .error (.remote why.message)

/-- The id of one of the requests made so far, which have been for `jobs`, with its job. -/
def Minting.Assigns (m : Minting) (jobs : List Job) (id : RequestId) (job : Job) : Prop :=
  ∃ i : Nat, jobs[i]? = some job ∧ id = m.mint i

namespace Minting.Assigns

variable {m : Minting} {jobs : List Job} {id : RequestId} {job job' : Job}

theorem append (h : m.Assigns jobs id job) (more : List Job) : m.Assigns (jobs ++ more) id job := by
  obtain ⟨i, hi, hid⟩ := h
  refine ⟨i, ?_, hid⟩
  rw [List.getElem?_append_left (List.getElem?_eq_some_iff.mp hi).1]
  exact hi

/-- An id that is fresh is for one job only. -/
theorem job_eq (h : m.Assigns jobs id job) (h' : m.Assigns jobs id job')
    (hf : m.Fresh jobs.length) : job = job' := by
  obtain ⟨i, hi, rfl⟩ := h
  obtain ⟨j, hj, heq⟩ := h'
  obtain rfl := hf.mint_inj (List.getElem?_eq_some_iff.mp hi).1 (List.getElem?_eq_some_iff.mp hj).1 heq
  exact Option.some.inj (hi.symm.trans hj)

end Minting.Assigns

variable {ω : Type} {e : PureEngine}

/-- What a client makes of the response to a request.  A picture arrives as the text of its bytes,
which are decoded again; a name arrives as it is; and a failure arrives in its own words. -/
theorem BridgeClient.outcome_respond (e : PureEngine) (id : RequestId) (job : Job) :
    outcome job.fingerprint (BridgeHost.respond id (e.direct job)) = e.remote job := by
  unfold PureEngine.remote
  cases job with
  | name seed =>
      have hdirect : e.direct (.name seed) = (e.name seed).outcome (.name seed) .name := rfl
      rw [hdirect]
      cases e.name seed <;> rfl
  | image seed size =>
      have hdirect : e.direct (.image seed size) =
          (e.render seed size).outcome (.image size seed) fun png => .image (.ofPng png) := rfl
      rw [hdirect]
      cases e.render seed size with
      | value png => exact congrArg (·.map Artifact.image) (Image.ofBase64_base64 png)
      | refused | broken => rfl

/-- What the callers who wait for a fingerprint are told over a bridge. -/
def PureEngine.remoteTold (e : PureEngine) (key : Fingerprint) : Outcome := e.remote key.job

theorem PureEngine.remoteTold_fingerprint (e : PureEngine) (job : Job) :
    e.remoteTold job.fingerprint = e.remote job := by
  rw [remoteTold, Job.job_fingerprint]

/-- An artifact comes over a bridge as it is. -/
theorem PureEngine.remote_eq_ok {job : Job} {artifact : Artifact} :
    e.remote job = .ok artifact ↔ e.direct job = .ok artifact := by
  unfold remote
  split <;> simp [*]

namespace BridgeClient

variable {c : BridgeClient ω} {jobs : List Job}

/-- The requests to be posted, in order. -/
def posts (c : BridgeClient ω) : List Request := c.effects.filterMap BridgeEffect.posted?

/-- **A client that agrees with an engine**: it is connected, has made requests for `jobs`, keeps
what the engine yields, and awaits nothing but responses to its requests. -/
structure Agrees (e : PureEngine) (jobs : List Job) (c : BridgeClient ω) : Prop where
  connected : ¬ c.disconnected
  minted : c.minted = jobs.length
  cached : ∀ k artifact, c.cache.get? k = some artifact → e.told k = .ok artifact
  outstanding : ∀ p ∈ c.outstanding, ∃ job, c.minting.Assigns jobs p.1 job ∧ job.fingerprint = p.2

/-- **What a step does to the callers**: `entered` come in, each with the fingerprint that he waits
for, and whoever is told anything is told what comes over the bridge for what he has waited for. -/
structure Yields (e : PureEngine) (c : BridgeClient ω) (entered : List (ω × Fingerprint))
    (c' : BridgeClient ω) : Prop where
  told : ∀ a ∈ c'.answered, a ∈ c.answered ∨
    ∃ k, (a.1 ∈ c.pending.waiting k ∨ (a.1, k) ∈ entered) ∧ a.2 = e.remoteTold k
  waiting : ∀ k, ∀ w ∈ c'.pending.waiting k, w ∈ c.pending.waiting k ∨ (w, k) ∈ entered

namespace Agrees

/-- At first nothing is under way.  The agreement is kept by the two steps that matter here,
admission and responses; nothing is given up, and the connection is never lost. -/
theorem ofMinting (e : PureEngine) (minting : Minting) :
    ({ minting := minting } : BridgeClient ω).Agrees e [] where
  connected := Bool.false_ne_true
  minted := rfl
  cached := nofun
  outstanding := nofun

/-- Effects are no part of the agreement. -/
theorem clear (h : c.Agrees e jobs) : { c with effects := [] }.Agrees e jobs :=
  ⟨h.connected, h.minted, h.cached, h.outstanding⟩

/-- **A request is taken**: from the cache, joined to another one, or posted under a new id.  What
it adds to the requests made is its own job, if it opens a request. -/
theorem accept (h : c.Agrees e jobs) (job : Job) (w : ω) :
    ∃ more, (c.accept job w).Agrees e (jobs ++ more) ∧
      Yields e c [(w, job.fingerprint)] (c.accept job w) ∧
        ∀ r ∈ (c.accept job w).posts, r ∈ c.posts ∨
          ∃ id job, c.minting.Assigns (jobs ++ more) id job ∧ r = Request.ofJob id job := by
  have hkept : ∀ k, ∀ v ∈ (c.pending.enter job.fingerprint w).1.waiting k,
      v ∈ c.pending.waiting k ∨ (v, k) ∈ [(w, job.fingerprint)] := by
    intro k v hv
    rw [Pending.waiting_enter] at hv
    split at hv
    · rename_i hk
      subst hk
      exact (List.mem_append.mp hv).imp_right fun hnew => by
        rw [List.mem_singleton.mp hnew]
        exact List.mem_singleton_self _
    · exact .inl hv
  -- From the cache: what is kept is what the engine yields, and an artifact comes over a bridge as
  -- it is.
  cases hc : c.cache.get? job.fingerprint with
  | some artifact =>
      refine ⟨[], ?_⟩
      rw [accept_of_hit hc, List.append_nil]
      refine ⟨⟨h.connected, h.minted, h.cached, h.outstanding⟩, ⟨fun a ha => ?_, fun k v => .inl⟩,
        fun r hr => .inl ?_⟩
      · rw [answered_note] at ha
        refine (List.mem_append.mp ha).imp_right fun hnew => ?_
        obtain rfl := List.mem_singleton.mp hnew
        refine ⟨job.fingerprint, .inr (List.mem_singleton_self _), ?_⟩
        rw [e.remoteTold_fingerprint]
        refine (PureEngine.remote_eq_ok.mpr ?_).symm
        rw [← e.told_fingerprint]
        exact h.cached _ _ hc
      · rw [posts, note, List.filterMap_append, List.filterMap_cons_none rfl] at hr
        exact (List.append_nil c.posts ▸ hr :)
  | none =>
      -- Joined: the caller waits for what others wait for.
      by_cases hk : job.fingerprint ∈ c.pending.keys
      · refine ⟨[], ?_⟩
        rw [accept_of_mem hc h.connected hk, List.append_nil]
        exact ⟨⟨h.connected, h.minted, h.cached, h.outstanding⟩, ⟨fun a => .inl, hkept⟩,
          fun r => .inl⟩
      -- Posted: the next id is for this job.
      · refine ⟨[job], ?_⟩
        rw [accept_of_notMem hc h.connected hk]
        have hnew : c.minting.Assigns (jobs ++ [job]) (c.minting.mint c.minted) job :=
          ⟨c.minted, h.minted ▸ List.getElem?_concat_length, rfl⟩
        refine ⟨⟨h.connected, ?_, h.cached, fun p hp => ?_⟩, ⟨fun a ha => .inl ?_, hkept⟩,
          fun r hr => ?_⟩
        · rw [List.length_append, ← h.minted]
          rfl
        · rcases List.mem_append.mp hp with hold | hlast
          · obtain ⟨job', hassigns, hkey⟩ := h.outstanding p (List.mem_of_mem_filter hold)
            exact ⟨job', hassigns.append _, hkey⟩
          · obtain rfl := List.mem_singleton.mp hlast
            exact ⟨job, hnew, rfl⟩
        · rw [answered_note] at ha
          exact (List.append_nil c.answered ▸ ha :)
        · rw [posts, note, List.filterMap_append] at hr
          refine (List.mem_append.mp hr).imp_right fun hposted => ?_
          exact ⟨_, job, hnew, List.mem_singleton.mp hposted⟩

/-- **A response is taken** that the host has sent for one of the requests.  It may be late, in
which case nothing is under way as its id and nothing happens. -/
theorem takeFrame (h : c.Agrees e jobs) (hf : c.minting.Fresh c.minted) {id : RequestId} {job : Job}
    (hid : c.minting.Assigns jobs id job) :
    (c.takeFrame (BridgeHost.respond id (e.direct job)).frame).Agrees e jobs ∧
      Yields e c [] (c.takeFrame (BridgeHost.respond id (e.direct job)).frame) := by
  have hrid : (BridgeHost.respond id (e.direct job)).id = id := by
    cases e.direct job <;> rfl
  rw [takeFrame_of_ok (Response.ofFrame_frame _)]
  by_cases hunknown : id ∈ c.outstanding.map Prod.fst
  · obtain ⟨key, hlookup⟩ := Option.ne_none_iff_exists'.mp
      (mt (lookup_eq_none_iff_notMem c.outstanding id).mp (not_not.mpr hunknown))
    -- The request under way as `id` is the one that the response is for.
    obtain ⟨job', hassigns, hkey⟩ := h.outstanding _ (mem_of_lookup hlookup)
    obtain rfl := hassigns.job_eq hid (h.minted ▸ hf)
    obtain rfl : job'.fingerprint = key := hkey
    rw [takeResponse_of_lookup (hrid.symm ▸ hlookup), hrid, outcome_respond]
    refine ⟨⟨?_, ?_, fun k artifact hk => ?_, fun p hp => ?_⟩, fun a ha => ?_, fun k w hw => .inl ?_⟩
    · unfold settle
      rw [keep_eq]
      exact h.connected
    · unfold settle
      rw [keep_eq]
      exact h.minted
    -- What is kept is new and the engine's own, or it was kept before.
    · cases hremote : e.remote job' with
      | error why =>
          rw [hremote] at hk
          exact h.cached k artifact hk
      | ok kept =>
          rw [hremote] at hk
          rcases Cache.get?_or_eq_of_insert (c := c.cache) hk with hbefore | ⟨rfl, rfl⟩
          · exact h.cached k artifact hbefore
          · rw [e.told_fingerprint]
            exact PureEngine.remote_eq_ok.mp hremote
    · rw [settle_outstanding] at hp
      have hminting : (c.settle id job'.fingerprint (e.remote job')).minting = c.minting := by
        unfold settle
        rw [keep_eq]
        rfl
      rw [hminting]
      exact h.outstanding p (List.mem_of_mem_filter hp)
    · rw [answered_settle] at ha
      refine (List.mem_append.mp ha).imp_right fun hnew => ?_
      obtain ⟨w, hw, rfl⟩ := List.mem_map.mp hnew
      exact ⟨_, .inl hw, (e.remoteTold_fingerprint job').symm⟩
    · rw [settle_pending, Pending.waiting_close] at hw
      split at hw
      · exact absurd hw List.not_mem_nil
      · exact hw
  · rw [takeResponse_of_unknown (hrid.symm ▸ hunknown)]
    exact ⟨h, fun a => .inl, fun k w => .inl⟩

end Agrees

end BridgeClient

end AvatarPool
