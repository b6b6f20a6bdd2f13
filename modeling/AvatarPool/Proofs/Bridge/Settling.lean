import AvatarPool.Proofs.Bridge.Answers

/-! # Requests come to their end

A response, a post given up and the loss of the connection end requests alike: nothing is under way
any more as their ids, the callers are told, and a success is kept.  Whatever ids are minted, the
requests under way stay in order: each has an id and a fingerprint of its own, and callers wait for
it and for nothing that is cached.

The model settles a request in three places.  Here they are brought under one function, `settle`,
which takes out the request, keeps a success and tells the callers; the lemmas about it are then
lemmas about all three.  `Coherent` is what remains of the ledger when ids may be minted again:
every request under way has its callers, though there may be callers whose request has been
replaced. -/

namespace AvatarPool

variable {ω : Type}

namespace BridgeClient

variable {c d : BridgeClient ω} {id : RequestId} {key : Fingerprint} {w : ω}

/-- A request comes to its end: a success is kept, and all who wait are told. -/
def settle (c : BridgeClient ω) (id : RequestId) (key : Fingerprint) (o : Outcome) :
    BridgeClient ω :=
  ((c.withdraw id).keep key o).answerAll key o

/-- A response to a request under way settles it with its outcome. -/
theorem takeResponse_of_lookup {r : Response} (hl : c.outstanding.lookup r.id = some key) :
    c.takeResponse r = c.settle r.id key (outcome key r) := by
  unfold takeResponse
  rw [hl]
  rfl

theorem takeResponse_of_unknown {r : Response} (hl : r.id ∉ c.outstanding.map Prod.fst) :
    c.takeResponse r = c := by
  unfold takeResponse
  rw [(lookup_eq_none_iff_notMem _ _).mpr hl]

/-- A request that is given up is settled with the failure, and an event tells of it. -/
theorem giveUp_of_lookup (hl : c.outstanding.lookup id = some key) (why : Failure) :
    c.giveUp id why = (c.settle id key (.error why)).warn why.message := by
  unfold giveUp
  rw [hl]
  rfl

theorem giveUp_of_unknown (hl : id ∉ c.outstanding.map Prod.fst) (why : Failure) :
    c.giveUp id why = c.warn why.message := by
  unfold giveUp
  rw [(lookup_eq_none_iff_notMem _ _).mpr hl]

/-- What the end of a request does, field by field. -/
theorem settle_eq (c : BridgeClient ω) (id : RequestId) (key : Fingerprint) (o : Outcome) :
    c.settle id key o = { c with
      outstanding := c.outstanding.filter fun e => e.1 ≠ id
      cache := (c.keep key o).cache
      pending := (c.pending.close key).1
      effects := c.effects ++ (c.pending.waiting key).map fun w => .answered w o } := by
  cases o <;> rfl

theorem settle_outstanding (c : BridgeClient ω) (id : RequestId) (key : Fingerprint) (o : Outcome) :
    (c.settle id key o).outstanding = c.outstanding.filter fun e => e.1 ≠ id := by
  rw [settle_eq]

theorem settle_pending (c : BridgeClient ω) (id : RequestId) (key : Fingerprint) (o : Outcome) :
    (c.settle id key o).pending = (c.pending.close key).1 := by
  rw [settle_eq]

/-- Those who waited are told, in the order in which they came. -/
theorem answered_settle (c : BridgeClient ω) (id : RequestId) (key : Fingerprint) (o : Outcome) :
    (c.settle id key o).answered = c.answered ++ (c.pending.waiting key).map fun w => (w, o) := by
  unfold settle
  rw [answered_answerAll, answered_keep, keep_pending]
  rfl

/-- A success is kept, unless there has been one before. -/
theorem get?_settle_ok (c : BridgeClient ω) (id : RequestId) (key : Fingerprint)
    (artifact : Artifact) :
    (c.settle id key (.ok artifact)).cache.get? key = some ((c.cache.get? key).getD artifact) := by
  show (c.cache.insert key artifact).1.get? key = _
  rw [Cache.get?_insert, if_pos rfl]

/-- A success is kept, a failure is not. -/
theorem get?_settle (hc : c.cache.get? key = none) (id : RequestId) (o : Outcome) :
    (c.settle id key o).cache.get? key = o.toOption := by
  cases o with
  | error why => exact hc
  | ok artifact =>
      rw [get?_settle_ok, hc]
      rfl

theorem mem_answered_settle (hw : w ∈ c.pending.waiting key) (id : RequestId) (o : Outcome) :
    (w, o) ∈ (c.settle id key o).answered := by
  rw [answered_settle]
  exact List.mem_append_right _ (List.mem_map.mpr ⟨w, hw, rfl⟩)

/-- Whether the request was known or not, nothing is under way as this id afterwards. -/
theorem outstanding_takeResponse (c : BridgeClient ω) (r : Response) :
    (c.takeResponse r).outstanding = c.outstanding.filter fun e => e.1 ≠ r.id := by
  cases hl : c.outstanding.lookup r.id with
  | some k => rw [takeResponse_of_lookup hl, settle_outstanding]
  | none =>
      have hunknown := (lookup_eq_none_iff_notMem _ _).mp hl
      rw [takeResponse_of_unknown hunknown, filter_ne_of_notMem hunknown]

/-- Giving a request up takes it out by its id, too. -/
theorem outstanding_giveUp (c : BridgeClient ω) (id : RequestId) (why : Failure) :
    (c.giveUp id why).outstanding = c.outstanding.filter fun e => e.1 ≠ id := by
  cases hl : c.outstanding.lookup id with
  | some k =>
      rw [giveUp_of_lookup hl, ← settle_outstanding c id k (.error why)]
      rfl
  | none =>
      have hunknown := (lookup_eq_none_iff_notMem _ _).mp hl
      rw [giveUp_of_unknown hunknown, filter_ne_of_notMem hunknown]
      rfl

theorem notMem_keys_filter (l : List (RequestId × Fingerprint)) (id : RequestId) :
    id ∉ (l.filter fun e => e.1 ≠ id).map Prod.fst := by
  rw [keys_filter_ne]
  simp

/-! ## The loss of the connection -/

/-- The other fields stay as they were. -/
theorem loseConnection_eq (c : BridgeClient ω) :
    ∃ pending effects, c.loseConnection =
      { c with disconnected := true, outstanding := [], pending := pending, effects := effects } := by
  unfold loseConnection
  dsimp only
  rw [foldl_answerAll_eq]
  split <;> exact ⟨_, _, rfl⟩

/-- The loss of the connection closes entries and opens none. -/
theorem keys_loseConnection (c : BridgeClient ω) :
    c.loseConnection.pending.keys ⊆ c.pending.keys := by
  have hfailed : (c.outstanding.foldl (fun (c : BridgeClient ω) e => c.answerAll e.2 (.error lost))
      { c with disconnected := true, outstanding := [] }).pending.keys ⊆ c.pending.keys := by
    rw [keys_foldl_answerAll]
    exact List.filter_sublist.subset
  unfold loseConnection
  dsimp only
  split <;> exact hfailed

/-! ## Requests under way in order -/

/-- **Requests under way are in order**: each has an id and a fingerprint of its own, callers wait
for it and for nothing that is cached, and after a disconnect there is none. -/
structure Coherent (c : BridgeClient ω) : Prop where
  ids : (c.outstanding.map Prod.fst).Nodup
  nodup : (c.outstanding.map Prod.snd).Nodup
  waited : ∀ k ∈ c.outstanding.map Prod.snd, k ∈ c.pending.keys
  uncached : ∀ k ∈ c.pending.keys, c.cache.get? k = none
  cut : c.disconnected → c.outstanding = []

theorem Ledger.coherent (h : c.Ledger) : c.Coherent :=
  ⟨h.ids, h.nodup, fun _ => h.books.mem_iff.mp, h.uncached, h.cut⟩

namespace Coherent

theorem ofMinting (minting : Minting) : ({ minting := minting } : BridgeClient ω).Coherent :=
  (Ledger.ofMinting minting).coherent

/-- Nothing that is under way has changed. -/
theorem congr (h : c.Coherent) (ho : d.outstanding = c.outstanding) (hp : d.pending = c.pending)
    (hc : d.cache = c.cache) (hd : d.disconnected = c.disconnected) : d.Coherent where
  ids := ho ▸ h.ids
  nodup := ho ▸ h.nodup
  waited := by rw [ho, hp]; exact h.waited
  uncached := by rw [hp, hc]; exact h.uncached
  cut := by rw [ho, hd]; exact h.cut

/-- Another request is not for this key, so its entry stays. -/
theorem settle (h : c.Coherent) (hid : c.outstanding.lookup id = some key) (o : Outcome) :
    (c.settle id key o).Coherent where
  ids := by
    rw [settle_outstanding]
    exact h.ids.sublist (List.filter_sublist.map _)
  nodup := by
    rw [settle_outstanding]
    exact h.nodup.sublist (List.filter_sublist.map _)
  waited := by
    rw [settle_outstanding, settle_pending]
    intro k hk
    obtain ⟨e, he, rfl⟩ := List.mem_map.mp hk
    obtain ⟨hold, hother⟩ := List.mem_filter.mp he
    refine Pending.mem_keys_close.mpr ⟨h.waited _ (List.mem_map_of_mem hold), fun hkey => ?_⟩
    -- Another request for the fingerprint would be this one.
    have heq : e = (id, key) := List.inj_on_of_nodup_map h.nodup hold (mem_of_lookup hid) hkey
    rw [heq] at hother
    simp at hother
  uncached := by
    rw [settle_pending]
    intro k hk
    obtain ⟨hold, hne⟩ := Pending.mem_keys_close.mp hk
    rw [settle_eq]
    exact (get?_keep_of_ne hne o).trans (h.uncached k hold)
  cut := by
    intro hcut
    rw [settle_eq] at hcut
    rw [settle_outstanding, h.cut hcut]
    rfl

/-- In either case, known or not. -/
theorem takeResponse (h : c.Coherent) (r : Response) : (c.takeResponse r).Coherent := by
  cases hid : c.outstanding.lookup r.id with
  | some key =>
      rw [takeResponse_of_lookup hid]
      exact h.settle hid _
  | none =>
      rw [takeResponse_of_unknown ((lookup_eq_none_iff_notMem _ _).mp hid)]
      exact h

/-- In either case, under way or not. -/
theorem giveUp (h : c.Coherent) (id : RequestId) (why : Failure) : (c.giveUp id why).Coherent := by
  cases hid : c.outstanding.lookup id with
  | some key =>
      rw [giveUp_of_lookup hid]
      exact (h.settle hid _).congr rfl rfl rfl rfl
  | none =>
      rw [giveUp_of_unknown ((lookup_eq_none_iff_notMem _ _).mp hid)]
      exact h.congr rfl rfl rfl rfl

/-- Nothing is under way any more, and no entry has been opened. -/
theorem loseConnection (h : c.Coherent) : c.loseConnection.Coherent := by
  have hkeys := keys_loseConnection c
  obtain ⟨pending, effects, heq⟩ := loseConnection_eq c
  rw [heq] at hkeys ⊢
  exact ⟨List.nodup_nil, List.nodup_nil, nofun, fun k hk => h.uncached k (hkeys hk), fun _ => rfl⟩

/-- A request opens a round trip, and takes the place of another one that has its id. -/
theorem opened (h : c.Coherent) {job : Job} (w : ω) (hc : c.cache.get? job.fingerprint = none)
    (hd : ¬ c.disconnected) (hk : job.fingerprint ∉ c.pending.keys) :
    Coherent { c with
      pending := (c.pending.enter job.fingerprint w).1
      minted := c.minted + 1
      outstanding := (c.outstanding.filter fun e => e.1 ≠ id) ++ [(id, job.fingerprint)] } where
  ids := by
    rw [List.map_append, List.map_singleton, ← List.concat_eq_append]
    exact (h.ids.sublist (List.filter_sublist.map _)).concat (notMem_keys_filter _ _)
  nodup := by
    -- What is under way is waited for, and this key is not.
    have hnew : job.fingerprint ∉ (c.outstanding.filter fun e => e.1 ≠ id).map Prod.snd :=
      fun hmem => hk (h.waited _ ((List.filter_sublist.map _).subset hmem))
    rw [List.map_append, List.map_singleton, ← List.concat_eq_append]
    exact (h.nodup.sublist (List.filter_sublist.map _)).concat hnew
  waited := by
    intro k hmem
    rw [Pending.keys_enter, if_neg hk]
    rw [List.map_append] at hmem
    refine List.mem_append.mpr ((List.mem_append.mp hmem).imp_left fun hold => ?_)
    exact h.waited k ((List.filter_sublist.map _).subset hold)
  uncached := by
    intro k hmem
    rw [Pending.keys_enter, if_neg hk] at hmem
    rcases List.mem_append.mp hmem with hold | hnew
    · exact h.uncached k hold
    · rw [List.mem_singleton.mp hnew]
      exact hc
  cut := fun hcut => absurd hcut hd

/-- **A fingerprint goes under way once at a time**, whatever id is minted for it. -/
theorem accept (h : c.Coherent) (job : Job) (w : ω) : (c.accept job w).Coherent := by
  have hadmits := c.admits job w
  generalize c.accept job w = d at hadmits ⊢
  cases hadmits with
  | hit hc => exact h.congr rfl rfl rfl rfl
  | refused hc hd => exact h.congr rfl rfl rfl rfl
  | joined hc hd hk =>
      have hkeys : (c.pending.enter job.fingerprint w).1.keys = c.pending.keys := by
        rw [Pending.keys_enter, if_pos hk]
      exact ⟨h.ids, h.nodup, hkeys ▸ h.waited, hkeys ▸ h.uncached, h.cut⟩
  | opened hc hd hk => exact (h.opened w hc hd hk).congr rfl rfl rfl rfl

end Coherent

end BridgeClient

namespace Bridge

open BridgeClient

variable {b b' : Bridge ω} {minting : Minting} {τ : List (BridgeMove ω)} {m : BridgeMove ω}

/-! ## Every move keeps the order -/

/-- A response, in whatever form it comes. -/
theorem client_of_response {r : Response} {text : String} (hr : Response.ofFrame text = .ok r) :
    b.move (.frame text) = b.move (.respond r) := by
  simp only [move, takeFrame_of_ok hr]

/-- Every move keeps the tables of a bridge client coherent.  By the cases of a move. -/
theorem coherent_of_move (h : b.client.Coherent) (hmove : b.move m = some b') :
    b'.client.Coherent := by
  cases leads_of_move hmove with
  | accept job w => exact h.accept job w
  | post => exact h
  | giveUp => exact h.giveUp _ _
  | respond | read => exact h.takeResponse _
  | misread => exact h.congr rfl rfl rfl rfl
  | disconnect => exact h.loseConnection

/-- Requests under way are in order after every run, whatever ids are minted. -/
theorem coherent_of_play (h : (ofMinting minting : Bridge ω).play τ = some b) :
    b.client.Coherent :=
  play_induction (P := fun c => c.client.Coherent) (.ofMinting minting)
    (fun _ _ _ hc hmove => coherent_of_move hc hmove) h

end Bridge

end AvatarPool
