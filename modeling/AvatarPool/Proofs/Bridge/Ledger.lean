import AvatarPool.Proofs.Bridge.Moves
import AvatarPool.Proofs.Tables

/-! # The bridge client's ledger

A bridge client keeps three tables: the requests under way by id, the callers who wait by
fingerprint, and the results.  However posts, failures, responses and disconnects meet, callers wait
for exactly what is under way, each fingerprint under one id of its own, and never for what is
cached; and nothing is under way any more once the connection is lost.

The tables are kept together by `Ledger`: as lists of fingerprints, what is under way and what is
waited for are permutations of each other.  Each step is either no concern of the tables, or it
closes an entry together with its request, or it opens both.  The only step that needs an assumption
is the opening one: a new id must not be that of a request under way, which it would replace; that
is what `Minting.Fresh` is for. -/

namespace AvatarPool

variable {ω : Type}

/-! ## Ids that differ -/

/-- The first `n` ids differ: a counter has not come round, a stream has not repeated itself. -/
def Minting.Fresh : Minting → Nat → Prop
  | .counter, n => n ≤ UInt64.size
  | .texts stream, n => ∀ i < n, ∀ j < n, stream i = stream j → i = j

/-- An id is not among those minted from one place to another. -/
def Minting.Spares (m : Minting) (id : RequestId) (lo hi : Nat) : Prop :=
  ∀ i, lo ≤ i → i < hi → m.mint i ≠ id

namespace Minting.Fresh

variable {m : Minting} {n k : Nat}

theorem mono (h : m.Fresh n) (hk : k ≤ n) : m.Fresh k := by
  cases m with
  | counter => exact Nat.le_trans hk h
  | texts stream => exact fun i hi j hj => h i (Nat.lt_of_lt_of_le hi hk) j (Nat.lt_of_lt_of_le hj hk)

/-- Different places have different ids. -/
theorem mint_inj (h : m.Fresh n) {i j : Nat} (hi : i < n) (hj : j < n)
    (heq : m.mint i = m.mint j) : i = j := by
  cases m with
  | counter =>
      have hn : n ≤ UInt64.size := h
      unfold UInt64.size at hn
      have hnumbers := congrArg UInt64.toNat (RequestId.counter.inj heq)
      rw [UInt64.toNat_ofNat', UInt64.toNat_ofNat'] at hnumbers
      omega
  | texts stream => exact h i hi j hj (RequestId.text.inj heq)

/-- What has been minted is not minted again. -/
theorem spares (h : m.Fresh n) {i lo : Nat} (hi : i < lo) : m.Spares (m.mint i) lo n := by
  intro j hlo hn heq
  have hsame := h.mint_inj hn (Nat.lt_trans (Nat.lt_of_lt_of_le hi hlo) hn) heq
  omega

end Minting.Fresh

namespace BridgeClient

variable {c c' : BridgeClient ω}

/-! ## The ledger -/

/-- **The ledger**: requests under way and entries of waiting callers match one to one.  The last
two clauses are about ids: each of them has been minted, and after the loss of the connection none
is left. -/
structure Ledger (c : BridgeClient ω) : Prop where
  ids : (c.outstanding.map Prod.fst).Nodup
  books : (c.outstanding.map Prod.snd).Perm c.pending.keys
  wellFormed : c.pending.WellFormed
  uncached : ∀ k ∈ c.pending.keys, c.cache.get? k = none
  minted : ∀ id ∈ c.outstanding.map Prod.fst, ∃ i < c.minted, id = c.minting.mint i
  cut : c.disconnected → c.outstanding = []

/-- What most steps leave alone. -/
structure Kept (c c' : BridgeClient ω) : Prop where
  minting : c'.minting = c.minting
  minted : c'.minted = c.minted
  disconnected : c'.disconnected = c.disconnected

namespace Ledger

/-- At first nothing is under way, kept or minted. -/
theorem ofMinting (minting : Minting) : ({ minting := minting } : BridgeClient ω).Ledger where
  ids := List.nodup_nil
  books := List.Perm.nil
  wellFormed := Pending.wellFormed_empty
  uncached := by simp [Pending.keys]
  minted := nofun
  cut := fun _ => rfl

theorem nodup (h : c.Ledger) : (c.outstanding.map Prod.snd).Nodup :=
  h.books.nodup_iff.mpr h.wellFormed.nodup

/-- Without requests under way nobody waits. -/
theorem entries_eq_nil (h : c.Ledger) (hnone : c.outstanding = []) : c.pending.entries = [] := by
  have hbooks := h.books
  rw [hnone] at hbooks
  exact List.map_eq_nil_iff.mp hbooks.nil_eq.symm

/-- Nothing that the ledger reads has changed. -/
theorem congr (h : c.Ledger) (hk : Kept c c') (ho : c'.outstanding = c.outstanding)
    (hp : c'.pending = c.pending) (hc : c'.cache = c.cache) : c'.Ledger where
  ids := ho ▸ h.ids
  books := by rw [ho, hp]; exact h.books
  wellFormed := hp ▸ h.wellFormed
  uncached := by rw [hp, hc]; exact h.uncached
  minted := by rw [ho, hk.minting, hk.minted]; exact h.minted
  cut := by rw [ho, hk.disconnected]; exact h.cut

/-- A request comes to its end, and the entry of its callers is closed.  The request is found under
its id, and only its entry is closed.  What is kept for other keys stays, so nothing that is waited
for becomes cached. -/
theorem close (h : c.Ledger) {id : RequestId} {key : Fingerprint}
    (hl : c.outstanding.lookup id = some key) (hk : Kept c c')
    (ho : c'.outstanding = c.outstanding.filter fun e => e.1 ≠ id)
    (hp : c'.pending = (c.pending.close key).1)
    (hc : ∀ k, k ≠ key → c'.cache.get? k = c.cache.get? k) : c'.Ledger where
  ids := by
    rw [ho, keys_filter_ne]
    exact h.ids.filter _
  books := by
    rw [ho, hp]
    -- Both tables lose one entry, that of the same key.
    refine Pending.keys_close_perm h.wellFormed.nodup ?_
    exact ((perm_cons_filter_ne h.ids hl).map Prod.snd).symm.trans h.books
  wellFormed := hp ▸ h.wellFormed.close _
  uncached := by
    intro k hmem
    rw [hp, Pending.mem_keys_close] at hmem
    rw [hc k hmem.2]
    exact h.uncached k hmem.1
  minted := by
    intro j hj
    rw [ho, keys_filter_ne] at hj
    rw [hk.minting, hk.minted]
    exact h.minted j (List.mem_of_mem_filter hj)
  cut := by
    intro hcut
    rw [hk.disconnected] at hcut
    rw [ho, h.cut hcut]
    rfl

end Ledger

/-! ## Every step keeps it -/

/-- The id to be minted next is not under way.  Every id under way has been minted before, and the
next one differs from all of these. -/
theorem Ledger.mint_notMem (h : c.Ledger) (hf : c.minting.Fresh (c.minted + 1)) :
    c.minting.mint c.minted ∉ c.outstanding.map Prod.fst := by
  intro hmem
  obtain ⟨i, hi, heq⟩ := h.minted _ hmem
  have hsame := hf.mint_inj (Nat.lt_succ_self _) (Nat.lt_succ_of_lt hi) heq
  exact absurd hsame (Nat.ne_of_gt hi)

/-- A request opens a round trip.  Its id is at the end of those under way, and its key at the end
of those waited for. -/
theorem Ledger.opened (h : c.Ledger) {job : Job} (w : ω) {id : RequestId}
    (hc : c.cache.get? job.fingerprint = none) (hd : ¬ c.disconnected)
    (hk : job.fingerprint ∉ c.pending.keys) (hid : id ∉ c.outstanding.map Prod.fst)
    (hmint : id = c.minting.mint c.minted) :
    Ledger { c with
      pending := (c.pending.enter job.fingerprint w).1
      minted := c.minted + 1
      outstanding := c.outstanding ++ [(id, job.fingerprint)] } where
  ids := by
    rw [List.map_append, List.map_singleton, ← List.concat_eq_append]
    exact h.ids.concat hid
  books := by
    show ((c.outstanding ++ [(id, job.fingerprint)]).map Prod.snd).Perm
      (c.pending.enter job.fingerprint w).1.keys
    rw [Pending.keys_enter, if_neg hk, List.map_append]
    exact h.books.append_right _
  wellFormed := h.wellFormed.enter _ _
  uncached := by
    intro k hmem
    rw [Pending.keys_enter, if_neg hk] at hmem
    rcases List.mem_append.mp hmem with hold | hnew
    · exact h.uncached k hold
    · rw [List.mem_singleton.mp hnew]
      exact hc
  minted := by
    intro j hj
    rw [List.map_append] at hj
    rcases List.mem_append.mp hj with hold | hnew
    · obtain ⟨i, hi, heq⟩ := h.minted j hold
      exact ⟨i, Nat.lt_succ_of_lt hi, heq⟩
    · rw [List.mem_singleton.mp hnew]
      exact ⟨c.minted, Nat.lt_succ_self _, hmint⟩
  cut := fun hcut => absurd hcut hd

/-- A request joins a round trip under way.  The keys are the same as before. -/
theorem Ledger.joined (h : c.Ledger) {job : Job} (w : ω) (hk : job.fingerprint ∈ c.pending.keys) :
    Ledger { c with pending := (c.pending.enter job.fingerprint w).1 } where
  ids := h.ids
  books := by
    show (c.outstanding.map Prod.snd).Perm (c.pending.enter job.fingerprint w).1.keys
    rw [Pending.keys_enter, if_pos hk]
    exact h.books
  wellFormed := h.wellFormed.enter _ _
  uncached := by
    show ∀ k ∈ (c.pending.enter job.fingerprint w).1.keys, c.cache.get? k = none
    rw [Pending.keys_enter, if_pos hk]
    exact h.uncached
  minted := h.minted
  cut := h.cut

/-- The cache is asked first. -/
theorem accept_of_hit {job : Job} {artifact : Artifact}
    (hc : c.cache.get? job.fingerprint = some artifact) (w : ω) :
    c.accept job w = c.note [.answered w (.ok artifact)] := by
  unfold BridgeClient.accept
  rw [hc]

/-- After a disconnect everything else is refused, with an event. -/
theorem accept_of_disconnected {job : Job} (hc : c.cache.get? job.fingerprint = none)
    (hd : c.disconnected) (w : ω) :
    c.accept job w = (c.warn lost.message).note [.answered w (.error lost)] := by
  unfold BridgeClient.accept
  rw [hc]
  exact if_pos hd

/-- What is under way already is waited for. -/
theorem accept_of_mem {job : Job} (hc : c.cache.get? job.fingerprint = none)
    (hd : ¬ c.disconnected) (hk : job.fingerprint ∈ c.pending.keys) (w : ω) :
    c.accept job w = { c with pending := (c.pending.enter job.fingerprint w).1 } := by
  unfold BridgeClient.accept
  rw [hc, Pending.enter_of_mem w hk]
  exact if_neg hd

/-- Anything else is given an id, goes under way and is noted for its post. -/
theorem accept_of_notMem {job : Job} (hc : c.cache.get? job.fingerprint = none)
    (hd : ¬ c.disconnected) (hk : job.fingerprint ∉ c.pending.keys) (w : ω) :
    c.accept job w = note { c with
      pending := (c.pending.enter job.fingerprint w).1
      minted := c.minted + 1
      outstanding := (c.outstanding.filter fun e => e.1 ≠ c.minting.mint c.minted) ++
        [(c.minting.mint c.minted, job.fingerprint)] }
      [.posted (Request.ofJob (c.minting.mint c.minted) job)] := by
  unfold BridgeClient.accept
  rw [hc, Pending.enter_of_notMem w hk]
  exact if_neg hd

/-- **How a request is admitted**: it is answered from the cache, refused after a disconnect, joined
to a round trip under way, or it opens one. -/
inductive Admits (c : BridgeClient ω) (job : Job) (w : ω) : BridgeClient ω → Prop
  | hit {artifact : Artifact} (hc : c.cache.get? job.fingerprint = some artifact) :
      Admits c job w (c.note [.answered w (.ok artifact)])
  | refused (hc : c.cache.get? job.fingerprint = none) (hd : c.disconnected) :
      Admits c job w ((c.warn lost.message).note [.answered w (.error lost)])
  | joined (hc : c.cache.get? job.fingerprint = none) (hd : ¬ c.disconnected)
      (hk : job.fingerprint ∈ c.pending.keys) :
      Admits c job w { c with pending := (c.pending.enter job.fingerprint w).1 }
  | opened (hc : c.cache.get? job.fingerprint = none) (hd : ¬ c.disconnected)
      (hk : job.fingerprint ∉ c.pending.keys) :
      Admits c job w (note { c with
        pending := (c.pending.enter job.fingerprint w).1
        minted := c.minted + 1
        outstanding := (c.outstanding.filter fun e => e.1 ≠ c.minting.mint c.minted) ++
          [(c.minting.mint c.minted, job.fingerprint)] }
        [.posted (Request.ofJob (c.minting.mint c.minted) job)])

/-- Which of them it is depends on the three tables alone. -/
theorem admits (c : BridgeClient ω) (job : Job) (w : ω) : Admits c job w (c.accept job w) := by
  cases hc : c.cache.get? job.fingerprint with
  | some artifact => exact accept_of_hit hc w ▸ .hit hc
  | none =>
      by_cases hd : c.disconnected
      · exact accept_of_disconnected hc hd w ▸ .refused hc hd
      · by_cases hk : job.fingerprint ∈ c.pending.keys
        · exact accept_of_mem hc hd hk w ▸ .joined hc hd hk
        · exact accept_of_notMem hc hd hk w ▸ .opened hc hd hk

/-- Only one of the four ways touches what is under way. -/
theorem Ledger.accept (h : c.Ledger) (job : Job) (w : ω)
    (hf : c.minting.Fresh (c.accept job w).minted) : (c.accept job w).Ledger := by
  have hadmits := c.admits job w
  generalize c.accept job w = d at hadmits hf ⊢
  cases hadmits with
  | hit hc => exact h.congr ⟨rfl, rfl, rfl⟩ rfl rfl rfl
  | refused hc hd => exact h.congr ⟨rfl, rfl, rfl⟩ rfl rfl rfl
  | joined hc hd hk => exact h.joined w hk
  | opened hc hd hk =>
      -- A new id replaces nothing that is under way.
      have hid := h.mint_notMem hf
      rw [filter_ne_of_notMem hid]
      exact (h.opened w hc hd hk hid rfl).congr ⟨rfl, rfl, rfl⟩ rfl rfl rfl

/-- If the request is under way its entry is closed, and otherwise nothing but an event comes of it.
-/
theorem Ledger.giveUp (h : c.Ledger) (id : RequestId) (why : Failure) : (c.giveUp id why).Ledger := by
  unfold BridgeClient.giveUp
  dsimp only
  split
  · rename_i key hl
    exact h.close hl ⟨rfl, rfl, rfl⟩ rfl rfl fun _ _ => rfl
  -- A response or a disconnect has come first.
  · exact h.congr ⟨rfl, rfl, rfl⟩ rfl rfl rfl

theorem keep_eq (c : BridgeClient ω) (key : Fingerprint) (o : Outcome) :
    c.keep key o = { c with cache := (c.keep key o).cache } := by
  cases o <;> rfl

/-- Results of other keys stay as they are. -/
theorem get?_keep_of_ne {key k : Fingerprint} (hk : k ≠ key) (o : Outcome) :
    (c.keep key o).cache.get? k = c.cache.get? k := by
  cases o with
  | ok artifact => exact (Cache.get?_insert _ _ _ _).trans (if_neg hk)
  | error why => rfl

/-- A response without a request under way changes nothing. -/
theorem Ledger.takeResponse (h : c.Ledger) (r : Response) : (c.takeResponse r).Ledger := by
  unfold BridgeClient.takeResponse
  split
  · exact h
  · rename_i key hl
    rw [keep_eq]
    refine h.close hl ⟨rfl, rfl, rfl⟩ rfl rfl fun k hk => ?_
    exact get?_keep_of_ne (c := c.withdraw r.id) hk _

/-! ### The end of the connection -/

/-- Telling the callers of some requests touches the entries and the effects only. -/
theorem foldl_answerAll_eq (l : List (RequestId × Fingerprint)) (o : Outcome) :
    l.foldl (fun c e => c.answerAll e.2 o) c =
      { c with
        pending := (l.foldl (fun c e => c.answerAll e.2 o) c).pending
        effects := (l.foldl (fun c e => c.answerAll e.2 o) c).effects } := by
  induction l generalizing c with
  | nil => rfl
  | cons e rest ih => exact ih (c := c.answerAll e.2 o)

/-- Closing the entries of some keys leaves those of the others. -/
theorem keys_foldl_answerAll (l : List (RequestId × Fingerprint)) (o : Outcome) :
    (l.foldl (fun c e => c.answerAll e.2 o) c).pending.keys =
      c.pending.keys.filter fun k => k ∉ l.map Prod.snd := by
  induction l generalizing c with
  | nil => simp
  | cons e rest ih =>
      have hclose : (c.answerAll e.2 o).pending.keys = c.pending.keys.filter fun k => k ≠ e.2 :=
        Pending.keys_close _ _
      rw [List.foldl_cons, ih, hclose, List.filter_filter]
      refine List.filter_congr fun k _ => ?_
      simp only [List.map_cons, List.mem_cons, not_or, Bool.decide_and]
      exact Bool.and_comm _ _

/-- After it both lists are empty. -/
theorem Ledger.loseConnection (h : c.Ledger) : c.loseConnection.Ledger := by
  -- Every key has a request under way, so every entry is closed.
  have hkeys : (c.pending.keys.filter fun k => k ∉ c.outstanding.map Prod.snd) = [] := by
    refine List.filter_eq_nil_iff.mpr fun k hk => ?_
    simpa using h.books.mem_iff.mpr hk
  have hentries : (c.outstanding.foldl (fun (c : BridgeClient ω) e => c.answerAll e.2 (.error lost))
      { c with disconnected := true, outstanding := [] }).pending.entries = [] :=
    List.map_eq_nil_iff.mp ((keys_foldl_answerAll _ _).trans hkeys)
  have hfailed : (c.outstanding.foldl (fun (c : BridgeClient ω) e => c.answerAll e.2 (.error lost))
      { c with disconnected := true, outstanding := [] }).Ledger := by
    rw [foldl_answerAll_eq]
    refine ⟨List.nodup_nil, ?_, ⟨?_, ?_⟩, ?_, nofun, fun _ => rfl⟩
    all_goals simp [Pending.keys, hentries]
  unfold BridgeClient.loseConnection
  dsimp only
  split
  · exact hfailed
  · exact hfailed.congr ⟨rfl, rfl, rfl⟩ rfl rfl rfl

/-! ## Ids are minted one by one -/

/-- A step keeps the way of minting, and mints at most further ids. -/
structure Grows (c c' : BridgeClient ω) : Prop where
  minting : c'.minting = c.minting
  minted : c.minted ≤ c'.minted

theorem Kept.grows (h : Kept c c') : Grows c c' := ⟨h.minting, Nat.le_of_eq h.minted.symm⟩

/-- At most one id is minted by an admission. -/
theorem grows_accept (c : BridgeClient ω) (job : Job) (w : ω) : Grows c (c.accept job w) := by
  have hadmits := c.admits job w
  generalize c.accept job w = d at hadmits ⊢
  cases hadmits with
  | hit | refused | joined => exact ⟨rfl, Nat.le_refl _⟩
  | opened => exact ⟨rfl, Nat.le_succ _⟩

/-- Giving up mints nothing. -/
theorem kept_giveUp (c : BridgeClient ω) (id : RequestId) (why : Failure) :
    Kept c (c.giveUp id why) := by
  unfold BridgeClient.giveUp
  dsimp only
  split <;> exact ⟨rfl, rfl, rfl⟩

/-- A response neither mints an id nor loses the connection. -/
theorem kept_takeResponse (c : BridgeClient ω) (r : Response) : Kept c (c.takeResponse r) := by
  unfold BridgeClient.takeResponse
  split
  · exact ⟨rfl, rfl, rfl⟩
  · rw [keep_eq]
    exact ⟨rfl, rfl, rfl⟩

/-- A frame does neither, whether it can be read or not. -/
theorem kept_takeFrame (c : BridgeClient ω) (text : String) : Kept c (c.takeFrame text) := by
  unfold BridgeClient.takeFrame
  split
  · exact kept_takeResponse c _
  · exact ⟨rfl, rfl, rfl⟩

/-- The loss of the connection mints no id, but it is remembered. -/
theorem grows_loseConnection (c : BridgeClient ω) : Grows c c.loseConnection := by
  unfold BridgeClient.loseConnection
  dsimp only
  rw [foldl_answerAll_eq]
  split <;> exact ⟨rfl, Nat.le_refl _⟩

end BridgeClient

namespace Bridge

variable {b b' : Bridge ω} {minting : Minting} {τ : List (BridgeMove ω)}

open BridgeClient

/-- So ids are minted in one sequence, and only forwards. -/
theorem grows_of_move {m : BridgeMove ω} (h : b.move m = some b') : Grows b.client b'.client := by
  cases leads_of_move h with
  | accept => exact grows_accept _ _ _
  | post | misread => exact ⟨rfl, Nat.le_refl _⟩
  | giveUp => exact (kept_giveUp _ _ _).grows
  | respond | read => exact (kept_takeResponse _ _).grows
  | disconnect => exact grows_loseConnection _

/-- **Every move keeps the ledger**, as long as the ids minted differ. -/
theorem ledger_of_move {m : BridgeMove ω} (h : b.client.Ledger)
    (hf : b.client.minting.Fresh b'.client.minted) (hmove : b.move m = some b') :
    b'.client.Ledger := by
  cases leads_of_move hmove with
  | accept job w => exact h.accept job w hf
  | post => exact h
  | giveUp => exact h.giveUp _ _
  | respond | read => exact h.takeResponse _
  | misread => exact h.congr ⟨rfl, rfl, rfl⟩ rfl rfl rfl
  | disconnect => exact h.loseConnection

/-- The ledger after every run whose ids differ. -/
theorem ledger_of_play (h : (ofMinting minting : Bridge ω).play τ = some b)
    (hf : minting.Fresh b.client.minted) : b.client.Ledger := by
  have hinv : b.client.minting = minting ∧
      (minting.Fresh b.client.minted → b.client.Ledger) := by
    refine play_induction (P := fun c => c.client.minting = minting ∧
      (minting.Fresh c.client.minted → c.client.Ledger)) ⟨rfl, fun _ => .ofMinting minting⟩ ?_ h
    -- Ids that differ in the end have differed all along.
    rintro m c c' ⟨rfl, ih⟩ hmove
    have hgrows := grows_of_move hmove
    refine ⟨hgrows.minting, fun hf => ?_⟩
    exact ledger_of_move (ih (hf.mono hgrows.minted)) hf hmove
  exact hinv.2 hf

/-- **Requests under way and waiting callers match.**  However the steps of callers, posts and
listeners meet, as long as the ids minted differ: ids and fingerprints under way are distinct, the
fingerprints are the keys under which callers wait, somebody waits under each, none is cached, and
after a disconnect nothing is under way and nobody waits. -/
theorem outstanding_match_pending (h : (ofMinting minting : Bridge ω).play τ = some b)
    (hf : minting.Fresh b.client.minted) :
    (b.client.outstanding.map Prod.fst).Nodup ∧
      (b.client.outstanding.map Prod.snd).Nodup ∧
      (∀ k, k ∈ b.client.outstanding.map Prod.snd ↔ k ∈ b.client.pending.keys) ∧
      b.client.pending.keys.Nodup ∧
      (∀ e ∈ b.client.pending.entries, e.2 ≠ []) ∧
      (∀ k ∈ b.client.outstanding.map Prod.snd, k ∉ b.client.cache.keys) ∧
      (b.client.disconnected → b.client.outstanding = [] ∧ b.client.pending.entries = []) := by
  have hledger := ledger_of_play h hf
  refine ⟨hledger.ids, hledger.nodup, fun k => hledger.books.mem_iff, hledger.wellFormed.nodup,
    hledger.wellFormed.waited, fun k hk => ?_, fun hd => ?_⟩
  · exact (Cache.get?_eq_none_iff _ _).mp (hledger.uncached k (hledger.books.mem_iff.mp hk))
  · exact ⟨hledger.cut hd, hledger.entries_eq_nil (hledger.cut hd)⟩

/-- A post fails while its caller's request has been answered and asked for again; another caller
joins, and a response comes twice.  After all this the second id is under way, and nothing of it is
cached. -/
def crossedRun : List (BridgeMove Nat) :=
  [.accept (.name "a") 0, .respond (.rejected (.counter 1) "no"), .accept (.name "a") 1,
    .post ⟨.counter 1, Request.serviceCategory, .roboname, "a"⟩ (some (.transport "x")),
    .giveUp (.counter 1) (.transport "x"), .accept (.name "a") 2, .accept (.name "b") 3,
    .respond (.resolved (.counter 3) "B"), .respond (.resolved (.counter 3) "C")]

theorem outstanding_match_pending_crossed :
    ∃ b : Bridge Nat, (ofMinting .counter).play crossedRun = some b ∧
      Minting.counter.Fresh b.client.minted ∧
      b.client.outstanding = [(.counter 2, .name "a")] ∧ b.client.pending.keys = [.name "a"] ∧
      ∀ k ∈ b.client.outstanding.map Prod.snd, k ∉ b.client.cache.keys := by
  have hplay : ((ofMinting .counter : Bridge Nat).play crossedRun).any
      (fun b => b.client.minted = 3 && (b.client.outstanding = [(.counter 2, .name "a")] &&
        b.client.pending.keys = [.name "a"])) := by
    decide +kernel
  obtain ⟨b, hb, hall⟩ := (Option.any_eq_true _ _).mp hplay
  simp only [Bool.and_eq_true, decide_eq_true_eq] at hall
  obtain ⟨hminted, hout, hkeys⟩ := hall
  have hfresh : Minting.counter.Fresh b.client.minted := by
    rw [hminted]
    show 3 ≤ UInt64.size
    decide
  exact ⟨b, hb, hfresh, hout, hkeys, (outstanding_match_pending hb hfresh).2.2.2.2.2.1⟩

end Bridge

end AvatarPool
