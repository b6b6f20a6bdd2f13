import AvatarPool.Proofs.Bridge.Requests
import AvatarPool.Proofs.Wire.Payload

/-! # Round trips, accounted for

Every id that a bridge client mints opens one round trip, which is under way until one move ends it.
A run is read as the list of the ids it mints and the list of the round trips it ends; what is cached
are the round trips that have ended well.  So the books balance for each fingerprint: an id minted
has failed, has filled the cache, or is under way.

The accounts are kept by two lists that the moves alone decide, with the state in which each of them
is made: `mints` and `endings`.  A step has its own books, `Books`, which say how the tables before
and after it differ by these lists, and they add up along a run.  So there is one lemma about books
for each kind of move, and everything that is said of a run follows from `books_of_play`.

An id is counted for the fingerprint of the job for which it was minted, and each request that is
posted is compared with the id and the job.  That all ids of a run differ is an assumption on the
way of minting; without it a new request could take the place of one that is under way. -/

namespace AvatarPool

variable {ω : Type}

/-- A round trip that is over, with what its callers were told. -/
structure RoundTrip where
  id : RequestId
  key : Fingerprint
  outcome : Outcome
  deriving DecidableEq, Repr

namespace RoundTrip

/-- The entry that was under way. -/
def entry (e : RoundTrip) : RequestId × Fingerprint := (e.id, e.key)

/-- The round trip has brought no artifact. -/
def failed (e : RoundTrip) : Bool :=
  match e.outcome with
  | .ok _ => false
  | .error _ => true

end RoundTrip

/-- The request that a move gives to the transport. -/
def BridgeMove.posted? : BridgeMove ω → Option Request
  | .post r _ => some r
  | _ => none

namespace BridgeClient

variable {c d : BridgeClient ω} {id : RequestId} {key : Fingerprint}

/-- **The round trips that a move ends**: those under way for which it has a verdict. -/
def endings (c : BridgeClient ω) (m : BridgeMove ω) : List RoundTrip :=
  c.outstanding.filterMap fun e => (m.verdict? e.1 e.2).map fun o => ⟨e.1, e.2, o⟩

/-- **What the end of round trips does to the tables**: they are no longer under way, and the keys of
those that have ended well are cached. -/
structure Closes (c : BridgeClient ω) (es : List RoundTrip) (d : BridgeClient ω) : Prop where
  minted : d.minted = c.minted
  outstanding : c.outstanding.Perm (es.map RoundTrip.entry ++ d.outstanding)
  cached : d.cache.keys = c.cache.keys ++ (es.filter fun e => !e.failed).map RoundTrip.key
  nodup : c.cache.keys.Nodup → d.cache.keys.Nodup

/-! ## One step -/

/-- The tables are not concerned. -/
theorem Closes.same (hm : d.minted = c.minted) (ho : d.outstanding = c.outstanding)
    (hc : d.cache = c.cache) : Closes c [] d where
  minted := hm
  outstanding := ho ▸ .refl _
  cached := by rw [hc]; exact (List.append_nil _).symm
  nodup := by rw [hc]; exact fun h => h

/-- One round trip ends.  Its key is under way, so callers wait for it, and by the ledger it is not
cached; a success therefore adds one key. -/
theorem Closes.settle (hl : c.Ledger) (hid : c.outstanding.lookup id = some key) (o : Outcome) :
    Closes c [⟨id, key, o⟩] (c.settle id key o) := by
  have hentry : (id, key) ∈ c.outstanding := mem_of_lookup hid
  have hwaited : key ∈ c.pending.keys :=
    hl.books.mem_iff.mp (List.mem_map_of_mem (f := Prod.snd) hentry)
  have hnew : key ∉ c.cache.keys := (Cache.get?_eq_none_iff _ _).mp (hl.uncached key hwaited)
  have hcache : (c.settle id key o).cache = (c.keep key o).cache := by
    cases o <;> rfl
  have hkeys : (c.keep key o).cache.keys =
      c.cache.keys ++ ([(⟨id, key, o⟩ : RoundTrip)].filter fun e => !e.failed).map RoundTrip.key := by
    cases o with
    | error why => exact (List.append_nil _).symm
    | ok artifact => exact (Cache.keys_insert _ _ _).trans (if_neg hnew)
  refine ⟨?_, ?_, hcache ▸ hkeys, fun hn => ?_⟩
  · rw [BridgeClient.settle, keep_eq]
    rfl
  · rw [settle_outstanding]
    exact perm_cons_filter_ne hl.ids hid
  · rw [hcache, hkeys]
    cases o with
    | error why => exact (List.append_nil _).symm ▸ hn
    | ok artifact => exact List.concat_eq_append ▸ hn.concat hnew

/-- Events are no part of the tables. -/
theorem Closes.warn {es : List RoundTrip} (h : Closes c es d) (reason : String) :
    Closes c es (d.warn reason) :=
  ⟨h.minted, h.outstanding, h.cached, h.nodup⟩

/-- A move that is about one id ends the round trip of that id.  There is just one such round trip,
since ids differ: it stands somewhere in the list, and neither before nor after it is there another
one. -/
theorem endings_of_lookup (hl : c.Ledger) (hid : c.outstanding.lookup id = some key)
    {m : BridgeMove ω} {told : Fingerprint → Outcome}
    (hm : ∀ i k, m.verdict? i k = if id = i then some (told k) else none) :
    c.endings m = [⟨id, key, told key⟩] := by
  obtain ⟨l₁, l₂, heq⟩ := List.append_of_mem (mem_of_lookup hid)
  have hids := hl.ids
  rw [heq, List.map_append, List.map_cons, List.nodup_middle, List.nodup_cons, List.mem_append,
    not_or] at hids
  have hothers : ∀ l : List (RequestId × Fingerprint), id ∉ l.map Prod.fst →
      (l.filterMap fun e => (m.verdict? e.1 e.2).map fun o => (⟨e.1, e.2, o⟩ : RoundTrip)) = [] := by
    refine fun l hl => List.filterMap_eq_nil_iff.mpr fun e he => ?_
    rw [hm, if_neg fun hsame => hl (List.mem_map.mpr ⟨e, he, hsame.symm⟩)]
    rfl
  rw [endings, heq, List.filterMap_append, hothers l₁ hids.1.1,
    List.filterMap_cons_some (b := ⟨id, key, told key⟩) (by rw [hm, if_pos rfl]; rfl),
    hothers l₂ hids.1.2]
  rfl

/-- A move without a verdict ends nothing. -/
theorem endings_of_none {m : BridgeMove ω} (hm : ∀ e ∈ c.outstanding, m.verdict? e.1 e.2 = none) :
    c.endings m = [] := by
  refine List.filterMap_eq_nil_iff.mpr fun e he => ?_
  rw [hm e he]
  rfl

/-- A move that is about an unknown id ends nothing. -/
theorem endings_of_unknown (hid : id ∉ c.outstanding.map Prod.fst) {m : BridgeMove ω}
    {told : Fingerprint → Outcome}
    (hm : ∀ i k, m.verdict? i k = if id = i then some (told k) else none) : c.endings m = [] := by
  refine endings_of_none fun e he => ?_
  rw [hm, if_neg fun hsame => hid (List.mem_map.mpr ⟨e, he, hsame.symm⟩)]

/-- A response ends the round trip of its id, if there is one; the move may bring it bare or in a
frame. -/
theorem closes_takeResponse (hl : c.Ledger) (r : Response) {m : BridgeMove ω}
    (hm : ∀ i k, m.verdict? i k = r.verdict? i k) :
    Closes c (c.endings m) (c.takeResponse r) := by
  -- The move has the verdict of its response, which is the client's own outcome.
  have hm' : ∀ i k, m.verdict? i k = if r.id = i then some (outcome k r) else none := fun i k =>
    (hm i k).trans (r.verdict?_eq i k)
  cases hid : c.outstanding.lookup r.id with
  | some key =>
      rw [takeResponse_of_lookup hid, endings_of_lookup hl hid hm']
      exact .settle hl hid _
  | none =>
      have hunknown := (lookup_eq_none_iff_notMem _ _).mp hid
      rw [takeResponse_of_unknown hunknown, endings_of_unknown hunknown hm']
      exact .same rfl rfl rfl

/-- A request that is given up ends, if it was on its way; its callers' failure brings no artifact.
-/
theorem closes_giveUp (hl : c.Ledger) (id : RequestId) (why : Failure) :
    Closes c (c.endings (.giveUp id why)) (c.giveUp id why) := by
  have hm : ∀ i k, (BridgeMove.giveUp id why : BridgeMove ω).verdict? i k =
      if id = i then some ((fun _ => .error why : Fingerprint → Outcome) k) else none :=
    fun _ _ => rfl
  cases hid : c.outstanding.lookup id with
  | some key =>
      rw [giveUp_of_lookup hid, endings_of_lookup hl hid hm]
      exact (Closes.settle hl hid _).warn _
  | none =>
      have hunknown := (lookup_eq_none_iff_notMem _ _).mp hid
      rw [giveUp_of_unknown hunknown, endings_of_unknown hunknown hm]
      exact (Closes.same rfl rfl rfl).warn _

/-- **The loss of the connection** ends all that is under way.  None of them has brought an
artifact, so the cache is as it was. -/
theorem closes_loseConnection (c : BridgeClient ω) :
    Closes c (c.endings .disconnect) c.loseConnection := by
  have hall : c.endings .disconnect = c.outstanding.map fun e => ⟨e.1, e.2, .error lost⟩ :=
    congrFun List.filterMap_eq_map c.outstanding
  obtain ⟨pending, effects, heq⟩ := loseConnection_eq c
  have hfailed : (c.outstanding.map fun e => (⟨e.1, e.2, .error lost⟩ : RoundTrip)).filter
      (fun e => !e.failed) = [] := by
    refine List.filter_eq_nil_iff.mpr fun e he => ?_
    obtain ⟨entry, -, rfl⟩ := List.mem_map.mp he
    exact Bool.false_ne_true
  rw [heq, hall]
  refine ⟨rfl, ?_, ?_, fun h => h⟩
  · rw [List.map_map, List.append_nil]
    exact .of_eq (List.map_id c.outstanding).symm
  · rw [hfailed]
    exact (List.append_nil _).symm

end BridgeClient

namespace Bridge

open BridgeClient

variable {b c d : Bridge ω} {minting : Minting} {τ : List (BridgeMove ω)} {m : BridgeMove ω}
  {key : Fingerprint} {α : Type}

/-- **The ids that a move mints**, each with the job that it is for.  The model counts what it has
minted, so these are the places between the two counts. -/
def mints (b : Bridge ω) : BridgeMove ω → List (RequestId × Job)
  | .accept job caller =>
    ((List.range (b.client.accept job caller).minted).drop b.client.minted).map fun i =>
      (b.client.minting.mint i, job)
  | _ => []

/-- **What admission does**: nothing is minted, or the next id is, for a fingerprint that is neither
cached nor under way, while the connection stands. -/
theorem mints_accept (hl : b.client.Ledger) (job : Job) (w : ω)
    (hf : b.client.minting.Fresh (b.client.accept job w).minted) :
    b.mints (.accept job w) = [] ∧ (b.client.accept job w).minted = b.client.minted ∧
        (b.client.accept job w).outstanding = b.client.outstanding ∧
        (b.accept job w).unposted = b.unposted ∨
      b.mints (.accept job w) = [(b.client.minting.mint b.client.minted, job)] ∧
        (b.client.accept job w).minted = b.client.minted + 1 ∧
        (b.client.accept job w).outstanding =
          b.client.outstanding ++ [(b.client.minting.mint b.client.minted, job.fingerprint)] ∧
        (b.accept job w).unposted =
          b.unposted ++ [Request.ofJob (b.client.minting.mint b.client.minted) job] ∧
        job.fingerprint ∉ b.client.cache.keys ∧
        job.fingerprint ∉ b.client.outstanding.map Prod.snd ∧ ¬ b.client.disconnected := by
  simp only [mints, Bridge.accept]
  have hadmits := b.client.admits job w
  generalize b.client.accept job w = c at hadmits hf ⊢
  cases hadmits with
  | hit hc => simp [note, BridgeEffect.posted?]
  | refused hc hd => simp [note, warn, BridgeEffect.posted?]
  | joined hc hd hk => simp
  | opened hc hd hk =>
      -- The id is new, so its entry takes the place of no other.
      rw [filter_ne_of_notMem (hl.mint_notMem hf)]
      refine .inr ⟨?_, rfl, rfl, ?_, (Cache.get?_eq_none_iff _ _).mp hc,
        mt hl.books.mem_iff.mp hk, hd⟩
      · simp [note, List.range_succ]
      · simp [note, BridgeEffect.posted?]

theorem cache_accept (c : BridgeClient ω) (job : Job) (w : ω) : (c.accept job w).cache = c.cache := by
  have hadmits := c.admits job w
  generalize c.accept job w = d at hadmits ⊢
  cases hadmits <;> rfl

/-- **The books of a step**: its ids go under way, those that it ends are no longer so, and what it
is to post are the requests of its ids. -/
structure Books (c : Bridge ω) (opened : List (RequestId × Job)) (es : List RoundTrip) (d : Bridge ω) :
    Prop where
  minted : (List.range d.client.minted).map c.client.minting.mint =
    (List.range c.client.minted).map c.client.minting.mint ++ opened.map Prod.fst
  outstanding : (c.client.outstanding ++ opened.map fun e => (e.1, e.2.fingerprint)).Perm
    (es.map RoundTrip.entry ++ d.client.outstanding)
  cached : d.client.cache.keys =
    c.client.cache.keys ++ (es.filter fun e => !e.failed).map RoundTrip.key
  nodup : c.client.cache.keys.Nodup → d.client.cache.keys.Nodup
  posts : (d.posted ++ d.unposted).Perm
    (c.posted ++ c.unposted ++ opened.map fun e => Request.ofJob e.1 e.2)

/-- Without an admission nothing is minted.  Then the balance is that of the client's tables. -/
theorem Books.closed {es : List RoundTrip} (h : Closes c.client es d.client)
    (hp : (d.posted ++ d.unposted).Perm (c.posted ++ c.unposted)) : Books c [] es d where
  minted := by rw [h.minted]; exact (List.append_nil _).symm
  outstanding := (List.Perm.of_eq (List.append_nil _)).trans h.outstanding
  cached := h.cached
  nodup := h.nodup
  posts := hp.trans (.of_eq (List.append_nil _).symm)

/-- Admission ends nothing, and opens at most one round trip. -/
theorem Books.accept (hl : c.client.Ledger) (job : Job) (w : ω)
    (hf : c.client.minting.Fresh (c.client.accept job w).minted) :
    Books c (c.mints (.accept job w)) [] (c.accept job w) := by
  have hcache : (c.accept job w).client.cache = c.client.cache := cache_accept _ _ _
  have hkeys : (c.accept job w).client.cache.keys = c.client.cache.keys ++ [] :=
    (congrArg Cache.keys hcache).trans (List.append_nil _).symm
  have hnodup : c.client.cache.keys.Nodup → (c.accept job w).client.cache.keys.Nodup :=
    fun h => hcache ▸ h
  rcases mints_accept hl job w hf with
    -- Nothing is minted; or one id is, its entry is the last under way, and its request is to be
    -- posted.
    ⟨hopened, hminted, hunder, hposts⟩ | ⟨hopened, hminted, hunder, hposts, -⟩
  · refine ⟨?_, ?_, hkeys, hnodup, ?_⟩
    · rw [hopened, List.map_nil, List.append_nil]
      exact congrArg (fun n => (List.range n).map _) hminted
    · rw [hopened, List.map_nil, List.append_nil]
      exact .of_eq hunder.symm
    · rw [hopened, List.map_nil, List.append_nil]
      exact .of_eq (congrArg (c.posted ++ ·) hposts)
  · refine ⟨?_, ?_, hkeys, hnodup, ?_⟩
    · rw [hopened]
      show (List.range (c.client.accept job w).minted).map _ = _
      rw [hminted, List.range_succ, List.map_append]
      rfl
    · rw [hopened]
      exact .of_eq hunder.symm
    · rw [hopened, List.append_assoc]
      exact .of_eq (congrArg (c.posted ++ ·) hposts)

/-- **Every move keeps its books.**  For each move the list of what it ends is computed, and the
client's tables are compared. -/
theorem books_of_move (hl : c.client.Ledger) (hf : c.client.minting.Fresh d.client.minted)
    (hmove : c.move m = some d) : Books c (c.mints m) (c.client.endings m) d := by
  cases leads_of_move hmove with
  | accept job w =>
      rw [endings_of_none fun _ _ => rfl]
      exact .accept hl job w hf
  | post failure hmem =>
      rw [endings_of_none fun _ _ => rfl]
      refine .closed (.same rfl rfl rfl) ?_
      rw [List.append_assoc]
      exact (List.perm_cons_erase hmem).symm.append_left _
  | @giveUp id why => exact .closed (closes_giveUp hl id why) (.refl _)
  | respond r => exact .closed (closes_takeResponse hl r fun _ _ => rfl) (.refl _)
  | read hr => exact .closed (closes_takeResponse hl _ fun _ _ => verdict?_frame_of_ok hr) (.refl _)
  | misread hr =>
      rw [endings_of_none fun _ _ => verdict?_frame_of_error hr]
      exact .closed (.same rfl rfl rfl) (.refl _)
  | disconnect => exact .closed (closes_loseConnection c.client) (.refl _)

/-! ## Runs -/

/-- What the moves of a run yield, one after the other. -/
def along (b : Bridge ω) (f : Bridge ω → BridgeMove ω → List α) : List (BridgeMove ω) → List α
  | [] => []
  | m :: τ => f b m ++ (b.move m).elim [] fun c => c.along f τ

/-- What the last move of a run yields comes last. -/
theorem along_concat (f : Bridge ω → BridgeMove ω → List α) (h : b.play τ = some c)
    (m : BridgeMove ω) : b.along f (τ ++ [m]) = b.along f τ ++ f c m := by
  induction τ generalizing b with
  | nil =>
      cases h
      show f c m ++ (c.move m).elim [] (fun _ => []) = f c m
      cases c.move m <;> exact List.append_nil _
  | cons x τ ih =>
      obtain ⟨b₁, hb₁, hplay⟩ := Option.bind_eq_some_iff.mp h
      simp only [List.cons_append, along, hb₁, Option.elim_some, ih hplay, List.append_assoc]

/-- The ids that a run mints, each with the job that it is for. -/
def mintedIn (minting : Minting) (τ : List (BridgeMove ω)) : List (RequestId × Job) :=
  (ofMinting minting).along mints τ

/-- The round trips that a run ends. -/
def endedIn (minting : Minting) (τ : List (BridgeMove ω)) : List RoundTrip :=
  (ofMinting minting).along (fun b m => b.client.endings m) τ

/-- **The books of a run.**  They are the books of its moves, one after the other: the round trips
that a move opens are under way for the next one. -/
theorem books_of_play (h : (ofMinting minting).play τ = some b)
    (hf : minting.Fresh b.client.minted) :
    Books (ofMinting minting) (mintedIn minting τ) (endedIn minting τ) b := by
  refine run_induction (P := fun τ b => minting.Fresh b.client.minted →
    Books (ofMinting minting) (mintedIn minting τ) (endedIn minting τ) b)
    (fun _ => .closed (.same rfl rfl rfl) (.refl _)) ?_ h hf
  intro τ m c d hplay ih hmove hf
  have hminting : c.client.minting = minting := (grows_of_play hplay).minting
  have hfc : minting.Fresh c.client.minted := hf.mono (grows_of_move hmove).minted
  -- The ids differ at the end, and so they did all along.
  have hbefore := ih hfc
  have hlast := books_of_move (ledger_of_play hplay hfc) (hminting ▸ hf) hmove
  have hopened : mintedIn minting (τ ++ [m]) = mintedIn minting τ ++ c.mints m :=
    along_concat _ hplay m
  have hended : endedIn minting (τ ++ [m]) = endedIn minting τ ++ c.client.endings m :=
    along_concat _ hplay m
  rw [hopened, hended]
  -- The four balances, each as that of the run so far and that of the last move.
  refine ⟨?_, ?_, ?_, fun hn => hlast.nodup (hbefore.nodup hn), ?_⟩
  · rw [List.map_append, ← List.append_assoc, ← hbefore.minted]
    exact hminting ▸ hlast.minted
  · rw [List.map_append, List.map_append, ← List.append_assoc, List.append_assoc (List.map _ _)]
    refine (hbefore.outstanding.append_right _).trans ?_
    rw [List.append_assoc]
    exact hlast.outstanding.append_left _
  · rw [hlast.cached, hbefore.cached, List.filter_append, List.map_append, List.append_assoc]
  · rw [List.map_append, ← List.append_assoc]
    exact hlast.posts.trans (hbefore.posts.append_right _)

/-- What has been posted was given to the transport by the moves of the run.  Posts are moves, so
the two lists are the same one. -/
theorem posted_of_play (h : (ofMinting minting).play τ = some b) :
    b.posted = τ.filterMap BridgeMove.posted? := by
  refine run_induction (P := fun τ b => b.posted = τ.filterMap BridgeMove.posted?) rfl ?_ h
  intro τ m c d _ ih hmove
  rw [List.filterMap_append, ← ih]
  cases leads_of_move hmove with
  | post => rfl
  | _ => exact (List.append_nil _).symm

/-- A client is disconnected if it has been so before, or is disconnected just now. -/
theorem disconnected_of_move (hmove : c.move m = some d) :
    d.client.disconnected ↔ c.client.disconnected ∨ m = .disconnect := by
  have hsame : ∀ {m : BridgeMove ω}, m ≠ .disconnect →
      d.client.disconnected = c.client.disconnected →
      (d.client.disconnected ↔ c.client.disconnected ∨ m = .disconnect) := by
    intro m hm hd
    rw [hd, or_iff_left hm]
  cases leads_of_move hmove with
  | accept job w =>
      have hadmits := c.client.admits job w
      refine hsame nofun ?_
      show (c.client.accept job w).disconnected = c.client.disconnected
      generalize c.client.accept job w = d at hadmits ⊢
      cases hadmits <;> rfl
  | post | misread => exact hsame nofun rfl
  | giveUp => exact hsame nofun (kept_giveUp c.client _ _).disconnected
  | respond | read => exact hsame nofun (kept_takeResponse c.client _).disconnected
  | disconnect =>
      obtain ⟨pending, effects, heq⟩ := loseConnection_eq c.client
      exact iff_of_true (congrArg BridgeClient.disconnected heq) (.inr rfl)

/-- **A client is disconnected** just if one of the moves was its disconnect. -/
theorem disconnected_iff_mem (h : (ofMinting minting).play τ = some b) :
    b.client.disconnected ↔ .disconnect ∈ τ := by
  refine run_induction (P := fun τ b => b.client.disconnected ↔ .disconnect ∈ τ)
    (iff_of_false Bool.false_ne_true List.not_mem_nil) ?_ h
  intro τ m c d _ ih hmove
  rw [disconnected_of_move hmove, ih, List.mem_append, List.mem_singleton, eq_comm (a := m)]

/-- A client that is connected has never been disconnected. -/
theorem disconnect_notMem (h : (ofMinting minting).play τ = some b) (hd : ¬ b.client.disconnected) :
    .disconnect ∉ τ :=
  mt (disconnected_iff_mem h).mpr hd

/-! ## The accounts -/

/-- How many of some round trips were for a fingerprint and have failed. -/
def failures (key : Fingerprint) (es : List RoundTrip) : Nat :=
  es.countP fun e => e.key = key && e.failed

/-- The jobs that some requests are for. -/
def jobsOf (rs : List Request) : List Job := rs.filterMap fun r => r.job.toOption

/-- A request for a job describes that job, so nothing is lost on the way. -/
theorem jobsOf_ofJob (opened : List (RequestId × Job)) :
    jobsOf (opened.map fun e => Request.ofJob e.1 e.2) = opened.map Prod.snd := by
  rw [jobsOf, List.filterMap_map, ← List.filterMap_eq_map]
  refine List.filterMap_congr fun e _ => ?_
  rw [Function.comp_apply, Request.job_ofJob]
  rfl

/-- **The books balance** for each fingerprint.  The ids minted for a fingerprint are those of its
round trips, over or under way.  Of those that are over, the failed ones are counted and the others
are cached; and there is at most one in the cache and one under way. -/
theorem count_minted (h : (ofMinting minting).play τ = some b) (hf : minting.Fresh b.client.minted)
    (key : Fingerprint) :
    ((mintedIn minting τ).map fun e => e.2.fingerprint).count key =
      failures key (endedIn minting τ) + (if key ∈ b.client.cache.keys then 1 else 0) +
        if key ∈ b.client.outstanding.map Prod.snd then 1 else 0 := by
  have hbooks := books_of_play h hf
  have hcached : b.client.cache.keys =
      ((endedIn minting τ).filter fun e => !e.failed).map RoundTrip.key := hbooks.cached
  have hkeys : ((mintedIn minting τ).map fun e => e.2.fingerprint).Perm
      ((endedIn minting τ).map RoundTrip.key ++ b.client.outstanding.map Prod.snd) := by
    have hmapped := hbooks.outstanding.map Prod.snd
    rw [List.map_append, List.map_append, List.map_map, List.map_map] at hmapped
    exact hmapped
  -- A round trip that is over has failed or is one of the results.
  have hended : ((endedIn minting τ).map RoundTrip.key).count key =
      failures key (endedIn minting τ) + b.client.cache.keys.count key := by
    rw [hcached, failures, List.count_eq_countP, List.count_eq_countP, List.countP_map,
      List.countP_map, List.countP_filter]
    induction endedIn minting τ with
    | nil => rfl
    | cons e es ih =>
        simp only [List.countP_cons, ih]
        by_cases hkey : e.key = key <;> cases e.failed <;> simp [hkey] <;> omega
  -- Keys that differ are counted once or not at all.
  have hnodup : b.client.cache.keys.Nodup := hbooks.nodup List.nodup_nil
  rw [hkeys.count_eq, List.count_append, hended, hnodup.count,
    (ledger_of_play h hf).nodup.count]

/-- **Round trips are accounted for.**  However admissions, posts, posts given up, responses and
disconnects meet, as long as the ids minted differ: for each fingerprint, the ids minted for it are
those that have failed, one more if it is cached, and one more if it is under way; every id minted is
posted at most once, in the request for its job, and nothing else is posted; no id is minted for what
is cached or under way, nor after a disconnect.  So a fingerprint costs at most one round trip more
than it has failures. -/
theorem round_trips_accounted (h : (ofMinting minting).play τ = some b)
    (hf : minting.Fresh b.client.minted) :
    (∀ key, ((mintedIn minting τ).map fun e => e.2.fingerprint).count key =
      failures key (endedIn minting τ) + (if key ∈ b.client.cache.keys then 1 else 0) +
        if key ∈ b.client.outstanding.map Prod.snd then 1 else 0) ∧
    (mintedIn minting τ).map Prod.fst = (List.range b.client.minted).map minting.mint ∧
    ((mintedIn minting τ).map Prod.fst).Nodup ∧
    ((mintedIn minting τ).map fun e => (e.1, e.2.fingerprint)).Perm
      ((endedIn minting τ).map RoundTrip.entry ++ b.client.outstanding) ∧
    ((τ.filterMap BridgeMove.posted?).map Request.id).Nodup ∧
    (τ.filterMap BridgeMove.posted? ++ b.unposted).Perm
      ((mintedIn minting τ).map fun e => Request.ofJob e.1 e.2) ∧
    (∀ τ₁ m τ₂ c, τ = τ₁ ++ m :: τ₂ → (ofMinting minting).play τ₁ = some c →
      ∀ e ∈ c.mints m, e.2.fingerprint ∉ c.client.cache.keys ∧
        e.2.fingerprint ∉ c.client.outstanding.map Prod.snd ∧ .disconnect ∉ τ₁) ∧
    ∀ key, ((jobsOf (τ.filterMap BridgeMove.posted?)).map Job.fingerprint).count key ≤
      failures key (endedIn minting τ) + 1 := by
  have hbooks := books_of_play h hf
  have hids : (mintedIn minting τ).map Prod.fst = (List.range b.client.minted).map minting.mint :=
    hbooks.minted.symm
  have hdistinct : ((mintedIn minting τ).map Prod.fst).Nodup := by
    rw [hids]
    refine List.Nodup.map_on (fun i hi j hj heq => ?_) List.nodup_range
    exact hf.mint_inj (List.mem_range.mp hi) (List.mem_range.mp hj) heq
  have hposts : (τ.filterMap BridgeMove.posted? ++ b.unposted).Perm
      ((mintedIn minting τ).map fun e => Request.ofJob e.1 e.2) :=
    posted_of_play h ▸ hbooks.posts
  -- Posts carry the ids of round trips, in some order.
  refine ⟨count_minted h hf, hids, hdistinct, hbooks.outstanding, ?_, hposts, ?_, fun key => ?_⟩
  · have hall := hposts.map Request.id
    rw [List.map_map, List.map_append] at hall
    have hid : (Request.id ∘ fun e : RequestId × Job => Request.ofJob e.1 e.2) = Prod.fst :=
      funext fun e => Request.id_ofJob e.1 e.2
    rw [hid] at hall
    exact (List.nodup_append.mp (hall.nodup_iff.mpr hdistinct)).1
  -- An id is minted by admission alone, and only after a look at all three tables.
  · rintro τ₁ m τ₂ c rfl hplay e he
    have hrest := h
    rw [play_append_of_play hplay] at hrest
    obtain ⟨d, hmove, hlast⟩ := Option.bind_eq_some_iff.mp hrest
    have hminting : c.client.minting = minting := (grows_of_play hplay).minting
    have hfd : minting.Fresh d.client.minted := hf.mono (grows_of_play hlast).minted
    have hl : c.client.Ledger := ledger_of_play hplay (hfd.mono (grows_of_move hmove).minted)
    cases m with
    | accept job w =>
        cases hmove
        rcases mints_accept hl job w (hminting ▸ hfd) with
          ⟨hnone, -⟩ | ⟨hone, -, -, -, hcached, hunder, hconnected⟩
        · rw [hnone] at he
          exact absurd he List.not_mem_nil
        · rw [hone] at he
          obtain rfl := List.mem_singleton.mp he
          exact ⟨hcached, hunder, disconnect_notMem hplay hconnected⟩
    | post | giveUp | respond | frame | disconnect => exact absurd he List.not_mem_nil
  -- A post is for an id that was minted, and of these there are no more than failures and one.
  · have hcount := count_minted h hf key
    -- What is cached is not under way.
    have hone : (if key ∈ b.client.cache.keys then 1 else 0) +
        (if key ∈ b.client.outstanding.map Prod.snd then 1 else 0) ≤ 1 := by
      by_cases hunder : key ∈ b.client.outstanding.map Prod.snd
      · rw [if_neg ((outstanding_match_pending h hf).2.2.2.2.2.1 key hunder)]
        split <;> omega
      · rw [if_neg hunder]
        split <;> omega
    have hposted : ((jobsOf (τ.filterMap BridgeMove.posted?)).map Job.fingerprint).count key ≤
        ((mintedIn minting τ).map fun e => e.2.fingerprint).count key := by
      have hall := (hposts.filterMap fun r => r.job.toOption).map Job.fingerprint
      calc ((jobsOf (τ.filterMap BridgeMove.posted?)).map Job.fingerprint).count key
          ≤ ((jobsOf (τ.filterMap BridgeMove.posted? ++ b.unposted)).map Job.fingerprint).count
              key := (((List.sublist_append_left _ _).filterMap _).map _).count_le key
        _ = ((jobsOf ((mintedIn minting τ).map fun e => Request.ofJob e.1 e.2)).map
              Job.fingerprint).count key := hall.count_eq key
        _ = _ := by rw [jobsOf_ofJob, List.map_map]; rfl
    omega

/-- A request is answered before it is posted, and its post fails after that; it is asked for again,
and so is another one; a third post fails.  A picture comes with a payload that cannot be decoded, is
asked for again, and comes as the text of four bytes; then the connection is lost. -/
def accountedRun : List (BridgeMove Nat) :=
  [.accept (.name "a") 0, .respond (.rejected (.counter 1) "no"), .accept (.name "a") 1,
    .post (Request.ofJob (.counter 1) (.name "a")) (some (.transport "x")),
    .giveUp (.counter 1) (.transport "x"), .accept (.name "b") 2,
    .respond (.resolved (.counter 3) "B"), .accept (.name "c") 3,
    .post (Request.ofJob (.counter 4) (.name "c")) (some (.transport "y")),
    .giveUp (.counter 4) (.transport "y"), .accept (.image "d" .small) 4,
    .post (Request.ofJob (.counter 5) (.image "d" .small)) none,
    .respond (.resolved (.counter 5) "iVBORw"), .accept (.image "d" .small) 5,
    .respond (.resolved (.counter 6) "iVBORw=="), .disconnect, .accept (.name "b") 6,
    .accept (.name "a") 7]

theorem round_trips_accounted_crossed :
    ∃ b : Bridge Nat, (ofMinting .counter).play accountedRun = some b ∧
      Minting.counter.Fresh b.client.minted ∧
      ((mintedIn .counter accountedRun).map fun e => e.2.fingerprint).count (.name "a") = 2 ∧
      failures (.name "a") (endedIn .counter accountedRun) = 2 ∧
      ((mintedIn .counter accountedRun).map fun e => e.2.fingerprint).count (.image .small "d") = 2 ∧
      failures (.image .small "d") (endedIn .counter accountedRun) = 1 ∧
      b.client.cache.keys = [.name "b", .image .small "d"] ∧
      ((jobsOf (accountedRun.filterMap BridgeMove.posted?)).map Job.fingerprint).count
        (.name "a") ≤ 2 + 1 := by
  have hplay : ((ofMinting .counter : Bridge Nat).play accountedRun).any (fun b =>
      b.client.minted = 6 && (b.client.outstanding = [] &&
        (b.client.cache.keys = [.name "b", .image .small "d"] &&
          (failures (.name "a") (endedIn .counter accountedRun) = 2 &&
            failures (.image .small "d") (endedIn .counter accountedRun) = 1)))) := by
    decide +kernel
  obtain ⟨b, hb, hall⟩ := (Option.any_eq_true _ _).mp hplay
  simp only [Bool.and_eq_true, decide_eq_true_eq] at hall
  obtain ⟨hminted, hunder, hcached, hfailed, hundecoded⟩ := hall
  have hfresh : Minting.counter.Fresh b.client.minted := by
    rw [hminted]
    show 6 ≤ UInt64.size
    decide
  obtain ⟨hcount, -, -, -, -, -, -, hcost⟩ := round_trips_accounted hb hfresh
  have hname := hcount (.name "a")
  rw [hfailed, hcached, hunder] at hname
  have hpicture := hcount (.image .small "d")
  rw [hundecoded, hcached, hunder] at hpicture
  exact ⟨b, hb, hfresh, hname, hfailed, hpicture, hundecoded, hcached, hfailed ▸ hcost (.name "a")⟩

end Bridge

end AvatarPool
