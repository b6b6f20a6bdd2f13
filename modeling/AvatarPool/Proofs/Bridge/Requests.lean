import AvatarPool.Proofs.Bridge.Settling
import AvatarPool.Proofs.Wire.Pictures

/-! # Requests under way

A request is under way as one id from the moment its entry is opened until a move settles it: the
first response that carries the id, its post given up after it failed, or the loss of the connection.
`BridgeMove.verdict?` says which moves these are and what they decide; every other move leaves the
request alone, and unless its id is minted again nothing is under way as it any more once it is
settled.

What a response decides is spelled out here case by case, and not read off the client that takes it:
`Response.verdict?` gives it as a function, with the very text of a failure, and `Response.Tells` as
a relation that knows pictures by the standard text of their bytes alone.  That the client goes by
the first is `Response.verdict?_eq`, and that the second holds of the first `Response.tells_of_verdict`.
-/

namespace AvatarPool

variable {ω : Type}

/-! ## What a move decides -/

/-- **What a response decides** for those who wait for `key` under `id`, if it carries that id: a
rejection decides that the job has failed at the far side, and anything else brings a payload.  Where
a name is awaited the payload is that name; where a picture is, the payload is the text of its bytes,
and one that is the text of no bytes is a fault of the protocol. -/
def Response.verdict? (id : RequestId) (key : Fingerprint) : Response → Option Outcome
  | .rejected j reason => if j = id then some (.error (.remote reason)) else none
  | .resolved j payload =>
    if j = id then
      match key with
      | .name _ => some (.ok (.name payload))
      | .image _ _ =>
        match Base64.decode payload with
        | .ok png => some (.ok (.image (.ofPng png)))
        | .error fault =>
          some (.error (.protocol ("invalid base64 image payload: " ++ fault.message)))
    else none

/-- **What a response tells** those who wait for a fingerprint, with pictures known by the standard
text of their bytes. -/
inductive Response.Tells : Fingerprint → Response → Outcome → Prop
  /-- A payload that is the standard text of some bytes brings the picture of just these bytes, whose
  address holds that text. -/
  | picture {size : Size} {seed : String} {id : RequestId} (png : List UInt8) :
      Tells (.image size seed) (.resolved id (Base64.standard png))
        (.ok (.image ⟨png, Image.uriHead ++ Base64.standard png⟩))
  /-- A payload that is the standard text of no bytes is a fault of the protocol. -/
  | undecodable {size : Size} {seed payload reason : String} {id : RequestId}
      (h : ∀ png, payload ≠ Base64.standard png) :
      Tells (.image size seed) (.resolved id payload) (.error (.protocol reason))
  /-- A name comes as it stands. -/
  | name {seed text : String} {id : RequestId} :
      Tells (.name seed) (.resolved id text) (.ok (.name text))
  /-- A rejection is told with its reason, whatever was asked for. -/
  | rejected {key : Fingerprint} {reason : String} {id : RequestId} :
      Tells key (.rejected id reason) (.error (.remote reason))

/-- The client goes by the verdict of a response: it tells what `BridgeClient.outcome` makes of it to
those who wait under its id, and to nobody else. -/
theorem Response.verdict?_eq (id : RequestId) (key : Fingerprint) (r : Response) :
    r.verdict? id key = if r.id = id then some (BridgeClient.outcome key r) else none := by
  cases r with
  | rejected j reason => rfl
  | resolved j payload =>
      cases key with
      | name seed => rfl
      | image size seed =>
          unfold verdict? BridgeClient.outcome Image.ofBase64
          dsimp only
          cases hdecode : Base64.decode payload with
          | error fault => rfl
          | ok png =>
              -- The client keeps the text as it came, and that is the text it would write.
              obtain rfl := Base64.decode_eq_ok_iff.mp hdecode
              rfl

/-- **A verdict tells what the response says**, and only a response with the id has one. -/
theorem Response.tells_of_verdict {id : RequestId} {key : Fingerprint} {r : Response} {o : Outcome}
    (h : r.verdict? id key = some o) : r.id = id ∧ Tells key r o := by
  unfold verdict? at h
  cases r with
  | rejected j reason =>
      obtain ⟨hid, ho⟩ := Option.ite_none_right_eq_some.mp h
      cases ho
      exact ⟨hid, .rejected⟩
  | resolved j payload =>
      obtain ⟨hid, ho⟩ := Option.ite_none_right_eq_some.mp h
      refine ⟨hid, ?_⟩
      cases key with
      | name seed =>
          cases ho
          exact .name
      | image size seed =>
          dsimp only at ho
          cases hdecode : Base64.decode payload with
          | ok png =>
              rw [hdecode] at ho
              cases ho
              obtain rfl := Base64.decode_eq_ok_iff.mp hdecode
              rw [Image.ofPng, Base64.encode_eq_standard]
              exact .picture png
          | error fault =>
              rw [hdecode] at ho
              cases ho
              refine .undecodable fun png heq => ?_
              -- A standard text would have been decoded.
              rw [heq, ← Base64.encode_eq_standard, Base64.decode_encode] at hdecode
              cases hdecode

/-- **What a move decides** for those who wait for `key` under `id`, if it decides anything. -/
def BridgeMove.verdict? (id : RequestId) (key : Fingerprint) : BridgeMove ω → Option Outcome
  | .accept _ _ | .post _ _ => none
  | .giveUp j why => if j = id then some (.error why) else none
  | .respond r => r.verdict? id key
  | .frame text => (Response.ofFrame text).toOption.bind fun r => r.verdict? id key
  | .disconnect => some (.error BridgeClient.lost)

/-- The response that a move brings, bare or in a frame. -/
def BridgeMove.response? : BridgeMove ω → Option Response
  | .respond r => some r
  | .frame text => (Response.ofFrame text).toOption
  | _ => none

/-- The caller who asks for `key` in a move. -/
def BridgeMove.asks? (key : Fingerprint) : BridgeMove ω → Option ω
  | .accept job caller => if job.fingerprint = key then some caller else none
  | _ => none

namespace BridgeClient

variable {c c' : BridgeClient ω} {id : RequestId} {key : Fingerprint} {w : ω} {o : Outcome}

/-! ## One request under way -/

/-- A request for `key` is under way as `id`. -/
def Under (c : BridgeClient ω) (id : RequestId) (key : Fingerprint) : Prop :=
  (id, key) ∈ c.outstanding

/-- A request under way is found by its id, since no other request has it. -/
theorem Under.lookup (h : c.Under id key) (hl : c.Coherent) : c.outstanding.lookup id = some key :=
  lookup_of_mem hl.ids h

/-- Two requests for one fingerprint are the same. -/
theorem Under.id_eq (h : c.Under id key) (hl : c.Coherent) {id' : RequestId} (h' : c.Under id' key) :
    id' = id := by
  have heq : (id', key) = (id, key) := List.inj_on_of_nodup_map hl.nodup h' h rfl
  exact (Prod.mk.inj heq).1

/-- A request that is settled does not touch another one. -/
theorem Under.settle_of_ne (h : c.Under id key) (hl : c.Coherent) {j : RequestId} {k : Fingerprint}
    (hj : c.Under j k) (hne : j ≠ id) (o : Outcome) :
    (c.settle j k o).Under id key ∧
      (c.settle j k o).pending.waiting key = c.pending.waiting key := by
  have hkey : key ≠ k := by
    rintro rfl
    exact hne (h.id_eq hl hj)
  constructor
  · rw [Under, settle_outstanding]
    exact List.mem_filter.mpr ⟨h, by simpa using hne.symm⟩
  · rw [settle_pending, Pending.waiting_close, if_neg hkey]

/-! ### The loss of the connection -/

/-- By induction on the requests: an entry is closed when its own request comes up, and an answer
stays. -/
theorem mem_answered_foldl {l : List (RequestId × Fingerprint)} (hc : c.pending.WellFormed)
    (he : key ∈ l.map Prod.snd) (hw : w ∈ c.pending.waiting key) (o : Outcome) :
    (w, o) ∈ (l.foldl (fun c e => c.answerAll e.2 o) c).answered := by
  induction l generalizing c with
  | nil => exact absurd he List.not_mem_nil
  | cons e rest ih =>
      have hclosed := Serves.answerAll hc e.2 o
      rw [List.foldl_cons]
      by_cases hk : key = e.2
      -- Here he is told, and the answer stays.
      · subst hk
        have htold : (w, o) ∈ (c.answerAll e.2 o).answered := by
          rw [answered_answerAll]
          exact List.mem_append_right _ (List.mem_map.mpr ⟨w, hw, rfl⟩)
        exact (serves_foldl_answerAll hclosed.wellFormed rest o).told.subset htold
      · have hrest : key ∈ rest.map Prod.snd := by
          rw [List.map_cons, List.mem_cons] at he
          exact he.resolve_left hk
        refine ih hclosed.wellFormed hrest ?_
        show w ∈ (c.pending.close e.2).1.waiting key
        rw [Pending.waiting_close, if_neg hk]
        exact hw

/-- So everyone who waits for a request under way is told that the connection is lost. -/
theorem mem_answered_loseConnection (hp : c.pending.WellFormed) (h : c.Under id key)
    (hw : w ∈ c.pending.waiting key) : (w, .error lost) ∈ c.loseConnection.answered := by
  have hmem := mem_answered_foldl
    (c := { c with disconnected := true, outstanding := [] }) hp
    (List.mem_map_of_mem (f := Prod.snd) h) hw (.error lost)
  unfold loseConnection
  dsimp only
  split
  · exact hmem
  · rw [answered_warn]
    exact hmem

/-! ### Admission -/

/-- Either nothing is opened, or a request goes under way as the next id, and takes the place of
another one that has it. -/
theorem accept_outstanding (c : BridgeClient ω) (job : Job) (w : ω) :
    (c.accept job w).outstanding = c.outstanding ∨
      (c.accept job w).outstanding =
        (c.outstanding.filter fun e => e.1 ≠ c.minting.mint c.minted) ++
          [(c.minting.mint c.minted, job.fingerprint)] ∧
      (c.accept job w).minted = c.minted + 1 := by
  have hadmits := c.admits job w
  generalize c.accept job w = d at hadmits ⊢
  cases hadmits with
  | hit hc => exact .inl rfl
  | refused hc hd => exact .inl rfl
  | joined hc hd hk => exact .inl rfl
  | opened hc hd hk => exact .inr ⟨rfl, rfl⟩

/-- Who asks for what is under way joins those who wait for it; nobody else does. -/
theorem waiting_accept (hl : c.Coherent) (hu : c.Under id key) (job : Job) (v : ω) :
    (c.accept job v).pending.waiting key =
      c.pending.waiting key ++ ((BridgeMove.accept job v).asks? key).toList := by
  by_cases hasks : job.fingerprint = key
  · subst hasks
    -- The key is waited for, so the caller joins.
    have hk : job.fingerprint ∈ c.pending.keys :=
      hl.waited _ (List.mem_map_of_mem (f := Prod.snd) hu)
    have hd : ¬ c.disconnected := by
      intro hcut
      rw [Under, hl.cut hcut] at hu
      exact List.not_mem_nil hu
    rw [accept_of_mem (hl.uncached _ hk) hd hk]
    show (c.pending.enter job.fingerprint v).1.waiting job.fingerprint = _
    rw [Pending.waiting_enter, if_pos rfl, BridgeMove.asks?, if_pos rfl]
    rfl
  -- Entering under another key leaves those who wait for this one alone.
  · have hother : (c.pending.enter job.fingerprint v).1.waiting key = c.pending.waiting key := by
      rw [Pending.waiting_enter, if_neg (Ne.symm hasks)]
    rw [BridgeMove.asks?, if_neg hasks, Option.toList_none, List.append_nil]
    have hadmits := c.admits job v
    generalize c.accept job v = d at hadmits ⊢
    cases hadmits with
    | hit hc => rfl
    | refused hc hd => rfl
    | joined hc hd hk => exact hother
    | opened hc hd hk => exact hother

/-- Who is let in waits for what he asked for. -/
theorem mem_waiting_accept {job : Job} (hc : c.cache.get? job.fingerprint = none)
    (hd : ¬ c.disconnected) (w : ω) :
    w ∈ (c.accept job w).pending.waiting job.fingerprint := by
  have henter : w ∈ (c.pending.enter job.fingerprint w).1.waiting job.fingerprint := by
    rw [Pending.waiting_enter, if_pos rfl]
    exact List.mem_append_right _ (List.mem_singleton_self w)
  by_cases hk : job.fingerprint ∈ c.pending.keys
  · rw [accept_of_mem hc hd hk]; exact henter
  · rw [accept_of_notMem hc hd hk]; exact henter

end BridgeClient

namespace Bridge

open BridgeClient

variable {b b' : Bridge ω} {minting : Minting} {τ τ' : List (BridgeMove ω)} {m : BridgeMove ω}
  {id : RequestId} {key : Fingerprint} {w : ω} {o : Outcome}

/-! ## One move -/

theorem verdict?_frame_of_ok {r : Response} {text : String} (hr : Response.ofFrame text = .ok r) :
    (BridgeMove.frame text : BridgeMove ω).verdict? id key = r.verdict? id key := by
  simp [BridgeMove.verdict?, hr, Except.toOption]

theorem verdict?_frame_of_error {text : String} {e : Json.DecodeError}
    (he : Response.ofFrame text = .error e) :
    (BridgeMove.frame text : BridgeMove ω).verdict? id key = none := by
  simp [BridgeMove.verdict?, he, Except.toOption]

/-- The verdict of a move that brings a response is that of the response. -/
theorem verdict?_of_response {r : Response} (hr : m.response? = some r) :
    m.verdict? id key = r.verdict? id key := by
  cases m with
  | respond r' =>
      cases hr
      rfl
  | frame text =>
      have hsome : (Response.ofFrame text).toOption = some r := hr
      rw [BridgeMove.verdict?, hsome]
      rfl
  | accept | post | giveUp | disconnect => cases hr

/-- **A verdict is told** to all who wait for the request, and a success is kept.  The moves that
can have a verdict are four, and each of them settles the request under its id. -/
theorem told_of_verdict (hl : b.client.Ledger) (hu : b.client.Under id key)
    (hw : w ∈ b.client.pending.waiting key) (hv : m.verdict? id key = some o)
    (hmove : b.move m = some b') :
    (w, o) ∈ b'.client.answered ∧ b'.client.cache.get? key = o.toOption := by
  have hnone : b.client.cache.get? key = none :=
    hl.uncached key (Pending.mem_keys_of_mem_waiting hw)
  have hlookup := hu.lookup hl.coherent
  -- A response settles the request, whether it comes bare or in a frame.
  have hrespond : ∀ r, Response.verdict? id key r = some o →
      (w, o) ∈ (b.client.takeResponse r).answered ∧
        (b.client.takeResponse r).cache.get? key = o.toOption := by
    intro r hr
    rw [Response.verdict?_eq] at hr
    obtain ⟨rfl, ho⟩ := Option.ite_none_right_eq_some.mp hr
    cases ho
    rw [takeResponse_of_lookup hlookup]
    exact ⟨mem_answered_settle hw _ _, get?_settle hnone _ _⟩
  cases leads_of_move hmove with
  | accept | post => cases hv
  | @giveUp j why =>
      obtain ⟨rfl, ho⟩ := Option.ite_none_right_eq_some.mp hv
      cases ho
      show (w, _) ∈ (b.client.giveUp j why).answered ∧ (b.client.giveUp j why).cache.get? key = _
      rw [giveUp_of_lookup hlookup, answered_warn]
      exact ⟨mem_answered_settle hw _ _, get?_settle hnone j (.error why)⟩
  | respond r => exact hrespond r hv
  | read hr => exact hrespond _ (verdict?_frame_of_ok hr ▸ hv)
  | misread hr => cases (verdict?_frame_of_error hr).symm.trans hv
  | disconnect =>
      cases hv
      -- All who wait are told that the connection is lost, and nothing is kept of it.
      refine ⟨mem_answered_loseConnection hl.wellFormed hu hw, ?_⟩
      obtain ⟨pending, effects, heq⟩ := loseConnection_eq b.client
      show b.client.loseConnection.cache.get? key = none
      rw [heq]
      exact hnone

/-- **Without a verdict** a request stays under way, and all who wait for it go on waiting; who asks
for the same joins them. -/
theorem stays_of_move (hl : b.client.Coherent)
    (hnew : b.client.minting.Spares id b.client.minted b'.client.minted)
    (hu : b.client.Under id key) (hv : m.verdict? id key = none) (hmove : b.move m = some b') :
    b'.client.Under id key ∧
      b'.client.pending.waiting key = b.client.pending.waiting key ++ (m.asks? key).toList := by
  -- Whatever ends a request of another id leaves this one alone.
  have hother : ∀ (j : RequestId) (e : BridgeClient ω), j ≠ id →
      (j ∉ b.client.outstanding.map Prod.fst → e.outstanding = b.client.outstanding ∧
        e.pending = b.client.pending) →
      (∀ k, b.client.outstanding.lookup j = some k → ∃ o,
        e.outstanding = (b.client.settle j k o).outstanding ∧
        e.pending = (b.client.settle j k o).pending) →
      e.Under id key ∧ e.pending.waiting key = b.client.pending.waiting key ++ [] := by
    intro j e hne hunknown hknown
    cases hj : b.client.outstanding.lookup j with
    | none =>
        obtain ⟨ho, hp⟩ := hunknown ((lookup_eq_none_iff_notMem _ _).mp hj)
        rw [Under, ho, hp, List.append_nil]
        exact ⟨hu, rfl⟩
    | some k =>
        obtain ⟨o, ho, hp⟩ := hknown k hj
        obtain ⟨hstays, hwaiting⟩ := hu.settle_of_ne hl (mem_of_lookup hj) hne o
        rw [Under, ho, hp, hwaiting, List.append_nil]
        exact ⟨hstays, rfl⟩
  have hrespond : ∀ r, Response.verdict? id key r = none →
      (b.client.takeResponse r).Under id key ∧
        (b.client.takeResponse r).pending.waiting key = b.client.pending.waiting key ++ [] := by
    intro r hr
    have hne : r.id ≠ id := by
      intro heq
      simp [Response.verdict?_eq, heq] at hr
    refine hother r.id _ hne (fun hunknown => ?_) fun k hk => ⟨outcome k r, ?_⟩
    · rw [takeResponse_of_unknown hunknown]
      exact ⟨rfl, rfl⟩
    · rw [takeResponse_of_lookup hk]
      exact ⟨rfl, rfl⟩
  cases leads_of_move hmove with
  | accept job v =>
      refine ⟨?_, waiting_accept hl hu job v⟩
      show (id, key) ∈ (b.client.accept job v).outstanding
      rcases accept_outstanding b.client job v with hsame | ⟨hmore, hminted⟩
      · rw [hsame]
        exact hu
      · rw [hmore]
        have hne : b.client.minting.mint b.client.minted ≠ id :=
          hnew _ (Nat.le_refl _) (hminted ▸ Nat.lt_succ_self _)
        exact List.mem_append_left _ (List.mem_filter.mpr ⟨hu, by simpa using hne.symm⟩)
  | post | misread => exact ⟨hu, (List.append_nil _).symm⟩
  | @giveUp j why =>
      have hne : j ≠ id := by
        intro heq
        simp [BridgeMove.verdict?, heq] at hv
      refine hother j _ hne (fun hunknown => ?_) fun k hk => ⟨.error why, ?_⟩
      · rw [giveUp_of_unknown hunknown]
        exact ⟨rfl, rfl⟩
      · rw [giveUp_of_lookup hk]
        exact ⟨rfl, rfl⟩
  | respond r => exact hrespond r hv
  | read hr => exact hrespond _ (verdict?_frame_of_ok hr ▸ hv)
  | disconnect => cases hv

/-! ## What leaves the requests under way -/

/-- A verdict ends the request.  Whatever it is, the entry of its id is taken out. -/
theorem gone_of_verdict (hv : (m.verdict? id key).isSome) (hmove : b.move m = some b') :
    id ∉ b'.client.outstanding.map Prod.fst := by
  obtain ⟨o, hv⟩ := Option.isSome_iff_exists.mp hv
  have hrespond : ∀ r, Response.verdict? id key r = some o →
      id ∉ (b.client.takeResponse r).outstanding.map Prod.fst := by
    intro r hr
    rw [Response.verdict?_eq] at hr
    obtain ⟨rfl, -⟩ := Option.ite_none_right_eq_some.mp hr
    rw [outstanding_takeResponse]
    exact notMem_keys_filter _ _
  cases leads_of_move hmove with
  | accept | post => cases hv
  | giveUp =>
      -- Given up: the entry is taken out, whether or not anybody waits.
      obtain ⟨rfl, -⟩ := Option.ite_none_right_eq_some.mp hv
      rw [outstanding_giveUp]
      exact notMem_keys_filter _ _
  | respond r => exact hrespond r hv
  | read hr => exact hrespond _ (verdict?_frame_of_ok hr ▸ hv)
  | misread hr => cases (verdict?_frame_of_error hr).symm.trans hv
  | disconnect =>
      obtain ⟨pending, effects, heq⟩ := loseConnection_eq b.client
      show id ∉ b.client.loseConnection.outstanding.map Prod.fst
      rw [heq]
      exact List.not_mem_nil

/-- **One request at most goes under way** in a move, as the id minted for it. -/
theorem outstanding_of_move (hmove : b.move m = some b') :
    b'.client.outstanding ⊆ b.client.outstanding ∨
      ∃ job v, m = .accept job v ∧ b'.client.minted = b.client.minted + 1 ∧
        b'.client.outstanding =
          (b.client.outstanding.filter fun e => e.1 ≠ b.client.minting.mint b.client.minted) ++
            [(b.client.minting.mint b.client.minted, job.fingerprint)] := by
  cases leads_of_move hmove with
  | accept job v =>
      -- Only an admission opens an entry, and it mints the id for it.
      rcases accept_outstanding b.client job v with hsame | ⟨hmore, hminted⟩
      · exact .inl fun e he => hsame ▸ he
      · exact .inr ⟨job, v, rfl, hminted, hmore⟩
  | post | misread => exact .inl (List.Subset.refl _)
  | giveUp =>
      left
      rw [outstanding_giveUp]
      exact List.filter_sublist.subset
  | respond | read =>
      left
      rw [outstanding_takeResponse]
      exact List.filter_sublist.subset
  | disconnect =>
      obtain ⟨pending, effects, heq⟩ := loseConnection_eq b.client
      left
      rw [heq]
      exact List.nil_subset _

/-- What is not under way stays so unless its id is minted. -/
theorem gone_of_move (hgone : id ∉ b.client.outstanding.map Prod.fst)
    (hnew : b.client.minting.Spares id b.client.minted b'.client.minted)
    (hmove : b.move m = some b') : id ∉ b'.client.outstanding.map Prod.fst := by
  rcases outstanding_of_move hmove with hless | ⟨job, v, -, hminted, hmore⟩
  · exact fun hmem => hgone (List.map_subset _ hless hmem)
  · have hne : b.client.minting.mint b.client.minted ≠ id :=
      hnew _ (Nat.le_refl _) (hminted ▸ Nat.lt_succ_self _)
    rw [hmore, List.map_append, List.mem_append, not_or]
    exact ⟨fun hmem => hgone (List.map_subset _ List.filter_sublist.subset hmem),
      fun hmem => hne (List.mem_singleton.mp hmem).symm⟩

/-! ## Runs of distinct callers -/

/-- **A run** from the start in which the ids minted differ and every call is a caller of its own. -/
structure Run (minting : Minting) (τ : List (BridgeMove ω)) (b : Bridge ω) : Prop where
  played : (ofMinting minting).play τ = some b
  fresh : minting.Fresh b.client.minted
  own : (callers τ).Nodup

/-- Along a run ids are minted forwards. -/
theorem grows_of_play (h : b.play τ = some b') : Grows b.client b'.client := by
  refine play_induction (P := fun c => Grows b.client c.client) ⟨rfl, Nat.le_refl _⟩ ?_ h
  intro m c d hc hmove
  have hd := grows_of_move hmove
  exact ⟨hd.minting.trans hc.minting, Nat.le_trans hc.minted hd.minted⟩

/-- Those who ask for a fingerprint in some moves, in the order they come. -/
def askers (key : Fingerprint) (τ : List (BridgeMove ω)) : List ω := τ.filterMap fun m => m.asks? key

/-- An id that a run does not mint is minted neither by its first move nor by the others. -/
theorem spares_split (hnew : b.client.minting.Spares id b.client.minted b'.client.minted)
    (hmove : b.move m = some c) (hplay : c.play τ = some b') :
    b.client.minting.Spares id b.client.minted c.client.minted ∧
      c.client.minting.Spares id c.client.minted b'.client.minted := by
  have hfirst := grows_of_move hmove
  have hrest := grows_of_play hplay
  refine ⟨fun i hlo hhi => hnew i hlo (Nat.lt_of_lt_of_le hhi hrest.minted), fun i hlo hhi => ?_⟩
  rw [hfirst.minting]
  exact hnew i (Nat.le_trans hfirst.minted hlo) hhi

/-- What is not under way stays so while its id is not minted. -/
theorem gone_of_play (hgone : id ∉ b.client.outstanding.map Prod.fst)
    (hplay : b.play τ = some b')
    (hnew : b.client.minting.Spares id b.client.minted b'.client.minted) :
    id ∉ b'.client.outstanding.map Prod.fst := by
  induction τ generalizing b with
  | nil =>
      cases hplay
      exact hgone
  | cons m τ ih =>
      obtain ⟨c, hmove, hrest⟩ := Option.bind_eq_some_iff.mp hplay
      obtain ⟨hfirst, hlater⟩ := spares_split hnew hmove hrest
      exact ih (gone_of_move hgone hfirst hmove) hrest hlater

/-- **A request goes on or is over**, whatever other ids are minted.  Without a verdict it stays
under way, and those who have asked for the same since wait for it with the others; after a verdict
nothing is under way as its id.  By induction on the run.  At the first verdict the request is over,
and from then on only its id must not come again. -/
theorem under_or_gone (hl : b.client.Coherent) (hu : b.client.Under id key)
    (hplay : b.play τ = some b')
    (hnew : b.client.minting.Spares id b.client.minted b'.client.minted) :
    ((∀ m ∈ τ, m.verdict? id key = none) ∧ b'.client.Under id key ∧
        b'.client.pending.waiting key = b.client.pending.waiting key ++ askers key τ) ∨
      (∃ m ∈ τ, (m.verdict? id key).isSome) ∧ id ∉ b'.client.outstanding.map Prod.fst := by
  induction τ generalizing b with
  | nil =>
      cases hplay
      exact .inl ⟨nofun, hu, (List.append_nil _).symm⟩
  | cons m τ ih =>
      obtain ⟨c, hmove, hrest⟩ := Option.bind_eq_some_iff.mp hplay
      obtain ⟨hfirst, hlater⟩ := spares_split hnew hmove hrest
      cases hv : m.verdict? id key with
      -- This move settles it.
      | some o =>
          have hsome : (m.verdict? id key).isSome := hv ▸ rfl
          exact .inr ⟨⟨m, List.mem_cons_self, hsome⟩,
            gone_of_play (gone_of_verdict hsome hmove) hrest hlater⟩
      -- It does not, and the request goes on with those who have asked by this move.
      | none =>
          obtain ⟨huc, hwaiting⟩ := stays_of_move hl hfirst hu hv hmove
          rcases ih (coherent_of_move hl hmove) huc hrest hlater with
            ⟨hnone, hub, hmore⟩ | ⟨⟨m', hm', hsome⟩, hgone⟩
          · refine .inl ⟨List.forall_mem_cons.mpr ⟨hv, hnone⟩, hub, ?_⟩
            have hasks : askers key (m :: τ) = (m.asks? key).toList ++ askers key τ := by
              unfold askers
              cases h : m.asks? key <;> simp [h]
            rw [hmore, hwaiting, hasks, List.append_assoc]
          · exact .inr ⟨⟨m', List.mem_cons_of_mem _ hm', hsome⟩, hgone⟩

/-- The id has been minted and its request has come to its end. -/
structure Spent (c : BridgeClient ω) (id : RequestId) : Prop where
  minted : ∃ i < c.minted, id = c.minting.mint i
  gone : id ∉ c.outstanding.map Prod.fst

namespace Run

theorem ledger (h : Run minting τ b) : b.client.Ledger := ledger_of_play h.played h.fresh

theorem minting_eq (h : Run minting τ b) : b.client.minting = minting :=
  (grows_of_play h.played).minting

/-- The first part of a run. -/
theorem exists_prefix (h : Run minting (τ ++ τ') b) :
    ∃ c, Run minting τ c ∧ c.play τ' = some b := by
  have hplay := h.played
  rw [play_append] at hplay
  obtain ⟨c, hc, hrest⟩ := Option.bind_eq_some_iff.mp hplay
  have hown := h.own
  unfold callers at hown
  rw [List.filterMap_append] at hown
  exact ⟨c, ⟨hc, h.fresh.mono (grows_of_play hrest).minted, (List.nodup_append.mp hown).1⟩, hrest⟩

/-- A run up to some move, that move, and the rest. -/
theorem exists_split (h : Run minting (τ ++ m :: τ') b) :
    ∃ c d, Run minting τ c ∧ c.move m = some d ∧ Run minting (τ ++ [m]) d ∧
      d.play τ' = some b := by
  obtain ⟨c, hc, -⟩ := h.exists_prefix
  have h' : Run minting ((τ ++ [m]) ++ τ') b := by
    rw [List.append_assoc]
    exact h
  obtain ⟨d, hd, hrest⟩ := h'.exists_prefix
  have hmove := hd.played
  rw [play_append_of_play hc.played, play_singleton] at hmove
  exact ⟨c, d, hc, hmove, hd, hrest⟩

/-- Those who came wait or have been told. -/
theorem perm_callers (h : Run minting τ b) : b.client.served.Perm (callers τ) := by
  have hfirst : (ofMinting minting : Bridge ω).client.pending.WellFormed :=
    Pending.wellFormed_empty
  obtain ⟨ws, hws, hserves⟩ := serves_of_play hfirst h.played
  exact hserves.perm.trans ((List.Perm.of_eq (List.append_nil ws)).trans hws)

/-- Answers stay in a longer run. -/
theorem mem_answered (h : Run minting τ b) {a : ω × Outcome} (ha : a ∈ b.client.answered)
    (hplay : b.play τ' = some b') : a ∈ b'.client.answered := by
  obtain ⟨ws, -, hserves⟩ := serves_of_play h.ledger.wellFormed hplay
  exact hserves.told.subset ha

/-- An id that has been minted is not minted again. -/
theorem spares (h : Run minting (τ ++ τ') b') (hb : Run minting τ b)
    (hid : ∃ i < b.client.minted, id = b.client.minting.mint i) :
    b.client.minting.Spares id b.client.minted b'.client.minted := by
  obtain ⟨i, hi, rfl⟩ := hid
  exact (hb.minting_eq ▸ h.fresh : b.client.minting.Fresh b'.client.minted).spares hi

/-- Once it is spent an id stays so, for it is not minted again. -/
theorem spent_of_play (h : Run minting (τ ++ τ') b') (hb : Run minting τ b)
    (hplay : b.play τ' = some b') (hs : Spent b.client id) : Spent b'.client id := by
  have hgrows := grows_of_play hplay
  obtain ⟨i, hi, hid⟩ := hs.minted
  exact ⟨⟨i, Nat.lt_of_lt_of_le hi hgrows.minted, hgrows.minting ▸ hid⟩,
    gone_of_play hs.gone hplay (h.spares hb hs.minted)⟩

/-- What is under way without a verdict stays so. -/
theorem stays_of_play (h : Run minting (τ ++ τ') b') (hb : Run minting τ b)
    (hplay : b.play τ' = some b') (hu : b.client.Under id key)
    (hv : ∀ m ∈ τ', m.verdict? id key = none) :
    b'.client.Under id key ∧
      ∀ w ∈ b.client.pending.waiting key, w ∈ b'.client.pending.waiting key := by
  have hminted := hb.ledger.minted id (List.mem_map_of_mem (f := Prod.fst) hu)
  rcases under_or_gone hb.ledger.coherent hu hplay (h.spares hb hminted) with
    ⟨-, hub, hwaiting⟩ | ⟨⟨m, hm, hsome⟩, -⟩
  · exact ⟨hub, fun w hw => hwaiting ▸ List.mem_append_left _ hw⟩
  · rw [hv m hm] at hsome
    cases hsome

end Run

/-! ## Where a request under way comes from -/

/-- A request for `key` was opened as `id` in the run, and nothing has settled it since. -/
def OpenedAs (minting : Minting) (τ : List (BridgeMove ω)) (key : Fingerprint) (id : RequestId) :
    Prop :=
  ∃ τ₀ job v τ₁ c, τ = τ₀ ++ .accept job v :: τ₁ ∧ (ofMinting minting).play τ₀ = some c ∧
    job.fingerprint = key ∧
    (c.accept job v).client.outstanding = c.client.outstanding ++ [(id, key)] ∧
    ∀ m ∈ τ₁, m.verdict? id key = none

/-- Another move that does not settle it. -/
theorem OpenedAs.snoc (h : OpenedAs minting τ key id) (hv : m.verdict? id key = none) :
    OpenedAs minting (τ ++ [m]) key id := by
  obtain ⟨τ₀, job, v, τ₁, c, rfl, hplay, hkey, hopen, hnone⟩ := h
  refine ⟨τ₀, job, v, τ₁ ++ [m], c, by simp, hplay, hkey, hopen, fun x hx => ?_⟩
  rcases List.mem_append.mp hx with hold | hnew
  · exact hnone x hold
  · rw [List.mem_singleton.mp hnew]
    exact hv

/-- **What is under way has been opened** under just that id.  By induction on the run: an entry
that is new was opened by this move, and any other one has got no verdict. -/
theorem openedAs_of_under (h : Run minting τ b) (hu : b.client.Under id key) :
    OpenedAs minting τ key id := by
  have hall : minting.Fresh b.client.minted →
      ∀ e ∈ b.client.outstanding, OpenedAs minting τ e.2 e.1 := by
    refine run_induction (P := fun τ b => minting.Fresh b.client.minted →
        ∀ e ∈ b.client.outstanding, OpenedAs minting τ e.2 e.1)
      (fun _ e he => absurd he List.not_mem_nil) ?_ h.played
    intro τ m c d hplay ih hmove hf e he
    have hgrows := grows_of_move hmove
    have hminting := (grows_of_play hplay).minting
    have hfc : minting.Fresh c.client.minted := hf.mono hgrows.minted
    have hl := ledger_of_play hplay hfc
    -- A request that is still under way has got no verdict.
    have hold : e ∈ c.client.outstanding → OpenedAs minting (τ ++ [m]) e.2 e.1 := by
      intro hmem
      refine (ih hfc e hmem).snoc (Option.not_isSome_iff_eq_none.mp fun hv => ?_)
      exact gone_of_verdict hv hmove (List.mem_map_of_mem (f := Prod.fst) he)
    rcases outstanding_of_move hmove with hless | ⟨job, v, rfl, hminted, hmore⟩
    · exact hold (hless he)
    · rw [filter_ne_of_notMem (hl.mint_notMem (hminted ▸ hminting ▸ hf))] at hmore
      rw [hmore] at he
      rcases List.mem_append.mp he with hmem | hnew
      · exact hold hmem
      · obtain rfl := List.mem_singleton.mp hnew
        cases hmove
        exact ⟨τ, job, v, [], c, rfl, hplay, rfl, hmore, nofun⟩
  exact hall h.fresh (id, key) hu

/-- **What has been opened is under way** until something settles it.  From its opening on it stays
under way, since no move has had a verdict. -/
theorem under_of_openedAs (h : Run minting τ b) (ho : OpenedAs minting τ key id) :
    b.client.Under id key := by
  obtain ⟨τ₀, job, v, τ₁, c, rfl, hplay, hkey, hopen, hnone⟩ := ho
  obtain ⟨c', d, hc', hmove, hd, hrest⟩ := h.exists_split
  obtain rfl : c' = c := Option.some.inj (hc'.played.symm.trans hplay)
  cases hmove
  have hu : (c'.accept job v).client.Under id key := by
    rw [Under, hopen]
    exact List.mem_append_right _ (List.mem_singleton_self _)
  have hlong : Run minting ((τ₀ ++ [.accept job v]) ++ τ₁) b := by
    rw [List.append_assoc]
    exact h
  exact (hlong.stays_of_play hd hrest hu hnone).1

/-- A post that is given up has failed before.  By induction on the run, since only a post that
failed can be given up. -/
theorem failed_of_giveUp {why : Failure} (h : (ofMinting minting : Bridge ω).play τ = some b)
    (hmove : b.move (.giveUp id why) = some b') :
    ∃ r : Request, r.id = id ∧ .post r (some why) ∈ τ := by
  have hall : ∀ e ∈ b.failed, ∃ r : Request, r.id = e.1 ∧ .post r (some e.2) ∈ τ := by
    refine run_induction (P := fun τ b => ∀ e ∈ b.failed, ∃ r : Request,
      r.id = e.1 ∧ .post r (some e.2) ∈ τ) (fun e he => absurd he List.not_mem_nil) ?_ h
    intro τ m c d _ ih hmove e he
    have hold : e ∈ c.failed → ∃ r : Request, r.id = e.1 ∧ .post r (some e.2) ∈ τ ++ [m] := by
      intro hmem
      obtain ⟨r, hr, hpost⟩ := ih e hmem
      exact ⟨r, hr, List.mem_append_left _ hpost⟩
    cases leads_of_move hmove with
    | accept | respond | read | misread | disconnect => exact hold he
    | giveUp => exact hold (List.mem_of_mem_erase he)
    | @post r failure =>
        rcases List.mem_append.mp he with hmem | hnew
        · exact hold hmem
        · obtain ⟨why, rfl, rfl⟩ : ∃ why, failure = some why ∧ (r.id, why) = e := by
            simpa [Option.mem_toList] using hnew
          exact ⟨r, rfl, List.mem_append_right _ (List.mem_singleton_self _)⟩
  obtain ⟨hmem, -⟩ := Option.ite_some_none_eq_some.mp hmove
  exact hall (id, why) hmem

end Bridge

end AvatarPool
