import AvatarPool.Proofs.Bridge.Requests

/-! # Answers find their callers by id alone

Who waits for a request is told what the first move decides that settles it, and nothing else.  A
response finds nobody under an id that is unknown or has been settled, even where a newer request
for the same fingerprint is under way.

With one request at hand, found by its id, everything goes by the first move that has a verdict for
it.  Before that move everyone who waits goes on waiting, by `Run.stays_of_play`; by that move they
are told, by `told_of_verdict`; and afterwards they are told nothing more, because every caller is
told once. -/

namespace AvatarPool.Bridge

open BridgeClient

variable {ω : Type} {b b' : Bridge ω} {minting : Minting} {τ τ' : List (BridgeMove ω)}
  {id : RequestId} {key : Fingerprint} {w : ω} {o : Outcome}

/-! ## What every caller is told

What a caller has been told is a list, of which conservation says that it has one entry at most.  So
it is known as soon as one answer is known, and it is empty as long as the caller waits. -/

variable [DecidableEq ω]

/-- Everything that a caller has been told. -/
def told (b : Bridge ω) (w : ω) : List Outcome :=
  (b.client.answered.filter fun a => a.1 = w).map Prod.snd

theorem mem_told : o ∈ b.told w ↔ (w, o) ∈ b.client.answered := by
  simp [told]

theorem length_told (b : Bridge ω) (w : ω) :
    (b.told w).length = (b.client.answered.map Prod.fst).count w := by
  rw [told, List.length_map, List.count_eq_countP, List.countP_map, List.countP_eq_length_filter]
  exact congrArg List.length (List.filter_congr fun a _ => (beq_eq_decide a.1 w).symm)

namespace Run

theorem count_served (h : Run minting τ b) (w : ω) : b.client.served.count w ≤ 1 := by
  rw [h.perm_callers.count_eq]
  exact List.nodup_iff_count_le_one.mp h.own w

/-- Nobody is told twice. -/
theorem told_of_mem (h : Run minting τ b) (ho : (w, o) ∈ b.client.answered) : b.told w = [o] := by
  have hmem : o ∈ b.told w := mem_told.mpr ho
  have hlength : (b.told w).length ≤ 1 := by
    have hcount := h.count_served w
    rw [served, List.count_append] at hcount
    rw [length_told]
    omega
  have hpos := List.length_pos_of_mem hmem
  obtain ⟨o', ho'⟩ := List.length_eq_one_iff.mp (by omega : (b.told w).length = 1)
  rw [ho'] at hmem ⊢
  rw [List.mem_singleton.mp hmem]

/-- Who waits has been told nothing. -/
theorem told_of_waiting (h : Run minting τ b) (hw : w ∈ b.client.pending.waiting key) :
    b.told w = [] := by
  have hcallers : w ∈ b.client.pending.callers :=
    (Pending.mem_callers_iff h.ledger.wellFormed.nodup).mpr ⟨key, hw⟩
  have hcount := h.count_served w
  rw [served, List.count_append] at hcount
  have hpos := List.count_pos_iff.mpr hcallers
  rw [← List.length_eq_zero_iff, length_told]
  omega

/-- **The first verdict is told**, and nothing before it. -/
theorem told_eq_findSome? (h : Run minting (τ ++ τ') b') (hb : Run minting τ b)
    (hplay : b.play τ' = some b') (hu : b.client.Under id key)
    (hw : w ∈ b.client.pending.waiting key) :
    b'.told w = (τ'.findSome? fun m => m.verdict? id key).toList := by
  cases hv : τ'.findSome? fun m => m.verdict? id key with
  -- No move has a verdict, so the caller still waits.
  | none =>
      have hnone := List.findSome?_eq_none_iff.mp hv
      obtain ⟨-, hwaiting⟩ := h.stays_of_play hb hplay hu hnone
      exact h.told_of_waiting (hwaiting w hw)
  -- The run is split at the first one that has.
  | some o =>
      obtain ⟨τ₁, m, τ₂, rfl, hm, hnone⟩ := List.findSome?_eq_some_iff.mp hv
      have hlong : Run minting ((τ ++ τ₁) ++ m :: τ₂) b' := by
        rw [List.append_assoc]
        exact h
      obtain ⟨c, d, hc, hmove, hd, hrest⟩ := hlong.exists_split
      have hplay' := hc.played
      rw [play_append_of_play hb.played] at hplay'
      obtain ⟨hu', hw'⟩ := hc.stays_of_play hb hplay' hu fun x hx =>
        Option.not_isSome_iff_eq_none.mp fun hsome => by simp [hnone x hx] at hsome
      have htold := told_of_verdict hc.ledger hu' (hw' w hw) hm hmove
      exact h.told_of_mem (hd.mem_answered htold.1 hrest)

end Run

/-- **Answers find their callers by id alone.**  Every caller has been told at most one thing: what
was cached when he came; that the connection is lost, if he came after that; or what the first move
decided that settled the one id under which his entry was opened, which is a response that carries
the id, its post given up after it failed, or the loss of the connection.  What a response decides is
what it tells: the picture whose bytes its payload is the standard text of, its text as a name, a
fault of the protocol for any other payload of a picture, and the reason of a rejection.  A success is
cached then and a failure is not.  A response whose id has not been minted, or has been settled since,
changes nothing at all. -/
theorem answers_routed_by_id (h : Run minting τ b) :
    (∀ τ₁ job w τ₂ b₁, τ = τ₁ ++ .accept job w :: τ₂ → (ofMinting minting).play τ₁ = some b₁ →
      (∀ artifact, b₁.client.cache.get? job.fingerprint = some artifact →
        b.told w = [.ok artifact]) ∧
      (b₁.client.cache.get? job.fingerprint = none → b₁.client.disconnected →
        b.told w = [.error lost]) ∧
      (b₁.client.cache.get? job.fingerprint = none → ¬ b₁.client.disconnected →
        ∃ id, OpenedAs minting (τ₁ ++ [.accept job w]) job.fingerprint id ∧
          (∀ id', OpenedAs minting (τ₁ ++ [.accept job w]) job.fingerprint id' → id' = id) ∧
          b.told w = (τ₂.findSome? fun m => m.verdict? id job.fingerprint).toList ∧
          ∀ τ₃ m τ₄ o b₃, τ₂ = τ₃ ++ m :: τ₄ → (∀ x ∈ τ₃, x.verdict? id job.fingerprint = none) →
            m.verdict? id job.fingerprint = some o →
            (ofMinting minting).play (τ₁ ++ .accept job w :: (τ₃ ++ [m])) = some b₃ →
            b₃.client.cache.get? job.fingerprint = o.toOption ∧
              (∀ r, m.response? = some r → r.id = id ∧ r.Tells job.fingerprint o) ∧
              ∀ why, m = .giveUp id why →
                ∃ r : Request, r.id = id ∧ .post r (some why) ∈ τ₁ ++ .accept job w :: τ₃)) ∧
    ∀ r : Response,
      ((∀ i < b.client.minted, r.id ≠ minting.mint i) ∨
        ∃ τ₁ m τ₂ b₁, τ = τ₁ ++ m :: τ₂ ∧ (ofMinting minting).play τ₁ = some b₁ ∧
          (∃ i < b₁.client.minted, r.id = minting.mint i) ∧ ∃ key, (m.verdict? r.id key).isSome) →
      b.move (.respond r) = some b ∧
        ∀ text, Response.ofFrame text = .ok r → b.move (.frame text) = some b := by
  constructor
  -- A caller who came in the course of the run; what it was told is decided by what its admission
  -- found.
  · rintro τ₁ job w τ₂ b₁ rfl hplay
    obtain ⟨c, d, hc, hmove, hd, hrest⟩ := h.exists_split
    obtain rfl : c = b₁ := Option.some.inj (hc.played.symm.trans hplay)
    cases hmove
    have hlong : Run minting ((τ₁ ++ [.accept job w]) ++ τ₂) b := by
      rw [List.append_assoc]
      exact h
    refine ⟨fun artifact hhit => ?_, fun hmiss hcut => ?_, fun hmiss hcut => ?_⟩
    · have htold : (w, .ok artifact) ∈ (c.client.accept job w).answered := by
        rw [accept_of_hit hhit, answered_note]
        exact List.mem_append_right _ (List.mem_singleton_self _)
      exact h.told_of_mem (hd.mem_answered htold hrest)
    · have htold : (w, .error lost) ∈ (c.client.accept job w).answered := by
        rw [accept_of_disconnected hmiss hcut, answered_note]
        exact List.mem_append_right _ (List.mem_singleton_self _)
      exact h.told_of_mem (hd.mem_answered htold hrest)
    · have hw := mem_waiting_accept hmiss hcut w
      -- Somebody waits, so a request is under way.
      obtain ⟨⟨id, key⟩, hu, rfl⟩ := List.mem_map.mp
        (hd.ledger.books.mem_iff.mpr (Pending.mem_keys_of_mem_waiting hw))
      refine ⟨id, openedAs_of_under hd hu, fun id' ho => ?_,
        hlong.told_eq_findSome? hd hrest hu hw, ?_⟩
      · exact Under.id_eq hu hd.ledger.coherent (under_of_openedAs hd ho)
      · rintro τ₃ m τ₄ o b₃ rfl hnone hv hplay₃
        have hshort : Run minting ((τ₁ ++ [.accept job w]) ++ τ₃ ++ m :: τ₄) b := by
          rw [List.append_assoc, List.append_assoc]
          exact h
        obtain ⟨e, f, he, hmove, hf, -⟩ := hshort.exists_split
        have hb₃ : f = b₃ := by
          have hplayf := hf.played
          rw [List.append_assoc, List.append_assoc] at hplayf
          exact Option.some.inj (hplayf.symm.trans hplay₃)
        have hplaye := he.played
        rw [play_append_of_play hd.played] at hplaye
        obtain ⟨hu', hw'⟩ := he.stays_of_play hd hplaye hu hnone
        refine ⟨hb₃ ▸ (told_of_verdict he.ledger hu' (hw' w hw) hv hmove).2, fun r hr => ?_, ?_⟩
        · exact Response.tells_of_verdict ((verdict?_of_response hr).symm.trans hv)
        rintro why rfl
        obtain ⟨r, hr, hpost⟩ := failed_of_giveUp he.played hmove
        rw [List.append_assoc] at hpost
        exact ⟨r, hr, hpost⟩
  -- A response under an id that is not under way: it is unknown, or its request has been settled
  -- since.
  · intro r hr
    have hgone : r.id ∉ b.client.outstanding.map Prod.fst := by
      rcases hr with hunknown | ⟨τ₁, m, τ₂, b₁, rfl, hplay, hminted, key, hv⟩
      · intro hmem
        obtain ⟨i, hi, heq⟩ := h.ledger.minted _ hmem
        exact hunknown i hi (h.minting_eq ▸ heq)
      · obtain ⟨c, d, hc, hmove, hd, hrest⟩ := h.exists_split
        obtain rfl : c = b₁ := Option.some.inj (hc.played.symm.trans hplay)
        obtain ⟨i, hi, hid⟩ := hminted
        have hgrows := grows_of_move hmove
        have hspent : Spent d.client r.id :=
          ⟨⟨i, Nat.lt_of_lt_of_le hi hgrows.minted, hd.minting_eq ▸ hid⟩, gone_of_verdict hv hmove⟩
        have hlong : Run minting ((τ₁ ++ [m]) ++ τ₂) b := by
          rw [List.append_assoc]
          exact h
        exact (hlong.spent_of_play hd hrest hspent).gone
    have hsame : b.move (.respond r) = some b := by
      simp only [move, takeResponse_of_unknown hgone]
    exact ⟨hsame, fun text htext => (client_of_response htext).trans hsame⟩

/-- Two pictures and a name are asked for.  The name is rejected and asked for again, and a second
answer to the first request comes while the newer one is under way.  The second picture comes with a
payload that lacks its padding, and the first one in a frame, as the text of four bytes. -/
def staleRun : List (BridgeMove Nat) :=
  [.accept (.image "a" .small) 0, .accept (.image "b" .large) 1, .accept (.name "a") 2,
    .post (Request.ofJob (.counter 3) (.name "a")) none, .respond (.rejected (.counter 3) "no"),
    .accept (.name "a") 3, .respond (.resolved (.counter 3) "late"),
    .respond (.resolved (.counter 2) "iVBORw"),
    .frame (Response.resolved (.counter 1) "iVBORw==").frame]

/-- The first bytes of every picture. -/
def magic : List UInt8 := [0x89, 0x50, 0x4e, 0x47]

set_option maxRecDepth 100000 in
theorem answers_routed_by_id_stale :
    ∃ b : Bridge Nat, Run .counter staleRun b ∧ b.client.outstanding = [(.counter 4, .name "a")] ∧
      b.told 0 = [.ok (.image (.ofPng magic))] ∧
      b.told 1 = [.error (.protocol "invalid base64 image payload: Invalid padding")] ∧
      b.told 2 = [.error (.remote "no")] ∧ b.told 3 = [] ∧
      b.client.cache.get? (.image .small "a") = some (.image (.ofPng magic)) ∧
      Response.Tells (.image .small "a") (.resolved (.counter 1) "iVBORw==")
        (.ok (.image (.ofPng magic))) ∧
      b.move (.respond (.resolved (.counter 3) "later")) = some b := by
  have hplay : ((ofMinting .counter : Bridge Nat).play staleRun).any (fun b =>
      b.client.minted = 4 && (b.client.outstanding = [(.counter 4, .name "a")] &&
        b.told 3 = [])) := by
    decide +kernel
  obtain ⟨b, hb, hall⟩ := (Option.any_eq_true _ _).mp hplay
  simp only [Bool.and_eq_true, decide_eq_true_eq] at hall
  obtain ⟨hminted, hout, hwaits⟩ := hall
  have hfresh : Minting.counter.Fresh b.client.minted := by
    rw [hminted]
    show 4 ≤ UInt64.size
    decide
  have hrun : Run .counter staleRun b := ⟨hb, hfresh, by decide⟩
  obtain ⟨htold, hstale⟩ := answers_routed_by_id hrun
  -- Each of the first three callers opened an entry of his own.
  have hopened : ∀ (job : Job) (w : Nat) (id : RequestId) (τ : List (BridgeMove Nat)) (c : Bridge Nat),
      (ofMinting .counter).play τ = some c → (c.accept job w).client.outstanding =
        c.client.outstanding ++ [(id, job.fingerprint)] →
      OpenedAs .counter (τ ++ [.accept job w]) job.fingerprint id := fun job w id τ c hτ ho =>
    ⟨τ, job, w, [], c, rfl, hτ, rfl, ho, nofun⟩
  obtain ⟨id₀, -, hid₀, htold₀, hends₀⟩ := (htold [] (.image "a" .small) 0 _ _ rfl rfl).2.2 rfl nofun
  obtain ⟨id₁, -, hid₁, htold₁, -⟩ :=
    (htold [.accept (.image "a" .small) 0] (.image "b" .large) 1 _ _ rfl rfl).2.2 rfl nofun
  obtain ⟨id₂, -, hid₂, htold₂, -⟩ :=
    (htold (staleRun.take 2) (.name "a") 2 _ _ rfl rfl).2.2 rfl nofun
  obtain rfl := hid₀ _ (hopened _ _ (.counter 1) _ _ rfl (by decide +kernel))
  obtain rfl := hid₁ _ (hopened _ _ (.counter 2) _ _ rfl (by decide +kernel))
  obtain rfl := hid₂ _ (hopened _ _ (.counter 3) _ _ rfl (by decide +kernel))
  -- The first picture is settled by the frame that comes last.
  obtain ⟨hcached, htells, -⟩ := hends₀ ((staleRun.drop 1).take 7)
    (.frame (Response.resolved (.counter 1) "iVBORw==").frame) [] (.ok (.image (.ofPng magic))) b rfl
    (by decide +kernel) (by decide +kernel) hb
  refine ⟨b, hrun, hout, htold₀.trans (by decide +kernel), htold₁.trans (by decide +kernel),
    htold₂.trans (by decide +kernel), hwaits, hcached, (htells _ (by decide +kernel)).2, ?_⟩
  refine (hstale (.resolved (.counter 3) "later") (.inr ?_)).1
  exact ⟨staleRun.take 4, _, _, _, rfl, rfl, ⟨2, by decide +kernel, by decide +kernel⟩, .name "a",
    by decide +kernel⟩

end AvatarPool.Bridge
