import AvatarPool.Proofs.Bridge.Routing

/-! # Responses may come in any order

Requests under way are for fingerprints of their own: one that callers wait for is not asked for
again.  So two responses of different ids are about different entries, and neither of them reads or
writes what the other one does.  In whatever order responses come, the tables end up the same and
everybody is told the same; only the order of what has been kept and told may differ.

Two clients that have taken the same responses in different orders are not equal: what they keep and
what they have done is in another order.  `Matches` is equality up to that.  It is preserved by
every response, and two responses of different ids lead to matching clients in either order; so
does, by induction on the permutation, any reordering.  Nothing is assumed about ids that are
minted: that requests under way differ in their keys is part of `Coherent`, which holds in every
run. -/

namespace AvatarPool

/-! ## The cache without its order -/

namespace Cache

variable {κ ν : Type} [DecidableEq κ]

/-- Caches that differ in their order only do so after an insertion. -/
theorem entries_insert_perm {c d : Cache κ ν} (hget : ∀ k, d.get? k = c.get? k)
    (hperm : d.entries.Perm c.entries) (k : κ) (v : ν) :
    (d.insert k v).1.entries.Perm (c.insert k v).1.entries := by
  unfold insert
  rw [hget]
  split
  · exact hperm
  · exact hperm.append_right _

/-- Insertions at different keys may change places. -/
theorem get?_insert_comm {k l : κ} (h : k ≠ l) (c : Cache κ ν) (u v : ν) (j : κ) :
    ((c.insert k u).1.insert l v).1.get? j = ((c.insert l v).1.insert k u).1.get? j := by
  simp only [get?_insert, if_neg h, if_neg h.symm]
  by_cases hk : j = k
  · have hl : j ≠ l := fun hl => h (hk.symm.trans hl)
    rw [if_neg hl, if_pos hk, if_pos hk]
  · rw [if_neg hk, if_neg hk]

/-- The entries are the same up to their order. -/
theorem entries_insert_comm {k l : κ} (h : k ≠ l) (c : Cache κ ν) (u v : ν) :
    ((c.insert k u).1.insert l v).1.entries.Perm ((c.insert l v).1.insert k u).1.entries := by
  have hl : (c.insert k u).1.get? l = c.get? l := (get?_insert c k l u).trans (if_neg h.symm)
  have hk : (c.insert l v).1.get? k = c.get? k := (get?_insert c l k v).trans (if_neg h)
  have hinsert : ∀ (d : Cache κ ν) (i : κ) (w : ν),
      (d.insert i w).1.entries = d.entries ++ if (d.get? i).isSome then [] else [(i, w)] := by
    intro d i w
    unfold insert
    cases d.get? i <;> simp
  rw [hinsert, hinsert, hinsert, hinsert, hl, hk, List.append_assoc, List.append_assoc]
  exact List.perm_append_comm.append_left _

end Cache

variable {ω : Type}

namespace BridgeClient

variable {c d e : BridgeClient ω} {id id' : RequestId} {key key' : Fingerprint}

/-! ## Clients that match -/

/-- **Two clients match** if they differ at most in the order of what they have kept and done. -/
structure Matches (c d : BridgeClient ω) : Prop where
  minting : c.minting = d.minting
  minted : c.minted = d.minted
  pending : c.pending = d.pending
  outstanding : c.outstanding = d.outstanding
  disconnected : c.disconnected = d.disconnected
  cached : ∀ k, c.cache.get? k = d.cache.get? k
  entries : c.cache.entries.Perm d.cache.entries
  effects : c.effects.Perm d.effects

namespace Matches

theorem refl (c : BridgeClient ω) : Matches c c :=
  ⟨rfl, rfl, rfl, rfl, rfl, fun _ => rfl, .refl _, .refl _⟩

/-- The relation is transitive, which the induction on permutations needs. -/
theorem trans (h : Matches c d) (h' : Matches d e) : Matches c e where
  minting := h.minting.trans h'.minting
  minted := h.minted.trans h'.minted
  pending := h.pending.trans h'.pending
  outstanding := h.outstanding.trans h'.outstanding
  disconnected := h.disconnected.trans h'.disconnected
  cached := fun k => (h.cached k).trans (h'.cached k)
  entries := h.entries.trans h'.entries
  effects := h.effects.trans h'.effects

/-- A round trip ends alike for both. -/
theorem settle (h : Matches c d) (id : RequestId) (key : Fingerprint) (o : Outcome) :
    Matches (c.settle id key o) (d.settle id key o) := by
  have hcached : ∀ k, (c.keep key o).cache.get? k = (d.keep key o).cache.get? k := by
    intro k
    cases o with
    | error why => exact h.cached k
    | ok artifact =>
        show (c.cache.insert key artifact).1.get? k = (d.cache.insert key artifact).1.get? k
        rw [Cache.get?_insert, Cache.get?_insert, h.cached, h.cached]
  have hentries : (c.keep key o).cache.entries.Perm (d.keep key o).cache.entries := by
    cases o with
    | error why => exact h.entries
    | ok artifact => exact Cache.entries_insert_perm h.cached h.entries key artifact
  rw [settle_eq, settle_eq]
  refine ⟨h.minting, h.minted, ?_, ?_, h.disconnected, hcached, hentries, ?_⟩
  · exact congrArg (fun p : Pending Fingerprint ω => (p.close key).1) h.pending
  · exact congrArg (List.filter fun e => e.1 ≠ id) h.outstanding
  · show (c.effects ++ (c.pending.waiting key).map _).Perm _
    rw [h.pending]
    exact h.effects.append_right _

/-- A response finds the same request in both, or none in either. -/
theorem takeResponse (h : Matches c d) (r : Response) :
    Matches (c.takeResponse r) (d.takeResponse r) := by
  cases hl : c.outstanding.lookup r.id with
  | some key =>
      rw [takeResponse_of_lookup hl, takeResponse_of_lookup (h.outstanding ▸ hl)]
      exact h.settle _ _ _
  | none =>
      have hunknown := (lookup_eq_none_iff_notMem _ _).mp hl
      rw [takeResponse_of_unknown hunknown, takeResponse_of_unknown (h.outstanding ▸ hunknown)]
      exact h

/-- Clients that match still do after the same responses.  By induction on the responses. -/
theorem takeAll (h : Matches c d) (rs : List Response) :
    Matches (rs.foldl BridgeClient.takeResponse c) (rs.foldl BridgeClient.takeResponse d) := by
  induction rs generalizing c d with
  | nil => exact h
  | cons r rs ih => exact ih (h.takeResponse r)

end Matches

/-! ## Two responses -/

/-- Round trips of different ids and fingerprints may end in either order.  Neither touches the
other's request, entry or result, and of what they have done only the order differs. -/
theorem matches_settle_comm (hkey : key ≠ key') (id id' : RequestId) (o o' : Outcome) :
    Matches ((c.settle id key o).settle id' key' o') ((c.settle id' key' o').settle id key o) := by
  have hcached : ∀ k, (((c.settle id key o).keep key' o').cache.get? k) =
      ((c.settle id' key' o').keep key o).cache.get? k := by
    intro k
    cases o <;> cases o'
    case ok.ok artifact artifact' => exact Cache.get?_insert_comm hkey _ _ _ k
    all_goals rfl
  have hentries : ((c.settle id key o).keep key' o').cache.entries.Perm
      ((c.settle id' key' o').keep key o).cache.entries := by
    cases o <;> cases o'
    case ok.ok artifact artifact' => exact Cache.entries_insert_comm hkey _ _ _
    all_goals exact .refl _
  -- Those who wait under one key are not touched by the other.
  have hwaiting : (c.settle id key o).pending.waiting key' = c.pending.waiting key' := by
    rw [settle_pending, Pending.waiting_close, if_neg hkey.symm]
  have hwaiting' : (c.settle id' key' o').pending.waiting key = c.pending.waiting key := by
    rw [settle_pending, Pending.waiting_close, if_neg hkey]
  rw [settle_eq (c.settle id key o), settle_eq (c.settle id' key' o'), hwaiting, hwaiting']
  refine ⟨?_, ?_, ?_, ?_, ?_, hcached, hentries, ?_⟩
  · rw [settle_eq, settle_eq]
  · rw [settle_eq, settle_eq]
  · rw [settle_pending, settle_pending]
    simp only [Pending.close, List.filter_filter, Bool.and_comm]
  · simp only [settle_outstanding, List.filter_filter, Bool.and_comm]
  · rw [settle_eq, settle_eq]
  · rw [settle_eq, settle_eq]
    show (c.effects ++ _ ++ _).Perm (c.effects ++ _ ++ _)
    rw [List.append_assoc, List.append_assoc]
    exact List.perm_append_comm.append_left _

/-- **Two responses of different ids may come in either order.** -/
theorem Coherent.matches_comm (h : c.Coherent) {r s : Response} (hne : r.id ≠ s.id) :
    Matches ((c.takeResponse r).takeResponse s) ((c.takeResponse s).takeResponse r) := by
  -- Whether the one is known does not hang on the other.
  have hlookup : ∀ {r s : Response}, r.id ≠ s.id →
      (c.takeResponse r).outstanding.lookup s.id = c.outstanding.lookup s.id := by
    intro r s hne
    rw [outstanding_takeResponse, lookup_filter_ne, if_neg hne.symm]
  cases hr : c.outstanding.lookup r.id with
  | none =>
      have hunknown := (lookup_eq_none_iff_notMem _ _).mp hr
      have hunknown' := (lookup_eq_none_iff_notMem _ _).mp ((hlookup hne.symm).trans hr)
      rw [takeResponse_of_unknown hunknown, takeResponse_of_unknown hunknown']
      exact .refl _
  | some key =>
      cases hs : c.outstanding.lookup s.id with
      | none =>
          have hunknown := (lookup_eq_none_iff_notMem _ _).mp hs
          have hunknown' := (lookup_eq_none_iff_notMem _ _).mp ((hlookup hne).trans hs)
          rw [takeResponse_of_unknown hunknown, takeResponse_of_unknown hunknown']
          exact .refl _
      | some key' =>
          have hkey : key ≠ key' := by
            rintro rfl
            exact hne (Under.id_eq (mem_of_lookup hs) h (mem_of_lookup hr))
          rw [takeResponse_of_lookup ((hlookup hne).trans hs),
            takeResponse_of_lookup ((hlookup hne.symm).trans hr), takeResponse_of_lookup hr,
            takeResponse_of_lookup hs]
          exact matches_settle_comm hkey _ _ _ _

/-- **Responses of different ids may come in any order.**  By the constructors of a permutation: a
swap at the front is the lemma above, and what follows keeps the match. -/
theorem Coherent.matches_of_perm (h : c.Coherent) {rs rs' : List Response} (hperm : rs.Perm rs')
    (hids : (rs.map Response.id).Nodup) :
    Matches (rs.foldl BridgeClient.takeResponse c) (rs'.foldl BridgeClient.takeResponse c) := by
  induction hperm generalizing c with
  | nil => exact .refl _
  | cons r _ ih =>
      rw [List.map_cons, List.nodup_cons] at hids
      exact ih (h.takeResponse r) hids.2
  | swap r s rs =>
      rw [List.map_cons, List.map_cons, List.nodup_cons] at hids
      have hne : s.id ≠ r.id := fun heq => hids.1 (heq ▸ List.mem_cons_self)
      exact (h.matches_comm hne).takeAll rs
  | trans hfirst _ ih ih' =>
      exact (ih h hids).trans (ih' h ((hfirst.map Response.id).nodup_iff.mp hids))

end BridgeClient

namespace Bridge

open BridgeClient

variable {b b' : Bridge ω} {minting : Minting} {τ : List (BridgeMove ω)} {m : BridgeMove ω}

/-! ## Runs -/

/-- Responses can always be taken. -/
theorem play_respond (b : Bridge ω) (rs : List Response) :
    b.play (rs.map .respond) = some { b with client := rs.foldl takeResponse b.client } := by
  induction rs generalizing b with
  | nil => rfl
  | cons r rs ih => exact ih { b with client := b.client.takeResponse r }

/-- Responses bring no callers. -/
theorem callers_respond (τ : List (BridgeMove ω)) (rs : List Response) :
    callers (τ ++ rs.map .respond) = callers τ := by
  have hnone : (rs.map BridgeMove.respond).filterMap (BridgeMove.caller? (ω := ω)) = [] := by
    simp [List.filterMap_map, BridgeMove.caller?]
  unfold callers
  rw [List.filterMap_append, hnone, List.append_nil]

variable [DecidableEq ω]

/-- Nobody is told twice if every call is a caller of its own.  By conservation each of them has
waited or been told once. -/
theorem length_told_le (h : (ofMinting minting).play τ = some b) (hown : (callers τ).Nodup) (w : ω) :
    (b.told w).length ≤ 1 := by
  obtain ⟨ws, hws, hserves⟩ := serves_of_play Pending.wellFormed_empty h
  have hperm : b.client.served.Perm (ws ++ []) := hserves.perm
  rw [List.append_nil] at hperm
  have hcount := List.nodup_iff_count_le_one.mp ((hperm.trans hws).nodup_iff.mpr hown) w
  rw [served, List.count_append] at hcount
  rw [length_told]
  omega

/-- **Responses may come in any order.**  After any run, and however the moves of callers, posts and
listeners have met, responses of different ids, known and unknown ones, acceptances and rejections,
lead in any order to the same cache, the same waiting callers and the same requests under way, and
they give the same answers: every caller is told the same. -/
theorem responses_in_any_order (h : (ofMinting minting).play τ = some b) {rs rs' : List Response}
    (hids : (rs.map Response.id).Nodup) (hperm : rs.Perm rs') :
    ∃ c c', b.play (rs.map .respond) = some c ∧ b.play (rs'.map .respond) = some c' ∧
      (∀ k, c.client.cache.get? k = c'.client.cache.get? k) ∧
      c.client.cache.entries.Perm c'.client.cache.entries ∧
      c.client.pending = c'.client.pending ∧ c.client.outstanding = c'.client.outstanding ∧
      c.client.answered.Perm c'.client.answered ∧
      ((callers τ).Nodup → ∀ w, c.told w = c'.told w) := by
  have hmatches := (coherent_of_play h).matches_of_perm hperm hids
  have hanswered := hmatches.effects.filterMap BridgeEffect.answer?
  refine ⟨_, _, play_respond b rs, play_respond b rs', hmatches.cached, hmatches.entries,
    hmatches.pending, hmatches.outstanding, hanswered, fun hown w => ?_⟩
  have hlong : ∀ qs : List Response,
      (ofMinting minting).play (τ ++ qs.map .respond) =
          some { b with client := qs.foldl takeResponse b.client } ∧
        (callers (τ ++ qs.map .respond)).Nodup := by
    intro qs
    rw [play_append_of_play h, play_respond, callers_respond]
    exact ⟨rfl, hown⟩
  have htold : (told { b with client := rs.foldl takeResponse b.client } w).Perm
      (told { b with client := rs'.foldl takeResponse b.client } w) :=
    (hanswered.filter _).map Prod.snd
  have hshort := length_told_le (hlong rs).1 (hlong rs).2 w
  -- With one answer at most there is no order left.
  generalize told { b with client := rs.foldl takeResponse b.client } w = os at htold hshort ⊢
  match os with
  | [] => exact htold.nil_eq
  | [o] => exact List.singleton_perm.mp htold
  | o :: o' :: os =>
      simp only [List.length_cons] at hshort
      omega

/-- A name, a picture and another name are asked for, the first name by two callers. -/
def threeAsked : List (BridgeMove Nat) :=
  [.accept (.name "a") 0, .accept (.image "a" .small) 1, .accept (.name "a") 2,
    .accept (.name "b") 3]

/-- One is rejected, one has a payload that is no picture, one is accepted, and one is unknown. -/
def fourResponses : List Response :=
  [.rejected (.counter 1) "no", .resolved (.counter 2) "!", .resolved (.counter 9) "c",
    .resolved (.counter 3) "B"]

theorem responses_in_any_order_reversed :
    ∃ b c c' : Bridge Nat, (ofMinting .counter).play threeAsked = some b ∧
      b.play (fourResponses.map .respond) = some c ∧
      b.play (fourResponses.reverse.map .respond) = some c' ∧
      c.client.outstanding = [] ∧ c'.client.outstanding = [] ∧
      c.told 2 = [.error (.remote "no")] ∧ c'.told 2 = [.error (.remote "no")] := by
  have hplay : ((ofMinting .counter : Bridge Nat).play threeAsked).any (fun b =>
      (b.play (fourResponses.map .respond)).any fun c =>
        c.client.outstanding = [] && c.told 2 = [.error (.remote "no")]) := by
    decide +kernel
  obtain ⟨b, hb, hafter⟩ := (Option.any_eq_true _ _).mp hplay
  obtain ⟨c, hc, hall⟩ := (Option.any_eq_true _ _).mp hafter
  simp only [Bool.and_eq_true, decide_eq_true_eq] at hall
  obtain ⟨hnone, htold⟩ := hall
  have hids : (fourResponses.map Response.id).Nodup := by decide
  obtain ⟨d, d', hd, hd', -, -, -, hunder, -, hsame⟩ :=
    responses_in_any_order hb hids (List.reverse_perm _).symm
  obtain rfl : d = c := Option.some.inj (hd.symm.trans hc)
  exact ⟨b, d, d', hb, hd, hd', hnone, hunder ▸ hnone, htold, hsame (by decide) 2 ▸ htold⟩

end Bridge

end AvatarPool
