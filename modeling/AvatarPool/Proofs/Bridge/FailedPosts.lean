import AvatarPool.Proofs.Bridge.Requests
import AvatarPool.Proofs.Wire.Payload

/-! # A post that fails leaves nothing behind

A request is admitted under a lock, posted without it, and given up under it again if the post has
failed.  If nothing comes between, giving up takes back just what admission has done, and only the id
is spent.  Meanwhile callers may have joined, a response may have come, the connection may be lost and
the same thing may have been asked for anew: then giving up rejects those who wait for the very
request that was posted, and where that is over it touches nothing.

The two halves of the statement use different lemmas.  Where nothing comes between, the state after
giving up is computed, field by field.  Where something does, `under_or_gone` tells what has become
of the request: either no move has settled it, so that its entry is the one admission has opened,
with those who have joined since; or some move has, and giving up finds nothing under its id. -/

namespace AvatarPool

variable {ω : Type}

namespace Pending

variable {κ : Type} [DecidableEq κ]

/-- A new entry is closed again. -/
theorem close_enter_of_notMem {p : Pending κ ω} {k : κ} (h : k ∉ p.keys) (w : ω) :
    (p.enter k w).1.close k = (p, [w]) := by
  refine Prod.ext ?_ ?_
  · rw [close_enter]
    exact congrArg Pending.mk (filter_ne_of_notMem h)
  · show (p.enter k w).1.waiting k = [w]
    rw [waiting_enter, if_pos rfl, waiting_eq_nil_of_notMem h]
    rfl

end Pending

namespace BridgeClient

variable {c : BridgeClient ω} {id : RequestId} {key : Fingerprint}

/-- What giving up a request under way does, field by field.  Only its own entry is touched, under
its own key. -/
theorem giveUp_eq_of_under (hl : c.Coherent) (hu : c.Under id key) (why : Failure) :
    c.giveUp id why = { c with
      outstanding := c.outstanding.filter fun e => e.1 ≠ id
      pending := (c.pending.close key).1
      effects := c.effects ++ ((c.pending.waiting key).map fun w => .answered w (.error why)) ++
        [.published (.transportFailure why.message)] } := by
  rw [giveUp_of_lookup (hu.lookup hl), settle_eq]
  rfl

end BridgeClient

namespace Bridge

open BridgeClient

variable {b c d : Bridge ω} {minting : Minting} {τ τ' : List (BridgeMove ω)} {job : Job} {w : ω}
  {r : Request}

/-- **A request that admission has to post** opens an entry, and goes under way beside the others if
its id is new. -/
theorem accept_of_unposted (hr : (b.accept job w).unposted = b.unposted ++ [r])
    (hid : r.id ∉ b.client.outstanding.map Prod.fst) :
    job.fingerprint ∉ b.client.pending.keys ∧
      (b.accept job w).client = { b.client with
        minted := b.client.minted + 1
        pending := (b.client.pending.enter job.fingerprint w).1
        outstanding := b.client.outstanding ++ [(r.id, job.fingerprint)]
        effects := b.client.effects ++ [.posted r] } := by
  have hadmits := b.client.admits job w
  simp only [Bridge.accept] at hr ⊢
  generalize b.client.accept job w = c at hadmits hr ⊢
  -- Among what admission has noted there is the post of this request.
  have hposts : ∀ es : List (BridgeEffect ω), c.effects = b.client.effects ++ es →
      es.filterMap BridgeEffect.posted? = [r] := by
    intro es hes
    rw [hes, List.drop_left] at hr
    exact List.append_cancel_left hr
  cases hadmits with
  -- Whoever is answered or joins others has nothing posted.
  | hit hc => cases hposts _ rfl
  | refused hc hd => cases hposts [_, _] (List.append_assoc _ _ _)
  | joined hc hd hk => cases hposts [] (List.append_nil _).symm
  | opened hc hd hk =>
      obtain rfl := List.singleton_inj.mp (hposts _ rfl)
      rw [Request.id_ofJob] at hid ⊢
      refine ⟨hk, ?_⟩
      rw [filter_ne_of_notMem hid]
      rfl

/-- The request that admission has to post is under way, and only the caller waits for it. -/
theorem under_of_unposted (hr : (b.accept job w).unposted = b.unposted ++ [r])
    (hid : r.id ∉ b.client.outstanding.map Prod.fst) :
    (b.accept job w).client.Under r.id job.fingerprint ∧
      (b.accept job w).client.pending.waiting job.fingerprint = [w] := by
  obtain ⟨hk, hclient⟩ := accept_of_unposted hr hid
  rw [Under, hclient]
  exact ⟨List.mem_append_right _ (List.mem_singleton_self _),
    congrArg Prod.snd (Pending.close_enter_of_notMem hk w)⟩

/-- **Nothing comes between** the admission of a request, its post and giving it up. -/
theorem play_failed_post (hl : b.client.Coherent)
    (hr : (b.accept job w).unposted = b.unposted ++ [r])
    (hid : r.id ∉ b.client.outstanding.map Prod.fst) (why : Failure) :
    ∃ d, b.play [.accept job w, .post r (some why), .giveUp r.id why] = some d ∧
      d.client = { b.client with
        minted := b.client.minted + 1
        effects := b.client.effects ++ [.posted r, .answered w (.error why),
          .published (.transportFailure why.message)] } := by
  obtain ⟨hk, hclient⟩ := accept_of_unposted hr hid
  obtain ⟨hu, hwaiting⟩ := under_of_unposted hr hid
  have hmem : r ∈ (b.accept job w).unposted := hr ▸ List.mem_append_right _ (List.mem_singleton_self r)
  have hfailed : (r.id, why) ∈ (b.accept job w).failed ++ [(r.id, why)] :=
    -- The three moves can be made, since the request is to be posted and its post has failed.
    List.mem_append_right _ (List.mem_singleton_self _)
  have hplay : b.play [.accept job w, .post r (some why), .giveUp r.id why] =
      some { b.accept job w with
        client := (b.accept job w).client.giveUp r.id why
        unposted := (b.accept job w).unposted.erase r
        posted := (b.accept job w).posted ++ [r]
        failed := ((b.accept job w).failed ++ [(r.id, why)]).erase (r.id, why) } := by
    simp only [play, move, Option.bind_some, if_pos hmem, Option.map_some, Option.toList_some,
      if_pos hfailed]
  -- What admission has put under way is taken away again, and so is the entry.
  have hgone : (b.client.outstanding ++ [(r.id, job.fingerprint)]).filter (fun e => e.1 ≠ r.id) =
      b.client.outstanding := by
    rw [List.filter_append, filter_ne_of_notMem hid]
    simp
  have hpending := congrArg Prod.fst (Pending.close_enter_of_notMem hk w)
  have hcoherent : (b.accept job w).client.Coherent := hl.accept job w
  refine ⟨_, hplay, ?_⟩
  show (b.accept job w).client.giveUp r.id why = _
  rw [giveUp_eq_of_under hcoherent hu, hwaiting, hclient]
  simp only [hgone, hpending, List.append_assoc, List.map_singleton, List.cons_append,
    List.nil_append]

/-- **A post that fails leaves nothing behind** but the id that is spent, if that is the id of no
request under way.  If nothing comes between the admission of a request, its post and giving it up,
then the cache, the waiting callers and the requests under way are what they were before, the caller
is rejected with the failure of the post, and one event tells of it.  Whatever comes between, as long
as the id is not minted again, giving up closes the entry of the very request that was posted, if no
response and no disconnect has settled it: it rejects the caller who opened it and those who have
asked for the same since, all with that failure.  Otherwise it changes no table and tells nobody,
whoever waits for the same fingerprint by then. -/
theorem failed_post_rolled_back (h : (ofMinting minting).play τ = some b)
    (hr : (b.accept job w).unposted = b.unposted ++ [r])
    (hid : r.id ∉ b.client.outstanding.map Prod.fst) (why : Failure) :
    (∃ d, b.play [.accept job w, .post r (some why), .giveUp r.id why] = some d ∧
      d.client = { b.client with
        minted := b.client.minted + 1
        effects := b.client.effects ++ [.posted r, .answered w (.error why),
          .published (.transportFailure why.message)] }) ∧
    ∀ τ' c, (b.accept job w).play τ' = some c →
      minting.Spares r.id (b.client.minted + 1) c.client.minted →
      (r.id, why) ∈ c.failed → ∃ d, c.move (.giveUp r.id why) = some d ∧
        (((∀ m ∈ τ', m.verdict? r.id job.fingerprint = none) ∧
            (r.id, job.fingerprint) ∈ c.client.outstanding ∧
            c.client.pending.waiting job.fingerprint = w :: askers job.fingerprint τ' ∧
            d.client = { c.client with
              outstanding := c.client.outstanding.filter fun e => e.1 ≠ r.id
              pending := (c.client.pending.close job.fingerprint).1
              effects := c.client.effects ++
                ((w :: askers job.fingerprint τ').map fun v => .answered v (.error why)) ++
                  [.published (.transportFailure why.message)] }) ∨
          ((∃ m ∈ τ', (m.verdict? r.id job.fingerprint).isSome) ∧
            r.id ∉ c.client.outstanding.map Prod.fst ∧
            d.client = { c.client with
              effects := c.client.effects ++ [.published (.transportFailure why.message)] })) := by
  have hl : b.client.Coherent := coherent_of_play h
  refine ⟨play_failed_post hl hr hid why, fun τ' c hplay hnew hfailed => ?_⟩
  -- Whatever comes between, the request starts under way with its caller.
  obtain ⟨hu, hfirst⟩ := under_of_unposted hr hid
  have hlater : (b.accept job w).client.minting.Spares r.id (b.accept job w).client.minted
      c.client.minted := by
    obtain ⟨-, hclient⟩ := accept_of_unposted hr hid
    rw [hclient]
    exact (grows_of_play h).minting ▸ hnew
  have hall : (ofMinting minting).play (τ ++ .accept job w :: τ') = some c := by
    rw [play_append_of_play h]
    exact hplay
  refine ⟨_, if_pos hfailed, ?_⟩
  -- It is still under way, or it has been settled; the id is minted by nobody else.
  have hcoherent : (b.accept job w).client.Coherent := hl.accept job w
  rcases under_or_gone hcoherent hu hplay hlater with
    ⟨hnone, huc, hwaiting⟩ | ⟨hsettled, hgone⟩
  · rw [hfirst, List.singleton_append] at hwaiting
    refine .inl ⟨hnone, huc, hwaiting, ?_⟩
    show c.client.giveUp r.id why = _
    rw [giveUp_eq_of_under (coherent_of_play hall) huc, hwaiting]
  · refine .inr ⟨hsettled, hgone, ?_⟩
    show c.client.giveUp r.id why = _
    rw [giveUp_of_unknown hgone]
    rfl

/-- The post of the first request fails, but before it is given up it is rejected by the host, and
asked for anew by another caller.  So the failure that is given up belongs to a request that is
over. -/
def askedAnew : List (BridgeMove Nat) :=
  [.post (Request.ofJob (.counter 1) (.name "a")) (some (.transport "x")),
    .respond (.rejected (.counter 1) "no"), .accept (.name "a") 1]

/-- Giving up leaves the newer request and its caller alone. -/
theorem failed_post_rolled_back_anew :
    ∃ c d : Bridge Nat, ((ofMinting .counter).accept (.name "a") 0).play askedAnew = some c ∧
      c.move (.giveUp (.counter 1) (.transport "x")) = some d ∧
      c.client.outstanding = [(.counter 2, .name "a")] ∧
      d.client.outstanding = c.client.outstanding ∧ d.client.pending = c.client.pending ∧
      d.client.answered = [(0, .error (.remote "no"))] := by
  have hplay : (((ofMinting .counter : Bridge Nat).accept (.name "a") 0).play askedAnew).any
      fun c => c.client.minted = 2 && (c.failed = [(.counter 1, .transport "x")] &&
        (c.client.outstanding = [(.counter 2, .name "a")] &&
          c.client.answered = [(0, .error (.remote "no"))])) := by
    decide +kernel
  obtain ⟨c, hc, hall⟩ := (Option.any_eq_true _ _).mp hplay
  simp only [Bool.and_eq_true, decide_eq_true_eq] at hall
  obtain ⟨hminted, hfailed, hunder, hanswered⟩ := hall
  -- The one id minted meanwhile is another one.
  have hnew : Minting.counter.Spares (.counter 1) 1 2 := by
    intro i hlo hhi
    obtain rfl : i = 1 := by omega
    decide
  have hstart : (ofMinting .counter : Bridge Nat).play [] = some (ofMinting .counter) := rfl
  have hopens : ((ofMinting .counter : Bridge Nat).accept (.name "a") 0).unposted =
      [] ++ [Request.ofJob (.counter 1) (.name "a")] := rfl
  obtain ⟨-, hlater⟩ :=
    failed_post_rolled_back hstart hopens List.not_mem_nil (.transport "x")
  obtain ⟨d, hd, hopen | ⟨-, -, hclient⟩⟩ :=
    hlater askedAnew c hc (hminted ▸ hnew) (hfailed ▸ List.mem_singleton_self _)
  -- The request was settled by the response, so it is not open.
  · exact absurd (hopen.1 _ (List.mem_cons_of_mem _ List.mem_cons_self)) (by decide)
  · refine ⟨c, d, hc, hd, hunder, by rw [hclient], by rw [hclient], ?_⟩
    rw [← hanswered, hclient]
    exact answered_warn _ _

end Bridge

end AvatarPool
