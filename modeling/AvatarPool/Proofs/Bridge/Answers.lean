import AvatarPool.Proofs.Bridge.Ledger

/-! # Who is told what over a bridge

A step of a bridge client tells one caller at the door, lets one in, or closes entries and tells all
who waited there.  So every caller who came waits or has been told, never both and never twice, and
an answer stays once it is given.

This is the law of conservation for bridge clients.  `Serves` is what any step does to callers, and
it composes; so each step of the model is put together from the four ways of dealing with callers:
nobody, one at the door, one let in, all of one key. -/

namespace AvatarPool

variable {ω : Type}

/-- The answer that an effect gives. -/
def BridgeEffect.answer? : BridgeEffect ω → Option (ω × Outcome)
  | .answered caller outcome => some (caller, outcome)
  | _ => none

/-- The caller whom a move brings. -/
def BridgeMove.caller? : BridgeMove ω → Option ω
  | .accept _ caller => some caller
  | _ => none

namespace BridgeClient

variable {c c' c'' : BridgeClient ω} {vs ws : List ω}

/-- The answers given, in order. -/
def answered (c : BridgeClient ω) : List (ω × Outcome) := c.effects.filterMap BridgeEffect.answer?

theorem answered_note (c : BridgeClient ω) (es : List (BridgeEffect ω)) :
    (c.note es).answered = c.answered ++ es.filterMap BridgeEffect.answer? :=
  List.filterMap_append

theorem answered_warn (c : BridgeClient ω) (reason : String) :
    (c.warn reason).answered = c.answered :=
  (answered_note _ _).trans (List.append_nil _)

/-- Telling all of one key gives an answer to each, in the order in which they came. -/
theorem answered_answerAll (c : BridgeClient ω) (k : Fingerprint) (o : Outcome) :
    (c.answerAll k o).answered = c.answered ++ (c.pending.waiting k).map fun w => (w, o) := by
  have hnote : (c.answerAll k o).answered =
      c.answered ++ ((c.pending.waiting k).map fun w => BridgeEffect.answered w o).filterMap
        BridgeEffect.answer? := answered_note _ _
  rw [hnote, List.filterMap_map]
  exact congrArg _ (congrFun List.filterMap_eq_map _)

/-- Those who wait and those who have been told. -/
def served (c : BridgeClient ω) : List ω := c.pending.callers ++ c.answered.map Prod.fst

/-- **What a step does to callers**: those of `ws` come in, and nobody is lost or told twice. -/
structure Serves (c : BridgeClient ω) (ws : List ω) (c' : BridgeClient ω) : Prop where
  wellFormed : c'.pending.WellFormed
  told : c.answered <+: c'.answered
  perm : c'.served.Perm (ws ++ c.served)

namespace Serves

/-- One step after the other. -/
theorem trans (h : Serves c ws c') (h' : Serves c' vs c'') : Serves c (vs ++ ws) c'' where
  wellFormed := h'.wellFormed
  told := h.told.trans h'.told
  perm := by
    rw [List.append_assoc]
    exact h'.perm.trans (h.perm.append_left _)

/-- Callers are not concerned. -/
theorem same (h : c.pending.WellFormed) (hp : c'.pending = c.pending)
    (ha : c'.answered = c.answered) : Serves c [] c' where
  wellFormed := hp ▸ h
  told := ha ▸ List.prefix_rfl
  perm := by
    unfold served
    rw [hp, ha]
    exact .refl _

/-- A caller is told at once. -/
theorem atDoor (h : c.pending.WellFormed) {w : ω} {o : Outcome} (hp : c'.pending = c.pending)
    (ha : c'.answered = c.answered ++ [(w, o)]) : Serves c [w] c' where
  wellFormed := hp ▸ h
  told := ha ▸ List.prefix_append _ _
  perm := by
    unfold served
    rw [hp, ha, List.map_append, ← List.append_assoc]
    exact List.perm_append_singleton w _

/-- A caller is let in. -/
theorem entered (h : c.pending.WellFormed) {k : Fingerprint} {w : ω}
    (hp : c'.pending = (c.pending.enter k w).1) (ha : c'.answered = c.answered) :
    Serves c [w] c' where
  wellFormed := hp ▸ h.enter _ _
  told := ha ▸ List.prefix_rfl
  perm := by
    unfold served
    rw [hp, ha]
    exact (Pending.callers_enter_perm h.nodup k w).append_right _

/-- All who wait under one key are told. -/
theorem answerAll (h : c.pending.WellFormed) (k : Fingerprint) (o : Outcome) :
    Serves c [] (c.answerAll k o) where
  wellFormed := h.close k
  told := answered_answerAll c k o ▸ List.prefix_append _ _
  perm := by
    have hws : (c.pending.waiting k).map (Prod.fst ∘ fun w => (w, o)) = c.pending.waiting k :=
      List.map_id _
    unfold served
    rw [answered_answerAll, List.map_append, List.map_map, hws]
    -- Who waited under the key moves from the table to the end of the answers.
    calc ((c.pending.close k).1.callers ++ (c.answered.map Prod.fst ++ c.pending.waiting k)).Perm
          (c.pending.waiting k ++ (c.pending.close k).1.callers ++ c.answered.map Prod.fst) := by
          rw [← List.append_assoc, List.append_assoc (c.pending.waiting k)]
          exact List.perm_append_comm
      _ |>.Perm (c.pending.callers ++ c.answered.map Prod.fst) :=
          (Pending.callers_close_perm h.nodup k).append_right _

theorem warn (h : Serves c ws c') (reason : String) : Serves c ws (c'.warn reason) := by
  have hwarn : Serves c' [] (c'.warn reason) := same h.wellFormed rfl (answered_warn _ _)
  exact h.trans hwarn

end Serves

/-! ## Every step -/

/-- The caller of an admission is told at once or waits. -/
theorem serves_accept (h : c.pending.WellFormed) (job : Job) (w : ω) :
    Serves c [w] (c.accept job w) := by
  have hadmits := c.admits job w
  generalize c.accept job w = d at hadmits ⊢
  cases hadmits with
  | hit hc => exact .atDoor h rfl (answered_note _ _)
  | refused hc hd =>
      exact .atDoor h rfl ((answered_note _ _).trans (congrArg (· ++ _) (answered_warn _ _)))
  | joined hc hd hk => exact .entered h rfl rfl
  | opened hc hd hk => exact .entered h rfl ((answered_note _ _).trans (List.append_nil _))

/-- Those who wait for the request that is given up are told; if it is under way no longer, nobody
is. -/
theorem serves_giveUp (h : c.pending.WellFormed) (id : RequestId) (why : Failure) :
    Serves c [] (c.giveUp id why) := by
  unfold giveUp
  dsimp only
  split
  · have hgone : Serves c [] (c.withdraw id) := .same h rfl rfl
    exact (hgone.trans (.answerAll hgone.wellFormed _ _)).warn _
  · exact (Serves.same h rfl rfl).warn _

theorem keep_pending (c : BridgeClient ω) (key : Fingerprint) (o : Outcome) :
    (c.keep key o).pending = c.pending := by
  cases o <;> rfl

theorem answered_keep (c : BridgeClient ω) (key : Fingerprint) (o : Outcome) :
    (c.keep key o).answered = c.answered := by
  cases o <;> rfl

/-- A response tells those who wait for its request, if that is under way. -/
theorem serves_takeResponse (h : c.pending.WellFormed) (r : Response) :
    Serves c [] (c.takeResponse r) := by
  unfold takeResponse
  split
  · exact .same h rfl rfl
  · rename_i key hl
    have hkept : Serves c [] ((c.withdraw r.id).keep key (outcome key r)) :=
      .same h (keep_pending _ _ _) (answered_keep _ _ _)
    exact hkept.trans (.answerAll hkept.wellFormed _ _)

/-- By induction on the requests, whose entries are closed one after the other. -/
theorem serves_foldl_answerAll (h : c.pending.WellFormed) (l : List (RequestId × Fingerprint))
    (o : Outcome) : Serves c [] (l.foldl (fun c e => c.answerAll e.2 o) c) := by
  induction l generalizing c with
  | nil => exact .same h rfl rfl
  | cons e rest ih =>
      have hclosed := Serves.answerAll h e.2 o
      exact hclosed.trans (ih hclosed.wellFormed)

/-- All requests under way are failed, and an event may tell of it. -/
theorem serves_loseConnection (h : c.pending.WellFormed) : Serves c [] c.loseConnection := by
  have hfailed : Serves c [] (c.outstanding.foldl (fun (c : BridgeClient ω) e =>
      c.answerAll e.2 (.error lost)) { c with disconnected := true, outstanding := [] }) := by
    have hgone : Serves c [] { c with disconnected := true, outstanding := [] } :=
      .same h rfl rfl
    exact hgone.trans (serves_foldl_answerAll hgone.wellFormed _ _)
  unfold loseConnection
  dsimp only
  split
  · exact hfailed
  · exact hfailed.warn _

end BridgeClient

namespace Bridge

variable {b b' : Bridge ω} {minting : Minting} {τ : List (BridgeMove ω)}

open BridgeClient

/-- A move brings at most one caller. -/
theorem serves_of_move {m : BridgeMove ω} (h : b.client.pending.WellFormed)
    (hmove : b.move m = some b') : Serves b.client m.caller?.toList b'.client := by
  cases leads_of_move hmove with
  | accept job w => exact serves_accept h job w
  | post => exact .same h rfl rfl
  | giveUp => exact serves_giveUp h _ _
  | respond | read => exact serves_takeResponse h _
  | misread => exact (Serves.same h rfl rfl).warn _
  | disconnect => exact serves_loseConnection h

/-- The callers of a run, in the order they came. -/
def callers (τ : List (BridgeMove ω)) : List ω := τ.filterMap BridgeMove.caller?

/-- **Conservation.**  Those who came wait or have been told, each exactly once, and an answer given
stays. -/
theorem serves_of_play (h : b.client.pending.WellFormed) (hplay : b.play τ = some b') :
    ∃ ws, ws.Perm (callers τ) ∧ Serves b.client ws b'.client := by
  refine run_induction (P := fun τ c => ∃ ws, ws.Perm (callers τ) ∧ Serves b.client ws c.client)
    ⟨[], .refl _, .same h rfl rfl⟩ ?_ hplay
  rintro τ m c d - ⟨ws, hws, hserves⟩ hmove
  refine ⟨m.caller?.toList ++ ws, ?_, hserves.trans (serves_of_move hserves.wellFormed hmove)⟩
  have hlast : callers (τ ++ [m]) = callers τ ++ m.caller?.toList := by
    unfold callers
    rw [List.filterMap_append]
    cases h : m.caller? <;> simp [h]
  rw [hlast]
  exact List.perm_append_comm.trans (hws.append_right _)

end Bridge

end AvatarPool
