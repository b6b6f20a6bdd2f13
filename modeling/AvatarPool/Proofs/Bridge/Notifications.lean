import AvatarPool.Proofs.Bridge.Accounts

/-! # Notifications of a bridge client

Subscribers are told of every trouble with the bridge once: a post that fails, a frame that cannot be
read, a request refused after a disconnect, and a disconnect that finds requests under way.  Callers
are rejected under the lock and events are published without it, so that anything can come between;
still no rejection goes unnoticed, and no trouble is told of twice.

What a client should tell of is said by `troubles`, move by move and without a look at its effects.
What it does tell of is read off the effects.  `Tells` compares the two for one move: the events of
a move and what is still untold make up its troubles.  Failed posts are the only trouble that is
told of later, at the move that gives the post up; `untold` keeps them until then.

The second half of the module is about publishing.  Events are called for under the lock and
published after it is released, so that those of two steps may come out in another order; nothing is
lost by that, which `Complete` says. -/

namespace AvatarPool

variable {ω : Type}

/-- The event that an effect publishes. -/
def BridgeEffect.published? : BridgeEffect ω → Option Event
  | .published e => some e
  | _ => none

/-- Callers are rejected, and subscribers are told why. -/
def rejections (ws : List ω) (why : Failure) : List (BridgeEffect ω) :=
  (ws.map fun w => .answered w (.error why)) ++ [.published (.transportFailure why.message)]

namespace BridgeClient

variable {c : BridgeClient ω}

/-- The events called for, in order. -/
def events (c : BridgeClient ω) : List Event := c.effects.filterMap BridgeEffect.published?

/-- All who are told something are told the same. -/
theorem effects_takeResponse (c : BridgeClient ω) (r : Response) :
    ∃ (ws : List ω) (o : Outcome),
      (c.takeResponse r).effects = c.effects ++ ws.map fun w => .answered w o := by
  cases hid : c.outstanding.lookup r.id with
  | some key =>
      rw [takeResponse_of_lookup hid, settle_eq]
      exact ⟨_, _, rfl⟩
  | none =>
      rw [takeResponse_of_unknown ((lookup_eq_none_iff_notMem _ _).mp hid)]
      exact ⟨[], .error lost, (List.append_nil _).symm⟩

/-- Giving up tells everyone who waited, if anyone did, and in any case the subscribers. -/
theorem effects_giveUp (c : BridgeClient ω) (id : RequestId) (why : Failure) :
    ∃ ws : List ω, (c.giveUp id why).effects = c.effects ++ rejections ws why := by
  cases hid : c.outstanding.lookup id with
  | some key =>
      rw [giveUp_of_lookup hid, settle_eq]
      exact ⟨_, List.append_assoc _ _ _⟩
  | none =>
      rw [giveUp_of_unknown ((lookup_eq_none_iff_notMem _ _).mp hid)]
      exact ⟨[], rfl⟩

/-- By induction on the requests: all of their callers are told the same. -/
theorem effects_foldl_answerAll (l : List (RequestId × Fingerprint)) (o : Outcome) :
    ∃ ws : List ω, (l.foldl (fun c e => c.answerAll e.2 o) c).effects =
      c.effects ++ ws.map fun w => .answered w o := by
  induction l generalizing c with
  | nil => exact ⟨[], (List.append_nil _).symm⟩
  | cons e rest ih =>
      obtain ⟨ws, hws⟩ := ih (c := c.answerAll e.2 o)
      refine ⟨c.pending.waiting e.2 ++ ws, ?_⟩
      rw [List.foldl_cons, hws, List.map_append, ← List.append_assoc]
      rfl

/-- A disconnect tells nobody anything if nothing is under way. -/
theorem effects_loseConnection (c : BridgeClient ω) :
    c.outstanding = [] ∧ c.loseConnection.effects = c.effects ∨
      c.outstanding ≠ [] ∧ ∃ ws : List ω,
        c.loseConnection.effects = c.effects ++ rejections ws lost := by
  unfold loseConnection
  dsimp only
  by_cases hnone : c.outstanding = []
  · refine .inl ⟨hnone, ?_⟩
    rw [hnone]
    rfl
  · obtain ⟨ws, hws⟩ := effects_foldl_answerAll
      (c := { c with disconnected := true, outstanding := [] })
      c.outstanding (.error lost)
    refine .inr ⟨hnone, ws, ?_⟩
    rw [if_neg (mt List.isEmpty_iff.mp hnone), rejections, ← List.append_assoc]
    exact congrArg (· ++ _) hws

end BridgeClient

namespace Bridge

open BridgeClient

variable {b c d : Bridge ω} {minting : Minting} {τ : List (BridgeMove ω)} {m : BridgeMove ω}

/-- **The troubles of a move**, in the words that subscribers read: a request that is refused after a
disconnect, a post that fails, a frame that cannot be read, and a disconnect while requests are under
way. -/
def troubles (b : Bridge ω) : BridgeMove ω → List String
  | .accept job _ =>
    if b.client.cache.get? job.fingerprint = none ∧ b.client.disconnected then [lost.message] else []
  | .post _ failure => (failure.map Failure.message).toList
  | .frame text =>
    match Response.ofFrame text with
    | .ok _ => []
    | .error e => ["undecodable response frame: " ++ (Failure.protocol e.message).message]
  | .disconnect => if b.client.outstanding = [] then [] else [lost.message]
  | .giveUp _ _ | .respond _ => []

/-- What is to be told of posts that have failed and have not been given up yet. -/
def untold (b : Bridge ω) : List String := b.failed.map fun e => e.2.message

/-! ## One step -/

/-- **What a step tells**: subscribers hear of its trouble, or of a post that has failed before, and
nobody is rejected without an event unless by a response. -/
structure Tells (b : Bridge ω) (m : BridgeMove ω) (es : List (BridgeEffect ω)) (d : Bridge ω) :
    Prop where
  effects : d.client.effects = b.client.effects ++ es
  events : (es.filterMap BridgeEffect.published? ++ d.untold.map Event.transportFailure).Perm
    ((b.untold ++ b.troubles m).map Event.transportFailure)
  rejected : m.response? = none → ∀ w why, .answered w (.error why) ∈ es →
    es.filterMap BridgeEffect.published? = [.transportFailure why.message]

/-- Answers are no events. -/
theorem published?_answered (ws : List ω) (o : Outcome) :
    (ws.map fun w => BridgeEffect.answered w o).filterMap BridgeEffect.published? = [] := by
  rw [List.filterMap_map]
  exact List.filterMap_eq_nil_iff.mpr fun _ _ => rfl

theorem published?_rejections (ws : List ω) (why : Failure) :
    (rejections ws why).filterMap BridgeEffect.published? = [.transportFailure why.message] := by
  rw [rejections, List.filterMap_append, published?_answered]
  rfl

/-- Everyone is rejected with the failure that the event tells of. -/
theorem eq_of_mem_rejections {ws : List ω} {why why' : Failure} {w : ω}
    (h : .answered w (.error why') ∈ rejections ws why) : why' = why := by
  rcases List.mem_append.mp h with hmem | hmem
  · obtain ⟨v, -, heq⟩ := List.mem_map.mp hmem
    injection heq with _ heq
    exact (Except.error.inj heq).symm
  · cases List.mem_singleton.mp hmem

/-- Nobody is rejected. -/
theorem Tells.silent {es : List (BridgeEffect ω)}
    (he : d.client.effects = b.client.effects ++ es)
    (hp : es.filterMap BridgeEffect.published? ++ d.untold.map Event.transportFailure =
      (b.untold ++ b.troubles m).map Event.transportFailure)
    (hr : m.response? = none → ∀ w why, .answered w (.error why) ∉ es) : Tells b m es d where
  effects := he
  events := .of_eq hp
  rejected := fun hm w why hw => absurd hw (hr hm w why)

/-- All who waited are rejected alike, and the event says why. -/
theorem Tells.loud {ws : List ω} {why : Failure}
    (he : d.client.effects = b.client.effects ++ rejections ws why)
    (hp : (why.message :: d.untold).Perm (b.untold ++ b.troubles m)) :
    Tells b m (rejections ws why) d where
  effects := he
  events := by
    rw [published?_rejections]
    exact hp.map _
  rejected := by
    intro _ w why' hw
    rw [published?_rejections, eq_of_mem_rejections hw]

/-- By the four ways of being admitted, of which only the refusal is a trouble. -/
theorem tells_accept (b : Bridge ω) (job : Job) (w : ω) :
    ∃ es, Tells b (.accept job w) es (b.accept job w) := by
  have hadmits := b.client.admits job w
  have huntold : (b.accept job w).untold = b.untold := rfl
  have heffects : ∀ {es : List (BridgeEffect ω)},
      (b.client.accept job w).effects = b.client.effects ++ es →
        (b.accept job w).client.effects = b.client.effects ++ es := id
  generalize b.client.accept job w = c at hadmits heffects
  cases hadmits with
  | hit hc =>
      refine ⟨_, .silent (heffects rfl) ?_ ?_⟩
      · simp [huntold, troubles, hc, BridgeEffect.published?]
      · intro _ v why hmem
        cases List.mem_singleton.mp hmem
  -- A caller who comes after a disconnect is refused, and the event says so too.
  | refused hc hd =>
      refine ⟨[.published (.transportFailure lost.message), .answered w (.error lost)],
        heffects (List.append_assoc _ _ _), ?_, ?_⟩
      · rw [huntold, troubles, if_pos ⟨hc, hd⟩]
        exact (List.perm_append_singleton _ _).symm.map _
      · intro _ v why hmem
        have hwhy : BridgeEffect.answered v (.error why) = .answered w (.error lost) := by
          simpa using hmem
        injection hwhy with _ hwhy
        rw [Except.error.inj hwhy]
        rfl
  | joined hc hd hk =>
      refine ⟨[], .silent (heffects (List.append_nil _).symm) ?_ fun _ _ _ => List.not_mem_nil⟩
      rw [huntold, troubles, if_neg fun h => hd h.2, List.append_nil]
      rfl
  | opened hc hd hk =>
      refine ⟨_, .silent (heffects rfl) ?_ ?_⟩
      · rw [huntold, troubles, if_neg fun h => hd h.2, List.append_nil]
        rfl
      · intro _ v why hmem
        cases List.mem_singleton.mp hmem

/-- **Every move tells of its trouble**, or of the post that it gives up.  A response is told to
callers only; all other moves that reject somebody also publish the reason. -/
theorem tells_of_move (hmove : b.move m = some d) : ∃ es, Tells b m es d := by
  -- A response, bare or in a frame, rejects nobody in silence who should have been told by an
  -- event.
  have hrespond : ∀ (m : BridgeMove ω) (r : Response), m.response? ≠ none → b.troubles m = [] →
      ∃ es, Tells b m es { b with client := b.client.takeResponse r } := by
    intro m r hm hquiet
    obtain ⟨ws, o, heffects⟩ := effects_takeResponse b.client r
    refine ⟨_, .silent heffects ?_ fun hnone => absurd hnone hm⟩
    rw [published?_answered, hquiet, List.append_nil]
    rfl
  cases leads_of_move hmove with
  | accept job w => exact tells_accept b job w
  -- A post that fails is told of later.
  | post failure =>
      refine ⟨[], .silent (List.append_nil _).symm ?_ fun _ _ _ => List.not_mem_nil⟩
      show (untold _).map _ = _
      cases failure <;> simp [untold, troubles]
  -- This is when it is told of.
  | @giveUp id why hfailed =>
      obtain ⟨ws, heffects⟩ := effects_giveUp b.client id why
      refine ⟨_, .loud heffects ?_⟩
      rw [troubles, List.append_nil]
      exact ((List.perm_cons_erase hfailed).map fun e => e.2.message).symm
  | respond r => exact hrespond _ r nofun rfl
  | @read text r hr =>
      have hm : (BridgeMove.frame text : BridgeMove ω).response? = some r := by
        rw [BridgeMove.response?, hr]
        rfl
      have hquiet : b.troubles (.frame text) = [] := by
        rw [troubles, hr]
      exact hrespond _ r (hm ▸ nofun) hquiet
  | misread hr =>
      refine ⟨[.published _], rfl, ?_, ?_⟩
      · rw [troubles, hr]
        exact (List.perm_append_singleton _ _).symm.map _
      · intro _ w why hmem
        cases List.mem_singleton.mp hmem
  -- A disconnect is a trouble if anything is under way.
  | disconnect =>
      rcases effects_loseConnection b.client with ⟨hnone, heffects⟩ | ⟨hsome, ws, heffects⟩
      · refine ⟨[], .silent (heffects.trans (List.append_nil _).symm) ?_ fun _ _ _ =>
          List.not_mem_nil⟩
        rw [troubles, if_pos hnone, List.append_nil]
        rfl
      · refine ⟨_, .loud heffects ?_⟩
        rw [troubles, if_neg hsome]
        exact (List.perm_append_singleton _ _).symm

namespace Tells

variable {es : List (BridgeEffect ω)}

theorem client_events (h : Tells b m es d) :
    d.client.events = b.client.events ++ es.filterMap BridgeEffect.published? := by
  rw [BridgeClient.events, h.effects, List.filterMap_append]
  rfl

theorem client_answered (h : Tells b m es d) :
    d.client.answered = b.client.answered ++ es.filterMap BridgeEffect.answer? := by
  rw [answered, h.effects, List.filterMap_append]
  rfl

end Tells

/-! ## Runs -/

/-- **The events of a run** are its troubles, but for the failed posts that are not given up yet.
By induction on the run: what is untold before a move is told by it or still untold after it. -/
theorem events_of_play (h : (ofMinting minting).play τ = some b) :
    (b.client.events ++ b.untold.map Event.transportFailure).Perm
      (((ofMinting minting).along troubles τ).map Event.transportFailure) := by
  refine run_induction (P := fun τ b => (b.client.events ++ b.untold.map Event.transportFailure).Perm
    (((ofMinting minting).along troubles τ).map Event.transportFailure)) (.refl _) ?_ h
  intro τ m c d hplay ih hmove
  obtain ⟨es, htells⟩ := tells_of_move hmove
  rw [along_concat _ hplay, htells.client_events, List.map_append, List.append_assoc]
  calc (c.client.events ++ (es.filterMap BridgeEffect.published? ++
          d.untold.map Event.transportFailure)).Perm
        (c.client.events ++ (c.untold ++ c.troubles m).map Event.transportFailure) :=
        htells.events.append_left _
    _ |>.Perm (((ofMinting minting).along troubles τ).map Event.transportFailure ++
          (c.troubles m).map Event.transportFailure) := by
        rw [List.map_append, ← List.append_assoc]
        exact ih.append_right _

end Bridge

/-! ## Publishing -/

/-- A bridge client whose events are published one by one: those of a step are due when the lock is
released, and anything may come before they are published. -/
structure PublishingBridge (ω : Type) where
  bridge : Bridge ω
  due : List Event := []
  published : List Event := []

/-- A move of the bridge, or the publication of an event that is due. -/
inductive PublishingMove (ω : Type) where
  | step (m : BridgeMove ω)
  | publish (e : Event)
  deriving DecidableEq, Repr

/-- The move of the bridge, if it is one. -/
def PublishingMove.step? : PublishingMove ω → Option (BridgeMove ω)
  | .step m => some m
  | .publish _ => none

namespace PublishingBridge

open Bridge BridgeClient

variable {p q : PublishingBridge ω} {minting : Minting} {σ : List (PublishingMove ω)}

/-- A fresh bridge, with nothing to publish. -/
def ofMinting (minting : Minting) : PublishingBridge ω := { bridge := .ofMinting minting }

/-- **One move**, or none where it cannot be made: only events that are due are published, each
once. -/
def move (p : PublishingBridge ω) : PublishingMove ω → Option (PublishingBridge ω)
  | .step m => (p.bridge.move m).map fun b => { p with
      bridge := b
      due := p.due ++
        (b.client.effects.drop p.bridge.client.effects.length).filterMap BridgeEffect.published? }
  | .publish e =>
    if e ∈ p.due then some { p with due := p.due.erase e, published := p.published ++ [e] } else none

/-- **A run**: moves one after the other. -/
def play (p : PublishingBridge ω) : List (PublishingMove ω) → Option (PublishingBridge ω)
  | [] => some p
  | x :: σ => (p.move x).bind fun q => q.play σ

/-- Every event called for is published or due. -/
def Complete (p : PublishingBridge ω) : Prop :=
  (p.published ++ p.due).Perm p.bridge.client.events

/-- The events of a move become due, and one that is published is due no longer. -/
theorem Complete.move (h : p.Complete) {x : PublishingMove ω} (hmove : p.move x = some q) :
    q.Complete := by
  cases x with
  | step m =>
      obtain ⟨d, hd, rfl⟩ := Option.map_eq_some_iff.mp hmove
      obtain ⟨es, htells⟩ := tells_of_move hd
      unfold Complete
      rw [htells.client_events, htells.effects, List.drop_left, ← List.append_assoc]
      exact h.append_right _
  | publish e =>
      obtain ⟨hdue, rfl⟩ := Option.ite_some_none_eq_some.mp hmove
      unfold Complete
      rw [List.append_assoc]
      exact ((List.perm_cons_erase hdue).symm.append_left _).trans h

/-- **A run that publishes** is a run of the bridge, and every event called for stays in the books.
Publications in between do not change the run of the bridge. -/
theorem bridge_of_play (h : p.play σ = some q) (hp : p.Complete) :
    p.bridge.play (σ.filterMap PublishingMove.step?) = some q.bridge ∧ q.Complete := by
  induction σ generalizing p with
  | nil =>
      cases h
      exact ⟨rfl, hp⟩
  | cons x σ ih =>
      obtain ⟨p₁, hmove, hrest⟩ := Option.bind_eq_some_iff.mp h
      obtain ⟨hplay, hq⟩ := ih hrest (hp.move hmove)
      refine ⟨?_, hq⟩
      cases x with
      | step m =>
          obtain ⟨d, hd, rfl⟩ := Option.map_eq_some_iff.mp hmove
          show (p.bridge.move m).bind _ = _
          rw [hd]
          exact hplay
      | publish e =>
          obtain ⟨-, rfl⟩ := Option.ite_some_none_eq_some.mp hmove
          exact hplay

/-- **Notifications are exact.**  In whatever order the steps of a bridge client and the publications
of their events come, the events published and due are those called for, and with the failed posts
that are not given up yet they are the troubles of the run: one for each post that has failed, each
frame that could not be read, each request refused after a disconnect, and each disconnect that has
found requests under way.  And whoever is rejected by a step that brings no response, hence for a
failed post or a disconnect, is rejected with the failure of which the event of that very step
tells. -/
theorem notifications_exact {p : PublishingBridge ω} (h : (ofMinting minting).play σ = some p) :
    (Bridge.ofMinting minting).play (σ.filterMap PublishingMove.step?) = some p.bridge ∧
    (p.published ++ p.due).Perm p.bridge.client.events ∧
    (p.published ++ p.due ++ p.bridge.untold.map Event.transportFailure).Perm
      (((Bridge.ofMinting minting).along troubles (σ.filterMap PublishingMove.step?)).map
        Event.transportFailure) ∧
    ∀ τ₁ m τ₂, σ.filterMap PublishingMove.step? = τ₁ ++ m :: τ₂ →
      ∃ b d told, (Bridge.ofMinting minting).play τ₁ = some b ∧ b.move m = some d ∧
        (b.client.disconnected ↔ .disconnect ∈ τ₁) ∧
        d.client.answered = b.client.answered ++ told ∧
        (m.response? = none → ∀ w why, (w, .error why) ∈ told →
          d.client.events = b.client.events ++ [.transportFailure why.message]) := by
  -- The run without its publications is one of the bridge, to which the laws above apply.
  obtain ⟨hplay, hcomplete⟩ := bridge_of_play h (.refl _)
  refine ⟨hplay, hcomplete, (hcomplete.append_right _).trans (events_of_play hplay), ?_⟩
  intro τ₁ m τ₂ hsplit
  rw [hsplit, play_append] at hplay
  obtain ⟨b, hb, hrest⟩ := Option.bind_eq_some_iff.mp hplay
  obtain ⟨d, hd, -⟩ := Option.bind_eq_some_iff.mp hrest
  obtain ⟨es, htells⟩ := tells_of_move hd
  refine ⟨b, d, _, hb, hd, disconnected_iff_mem hb, htells.client_answered, ?_⟩
  -- Whoever is rejected by this move is so with the reason of its event.
  intro hm w why htold
  obtain ⟨e, he, hanswer⟩ := List.mem_filterMap.mp htold
  cases e with
  | answered v o =>
      cases hanswer
      rw [htells.client_events, htells.rejected hm w why he]
  | posted r => cases hanswer
  | published e => cases hanswer

/-- A post fails, and before it is given up the connection is lost; then a request is refused, a frame
cannot be read, and the connection is lost again.  The events come in another order. -/
def lateEvents : List (PublishingMove Nat) :=
  [.step (.accept (.name "a") 0),
    .step (.post (Request.ofJob (.counter 1) (.name "a")) (some (.transport "x"))),
    .step .disconnect, .step (.giveUp (.counter 1) (.transport "x")),
    .publish (.transportFailure (Failure.transport "x").message), .step (.accept (.name "b") 1),
    .publish (.transportFailure lost.message), .step (.frame ""),
    .publish (.transportFailure lost.message), .step .disconnect]

/-- The second loss of the connection finds nothing under way and is not told of. -/
theorem notifications_exact_late :
    ∃ p : PublishingBridge Nat, (ofMinting .counter).play lateEvents = some p ∧
      p.bridge.client.answered = [(0, .error lost), (1, .error lost)] ∧
      p.published = [.transportFailure (Failure.transport "x").message,
        .transportFailure lost.message, .transportFailure lost.message] ∧
      p.due.length = 1 ∧ p.published ++ p.due ≠ p.bridge.client.events ∧
      (p.published ++ p.due).Perm p.bridge.client.events := by
  have hplay : ((ofMinting .counter : PublishingBridge Nat).play lateEvents).any fun p =>
      p.bridge.client.answered = [(0, .error lost), (1, .error lost)] &&
        (p.published = [.transportFailure (Failure.transport "x").message,
          .transportFailure lost.message, .transportFailure lost.message] &&
          (p.due.length = 1 && p.published ++ p.due ≠ p.bridge.client.events)) := by
    decide +kernel
  obtain ⟨p, hp, hall⟩ := (Option.any_eq_true _ _).mp hplay
  simp only [Bool.and_eq_true, decide_eq_true_eq] at hall
  obtain ⟨hanswered, hpublished, hdue, horder⟩ := hall
  obtain ⟨-, hperm, -⟩ := notifications_exact hp
  exact ⟨p, hp, hanswered, hpublished, hdue, horder, hperm⟩

end PublishingBridge

end AvatarPool
