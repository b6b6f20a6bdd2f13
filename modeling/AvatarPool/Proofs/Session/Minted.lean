import AvatarPool.Proofs.Session.Serving

/-! # Bridges stay, and mint their ids one by one

Whoever takes a turn leaves every bridge of a session in its place; its client keeps its way of
minting ids and takes none of them back.  So ids that are pairwise different at the end of a run have
been so all along.

`Elder` relates a session to a later one in this way.  It is reflexive and transitive, so for
everything that a session does it is proved from the elementary changes: one that leaves the list of
bridges alone (`of_links`), one that touches a bridge without its client (`modifyLink_same`), one in
which the client takes a step (`setClient`), and one that adds a bridge at the end (`connectWith`).
-/

namespace AvatarPool

theorem BridgeClient.Grows.trans {ω : Type} {c c' c'' : BridgeClient ω} (h : Grows c c')
    (h' : Grows c' c'') : Grows c c'' :=
  ⟨h'.minting.trans h.minting, Nat.le_trans h.minted h'.minted⟩

/-- Whether the first `n` ids are pairwise different can be decided, by comparing every pair. -/
instance (m : Minting) (n : Nat) : Decidable (m.Fresh n) :=
  match m with
  | .counter => inferInstanceAs (Decidable (n ≤ UInt64.size))
  | .texts stream => inferInstanceAs (Decidable (∀ i < n, ∀ j < n, stream i = stream j → i = j))

namespace Session

/-- **Every bridge of `s` is still there in `t`**, and its client has minted no fewer ids. -/
def Elder (s t : Session) : Prop :=
  ∀ (b : Nat) k, s.links[b]? = some k → ∃ k', t.links[b]? = some k' ∧ k.client.Grows k'.client

variable {s t u : Session}

/-- The ids that the bridges of a session have minted are pairwise different, bridge by bridge. -/
def Unrepeated (s : Session) : Prop :=
  ∀ k ∈ s.links, k.client.minting.Fresh k.client.minted

instance (s : Session) : Decidable s.Unrepeated :=
  inferInstanceAs (Decidable (∀ k ∈ s.links, k.client.minting.Fresh k.client.minted))

namespace Elder

theorem of_links (h : t.links = s.links) : Elder s t :=
  fun _ k hk => ⟨k, h ▸ hk, rfl, Nat.le_refl _⟩

theorem of_body (h : t.body = s.body) : Elder s t := of_links (congrArg Session.links h :)

theorem refl (s : Session) : Elder s s := of_links rfl

/-- What lasts from `s` to `t`, and from `t` to `u`, lasts from `s` to `u`. -/
theorem trans (h : Elder s t) (h' : Elder t u) : Elder s u := by
  intro b k hk
  obtain ⟨k', hk', hgrows⟩ := h b k hk
  obtain ⟨k'', hk'', hgrows'⟩ := h' b k' hk'
  exact ⟨k'', hk'', hgrows.trans hgrows'⟩

/-- What has been minted without repetition was so before. -/
theorem unrepeated (h : Elder s t) (ht : t.Unrepeated) : s.Unrepeated := by
  intro k hk
  obtain ⟨b, hb⟩ := List.getElem?_of_mem hk
  obtain ⟨k', hk', hgrows⟩ := h b k hb
  exact (hgrows.minting ▸ ht k' (List.mem_of_getElem? hk')).mono hgrows.minted

/-! ## Changes of one bridge -/

/-- One bridge is changed, and its client grows. -/
theorem modifyLink (s : Session) (b : Nat) {f : Link → Link}
    (hf : ∀ k, s.links[b]? = some k → k.client.Grows (f k).client) :
    Elder s (s.modifyLink b f) := by
  intro i k hk
  show ∃ k', (s.links.modify b f)[i]? = some k' ∧ _
  rw [List.getElem?_modify, hk]
  refine ⟨_, rfl, ?_⟩
  -- The bridge at place `i` is the changed one or an old one.
  show k.client.Grows (if b = i then f k else k).client
  split
  · rename_i hi
    exact hf k (hi ▸ hk)
  · exact ⟨rfl, Nat.le_refl _⟩

/-- A bridge is changed apart from its client. -/
theorem modifyLink_same (s : Session) (b : Nat) {f : Link → Link}
    (hf : ∀ k, (f k).client = k.client) : Elder s (s.modifyLink b f) :=
  modifyLink s b fun k _ => (hf k).symm ▸ ⟨rfl, Nat.le_refl _⟩

theorem schedule (s : Session) (t : Turn) : Elder s (s.schedule t) := of_body (body_schedule s t)

theorem wake (s : Session) (t : Turn) : Elder s (s.wake t) := of_body (body_wake s t)

/-- Outputs of the service reach handlers, calls and lines hosts, and no bridge. -/
theorem setService (s : Session) (v : Service Caller) : Elder s (s.setService v) :=
  of_links (congrArg Session.links (delivered_setService s v).unheard :)

/-- What a client gives out is carried out: an answer goes to a call, an event to the subscribers of
the bridge, and a request waits to be posted. -/
theorem carryOutBridge (b : Nat) (s : Session) (x : BridgeEffect Nat) :
    Elder s (carryOutBridge b s x) := by
  cases x with
  | answered n o => exact of_links (congrArg Session.links (delivered_answer s (.call n) o).unheard :)
  | published event => exact modifyLink_same s b fun _ => rfl
  | posted r => exact refl s

/-- **The client of a bridge takes a step.** -/
theorem setClient {b : Nat} {c : BridgeClient Nat}
    (hc : ∀ k, s.links[b]? = some k → k.client.Grows c) : Elder s (s.setClient b c) := by
  -- The effects of the step are carried out one by one.
  have hfold : ∀ (es : List (BridgeEffect Nat)) (s : Session),
      Elder s (es.foldl (Session.carryOutBridge b) s) := by
    intro es
    induction es with
    | nil => exact refl
    | cons x rest ih => exact fun s => (carryOutBridge b s x).trans (ih _)
  -- First the client is put in its place, without the effects that are about to be carried out.
  have hset := modifyLink s b (f := fun k => { k with client := { c with effects := [] } })
    fun k hk => ⟨(hc k hk).minting, (hc k hk).minted⟩
  exact hset.trans (hfold c.effects _)

/-- A call asks through a bridge, whose client may mint an id for it. -/
theorem acceptThrough (s : Session) (b : Nat) (job : Job) (n : Nat) :
    Elder s (s.acceptThrough b job n).1 := by
  unfold Session.acceptThrough
  split
  · exact refl s
  · rename_i link hlink
    refine setClient fun k hk => ?_
    obtain rfl := Option.some.inj (hlink.symm.trans hk)
    exact BridgeClient.grows_accept _ job n

/-- A response is taken by the client, which mints nothing. -/
theorem takeResponse (b : Nat) (s : Session) (frame : String) :
    Elder s (takeResponse b s frame) := by
  unfold Session.takeResponse
  split
  · exact refl s
  · rename_i link hlink
    refine setClient fun k hk => ?_
    obtain rfl := Option.some.inj (hlink.symm.trans hk)
    exact (BridgeClient.kept_takeFrame _ frame).grows

/-- A request is posted to the host of the bridge; where that fails, the client gives the request
up. -/
theorem post (b : Nat) (s : Session) (r : Request) : Elder s (post b s r) := by
  unfold Session.post
  split
  · exact refl s
  · rename_i link hlink
    unfold pushFrame
    -- The request is put into an inbox, or given up.
    have hgiven : Elder s (s.setClient b
        (link.client.giveUp r.id (.transport "bridge host channel closed"))) := by
      refine setClient fun k hk => ?_
      obtain rfl := Option.some.inj (hlink.symm.trans hk)
      exact (BridgeClient.kept_giveUp _ _ _).grows
    -- The four ways of pushing a frame: the host runs or not, and is there or not.
    split <;> rename_i hpushed <;> split at hpushed
    · split at hpushed <;> cases hpushed
      exact (of_links rfl : Elder s (s.modifyHost link.host _)).trans (wake _ _)
    · cases hpushed
    · split at hpushed <;> cases hpushed
      exact hgiven
    · cases hpushed
      exact hgiven

/-- A new bridge is put behind those there are. -/
theorem connectWith (s : Session) (m : Minting) : Elder s (s.connectWith m) := by
  let link : Link := { client := { minting := m }, host := s.hosts.length }
  let joined : Session := { s with
    links := s.links ++ [link]
    hosts := s.hosts ++ [{ outlet := .bridge s.links.length }] }
  have hadded : Elder s joined.share :=
    fun b k hk => ⟨k, getElem?_snoc_eq_some_iff.mpr (.inl hk), rfl, Nat.le_refl _⟩
  exact (hadded.trans (schedule _ _)).trans (schedule _ _)

/-! ## Turns -/

/-- Counting the handlers of a host changes at most a number beside the client. -/
theorem countInFlight (s : Session) (outlet : Outlet) (f : Nat → Nat) :
    Elder s (s.countInFlight outlet f) := by
  cases outlet with
  | view | lines => exact of_links rfl
  | bridge b => exact modifyLink_same s b fun _ => rfl

/-- A response is sent, for a bridge into its queue of responses. -/
theorem send (s : Session) (outlet : Outlet) (r : Response) : Elder s (s.send outlet r) := by
  cases outlet with
  | view => exact of_links rfl
  | lines i =>
      unfold Session.send
      dsimp only
      split
      · split
        · exact (of_links rfl : Elder s (s.modifyLines i _)).trans (wake _ _)
        · exact refl s
      · exact refl s
  | bridge b =>
      have hpushed : Elder s
          (s.modifyLink b fun k => { k with responses := k.responses ++ [r.frame] }) :=
        modifyLink_same s b fun _ => rfl
      exact hpushed.trans (wake _ _)

/-- A host without handlers lets its bridge know, and minting is not concerned. -/
theorem hushLink (s : Session) (b : Nat) : Elder s (s.hushLink b) := of_body (body_hushLink s b)

theorem hushWriter (s : Session) (i : Nat) : Elder s (s.hushWriter i) := by
  rcases s.hushWriter_eq i with heq | heq <;> rw [heq]
  · exact wake s _
  · exact refl s

theorem hushLines (s : Session) (i : Nat) : Elder s (s.hushLines i) := by
  rcases s.hushLines_eq i with heq | heq <;> rw [heq]
  · exact wake s _
  · exact refl s

/-- A handler ends: it gives its handle back and is no longer counted. -/
theorem endHandler (s : Session) (outlet : Outlet) : Elder s (s.endHandler outlet) := by
  have hcounted := (setService s s.service.unshare).trans (countInFlight _ outlet (· - 1))
  unfold Session.endHandler
  dsimp only
  cases outlet with
  | view => exact hcounted
  | lines i => exact hcounted.trans ((hushWriter _ i).trans (hushLines _ i))
  | bridge b => exact hcounted.trans (hushLink _ b)

theorem reply (s : Session) (outlet : Outlet) (r : Response) : Elder s (s.reply outlet r) :=
  (send s outlet r).trans (endHandler _ outlet)

/-- Every way in which the turn of a handler can go. -/
theorem runHandler (s : Session) (n : Nat) : Elder s (s.runHandler n) := by
  unfold Session.runHandler
  split
  · exact refl s
  · split
    · exact reply s _ _
    · exact refl s
    -- The outcome has come, or has not.
    · split
      · exact endHandler s _
      · exact reply s _ _
      -- The frame is not a request, or it is one, and the service is asked.
      · split
        · exact reply s _ _
        · rename_i rid job _ _
          have hnoted : Elder s { s with
              handlers := s.handlers.modify n fun x => { x with id := some rid } } := of_links rfl
          exact hnoted.trans (setService _ _)

/-- A host hands a frame to a new handler. -/
theorem addHandler (s : Session) (outlet : Outlet) (frame : String) :
    Elder s (s.addHandler outlet frame) := by
  let joined : Session := { s with handlers := s.handlers ++ [{ outlet := outlet, frame := frame }] }
  have hadded : Elder s joined.share := of_links rfl
  exact (hadded.trans (countInFlight _ outlet (· + 1))).trans (schedule _ _)

theorem endCall (s : Session) (n : Nat) (a : Option Answer) : Elder s (s.endCall n a) := by
  unfold Session.endCall
  split <;> exact of_links rfl

/-- A host ends, and with it the call for which it runs. -/
theorem endHost (s : Session) (i : Nat) (host : FrameHost) : Elder s (s.endHost i host) := by
  have hclosed : Elder s (s.modifyHost i fun h => { h with inbox := [], running := false }) :=
    of_links rfl
  -- Both continuations of a host that has given its handle back.
  have hended : ∀ {t : Session}, Elder s t →
      Elder s t.unshare ∧ ∀ n a, Elder s (t.unshare.endCall n a) := fun ht =>
    have hshared := ht.trans (setService _ _)
    ⟨hshared, fun n a => hshared.trans (endCall _ n a)⟩
  unfold Session.endHost
  dsimp only
  cases host.outlet with
  | view | lines =>
      split
      · exact (hended hclosed).2 _ _
      · exact (hended hclosed).1
  | bridge b =>
      have hhushed := hclosed.trans (hushLink _ b)
      split
      · exact (hended hhushed).2 _ _
      · exact (hended hhushed).1

/-- The turn of a host: it takes frames until its inbox is empty, it ends, or its budget is spent.
-/
theorem runHost (s : Session) (i : Nat) : Elder s (s.runHost i) := by
  -- By the recursion of `takeFrames`, over the frames the host still may take.
  have htaken : ∀ inputs, Elder s (s.takeFrames i inputs) := by
    intro inputs
    fun_induction Session.takeFrames s i inputs with
    | case1 s => exact of_links rfl
    | case2 s => exact refl s
    | case3 s => exact endHost s i _
    | case4 s _ _ _ _ _ _ _ _ ih =>
        exact ((of_links rfl : Elder s (s.modifyHost i _)).trans (addHandler _ _ _)).trans ih
    | case5 s => exact refl s
    | case6 s => exact endHost s i _
  unfold Session.runHost
  split
  · exact refl s
  · split
    · exact refl s
    · split
      · exact endHost s i _
      · exact htaken turnBudget

/-- The turn of a call: it ends if its answer has come. -/
theorem runCall (s : Session) (n : Nat) : Elder s (s.runCall n) := by
  unfold Session.runCall
  split
  · split
    · dsimp only
      split
      · exact (endCall s n _).trans (setService _ _)
      · exact endCall s n _
    · exact refl s
  · exact refl s

/-- A caller goes away, and its bridge does not notice. -/
theorem abandon (s : Session) (n : Nat) : Elder s (s.abandon n) := by
  unfold Session.abandon
  split
  · split
    · exact (of_links rfl : Elder s (s.modifyCall n _)).trans (schedule _ _)
    · exact refl s
  · exact refl s

end Elder

end Session

end AvatarPool
