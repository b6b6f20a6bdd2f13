import AvatarPool.Proofs.Service.Lawful
import AvatarPool.Proofs.Session.Delivery

/-! # The duties of handlers

A handler reads its frame in its first turn and replies in its last one, of which it has no more than
two: between them it awaits the service, which wakes it once.  `Kept` says so of a session in which
the handlers `live` have not replied yet; each of them holds a handle of the service, so that `base`
others are left when all have replied.  What a handler is told for its job is what a law allows.

Two relations between sessions carry the proofs.  A step is `Neutral` if it changes neither the
service nor a handler and wakes nobody but other parties; every neutral step keeps `Kept` as it
stands.  A move of the service is dealt with in `Kept.setService`: whoever is told now has awaited
it, by the conservation of waiters, and is told at most once, because nobody awaits twice. -/

namespace AvatarPool.Session

/-- What a handler awaits, once it has read its frame and until it has been told. -/
def Handler.awaits? (x : Handler) : Option Fingerprint :=
  match x.id, x.outcome, BridgeHost.readFrame x.frame with
  | some _, none, .work _ job => some job.fingerprint
  | _, _, _ => none

/-- A handler that has read its frame answers under the id that stands there, with what the law
allows for the job. -/
structure Handler.Honest (L : Law) (x : Handler) : Prop where
  read : ∀ id, x.id = some id → ∃ job, BridgeHost.readFrame x.frame = .work id job
  told : ∀ o, x.outcome = some o →
    ∃ id job, x.id = some id ∧ BridgeHost.readFrame x.frame = .work id job ∧ L.told job.fingerprint o

/-- A handler that has been told awaits nothing more. -/
theorem Handler.awaits?_of_outcome {x : Handler} {o : Outcome} (h : x.outcome = some o) :
    x.awaits? = none := by
  unfold awaits?
  rw [h]
  cases x.id <;> rfl

/-- A handler that awaits something has read a request and has not been told. -/
theorem Handler.awaits?_eq_some {x : Handler} {k : Fingerprint} (h : x.awaits? = some k) :
    ∃ id id' job, x.id = some id ∧ x.outcome = none ∧
      BridgeHost.readFrame x.frame = .work id' job ∧ job.fingerprint = k := by
  unfold awaits? at h
  split at h
  · rename_i id id' job hid ho hread
    cases h
    exact ⟨id, id', job, hid, ho, hread, rfl⟩
  · cases h

variable {L : Law} {base : Nat} {live : List Nat} {s t : Session}

/-! ## What concerns no handler -/

/-- Neither the service nor a handler has changed, and nobody but other parties has been woken. -/
structure Neutral (s t : Session) : Prop where
  service : t.service = s.service
  handlers : t.handlers = s.handlers
  -- Whatever is required of the handlers on the agenda, a neutral step does not break it.
  orderly : ∀ P, Orderly P s → Orderly P t

namespace Neutral

theorem refl (s : Session) : Neutral s s := ⟨rfl, rfl, fun _ => id⟩

theorem trans {u : Session} (h : Neutral s t) (h' : Neutral t u) : Neutral s u :=
  ⟨h'.service.trans h.service, h'.handlers.trans h.handlers, fun P => h'.orderly P ∘ h.orderly P⟩

theorem wake (s : Session) {u : Turn} (hu : ∀ n, u ≠ .handler n) : Neutral s (s.wake u) where
  service := (congrArg Session.service (body_wake s u) :)
  handlers := (congrArg Session.handlers (body_wake s u) :)
  orderly _ hs := hs.wake fun n hn => absurd hn (hu n)

theorem modifyLines (s : Session) (i : Nat) (f : LinesHost → LinesHost) :
    Neutral s (s.modifyLines i f) :=
  ⟨rfl, rfl, fun _ hs => hs.of_body rfl rfl⟩

theorem modifyLink (s : Session) (b : Nat) (f : Link → Link) : Neutral s (s.modifyLink b f) :=
  ⟨rfl, rfl, fun _ hs => hs.of_body rfl rfl⟩

/-- The number of handlers at work is kept by the host, and not by the service. -/
theorem countInFlight (s : Session) (outlet : Outlet) (f : Nat → Nat) :
    Neutral s (s.countInFlight outlet f) := by
  cases outlet with
  | view => exact refl s
  | lines i => exact modifyLines s i _
  | bridge b => exact modifyLink s b _

/-- A response that is sent wakes a writer or a bridge. -/
theorem send (s : Session) (outlet : Outlet) (r : Response) : Neutral s (s.send outlet r) := by
  cases outlet with
  | view => exact ⟨rfl, rfl, fun _ hs => hs.of_body rfl rfl⟩
  -- The output may be closed already, or the host gone.
  | lines i =>
      unfold Session.send
      dsimp only
      split
      · split
        · exact (modifyLines s i _).trans (wake _ nofun)
        · exact refl s
      · exact refl s
  | bridge b => exact (modifyLink s b _).trans (wake _ nofun)

theorem hushLink (s : Session) (b : Nat) : Neutral s (s.hushLink b) := by
  rcases s.hushLink_eq b with heq | heq <;> rw [heq]
  · exact wake s nofun
  · exact refl s

theorem hushWriter (s : Session) (i : Nat) : Neutral s (s.hushWriter i) := by
  rcases s.hushWriter_eq i with heq | heq <;> rw [heq]
  · exact wake s nofun
  · exact refl s

theorem hushLines (s : Session) (i : Nat) : Neutral s (s.hushLines i) := by
  rcases s.hushLines_eq i with heq | heq <;> rw [heq]
  · exact wake s nofun
  · exact refl s

end Neutral

/-! ## Handlers in order -/

/-- Whether handler `h` may take a turn: it has not replied and awaits nothing. -/
def MayTurn (live : List Nat) (s : Session) (h : Nat) : Prop :=
  h ∈ live ∧ ∀ x, s.handlers[h]? = some x → x.awaits? = none

/-- **Handlers in order**: those that have not replied are `live`, only such take turns, and the
service owes each of them at most one answer, which it awaits. -/
structure Kept (L : Law) (base : Nat) (live : List Nat) (s : Session) : Prop where
  -- What the service gives out has been carried out.
  outputs : s.service.outputs = []
  settled : s.service.Settled
  -- One handle for each handler at work, and `base` for others.
  handles : base + live.length ≤ s.service.handles
  nodup : live.Nodup
  known : ∀ h ∈ live, ∃ x, s.handlers[h]? = some x
  honest : ∀ x ∈ s.handlers, x.Honest L
  -- Only handlers that may take a turn are on the agenda.
  orderly : Orderly (MayTurn live s) s
  -- Nobody waits twice, so that nobody is told twice.
  waiters : s.service.waiters.Nodup
  awaited : ∀ h k, s.service.Awaits (.handler h) k →
    h ∈ live ∧ ∃ x, s.handlers[h]? = some x ∧ x.awaits? = some k

namespace Kept

/-- Neutral steps keep the handlers in order. -/
theorem neutral (h : Kept L base live s) (hn : Neutral s t) : Kept L base live t where
  outputs := hn.service ▸ h.outputs
  settled := hn.service ▸ h.settled
  handles := hn.service ▸ h.handles
  nodup := h.nodup
  known := hn.handlers ▸ h.known
  honest := hn.handlers ▸ h.honest
  orderly := by
    unfold MayTurn
    rw [hn.handlers]
    exact hn.orderly _ h.orderly
  waiters := hn.service ▸ h.waiters
  awaited := by
    rw [hn.service, hn.handlers]
    exact h.awaited

/-! ## The service moves -/

theorem answers_eq_nil (h : Kept L base live s) : s.service.answers = [] := by
  rw [Service.answers, h.outputs]
  rfl

/-- What the session does with a request that a move sends: its caller awaits nothing yet, and a
handler that sends it awaits its answer from now on. -/
def Sends (live : List Nat) (s : Session) (m : Move Caller) : Prop :=
  ∀ job w, m.request? = some (job, w) → w ∉ s.service.waiters ∧
    ∀ n, w = .handler n → n ∈ live ∧ ∃ x, s.handlers[n]? = some x ∧ x.awaits? = some job.fingerprint

/-- **A move of the service**, whose outputs take place. -/
theorem setService (h : Kept L base live s) {m : Move Caller} {u : Service Caller}
    (hmove : s.service.move m = some u) (hsends : Sends live s m)
    (htold : ∀ a ∈ u.answers, ∀ n, a.1 = .handler n →
      ∃ k, s.service.Awaits a.1 k ∧ L.told k a.2)
    {base' : Nat} (hhandles : base' + live.length ≤ u.handles) :
    Kept L base' live (s.setService u) := by
  -- What a move answers comes from the conservation of waiters.
  obtain ⟨as, hcons⟩ := Service.exists_conserves h.settled hmove
  have has : u.answers = as := by rw [hcons.answers, h.answers_eq_nil, List.nil_append]
  have hdelivered := delivered_setService s u
  have hservice : (s.setService u).service = { u with outputs := [] } :=
    (congrArg Session.service hdelivered.unheard :)
  have hanswers : answersIn u.outputs = as := has
  -- Everyone who is told now awaited it, and awaits nothing any more.
  have hnodup : (u.waiters ++ as.map Prod.fst).Nodup := by
    rw [hcons.waiters.nodup_iff]
    refine List.nodup_append.mpr ⟨h.waiters, ?_, fun w hw v hv => ?_⟩
    · cases m.request? <;> simp
    · rintro rfl
      obtain ⟨⟨job, v⟩, hr, rfl⟩ := List.mem_map.mp hv
      exact (hsends job v (Option.mem_toList.mp hr)).1 hw
  -- Whoever awaits something now has awaited it, or sends the request in this move.
  have hawaited : ∀ n k, u.Awaits (.handler n) k →
      n ∈ live ∧ ∃ x, s.handlers[n]? = some x ∧ x.awaits? = some k := by
    intro n k hk
    rcases hcons.awaits _ _ hk with hold | ⟨job, hr, rfl⟩
    · exact h.awaited n k hold
    · exact (hsends job _ (Option.mem_toList.mp hr)).2 n rfl
  have htold' : ∀ n o, (Caller.handler n, o) ∈ as →
      ∃ k, s.service.Awaits (.handler n) k ∧ L.told k o :=
    fun n o ho => htold _ (has ▸ ho) n rfl
  refine ⟨by rw [hservice], ?_, by rw [hservice]; exact hhandles, h.nodup, fun n hn => ?_, ?_, ?_,
    ?_, ?_⟩
  · rw [hservice]
    exact ⟨⟨hcons.settled.sound.collected, hcons.settled.sound.carried,
      hcons.settled.sound.departed, hcons.settled.sound.quiet⟩, hcons.settled.wellFormed⟩
  -- The handlers are those there were, some with an outcome.
  · obtain ⟨x, hx⟩ := h.known n hn
    rcases hdelivered.handlers n with ⟨hsame, -⟩ | ⟨o, -, hset⟩
    · exact ⟨x, hsame.trans hx⟩
    · exact ⟨_, hset.trans (congrArg _ hx)⟩
  -- What they are told is what the law allows for the job they have read.
  · intro x hx
    obtain ⟨n, hn⟩ := List.getElem?_of_mem hx
    rcases hdelivered.handlers n with ⟨hsame, -⟩ | ⟨o, ho, hset⟩
    · exact h.honest x (List.mem_of_getElem? (hsame ▸ hn))
    · obtain ⟨y, hy, rfl⟩ := Option.map_eq_some_iff.mp (hset ▸ hn)
      have hfaithful := h.honest y (List.mem_of_getElem? hy)
      refine ⟨hfaithful.read, fun o' ho' => ?_⟩
      cases ho'
      obtain ⟨k, hk, hallowed⟩ := htold' n o (hanswers ▸ ho)
      obtain ⟨-, z, hz, hawaits⟩ := h.awaited n k hk
      obtain rfl := Option.some.inj (hz.symm.trans hy)
      obtain ⟨id, id', job, hid, -, hread, rfl⟩ := Handler.awaits?_eq_some hawaits
      obtain ⟨job', hread'⟩ := hfaithful.read id hid
      obtain ⟨rfl, rfl⟩ := BridgeHost.Reading.work.inj (hread.symm.trans hread')
      exact ⟨id', job, hid, hread, hallowed⟩
  -- Whoever is woken has been told, and so awaits nothing.
  · have horder := hdelivered.orderly (MayTurn live s) ⟨h.orderly.nodup, h.orderly.turns,
      h.orderly.postponed⟩
    refine horder.mono fun n hn => ?_
    rcases hdelivered.handlers n with ⟨hsame, hnone⟩ | ⟨o, ho, hset⟩
    · rcases hn with ⟨hlive, hidle⟩ | ⟨o, ho⟩
      · exact ⟨hlive, fun x hx => hidle x (hsame ▸ hx)⟩
      · exact absurd ho (hnone o)
    · obtain ⟨k, hk, -⟩ := htold' n o (hanswers ▸ ho)
      refine ⟨(h.awaited n k hk).1, fun x hx => ?_⟩
      obtain ⟨y, -, rfl⟩ := Option.map_eq_some_iff.mp (hset ▸ hx)
      exact Handler.awaits?_of_outcome rfl
  · rw [hservice]
    exact (List.nodup_append.mp hnodup).1
  · rw [hservice]
    intro n k hk
    -- A handler that still waits has not been told in this move.
    obtain ⟨hlive, x, hx, hawaits⟩ := hawaited n k hk
    have hwaits : Caller.handler n ∈ u.waiters :=
      (Service.mem_waiters_iff hcons.settled.wellFormed).mpr ⟨k, hk⟩
    refine ⟨hlive, x, ?_, hawaits⟩
    rcases hdelivered.handlers n with ⟨hsame, -⟩ | ⟨o, ho, -⟩
    · rw [hsame]
      exact hx
    · have hmem : Caller.handler n ∈ as.map Prod.fst :=
        List.mem_map_of_mem (f := Prod.fst) (hanswers ▸ ho)
      exact absurd rfl ((List.nodup_append.mp hnodup).2.2 _ hwaits _ hmem)

/-- A handle goes away. -/
theorem unshare (h : Kept L (base + 1) live s) : Kept L base live s.unshare := by
  have hpos : 0 < s.service.handles := by have := h.handles; omega
  refine h.setService (m := .unshare) (if_pos hpos) nofun (fun a ha => ?_) ?_
  -- A handle that goes away answers nobody.
  · rw [Service.answers_eq, (Service.Quiet.unshare s.service).story_eq, ← Service.answers_eq,
      h.answers_eq_nil] at ha
    exact absurd ha List.not_mem_nil
  · have hdoors := Service.doors_of_move (m := .unshare) (if_pos hpos : s.service.move .unshare = _)
    have hcount : s.service.unshare.handles = s.service.handles - 1 := congrArg Prod.snd hdoors
    have := h.handles
    omega

/-- Taking a handle gives nothing out, and so it is a move whose outputs take place. -/
theorem share_eq (h : Kept L base live s) : s.share = s.setService s.service.share := by
  have hout : s.service.share.outputs = [] := h.outputs
  have hsame : { s.service.share with outputs := [] } = s.service.share := by rw [← hout]
  rw [Session.setService, hout, hsame]
  rfl

/-- One more handle. -/
theorem share (h : Kept L base live s) (hpos : 0 < s.service.handles) :
    Kept L (base + 1) live s.share := by
  rw [h.share_eq]
  refine h.setService (m := .share) (if_pos hpos) nofun (fun a ha => ?_) ?_
  · rw [show s.service.share.answers = [] from h.answers_eq_nil] at ha
    exact absurd ha List.not_mem_nil
  · show base + 1 + live.length ≤ s.service.handles + 1
    have := h.handles
    omega

/-- Somebody who awaits nothing sends a request to a service that has not ended. -/
theorem request (h : Kept L base live s) (hpos : 0 < s.service.handles)
    (hended : ¬ s.service.hasEnded) {job : Job} {w : Caller} (hnew : w ∉ s.service.waiters)
    (hhandler : ∀ n, w = .handler n →
      n ∈ live ∧ ∃ x, s.handlers[n]? = some x ∧ x.awaits? = some job.fingerprint) :
    Kept L base live (s.request job w) := by
  have hmove : s.service.move (.request job w) = some (s.service.request job w) := if_pos hpos
  have hpost : s.service.request job w = s.service.post (.request job w) := if_neg hended
  refine h.setService hmove (fun job' w' hr => ?_) (fun a ha => ?_) ?_
  · cases hr
    exact ⟨hnew, hhandler⟩
  -- The request is only put into the channel.
  · have hstory := (Service.Aside.post s.service (.request job w)).story hended
    rw [hpost, Service.answers_eq, hstory, ← Service.answers_eq, h.answers_eq_nil] at ha
    exact absurd ha List.not_mem_nil
  · have hcount : (s.service.request job w).handles = s.service.handles :=
      congrArg Prod.snd (Service.doors_of_move hmove)
    rw [hcount]
    exact h.handles

/-- Somebody asks for a stop. -/
theorem stopService (h : Kept L base live s) (hpos : 0 < s.service.handles) (w : Caller) :
    Kept L base live (s.stopService w) := by
  have hmove : s.service.move (.stop w) = some (s.service.stop w) := if_pos hpos
  refine h.setService hmove nofun (fun a ha => ?_) ?_
  · have hnone : (s.service.stop w).answers = s.service.answers := by
      unfold Service.stop
      -- A service that has ended refuses the stop; one that has not puts it into the channel.
      split
      · rw [Service.answers_eq, (Service.Quiet.emit s.service [.stopRefused w] rfl).story_eq,
          Service.answers_eq]
      · rename_i hended
        rw [Service.answers_eq, (Service.Aside.post s.service (.stop w)).story hended,
          Service.answers_eq]
    rw [hnone, h.answers_eq_nil] at ha
    exact absurd ha List.not_mem_nil
  · have hcount : (s.service.stop w).handles = s.service.handles :=
      congrArg Prod.snd (Service.doors_of_move hmove)
    rw [hcount]
    exact h.handles

/-- Somebody is put on the agenda, who may take a turn if he is a handler. -/
theorem schedule (h : Kept L base live s) {u : Turn}
    (hu : ∀ n, u = .handler n → MayTurn live s n) : Kept L base live (s.schedule u) := by
  have hbody := body_schedule s u
  have hservice : (s.schedule u).service = s.service := (congrArg Session.service hbody :)
  have hhandlers : (s.schedule u).handlers = s.handlers := (congrArg Session.handlers hbody :)
  refine ⟨hservice ▸ h.outputs, hservice ▸ h.settled, hservice ▸ h.handles, h.nodup,
    hhandlers ▸ h.known, hhandlers ▸ h.honest, ?_, hservice ▸ h.waiters, ?_⟩
  · unfold MayTurn
    rw [hhandlers]
    exact h.orderly.schedule hu
  · rw [hservice, hhandlers]
    exact h.awaited

/-! ## A handler begins -/

/-- A host hands a frame to a new handler. -/
theorem addHandler (h : Kept L base live s) (hpos : 0 < s.service.handles) (outlet : Outlet)
    (frame : String) :
    Kept L base (live ++ [s.handlers.length]) (s.addHandler outlet frame) := by
  have hshared := h.share hpos
  -- The new handler has the next number, which none of those at work has.
  have hfresh : s.handlers.length ∉ live := fun hmem => by
    obtain ⟨x, hx⟩ := h.known _ hmem
    exact absurd (List.getElem?_eq_some_iff.mp hx).1 (Nat.lt_irrefl _)
  -- Those that were there keep their numbers.
  have hget : ∀ {n : Nat} {x y : Handler}, s.handlers[n]? = some x →
      (s.handlers ++ [y])[n]? = some x := by
    intro n x y hx
    rw [List.getElem?_append_left (List.getElem?_eq_some_iff.mp hx).1]
    exact hx
  have hadded : Kept L base (live ++ [s.handlers.length])
      ({ s with handlers := s.handlers ++ [(⟨outlet, frame, none, none⟩ : Handler)] }.share) := by
    refine ⟨hshared.outputs, hshared.settled, ?_, ?_, fun n hn => ?_, fun x hx => ?_, ?_,
      hshared.waiters, fun n k hk => ?_⟩
    · have := hshared.handles
      rw [List.length_append, List.length_singleton]
      show base + (live.length + 1) ≤ s.share.service.handles
      omega
    · refine List.nodup_append.mpr ⟨h.nodup, List.nodup_singleton _, fun a ha b hb => ?_⟩
      rintro rfl
      exact hfresh (List.mem_singleton.mp hb ▸ ha)
    · rcases List.mem_append.mp hn with hold | hnew
      · obtain ⟨x, hx⟩ := h.known n hold
        exact ⟨x, hget hx⟩
      · rw [List.mem_singleton.mp hnew]
        exact ⟨_, List.getElem?_concat_length⟩
    -- It has not read its frame yet.
    · rcases List.mem_append.mp hx with hold | hnew
      · exact h.honest x hold
      · rw [List.mem_singleton.mp hnew]
        exact ⟨nofun, nofun⟩
    · refine ⟨h.orderly.nodup, fun n hn => ?_, h.orderly.postponed⟩
      obtain ⟨hlive, hidle⟩ := h.orderly.turns n hn
      refine ⟨List.mem_append_left _ hlive, fun x hx => ?_⟩
      obtain ⟨y, hy⟩ := h.known n hlive
      obtain rfl := Option.some.inj ((hget hy).symm.trans hx)
      exact hidle y hy
    · obtain ⟨hlive, x, hx, hawaits⟩ := h.awaited n k hk
      exact ⟨List.mem_append_left _ hlive, x, hget hx, hawaits⟩
  -- It awaits nothing, and so it may be put on the agenda.
  refine (hadded.neutral (.countInFlight _ outlet (· + 1))).schedule fun n hn => ?_
  cases hn
  refine ⟨List.mem_append_right _ (List.mem_singleton_self _), fun x hx => ?_⟩
  rw [(Neutral.countInFlight _ outlet (· + 1)).handlers] at hx
  obtain rfl := Option.some.inj (hx.symm.trans List.getElem?_concat_length)
  rfl

/-! ## A handler takes its turn -/

/-- A handler that takes its turn without awaiting anything is about to reply: it is not counted any
more, but for its handle. -/
theorem retire (h : Kept L base live s) {n : Nat} (hturn : MayTurn live s n) :
    Kept L (base + 1) (live.erase n) { s with agenda := s.agenda.erase (.handler n) } where
  outputs := h.outputs
  settled := h.settled
  handles := by
    have hlength := List.length_erase_of_mem hturn.1
    -- One handler less is counted, and its handle is free for its reply.
    have hpos := List.length_pos_of_mem hturn.1
    have := h.handles
    show base + 1 + (live.erase n).length ≤ s.service.handles
    omega
  nodup := h.nodup.erase n
  known k hk := h.known k (List.mem_of_mem_erase hk)
  honest := h.honest
  orderly := by
    refine (h.orderly.erase (.handler n)).mono fun k hk => ?_
    obtain ⟨⟨hlive, hidle⟩, hne⟩ := hk
    refine ⟨(List.mem_erase_of_ne ?_).mpr hlive, hidle⟩
    rintro rfl
    exact hne rfl
  waiters := h.waiters
  awaited k key hk := by
    obtain ⟨hlive, x, hx, hawaits⟩ := h.awaited k key hk
    refine ⟨(List.mem_erase_of_ne ?_).mpr hlive, x, hx, hawaits⟩
    -- It awaits nothing, and so it is not the one that takes the turn.
    rintro rfl
    rw [hturn.2 x hx] at hawaits
    cases hawaits

/-- A handler that reads a request awaits its answer from now on. -/
theorem read (h : Kept L base live s) {n : Nat} {x : Handler} (hturn : MayTurn live s n)
    (hx : s.handlers[n]? = some x) (hfresh : x.id = none) {id : RequestId} {job : Job}
    (hread : BridgeHost.readFrame x.frame = .work id job) :
    Kept L base live
      { s with
        agenda := s.agenda.erase (.handler n)
        handlers := s.handlers.modify n fun x => { x with id := some id } } := by
  -- Only the handler whose turn it is has changed.
  have hget : ∀ k, (s.handlers.modify n fun x => { x with id := some id })[k]? =
      (s.handlers[k]?).map fun y => if n = k then { y with id := some id } else y :=
    fun k => List.getElem?_modify _ _ _ _
  refine ⟨h.outputs, h.settled, h.handles, h.nodup, fun k hk => ?_, fun y hy => ?_, ?_, h.waiters,
    fun k key hk => ?_⟩
  · obtain ⟨y, hy⟩ := h.known k hk
    exact ⟨_, (hget k).trans (congrArg _ hy)⟩
  · obtain ⟨k, hk⟩ := List.getElem?_of_mem hy
    rw [hget] at hk
    obtain ⟨z, hz, rfl⟩ := Option.map_eq_some_iff.mp hk
    have hfaithful := h.honest z (List.mem_of_getElem? hz)
    -- It notes the id of the request that it reads, and has not been told.
    split
    · rename_i hnk
      subst hnk
      obtain rfl := Option.some.inj (hx.symm.trans hz)
      refine ⟨fun id' hid' => ⟨job, ?_⟩, fun o ho => ?_⟩
      · cases hid'
        exact hread
      · obtain ⟨id', -, hid', -⟩ := hfaithful.told o ho
        rw [hfresh] at hid'
        cases hid'
    · exact hfaithful
  -- It is off the agenda until it is told.
  · have herased := h.orderly.erase (.handler n)
    refine ⟨herased.nodup, fun k hk => ?_, herased.postponed⟩
    obtain ⟨⟨hlive, hidle⟩, hne⟩ := herased.turns k hk
    refine ⟨hlive, fun y hy => ?_⟩
    rw [hget] at hy
    obtain ⟨z, hz, rfl⟩ := Option.map_eq_some_iff.mp hy
    rw [if_neg fun hnk => hne (congrArg Turn.handler hnk)]
    exact hidle z hz
  · obtain ⟨hlive, y, hy, hawaits⟩ := h.awaited k key hk
    refine ⟨hlive, y, ?_, hawaits⟩
    -- Nobody awaited anything under its number, because it may take a turn.
    have hne : n ≠ k := by
      rintro rfl
      rw [hturn.2 y hy] at hawaits
      cases hawaits
    rw [hget, hy, Option.map_some, if_neg hne]

end Kept

/-- A handler replies, if there is anything to reply, and has done its part. -/
def conclude (s : Session) (outlet : Outlet) : Option Response → Session
  | some r => s.reply outlet r
  | none => s.endHandler outlet

/-- **The replies that are proper to a frame**: none to a frame that is no request, the one that a
request without a job gets at once, and else any under its id with what the law allows for the
job. -/
inductive Proper (L : Law) (frame : String) : Option Response → Prop
  | ignored (h : BridgeHost.readFrame frame = .ignore) : Proper L frame none
  | immediate {r : Response} (h : BridgeHost.readFrame frame = .reply r) : Proper L frame (some r)
  | worked {id : RequestId} {job : Job} {o : Outcome} (h : BridgeHost.readFrame frame = .work id job)
      (ho : L.told job.fingerprint o) : Proper L frame (some (BridgeHost.respond id o))

/-- What a turn of a handler is: it reads a request and sends it to the service, or it concludes with
a proper reply.  Only a service that has ended makes it refuse. -/
theorem Kept.runHandler_eq (h : Kept L base live s) {n : Nat} {x : Handler}
    (hturn : MayTurn live s n) (hx : s.handlers[n]? = some x)
    (hrefuse : s.service.hasEnded → L.AllowsStop) (agenda : List Turn) :
    (¬ s.service.hasEnded ∧ ∃ id job, x.id = none ∧ BridgeHost.readFrame x.frame = .work id job ∧
      ({ s with agenda := agenda }.runHandler n) =
        ({ s with
          agenda := agenda
          handlers := s.handlers.modify n fun x => { x with id := some id } }.request job
            (.handler n))) ∨
      ∃ r, Proper L x.frame r ∧
        ({ s with agenda := agenda }.runHandler n) =
          ({ s with agenda := agenda }.conclude x.outlet r) := by
  have hhonest := h.honest x (List.mem_of_getElem? hx)
  have hidle := hturn.2 x hx
  unfold Session.runHandler
  dsimp only
  rw [hx]
  dsimp only
  cases hid : x.id with
  -- It has read its frame before: then it has been told, since it may take a turn.
  | some id =>
      obtain ⟨job, hread⟩ := hhonest.read id hid
      cases ho : x.outcome with
      | none => simp [Handler.awaits?, hid, ho, hread] at hidle
      | some o =>
          obtain ⟨id', job', hid', hread', hallowed⟩ := hhonest.told o ho
          obtain rfl := Option.some.inj (hid.symm.trans hid')
          exact .inr ⟨_, .worked hread' hallowed, rfl⟩
  | none =>
      -- This is its first turn.
      cases hread : BridgeHost.readFrame x.frame with
      | ignore => exact .inr ⟨none, .ignored hread, rfl⟩
      | reply r => exact .inr ⟨some r, .immediate hread, rfl⟩
      | work id job =>
          dsimp only
          by_cases hended : s.service.hasEnded
          · rw [if_pos hended]
            exact .inr ⟨_, .worked hread (hrefuse hended _), rfl⟩
          · rw [if_neg hended]
            exact .inl ⟨hended, id, job, rfl, rfl, rfl⟩

namespace Kept

/-- A handler at work holds a handle. -/
theorem handles_pos_of_mem (h : Kept L base live s) {n : Nat} (hn : n ∈ live) :
    0 < s.service.handles := by
  have hlength := List.length_pos_of_mem hn
  have hhandles := h.handles
  omega

/-- A handler reads a request and sends it to the service. -/
theorem ask (h : Kept L base live s) (hended : ¬ s.service.hasEnded) {n : Nat}
    {x : Handler} (hturn : MayTurn live s n) (hx : s.handlers[n]? = some x) (hfresh : x.id = none)
    {id : RequestId} {job : Job} (hread : BridgeHost.readFrame x.frame = .work id job) :
    Kept L base live
      ({ s with
        agenda := s.agenda.erase (.handler n)
        handlers := s.handlers.modify n fun x => { x with id := some id } }.request job
          (.handler n)) := by
  -- It cannot have been told before it has read.
  have hidle : x.outcome = none := by
    cases ho : x.outcome with
    | none => rfl
    | some o =>
        obtain ⟨id', -, hid', -⟩ := (h.honest x (List.mem_of_getElem? hx)).told o ho
        rw [hfresh] at hid'
        cases hid'
  have hhandles := h.handles_pos_of_mem hturn.1
  -- Three things are to be shown: it has not waited, it is at work, and it awaits this job.
  refine (h.read hturn hx hfresh hread).request hhandles hended (fun hmem => ?_) fun k hk => ?_
  -- It has not awaited anything before.
  · obtain ⟨k, hk⟩ := (Service.mem_waiters_iff h.settled.wellFormed).mp hmem
    obtain ⟨-, y, hy, hawaits⟩ := h.awaited n k hk
    rw [hturn.2 y hy] at hawaits
    cases hawaits
  · cases hk
    refine ⟨hturn.1, { x with id := some id }, ?_, ?_⟩
    · show (s.handlers.modify n fun x => { x with id := some id })[n]? = _
      rw [List.getElem?_modify, hx]
      simp
    · simp [Handler.awaits?, hidle, hread]

/-- A handler that has ended gives back the handle that was kept for it. -/
theorem endHandler (h : Kept L (base + 1) live s) (outlet : Outlet) :
    Kept L base live (s.endHandler outlet) := by
  have hcounted := h.unshare.neutral (.countInFlight _ outlet (· - 1))
  unfold Session.endHandler
  dsimp only
  cases outlet with
  | view => exact hcounted
  | lines i => exact hcounted.neutral ((Neutral.hushWriter _ i).trans (.hushLines _ i))
  | bridge b => exact hcounted.neutral (.hushLink _ b)

/-- A handler concludes, with a reply or without one. -/
theorem conclude (h : Kept L (base + 1) live s) (outlet : Outlet) (r : Option Response) :
    Kept L base live (s.conclude outlet r) := by
  cases r with
  | some r => exact (h.neutral (.send s outlet r)).endHandler outlet
  | none => exact h.endHandler outlet

end Kept

end AvatarPool.Session
