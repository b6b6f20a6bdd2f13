import AvatarPool.Proofs.Dispatch.Answers
import AvatarPool.Proofs.Service.History

/-! # Every request is in one place

A request is in the channel, or waits, or has been answered.  `Service.places` lists every place
where a caller is found; over every run the list of a request has just one entry.  Who waits together
is answered alike, and when the service has ended every request has been answered.

The list is counted and not searched.  Its length is the number of times that the caller is found
anywhere (`length_places`), and the callers found make up those who have sent requests
(`perm_requested_of_play`); so a caller who has sent one request is in one place.  Nothing is
assumed about the order in which anything happens. -/

namespace AvatarPool

variable {ω : Type}

/-- Where a request can be. -/
inductive Place where
  /-- In the channel, unread. -/
  | channel
  /-- Among those who wait for a result. -/
  | waiting (key : Fingerprint)
  | answered (outcome : Outcome)
  deriving DecidableEq, Repr

/-- The answer that an output gives. -/
def Output.answer? : Output ω → Option (ω × Outcome)
  | .effect (.answered caller outcome) => some (caller, outcome)
  | _ => none

/-- The entries of a list that belong to one caller.  The two functions say whose an entry is and
what is to be kept of it. -/
def entriesOf {α β : Type} [DecidableEq ω] (w : ω) (caller : α → ω) (entry : α → β) (l : List α) :
    List β :=
  (l.filter fun a => caller a = w).map entry

section EntriesOf

variable {α β : Type} [DecidableEq ω]

theorem length_entriesOf (w : ω) (caller : α → ω) (entry : α → β) (l : List α) :
    (entriesOf w caller entry l).length = (l.map caller).count w := by
  rw [entriesOf, List.length_map, List.count_eq_countP, List.countP_map, List.countP_eq_length_filter]
  exact congrArg List.length (List.filter_congr fun a _ => (beq_eq_decide (caller a) w).symm)

theorem mem_entriesOf {w : ω} {caller : α → ω} {entry : α → β} {l : List α} {b : β} :
    b ∈ entriesOf w caller entry l ↔ ∃ a ∈ l, caller a = w ∧ entry a = b := by
  simp [entriesOf, and_assoc]

end EntriesOf

namespace Service

variable {config : PoolSettings} {gate : Gate} {s t : Service ω} {τ τ' : List (Move ω)}

/-- The answers given so far. -/
def answers (s : Service ω) : List (ω × Outcome) := s.outputs.filterMap Output.answer?

/-- **Every place where a caller is found**, one entry for each time.  If a caller were ever counted
twice, or lost, the list would have two entries or none. -/
def places [DecidableEq ω] (s : Service ω) (w : ω) : List Place :=
  entriesOf w Prod.snd (fun _ => .channel) s.inChannel ++
    s.core.pending.entries.flatMap (fun e => entriesOf w id (fun _ => .waiting e.1) e.2) ++
      entriesOf w Prod.fst (fun a => .answered a.2) s.answers

/-- Answers can be read off the story. -/
theorem answers_eq (s : Service ω) : s.answers = s.story.answered := by
  refine filterMap_outputs (fun o => ?_) s
  cases o with
  | effect e => cases e <;> rfl
  | _ => rfl

/-! ## Places counted -/

section Places

variable [DecidableEq ω]

theorem length_places (s : Service ω) (w : ω) :
    (s.places w).length =
      (s.inChannel.map Prod.snd ++ s.story.served).count w := by
  -- The callers of an entry are counted entry by entry, as the table is a list of lists.
  have hwaiting : ∀ l : List (Fingerprint × List ω),
      (l.flatMap fun e => entriesOf w id (fun _ => Place.waiting e.1) e.2).length =
        (l.flatMap Prod.snd).count w := by
    intro l
    induction l with
    | nil => rfl
    | cons e rest ih =>
        rw [List.flatMap_cons, List.flatMap_cons, List.length_append, List.count_append, ih,
          length_entriesOf, List.map_id]
  unfold places Dispatcher.served
  rw [List.length_append, List.length_append, length_entriesOf, length_entriesOf, hwaiting,
    answers_eq, List.count_append, List.count_append, Nat.add_assoc]
  rfl

theorem channel_mem_places {w : ω} :
    Place.channel ∈ s.places w ↔ ∃ job, (job, w) ∈ s.inChannel := by
  simp [places, mem_entriesOf]

/-- The key has one entry, so those found in an entry for it are all who wait under it. -/
theorem waiting_mem_places (h : s.core.pending.WellFormed) {w : ω} {k : Fingerprint} :
    Place.waiting k ∈ s.places w ↔ w ∈ s.core.pending.waiting k := by
  have hentry : Place.waiting k ∈ s.places w ↔ ∃ ws, (k, ws) ∈ s.core.pending.entries ∧ w ∈ ws := by
    simp [places, mem_entriesOf]
  rw [hentry]
  constructor
  · rintro ⟨ws, hmem, hw⟩
    rwa [Pending.waiting_of_mem_entries h.nodup hmem]
  · intro hw
    exact ⟨_, Pending.exists_entry_of_mem_keys (Pending.mem_keys_of_mem_waiting hw), hw⟩

theorem answered_mem_places {w : ω} {o : Outcome} :
    Place.answered o ∈ s.places w ↔ (w, o) ∈ s.answers := by
  simp [places, mem_entriesOf]

end Places

/-! ## Runs of distinct requests -/

/-- Those who sent a request are in the channel, wait, or have been told.  The path of deeds serves
the requests it takes from the channel, and nobody else. -/
theorem perm_requested_of_play (h : (ofConfig config gate).play τ = some s) :
    (s.inChannel.map Prod.snd ++ s.story.served).Perm ((requested τ).map Prod.snd) := by
  obtain ⟨ds, hds⟩ := exists_tells_of_play (sound_ofConfig config gate) h
  have hserved : s.story.served.Perm ((ds.filterMap Deed.request?).map Prod.snd) :=
    (hds.path.served_perm Pending.wellFormed_empty).trans (.of_eq (List.append_nil _))
  have hrequests : ds.filterMap Deed.request? ++ s.inChannel = requested τ := hds.requests
  rw [← hrequests, List.map_append]
  exact (hserved.append_left _).trans List.perm_append_comm

/-- **A run** from the start in which every request has a reply of its own: callers name requests. -/
structure Run (config : PoolSettings) (gate : Gate) (τ : List (Move ω)) (s : Service ω) : Prop where
  played : (ofConfig config gate).play τ = some s
  own : ((requested τ).map Prod.snd).Nodup

namespace Run

/-- What has happened since the start, as one path. -/
theorem exists_tells (h : Run config gate τ s) :
    ∃ ds, Tells (ofConfig config gate) τ ds s :=
  exists_tells_of_play (sound_ofConfig config gate) h.played

theorem sound (h : Run config gate τ s) : s.Sound := by
  obtain ⟨ds, hds⟩ := h.exists_tells
  exact hds.sound

theorem wellFormed (h : Run config gate τ s) : s.core.pending.WellFormed := by
  obtain ⟨ds, hds⟩ := h.exists_tells
  exact hds.path.wellFormed Pending.wellFormed_empty

/-- The rest of a longer run. -/
theorem exists_tells_rest (h : Run config gate τ s) (h' : Run config gate (τ ++ τ') t) :
    ∃ ds, Tells s τ' ds t := by
  have hplay := h'.played
  rw [play_append_of_play h.played] at hplay
  exact exists_tells_of_play h.sound hplay

theorem perm_requested (h : Run config gate τ s) :
    (s.inChannel.map Prod.snd ++ s.story.served).Perm ((requested τ).map Prod.snd) :=
  perm_requested_of_play h.played

/-- Who waits has sent a request for what he waits for. -/
theorem exists_requested (h : Run config gate τ s) {k : Fingerprint} {w : ω}
    (hw : w ∈ s.core.pending.waiting k) : ∃ job, (job, w) ∈ requested τ ∧ job.fingerprint = k := by
  obtain ⟨ds, hds⟩ := h.exists_tells
  rcases hds.path.mem_waiting hw with hnil | ⟨job, hmem, hk⟩
  · exact absurd hnil List.not_mem_nil
  · have hrequests : ds.filterMap Deed.request? ++ s.inChannel = requested τ := hds.requests
    exact ⟨job, hrequests ▸ List.mem_append_left _ hmem, hk⟩

/-- A request waits nowhere but under its own fingerprint.  It waits for what it has asked for, and
it has asked for nothing else. -/
theorem waiting_own (h : Run config gate τ s) {job : Job} {w : ω} (hr : (job, w) ∈ requested τ)
    {k : Fingerprint} (hw : w ∈ s.core.pending.waiting k) : k = job.fingerprint := by
  obtain ⟨job', hr', rfl⟩ := h.exists_requested hw
  have heq : (job', w) = (job, w) := List.inj_on_of_nodup_map h.own hr' hr rfl
  rw [(Prod.mk.inj heq).1]

variable [DecidableEq ω]

/-- **There is one place for each request.** -/
theorem exists_place (h : Run config gate τ s) {job : Job} {w : ω}
    (hr : (job, w) ∈ requested τ) : ∃ p, s.places w = [p] := by
  have hmem : w ∈ (requested τ).map Prod.snd := List.mem_map_of_mem (f := Prod.snd) hr
  rw [← List.length_eq_one_iff, length_places, h.perm_requested.count_eq]
  exact List.count_eq_one_of_mem h.own hmem

/-- Companions are in the same place in every longer run.  They stay together until they are
answered, and are answered with the same outcome. -/
theorem places_eq_of_waiting (h : Run config gate τ s) {k : Fingerprint} {v w : ω}
    (hv : v ∈ s.core.pending.waiting k) (hw : w ∈ s.core.pending.waiting k)
    (h' : Run config gate (τ ++ τ') t) : t.places v = t.places w := by
  have hplace : ∀ {u : ω}, u ∈ s.core.pending.waiting k → ∃ p, t.places u = [p] := by
    intro u hu
    obtain ⟨job, hmem, -⟩ := h.exists_requested hu
    exact h'.exists_place (requested_append τ τ' ▸ List.mem_append_left _ hmem)
  obtain ⟨p, hp⟩ := hplace hv
  obtain ⟨q, hq⟩ := hplace hw
  -- One common entry settles it, since each list has no other.
  have hcommon : ∀ r, r ∈ t.places v → r ∈ t.places w → t.places v = t.places w := by
    intro r hrv hrw
    rw [hp] at hrv ⊢
    rw [hq] at hrw ⊢
    rw [← List.mem_singleton.mp hrv, ← List.mem_singleton.mp hrw]
  obtain ⟨ds, hds⟩ := h.exists_tells_rest h'
  rcases hds.path.together h.wellFormed (.inl ⟨k, hv, hw⟩) with ⟨j, hjv, hjw⟩ | ⟨o, hov, how⟩
  · exact hcommon (.waiting j) ((waiting_mem_places h'.wellFormed).mpr hjv)
      ((waiting_mem_places h'.wellFormed).mpr hjw)
  · rw [← answers_eq] at hov how
    exact hcommon (.answered o) (answered_mem_places.mpr hov) (answered_mem_places.mpr how)

/-- At the end nobody is in the channel or waits.  The channel is drained by the last move of the
loop, and those who wait are given up before it. -/
theorem answered_of_hasEnded (h : Run config gate τ s) (hended : s.hasEnded) {job : Job} {w : ω}
    (hr : (job, w) ∈ requested τ) : ∃ o, s.places w = [.answered o] := by
  obtain ⟨p, hp⟩ := h.exists_place hr
  have hmem : p ∈ s.places w := by simp [hp]
  cases p with
  | channel =>
      obtain ⟨job', hchannel⟩ := channel_mem_places.mp hmem
      rw [inChannel, h.sound.quiet hended] at hchannel
      exact absurd hchannel List.not_mem_nil
  | waiting k =>
      have hnone : s.core.pending.entries = [] :=
        h.sound.departed fun hrun => not_hasEnded_of_isRunning hrun hended
      have hwaiting := (waiting_mem_places h.wellFormed).mp hmem
      rw [Pending.waiting, hnone] at hwaiting
      exact absurd hwaiting List.not_mem_nil
  | answered o => exact ⟨o, hp⟩

end Run

/-! ## After the end -/

/-- The end is final.  By the cases of a move. -/
theorem hasEnded_of_move {m : Move ω} (hended : s.hasEnded) (h : s.move m = some t) :
    t.hasEnded := by
  have hphase := (hasEnded_iff s).mp hended
  have hidle : ¬ s.isListening := by simp [isListening, hphase]
  have hquiet : ∀ {u : Service ω}, s.Quiet u → u.hasEnded := fun hq => by
    rw [hasEnded_iff, hq.phase, hphase]
  -- Callers, workers and the gate do not touch the phase, and the loop has no move left.
  cases m with
  | request job w =>
      obtain ⟨-, rfl⟩ := Option.ite_some_none_eq_some.mp h
      rw [request, if_pos hended]
      exact hended
  | stop w =>
      obtain ⟨-, rfl⟩ := Option.ite_some_none_eq_some.mp h
      rw [stop, if_pos hended]
      exact hended
  | share =>
      obtain ⟨-, rfl⟩ := Option.ite_some_none_eq_some.mp h
      exact hended
  | unshare =>
      obtain ⟨-, rfl⟩ := Option.ite_some_none_eq_some.mp h
      exact hquiet (.unshare s)
  | setGate state =>
      obtain ⟨-, rfl⟩ := Option.ite_some_none_eq_some.mp h
      exact hquiet (.setGate s _)
  | releaseGate =>
      obtain ⟨-, rfl⟩ := Option.ite_some_none_eq_some.mp h
      exact hquiet (.setGate s _)
  | take k =>
      obtain ⟨pool, slot, w, -, -, -, rfl⟩ := exists_of_workerTakes h
      have hroused := Quiet.rouse (s.withPool (pool.setWorker k w)) (.room k)
      rw [hasEnded_iff]
      split
      · exact hroused.phase.trans hphase
      · exact (hroused.trans (.rouse _ .farewell)).phase.trans hphase
  | finish k task ending =>
      obtain ⟨-, hfinish⟩ := Option.ite_none_right_eq_some.mp h
      obtain ⟨pool, slot, w, c, -, -, -, rfl⟩ := exists_of_workerFinishes hfinish
      rw [if_pos hended]
      exact hended
  | pass | postpone =>
      cases h
      exact hended
  | rest =>
      cases h
      exact hquiet (.rest s)
  | begin | command | leave | dismiss | farewell => simp [move, hphase] at h
  | report | watch => simp [move, hidle] at h

/-- A request sent after the end is refused at once.  There is nobody left to take it out of the
channel, so the request is answered by the handle itself. -/
theorem refused_of_move (hended : s.hasEnded) {job : Job} {w : ω}
    (h : s.move (.request job w) = some t) : (w, .error .shuttingDown) ∈ t.answers := by
  obtain ⟨-, rfl⟩ := Option.ite_some_none_eq_some.mp h
  rw [request, if_pos hended]
  simp [answers, emit, Output.answer?]

/-- After the end every request is refused.  By induction on what happens after the end: an answer
given stays given. -/
theorem refused_of_play (hs : s.Sound) (hended : s.hasEnded) (h : s.play τ = some t) :
    t.hasEnded ∧ ∀ job w, (job, w) ∈ requested τ → (w, .error .shuttingDown) ∈ t.answers := by
  refine play_induction (P := fun τ t => t.hasEnded ∧ ∀ job w, (job, w) ∈ requested τ →
    (w, .error .shuttingDown) ∈ t.answers) ⟨hended, fun _ _ h => absurd h List.not_mem_nil⟩ ?_ h
  rintro τ m t u hplay ⟨hended, hrefused⟩ hmove
  obtain ⟨ds, hds⟩ := exists_tells_of_play hs hplay
  obtain ⟨es, hes⟩ := exists_tells_of_move hds.sound hmove
  refine ⟨hasEnded_of_move hended hmove, fun job w hmem => ?_⟩
  rw [requested_append] at hmem
  rcases List.mem_append.mp hmem with hold | hnew
  · have hprefix := hes.path.answered_isPrefix
    rw [← answers_eq, ← answers_eq] at hprefix
    exact hprefix.subset (hrefused job w hold)
  · cases m with
    | request job' w' =>
        obtain ⟨rfl, rfl⟩ := Prod.mk.inj (List.mem_singleton.mp hnew)
        exact refused_of_move hended hmove
    | _ => exact absurd hnew List.not_mem_nil

/-- **Every request is in exactly one place.**  In every state of every run a request is in the
channel, or waits once and under its own fingerprint, or has been answered once.  Requests that wait
in one entry are in the same place ever after, so they are answered alike.  When the service has
ended every request has been answered, and those sent later are told that it is shutting down. -/
theorem request_in_one_place [DecidableEq ω] (h : Run config gate τ s) :
    (∀ job w, (job, w) ∈ requested τ →
      ∃ p, s.places w = [p] ∧ ∀ k, p = .waiting k → k = job.fingerprint) ∧
    (∀ e ∈ s.core.pending.entries, ∀ v ∈ e.2, ∀ w ∈ e.2, ∀ τ' t, Run config gate (τ ++ τ') t →
      t.places v = t.places w) ∧
    (s.hasEnded →
      (∀ job w, (job, w) ∈ requested τ → ∃ o, s.places w = [.answered o]) ∧
      ∀ τ' t, Run config gate (τ ++ τ') t → ∀ job w, (job, w) ∈ requested τ' →
        t.places w = [.answered (.error .shuttingDown)]) := by
  refine ⟨fun job w hr => ?_, ?_, fun hended => ⟨fun job w hr => ?_, ?_⟩⟩
  · obtain ⟨p, hp⟩ := h.exists_place hr
    refine ⟨p, hp, ?_⟩
    rintro k rfl
    -- Whoever waits does so under his own key.
    have hmem : Place.waiting k ∈ s.places w := by simp [hp]
    exact h.waiting_own hr ((waiting_mem_places h.wellFormed).mp hmem)
  · rintro ⟨k, ws⟩ hentry v hv w hw τ' t h'
    have hws := Pending.waiting_of_mem_entries h.wellFormed.nodup hentry
    exact h.places_eq_of_waiting (k := k) (hws ▸ hv) (hws ▸ hw) h'
  · exact h.answered_of_hasEnded hended hr
  · intro τ' t h' job w hr
    have hplay := h'.played
    rw [play_append_of_play h.played] at hplay
    -- What is sent after the end is refused on the spot, and has no other place.
    obtain ⟨-, hrefused⟩ := refused_of_play h.sound hended hplay
    have hmem : Place.answered (.error .shuttingDown) ∈ t.places w :=
      answered_mem_places.mpr (hrefused job w hr)
    obtain ⟨p, hp⟩ := h'.exists_place (requested_append τ τ' ▸ List.mem_append_right _ hr)
    rw [hp] at hmem ⊢
    rw [List.mem_singleton.mp hmem]

/-- Two callers share a task that outlasts the grace period, a third waits in the queue, and a
fourth comes too late to be read. -/
def stoppedRun : List (Move Nat) :=
  [.begin, .request (.name "a") 0, .request (.name "a") 1, .request (.name "b") 2, .command,
    .command, .command, .take 0, .stop 9, .command, .pass 3000, .leave, .request (.name "c") 3,
    .dismiss, .dismiss, .pass 3000, .farewell]

theorem request_in_one_place_stopped :
    ∃ s t : Service Nat,
      Run { poolSize := 1 } Gate.opened stoppedRun s ∧ s.hasEnded ∧
      (∃ o, s.places 1 = [.answered o]) ∧ (∃ o, s.places 3 = [.answered o]) ∧
      Run { poolSize := 1 } Gate.opened (stoppedRun ++ [.request (.name "d") 4]) t ∧
      t.places 4 = [.answered (.error .shuttingDown)] := by
  have hplay : ((ofConfig { poolSize := 1 } Gate.opened : Service Nat).play stoppedRun).any
      (fun s => s.hasEnded && (s.move (.request (.name "d") 4)).isSome) := by
    decide +kernel
  obtain ⟨s, hs, hall⟩ := (Option.any_eq_true _ _).mp hplay
  obtain ⟨hended, hlate⟩ := Bool.and_eq_true_iff.mp hall
  obtain ⟨t, ht⟩ := Option.isSome_iff_exists.mp hlate
  have hrun := Run.mk hs (by decide)
  have hrun' : Run { poolSize := 1 } Gate.opened (stoppedRun ++ [.request (.name "d") 4]) t :=
    Run.mk ((play_append_of_play hs _).trans ((play_singleton s _).trans ht)) (by decide)
  obtain ⟨hearlier, hlater⟩ := (request_in_one_place hrun).2.2 hended
  exact ⟨s, t, hrun, hended, hearlier (.name "a") 1 (by decide), hearlier (.name "c") 3 (by decide),
    hrun', hlater _ t hrun' (.name "d") 4 (by decide)⟩

end Service

end AvatarPool
