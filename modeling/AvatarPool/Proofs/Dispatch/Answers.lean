import AvatarPool.Proofs.Dispatch.Ledger

/-! # Who is told what

A deed answers at most one caller at the door, or everyone who waits under one key, or everyone who
waits.  So every caller who was let in waits or has been told, never both and never twice, and
callers who wait under one key are told the same.

The answers are read off the effects, which only grow; so an answer that has been given stays, and
in its order.  What a deed adds is classified once, as `Tidings`, with one constructor for each way
of telling callers something.  The three laws of the module, about conservation, about keys and
about companions, are proved by these five cases instead of the eleven deeds. -/

namespace AvatarPool

variable {ω : Type}

/-- The answer that an effect gives. -/
def Effect.answer? : Effect ω → Option (ω × Outcome)
  | .answered caller outcome => some (caller, outcome)
  | _ => none

namespace Dispatcher

variable {d d' : Dispatcher ω}

/-- The answers given, in order. -/
def answered (d : Dispatcher ω) : List (ω × Outcome) := d.effects.filterMap Effect.answer?

theorem answered_note (d : Dispatcher ω) (es : List (Effect ω)) :
    (d.note es).answered = d.answered ++ es.filterMap Effect.answer? :=
  filterMap_note d es

/-- Telling everyone of a list gives an answer to each, in the order of the list. -/
theorem filterMap_answers (ws : List ω) (o : Outcome) :
    (ws.map fun w => Effect.answered w o).filterMap Effect.answer? = ws.map fun w => (w, o) := by
  rw [List.filterMap_map]
  exact congrFun List.filterMap_eq_map ws

/-- Who waits under the key is told, and nobody else. -/
theorem answered_answerAll (d : Dispatcher ω) (k : Fingerprint) (o : Outcome) :
    (d.answerAll k o).answered = d.answered ++ (d.pending.waiting k).map fun w => (w, o) := by
  have hnote : (d.answerAll k o).answered =
      d.answered ++ ((d.pending.waiting k).map fun w => Effect.answered w o).filterMap
        Effect.answer? := answered_note _ _
  rw [hnote, filterMap_answers]

/-- A rejection is told to all who wait for the task; the note of it is no answer. -/
theorem answered_reject (d : Dispatcher ω) (task : Task) (why : Failure) :
    (d.reject task why).answered =
      d.answered ++ (d.pending.waiting task.fingerprint).map fun w => (w, .error why) := by
  unfold reject
  rw [answered_answerAll, answered_note]
  simp [Effect.answer?, note]

/-- A report is told to all who wait under its key.  What is booked of it before changes neither the
answers nor who waits. -/
theorem answered_settle (d : Dispatcher ω) (c : WorkReport) :
    (d.settle c).answered =
      d.answered ++ (d.pending.waiting c.fingerprint).map fun w => (w, c.outcome) := by
  have hbook : ((d.releaseWorker c.worker).book c).answered = d.answered ∧
      ((d.releaseWorker c.worker).book c).pending = d.pending := by
    unfold book
    cases c.outcome <;> exact ⟨rfl, rfl⟩
  unfold settle
  rw [answered_answerAll, hbook.1, hbook.2]

theorem answered_see (d : Dispatcher ω) (state : Readiness) : (d.see state).answered = d.answered :=
  filterMap_see (fun _ => rfl) (fun _ => rfl) d state

/-- Everyone who waits is told the same, key by key. -/
theorem answered_rejectPending (d : Dispatcher ω) (why : Failure) :
    (d.rejectPending why).answered =
      d.answered ++ d.pending.callers.map fun w => (w, .error why) := by
  have hnote : (d.rejectPending why).answered =
      d.answered ++ (answers (.error why) d.pending.entries).filterMap Effect.answer? :=
    answered_note _ _
  rw [hnote, answers, Pending.callers, List.filterMap_flatMap, List.map_flatMap]
  simp only [filterMap_answers]

/-! ## What a deed tells -/

/-- **What a deed does to callers**: it tells one at the door, lets one in, tells all of one key,
tells everyone, or nobody. -/
inductive Tidings (d : Dispatcher ω) (x : Deed ω) (d' : Dispatcher ω) : Prop
  | told (job : Job) (w : ω) (o : Outcome) (hx : x.request? = some (job, w))
      (hp : d'.pending = d.pending) (ha : d'.answered = d.answered ++ [(w, o)])
  | entered (job : Job) (w : ω) (hx : x.request? = some (job, w))
      (hp : d'.pending = (d.pending.enter job.fingerprint w).1) (ha : d'.answered = d.answered)
  | closed (k : Fingerprint) (o : Outcome) (hx : x.request? = none)
      (hp : d'.pending = (d.pending.close k).1)
      (ha : d'.answered = d.answered ++ (d.pending.waiting k).map fun w => (w, o))
  | emptied (o : Outcome) (hx : x.request? = none) (hp : d'.pending = {})
      (ha : d'.answered = d.answered ++ d.pending.callers.map fun w => (w, o))
  | same (hx : x.request? = none) (hp : d'.pending = d.pending) (ha : d'.answered = d.answered)

/-- Answers at the door come from the cache or are refusals; a caller who joins or opens a task
waits; reports and rejections close a key; a failed gate or a stop empties the table. -/
theorem Does.tidings {x : Deed ω} (hx : Does d x d') : Tidings d x d' := by
  cases hx with
  | hit w => exact .told _ w _ rfl rfl (answered_note _ _)
  | refused w => exact .told _ w _ rfl rfl (answered_note _ _)
  | joined w => exact .entered _ w rfl rfl rfl
  | opened w => exact .entered _ w rfl rfl ((answered_note _ _).trans (List.append_nil _))
  | handed => exact .same rfl rfl ((answered_note _ _).trans (List.append_nil _))
  | dropped why => exact .closed _ _ rfl rfl (answered_reject _ _ _)
  | settled => exact .closed _ _ rfl (settle_pending _ _) (answered_settle _ _)
  | observed state => exact .same rfl (see_pending _ _) (answered_see _ _)
  | worked => exact .same rfl rfl rfl
  | cleared why => exact .emptied _ rfl rfl (answered_rejectPending _ _)
  | late job w => exact .told job w _ rfl rfl (answered_note _ _)

/-! ## Nobody is lost or told twice -/

/-- Those who wait and those who have been told.  The list is taken as a whole, up to its order,
since a deed moves callers from one part to the other. -/
def served (d : Dispatcher ω) : List ω := d.pending.callers ++ d.answered.map Prod.fst

/-- The caller who comes is one more, and nobody else comes or goes. -/
theorem Does.served_perm {x : Deed ω} (hx : Does d x d') (h : d.pending.WellFormed) :
    d'.served.Perm (x.request?.toList.map Prod.snd ++ d.served) := by
  unfold served
  cases hx.tidings with
  | told job w o hreq hp ha =>
      rw [hreq, hp, ha, List.map_append, ← List.append_assoc]
      exact List.perm_append_singleton w _
  | entered job w hreq hp ha =>
      rw [hreq, hp, ha]
      exact (Pending.callers_enter_perm h.nodup _ w).append_right _
  | closed k o hreq hp ha =>
      rw [hreq, hp, ha, List.map_append, List.map_map]
      have hws : (d.pending.waiting k).map (Prod.fst ∘ fun w => (w, o)) = d.pending.waiting k :=
        List.map_id _
      rw [hws]
      -- Who waited under the key moves from the table to the end of the answers.
      calc ((d.pending.close k).1.callers ++ (d.answered.map Prod.fst ++ d.pending.waiting k)).Perm
            (d.pending.waiting k ++ (d.pending.close k).1.callers ++ d.answered.map Prod.fst) := by
            rw [← List.append_assoc, List.append_assoc (d.pending.waiting k)]
            exact List.perm_append_comm
        _ |>.Perm (d.pending.callers ++ d.answered.map Prod.fst) :=
            (Pending.callers_close_perm h.nodup k).append_right _
  -- Everyone moves at once.
  | emptied o hreq hp ha =>
      rw [hreq, hp, ha, List.map_append, List.map_map]
      have hws : d.pending.callers.map (Prod.fst ∘ fun w => (w, o)) = d.pending.callers :=
        List.map_id _
      rw [hws]
      show (d.answered.map Prod.fst ++ d.pending.callers).Perm
        (d.pending.callers ++ d.answered.map Prod.fst)
      exact List.perm_append_comm
  | same hreq hp ha =>
      rw [hreq, hp, ha]
      exact List.Perm.refl _

/-- **Conservation.**  Along a path, those who came wait or have been told, each exactly once.  By
induction on the path, each deed of which adds those who came by it. -/
theorem Path.served_perm {ds : List (Deed ω)} (hpath : Path d ds d') (h : d.pending.WellFormed) :
    d'.served.Perm ((ds.filterMap Deed.request?).map Prod.snd ++ d.served) := by
  induction hpath with
  | nil => exact List.Perm.refl _
  | @snoc d' d'' ds x hpath hx ih =>
      have hstep := hx.served_perm (hpath.wellFormed h)
      rw [filterMap_snoc, List.map_append, List.append_assoc]
      refine hstep.trans ((ih.append_left _).trans ?_)
      rw [← List.append_assoc, ← List.append_assoc]
      exact List.perm_append_comm.append_right _

/-! ## Everyone waits for what he asked for -/

/-- Only who is let in by this deed waits anew, and under the key of its own job. -/
theorem Does.mem_waiting {x : Deed ω} (hx : Does d x d') {k : Fingerprint} {w : ω}
    (hw : w ∈ d'.pending.waiting k) :
    w ∈ d.pending.waiting k ∨ ∃ job, x.request? = some (job, w) ∧ job.fingerprint = k := by
  cases hx.tidings with
  | told job v o hreq hp ha => exact .inl (hp ▸ hw)
  | entered job v hreq hp ha =>
      rw [hp, Pending.waiting_enter] at hw
      split at hw
      · rename_i hk
        rcases List.mem_append.mp hw with hold | hnew
        · exact .inl (hk ▸ hold)
        · rw [List.mem_singleton.mp hnew]
          exact .inr ⟨job, hreq, hk.symm⟩
      · exact .inl hw
  | closed j o hreq hp ha =>
      rw [hp, Pending.waiting_close] at hw
      split at hw
      · exact absurd hw List.not_mem_nil
      · exact .inl hw
  | emptied o hreq hp ha =>
      rw [hp] at hw
      exact absurd hw List.not_mem_nil
  | same hreq hp ha => exact .inl (hp ▸ hw)

/-- Who waits under a key has waited there from the start or has come for it.  By induction on the
path; so nobody is told the answer to a job that it did not ask for. -/
theorem Path.mem_waiting {ds : List (Deed ω)} (hpath : Path d ds d') {k : Fingerprint} {w : ω}
    (hw : w ∈ d'.pending.waiting k) :
    w ∈ d.pending.waiting k ∨ ∃ job, (job, w) ∈ ds.filterMap Deed.request? ∧
      job.fingerprint = k := by
  induction hpath with
  | nil => exact .inl hw
  | snoc _ hx ih =>
      rw [filterMap_snoc]
      rcases hx.mem_waiting hw with hold | ⟨job, hreq, hk⟩
      · rcases ih hold with hfirst | ⟨job, hmem, hk⟩
        · exact .inl hfirst
        · exact .inr ⟨job, List.mem_append_left _ hmem, hk⟩
      · exact .inr ⟨job, List.mem_append_right _ (by simp [hreq]), hk⟩

/-! ## Companions -/

/-- Two callers wait under one key, or have been told the same.  The first is true of callers who
have joined one task, and the second is what becomes of it. -/
def Together (d : Dispatcher ω) (v w : ω) : Prop :=
  (∃ k, v ∈ d.pending.waiting k ∧ w ∈ d.pending.waiting k) ∨
    ∃ o, (v, o) ∈ d.answered ∧ (w, o) ∈ d.answered

theorem Does.together {x : Deed ω} (hx : Does d x d') (h : d.pending.WellFormed) {v w : ω}
    (hvw : d.Together v w) : d'.Together v w := by
  -- Whatever else is answered, an answer that both have got stays.
  have hgrow : ∀ {as : List (ω × Outcome)}, d'.answered = d.answered ++ as →
      (∃ o, (v, o) ∈ d.answered ∧ (w, o) ∈ d.answered) → d'.Together v w := by
    rintro as ha ⟨o, hv, hw⟩
    exact .inr ⟨o, ha ▸ List.mem_append_left _ hv, ha ▸ List.mem_append_left _ hw⟩
  -- Where everyone of a list is told, both are, if both are on it.
  have htold : ∀ {ws : List ω} {o : Outcome},
      d'.answered = d.answered ++ (ws.map fun w => (w, o)) → v ∈ ws → w ∈ ws →
      d'.Together v w := by
    intro ws o ha hv hw
    refine .inr ⟨o, ?_, ?_⟩
    · exact ha ▸ List.mem_append_right _ (List.mem_map.mpr ⟨v, hv, rfl⟩)
    · exact ha ▸ List.mem_append_right _ (List.mem_map.mpr ⟨w, hw, rfl⟩)
  -- An answer stays once it is given, so only who waits has to be followed.
  cases hx.tidings with
  | told job u o hreq hp ha =>
      rcases hvw with hwait | hold
      · exact .inl (hp ▸ hwait)
      · exact hgrow ha hold
  | entered job u hreq hp ha =>
      rcases hvw with ⟨k, hv, hw⟩ | hold
      · refine .inl ⟨k, ?_⟩
        rw [hp, Pending.waiting_enter]
        split
        · rename_i hk
          exact ⟨List.mem_append_left _ (hk ▸ hv), List.mem_append_left _ (hk ▸ hw)⟩
        · exact ⟨hv, hw⟩
      · exact hgrow (ha.trans (List.append_nil _).symm) hold
  | closed j o hreq hp ha =>
      rcases hvw with ⟨k, hv, hw⟩ | hold
      -- Either it is their key that is closed, or they wait on.
      · by_cases hk : k = j
        · exact htold ha (hk ▸ hv) (hk ▸ hw)
        · refine .inl ⟨k, ?_⟩
          rw [hp, Pending.waiting_close, if_neg hk]
          exact ⟨hv, hw⟩
      · exact hgrow ha hold
  | emptied o hreq hp ha =>
      rcases hvw with ⟨k, hv, hw⟩ | hold
      · exact htold ha ((Pending.mem_callers_iff h.nodup).mpr ⟨k, hv⟩)
          ((Pending.mem_callers_iff h.nodup).mpr ⟨k, hw⟩)
      · exact hgrow ha hold
  | same hreq hp ha =>
      rcases hvw with hwait | hold
      · exact .inl (hp ▸ hwait)
      · exact hgrow (ha.trans (List.append_nil _).symm) hold

/-- **Companions stay together**: who waits under one key is told the same.  Whatever the deeds, so
that neither a failed gate nor a stop in between can part them. -/
theorem Path.together {ds : List (Deed ω)} (hpath : Path d ds d') (h : d.pending.WellFormed)
    {v w : ω} (hvw : d.Together v w) : d'.Together v w := by
  induction hpath with
  | nil => exact hvw
  | snoc hpath hx ih => exact hx.together (hpath.wellFormed h) ih

/-- Answers are given in an order, to which later ones are added at the end. -/
theorem Path.answered_isPrefix {ds : List (Deed ω)} (hpath : Path d ds d') :
    d.answered <+: d'.answered :=
  hpath.effects_isPrefix.filterMap _

end Dispatcher

end AvatarPool
