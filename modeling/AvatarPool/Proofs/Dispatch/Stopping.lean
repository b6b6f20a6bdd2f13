import AvatarPool.Proofs.Dispatch.Answers
import AvatarPool.Proofs.Dispatch.Tally

/-! # The dispatcher once it stops

From the beginning of a stop no request is admitted.  With an empty queue the dispatcher then only
settles reports, observes the gate, and at last rejects everyone who waits: nothing is handed out or
counted as a request, nobody comes to wait, and each task that is still with a worker is settled at
most once, for all who wait for it.

The deeds of a stopping dispatcher are given by `Deed.isStopping`, and most of the module says what
such deeds cannot do.  Two things have to be shown about the way there: that once a stop has begun
only such deeds are possible, for lack of queued tasks, and that rejecting the queue reaches all who
wait for a queued task and nobody else. -/

namespace AvatarPool

variable {ω : Type}

/-- Whether a deed can be done once a stop has begun. -/
def Deed.isStopping : Deed ω → Bool
  | .accept _ _ | .hand _ _ | .drop _ _ => false
  | _ => true

/-- The size of the pool that an effect opens. -/
def Effect.started? : Effect ω → Option Nat
  | .started size => some size
  | _ => none

/-- The counters of requests and of tasks handed out. -/
def Stats.intake (s : Stats) : List UInt64 := [s.requests, s.cacheHits, s.coalesced, s.dispatched]

namespace Dispatcher

variable {d d' : Dispatcher ω} {x : Deed ω} {ds : List (Deed ω)} {k : Fingerprint} {w : ω}
  {o : Outcome}

/-! ## The pool is opened once -/

/-- The sizes of the pools opened, once for each time. -/
def started (d : Dispatcher ω) : List Nat := d.effects.filterMap Effect.started?

theorem started_note_of_forall {es : List (Effect ω)} (h : ∀ e ∈ es, e.started? = none) :
    (d.note es).started = d.started :=
  filterMap_note_of_forall h

theorem started_answerAll (d : Dispatcher ω) (k : Fingerprint) (o : Outcome) :
    (d.answerAll k o).started = d.started :=
  filterMap_answerAll (fun _ _ => rfl) d k o

/-- A deed opens a pool only where there is none. -/
theorem Does.started (hx : Does d x d') :
    d'.started = d.started ∨ (d.pool = none ∧ d'.pool ≠ none) := by
  cases hx with
  | hit | refused | opened | handed | late =>
      exact .inl (started_note_of_forall (by simp [Effect.started?]))
  | joined | worked => exact .inl rfl
  | dropped =>
      unfold reject
      rw [started_answerAll, started_note_of_forall (by simp [Effect.started?])]
      exact .inl rfl
  | settled => exact .inl (filterMap_settle (fun _ _ => rfl) _ _)
  | observed state =>
      -- Only a gate that is ready opens a pool, where there is none.
      cases state with
      | pending => exact .inl rfl
      | ready =>
          rcases Option.eq_none_or_eq_some d.pool with hp | ⟨pool, hp⟩
          · exact .inr ⟨hp, by simp [see, openPool, hp, note]⟩
          · exact .inl (by simp [see, openPool, hp, Dispatcher.started])
      | failed => exact .inl (started_note_of_forall (by simp [Effect.started?]))
  | cleared why => exact .inl (filterMap_rejectPending (fun _ _ => rfl) _ why)

/-- A pool stays. -/
theorem Does.pool_ne_none (hx : Does d x d') (hp : d.pool ≠ none) : d'.pool ≠ none := by
  cases hx with
  | handed | worked => exact Option.some_ne_none _
  | settled => rwa [settle_pool, ne_eq, Option.map_eq_none_iff]
  | observed state =>
      cases state with
      | ready =>
          obtain ⟨pool, hpool⟩ := Option.ne_none_iff_exists'.mp hp
          simp [see, openPool, hpool]
      | _ => exact hp
  | _ => exact hp

theorem Path.pool_ne_none (hpath : Path d ds d') (hp : d.pool ≠ none) : d'.pool ≠ none := by
  induction hpath with
  | nil => exact hp
  | snoc _ hx ih => exact hx.pool_ne_none ih

/-- **A pool is opened only where there is none**, and then it stays. -/
theorem Path.started (hpath : Path d ds d') :
    d'.started = d.started ∨ (d.pool = none ∧ d'.pool ≠ none) := by
  induction hpath with
  | nil => exact .inl rfl
  | snoc hpath hx ih =>
      rcases ih with hsame | ⟨hnone, hsome⟩
      · rcases hx.started with hsame' | ⟨hnone, hsome⟩
        · exact .inl (hsame'.trans hsame)
        · exact .inr ⟨of_not_not fun hp => hpath.pool_ne_none hp hnone, hsome⟩
      · exact .inr ⟨hnone, hx.pool_ne_none hsome⟩

/-! ## The queue is rejected -/

/-- Rejecting tasks tells whoever waits for one of them.  By induction on the tasks: a caller is
told with the first task under its key, and an answer is not taken back. -/
theorem mem_answered_rejectFrom {t : Task} {ts : List Task} (ht : t ∈ ts)
    (hw : w ∈ d.pending.waiting t.fingerprint) (why : Failure) :
    (w, .error why) ∈ (ts.foldl (fun d t => d.reject t why) d).answered := by
  induction ts generalizing d with
  | nil => exact absurd ht List.not_mem_nil
  | cons u rest ih =>
      rw [List.foldl_cons]
      -- The task rejected first has this key, or the callers still wait.
      by_cases hk : t.fingerprint = u.fingerprint
      -- The callers are told with the first task of their fingerprint.
      · have htold : (w, .error why) ∈ (d.reject u why).answered := by
          rw [answered_reject, ← hk]
          exact List.mem_append_right _ (List.mem_map.mpr ⟨w, hw, rfl⟩)
        exact (rejectFrom_path (d := d.reject u why) rest why).answered_isPrefix.subset htold
      · have hrest : t ∈ rest := by
          rcases List.mem_cons.mp ht with rfl | hmem
          · exact absurd rfl hk
          · exact hmem
        refine ih hrest ?_
        show w ∈ (d.pending.close u.fingerprint).1.waiting t.fingerprint
        rw [Pending.waiting_close, if_neg hk]
        exact hw

/-- Rejecting the queue tells all who wait for a queued task. -/
theorem mem_answered_rejectQueue {t : Task} (ht : t ∈ d.queue)
    (hw : w ∈ d.pending.waiting t.fingerprint) (why : Failure) :
    (w, .error why) ∈ (d.rejectQueue why).answered :=
  mem_answered_rejectFrom ht hw why

/-- Rejecting tasks tells nobody who waits under another key.  By induction on the tasks: each
rejection closes one entry, and not this one. -/
theorem waiting_rejectFrom {ts : List Task} (hk : ∀ t ∈ ts, t.fingerprint ≠ k) (why : Failure) :
    (ts.foldl (fun d t => d.reject t why) d).pending.waiting k = d.pending.waiting k := by
  induction ts generalizing d with
  | nil => rfl
  | cons t rest ih =>
      rw [List.foldl_cons, ih fun u hu => hk u (List.mem_cons_of_mem t hu)]
      show (d.pending.close t.fingerprint).1.waiting k = _
      rw [Pending.waiting_close, if_neg (Ne.symm (hk t List.mem_cons_self))]

/-- Rejecting the queue tells nobody who waits for a task under way. -/
theorem waiting_rejectQueue (hk : ∀ t ∈ d.queue, t.fingerprint ≠ k) (why : Failure) :
    (d.rejectQueue why).pending.waiting k = d.pending.waiting k :=
  waiting_rejectFrom hk why

/-- The three are kept together, since each rejection keeps all of them. -/
theorem rejectFrom_keeps (ts : List Task) (why : Failure) :
    (ts.foldl (fun d t => d.reject t why) d).stats = d.stats ∧
      (ts.foldl (fun d t => d.reject t why) d).handedKeys = d.handedKeys ∧
      (ts.foldl (fun d t => d.reject t why) d).started = d.started := by
  induction ts generalizing d with
  | nil => exact ⟨rfl, rfl, rfl⟩
  | cons t rest ih =>
      obtain ⟨hstats, hhanded, hstarted⟩ := ih (d := d.reject t why)
      refine ⟨hstats, hhanded.trans (handedKeys_reject d t why), hstarted.trans ?_⟩
      unfold reject
      rw [started_answerAll, started_note_of_forall (by simp [Effect.started?])]

/-- Rejecting the queue counts nothing, hands out nothing and opens no pool. -/
theorem rejectQueue_keeps (d : Dispatcher ω) (why : Failure) :
    (d.rejectQueue why).stats = d.stats ∧ (d.rejectQueue why).handedKeys = d.handedKeys ∧
      (d.rejectQueue why).started = d.started :=
  rejectFrom_keeps d.queue why

/-- Rejecting tasks does not look at the effects before.  By induction on the tasks. -/
theorem after_rejectFrom (ts : List Task) (why : Failure) (es : List (Effect ω)) :
    (ts.foldl (fun d t => d.reject t why) d).after es =
      ts.foldl (fun d t => d.reject t why) (d.after es) := by
  induction ts generalizing d with
  | nil => rfl
  | cons t rest ih => rw [List.foldl_cons, List.foldl_cons, ih, after_reject]

/-- Rejecting the queue does not look at effects. -/
theorem after_rejectQueue (d : Dispatcher ω) (why : Failure) (es : List (Effect ω)) :
    (d.rejectQueue why).after es = (d.after es).rejectQueue why :=
  congrArg (fun e : Dispatcher ω => { e with queue := [] }) (after_rejectFrom d.queue why es)

/-! ## What stays as it is -/

/-- Of the deeds left none touches the queue. -/
theorem Does.queue_of_isStopping (hx : Does d x d') (hs : x.isStopping) : d'.queue = d.queue := by
  cases hx with
  | hit | refused | joined | opened | handed | dropped => cases hs
  | settled => exact settle_queue _ _
  | observed state => exact see_queue _ _
  | worked | cleared | late => rfl

/-- **Only what has been admitted can be handed out**: with nothing queued and nobody admitted, no
task leaves or enters the queue.  By induction on the path: as long as the queue is empty, neither
of the deeds that take a task off it can be done. -/
theorem Path.isStopping_of_queue (hpath : Path d ds d') (hq : d.queue = [])
    (haccept : ∀ job w, .accept job w ∉ ds) :
    (∀ x ∈ ds, x.isStopping) ∧ d'.queue = [] := by
  induction hpath with
  | nil => exact ⟨nofun, hq⟩
  | @snoc d' d'' ds x _ hx ih =>
      obtain ⟨hall, hq'⟩ := ih fun job w hmem => haccept job w (List.mem_append_left _ hmem)
      have hlast : x.isStopping := by
        cases hx with
        | hit | refused | joined | opened =>
            exact absurd (List.mem_append_right ds (List.mem_singleton_self _)) (haccept _ _)
        | handed _ hq => rw [hq'] at hq; cases hq
        | dropped _ hq => rw [hq'] at hq; cases hq
        | _ => rfl
      refine ⟨fun y hy => ?_, (hx.queue_of_isStopping hlast).trans hq'⟩
      rcases List.mem_append.mp hy with hold | hnew
      · exact hall y hold
      · rw [List.mem_singleton.mp hnew]
        exact hlast

/-- Nothing is counted as a request or a hand-over. -/
theorem Does.intake_of_isStopping (hx : Does d x d') (hs : x.isStopping) :
    d'.stats.intake = d.stats.intake := by
  cases hx with
  | hit | refused | joined | opened | handed | dropped => cases hs
  | @settled c =>
      unfold settle book
      cases c.outcome <;> rfl
  | observed state => rw [see_stats]
  | worked | cleared | late => rfl

/-- During a stop nothing is counted as a request or a hand-over.  By induction on the path. -/
theorem Path.intake_of_isStopping (hpath : Path d ds d') (hs : ∀ x ∈ ds, x.isStopping) :
    d'.stats.intake = d.stats.intake := by
  induction hpath with
  | nil => rfl
  | snoc _ hx ih =>
      rw [hx.intake_of_isStopping (hs _ (by simp))]
      exact ih fun x hmem => hs x (List.mem_append_left _ hmem)

/-- There is nothing queued to be handed out. -/
theorem Path.handedKeys_of_isStopping (hpath : Path d ds d') (hq : d.queue = [])
    (hs : ∀ x ∈ ds, x.isStopping) : d'.handedKeys = d.handedKeys ∧ d'.queue = [] := by
  induction hpath with
  | nil => exact ⟨rfl, hq⟩
  | snoc _ hx ih =>
      obtain ⟨hhanded, hq'⟩ := ih fun x hmem => hs x (List.mem_append_left _ hmem)
      refine ⟨?_, (hx.queue_of_isStopping (hs _ (by simp))).trans hq'⟩
      -- A task would have to come off the queue, which is empty.
      rcases hx.handedKeys with hsame | ⟨task, hmem, -⟩
      · exact hsame.trans hhanded
      · rw [hq'] at hmem
        exact absurd hmem List.not_mem_nil

/-! ## Who waits, and who is told

During a stop the entries only become fewer.  So who waits at some point has waited at its
beginning, and under the same key; what is said about the callers of an entry can be said about
those at the beginning. -/

/-- Nobody comes to wait. -/
theorem Does.waiting_of_isStopping (hx : Does d x d') (hs : x.isStopping)
    (hk : k ∈ d'.pending.keys) :
    k ∈ d.pending.keys ∧ d'.pending.waiting k = d.pending.waiting k := by
  cases hx with
  -- Deeds of a dispatcher that still admits are excluded; of the others only a report closes an
  -- entry.
  | hit | refused | joined | opened | handed | dropped => cases hs
  | settled =>
      rw [settle_pending] at hk ⊢
      obtain ⟨hmem, hne⟩ := Pending.mem_keys_close.mp hk
      exact ⟨hmem, by rw [Pending.waiting_close, if_neg hne]⟩
  | observed =>
      rw [see_pending] at hk ⊢
      exact ⟨hk, rfl⟩
  | worked | late => exact ⟨hk, rfl⟩
  | cleared => exact absurd hk List.not_mem_nil

/-- Whoever waits during a stop has waited since its beginning.  By induction on the path, backwards
from an entry that is still there. -/
theorem Path.waiting_of_isStopping (hpath : Path d ds d') (hs : ∀ x ∈ ds, x.isStopping)
    (hk : k ∈ d'.pending.keys) :
    k ∈ d.pending.keys ∧ d'.pending.waiting k = d.pending.waiting k := by
  induction hpath with
  | nil => exact ⟨hk, rfl⟩
  | snoc _ hx ih =>
      obtain ⟨hmem, hsame⟩ := hx.waiting_of_isStopping (hs _ (by simp)) hk
      obtain ⟨hfirst, hall⟩ := ih (fun x hx => hs x (List.mem_append_left _ hx)) hmem
      exact ⟨hfirst, hsame.trans hall⟩

theorem Path.mem_waiting_of_isStopping (hpath : Path d ds d') (hs : ∀ x ∈ ds, x.isStopping)
    (hw : w ∈ d'.pending.waiting k) : w ∈ d.pending.waiting k := by
  obtain ⟨-, hsame⟩ := hpath.waiting_of_isStopping hs (Pending.mem_keys_of_mem_waiting hw)
  exact hsame ▸ hw

/-- Who is told, and has not waited, is told that the service is shutting down. -/
theorem Does.answered_of_isStopping (hx : Does d x d') (hs : x.isStopping)
    (h : d.pending.WellFormed) (ho : (w, o) ∈ d'.answered) :
    (w, o) ∈ d.answered ∨ (∃ k, w ∈ d.pending.waiting k) ∨ o = .error .shuttingDown := by
  cases hx with
  | hit | refused | joined | opened | handed | dropped => cases hs
  | settled =>
      rw [answered_settle] at ho
      rcases List.mem_append.mp ho with hold | hnew
      · exact .inl hold
      · obtain ⟨v, hv, heq⟩ := List.mem_map.mp hnew
        obtain ⟨rfl, -⟩ := Prod.mk.inj heq
        exact .inr (.inl ⟨_, hv⟩)
  | observed => rw [answered_see] at ho; exact .inl ho
  | worked => exact .inl ho
  | cleared why =>
      rw [answered_rejectPending] at ho
      rcases List.mem_append.mp ho with hold | hnew
      · exact .inl hold
      · obtain ⟨v, hv, heq⟩ := List.mem_map.mp hnew
        obtain ⟨rfl, -⟩ := Prod.mk.inj heq
        exact .inr (.inl ((Pending.mem_callers_iff h.nodup).mp hv))
  | late job v =>
      rw [answered_note] at ho
      rcases List.mem_append.mp ho with hold | hnew
      · exact .inl hold
      · obtain ⟨-, rfl⟩ := Prod.mk.inj (List.mem_singleton.mp hnew)
        exact .inr (.inr rfl)

/-- Whoever is told during a stop has waited at its beginning, or comes too late and is refused.  By
induction on the path. -/
theorem Path.answered_of_isStopping (hpath : Path d ds d') (hs : ∀ x ∈ ds, x.isStopping)
    (h : d.pending.WellFormed) (ho : (w, o) ∈ d'.answered) :
    (w, o) ∈ d.answered ∨ (∃ k, w ∈ d.pending.waiting k) ∨ o = .error .shuttingDown := by
  induction hpath with
  | nil => exact .inl ho
  | snoc hpath hx ih =>
      have hs' := fun x hx => hs x (List.mem_append_left _ hx)
      rcases hx.answered_of_isStopping (hs _ (by simp)) (hpath.wellFormed h) ho with
        hold | ⟨k, hk⟩ | hlate
      · exact ih hs' hold
      · exact .inr (.inl ⟨k, hpath.mem_waiting_of_isStopping hs' hk⟩)
      · exact .inr (.inr hlate)

/-! ## Reports are settled -/

/-- Who waits under a key is told by the report of its task, if that is settled. -/
theorem Does.settled_of_isStopping (hx : Does d x d') (hs : x.isStopping)
    (hclear : ∀ why, x ≠ .clear why) (hw : w ∈ d.pending.waiting k) :
    (w ∈ d'.pending.waiting k ∧ ∀ c, x.report? = some c → c.fingerprint ≠ k) ∨
      ∃ c, x.report? = some c ∧ c.fingerprint = k ∧ (w, c.outcome) ∈ d'.answered := by
  cases hx with
  | hit | refused | joined | opened | handed | dropped => cases hs
  | @settled c =>
      -- The report is for this key, and tells all who wait under it, or it is for another one.
      by_cases hk : c.fingerprint = k
      · subst hk
        right
        refine ⟨c, rfl, rfl, ?_⟩
        rw [answered_settle]
        exact List.mem_append_right _ (List.mem_map.mpr ⟨w, hw, rfl⟩)
      · left
        rw [settle_pending, Pending.waiting_close, if_neg (Ne.symm hk)]
        refine ⟨hw, fun c' hc' => ?_⟩
        cases hc'
        exact hk
  | observed => rw [see_pending]; exact .inl ⟨hw, nofun⟩
  | worked | late => exact .inl ⟨hw, nofun⟩
  | cleared why => exact absurd rfl (hclear why)

/-- Whoever waits for a task during a stop is told by its report, as long as nobody is given up.  By
induction on the path: until the report comes they wait, and once it has come the answer stays. -/
theorem Path.settled_of_isStopping (hpath : Path d ds d') (hs : ∀ x ∈ ds, x.isStopping)
    (hclear : ∀ why, .clear why ∉ ds) (hw : w ∈ d.pending.waiting k) :
    (w ∈ d'.pending.waiting k ∧ ∀ c ∈ ds.filterMap Deed.report?, c.fingerprint ≠ k) ∨
      ∃ c ∈ ds.filterMap Deed.report?, c.fingerprint = k ∧ (w, c.outcome) ∈ d'.answered := by
  induction hpath with
  | nil => exact .inl ⟨hw, nofun⟩
  | @snoc d' d'' ds x hpath hx ih =>
      have hs' := fun y hy => hs y (List.mem_append_left [x] hy)
      have hclear' : ∀ why, .clear why ∉ ds := fun why hmem =>
        hclear why (List.mem_append_left _ hmem)
      have hlast : ∀ why, x ≠ .clear why := by
        rintro why rfl
        exact hclear why (by simp)
      rw [filterMap_snoc]
      -- Either they still wait at this deed, or they have been told before.
      rcases ih hs' hclear' with ⟨hwait, hnone⟩ | ⟨c, hc, hk, htold⟩
      · rcases hx.settled_of_isStopping (hs x (by simp)) hlast hwait with
          ⟨hwait', hnone'⟩ | ⟨c, hc, hk, htold⟩
        · refine .inl ⟨hwait', fun c hc => ?_⟩
          rcases List.mem_append.mp hc with hold | hnew
          · exact hnone c hold
          · exact hnone' c (Option.mem_toList.mp hnew)
        · exact .inr ⟨c, List.mem_append_right _ (Option.mem_toList.mpr hc), hk, htold⟩
      · refine .inr ⟨c, List.mem_append_left _ hc, hk, ?_⟩
        exact hx.path.answered_isPrefix.subset htold

/-- **Each task is settled once.**  A report takes its key out of the ledger, and without new
callers no key comes back. -/
theorem Path.nodup_settled (hpath : Path d ds d') (hl : d.Ledger) (hs : ∀ x ∈ ds, x.isStopping)
    (hclear : ∀ why, .clear why ∉ ds) :
    ((ds.filterMap Deed.report?).map WorkReport.fingerprint).Nodup ∧
      ∀ k ∈ (ds.filterMap Deed.report?).map WorkReport.fingerprint, k ∉ d'.pending.keys := by
  induction hpath with
  | nil => exact ⟨List.nodup_nil, nofun⟩
  | @snoc d' d'' ds x hpath hx ih =>
      have hs' := fun y hy => hs y (List.mem_append_left [x] hy)
      have hclear' : ∀ why, .clear why ∉ ds := fun why hmem =>
        hclear why (List.mem_append_left _ hmem)
      obtain ⟨hnodup, hclosed⟩ := ih hs' hclear'
      have hclosed' : ∀ k ∈ (ds.filterMap Deed.report?).map WorkReport.fingerprint,
          k ∉ d''.pending.keys := fun k hk hmem =>
        hclosed k hk (hx.waiting_of_isStopping (hs x (by simp)) hmem).1
      rw [filterMap_snoc, List.map_append]
      cases hreport : x.report? with
      | none =>
          rw [Option.toList_none, List.map_nil, List.append_nil]
          exact ⟨hnodup, hclosed'⟩
      | some c =>
          obtain rfl : x = .settle c := by
            cases x with
            | settle => cases hreport; rfl
            | _ => cases hreport
          obtain ⟨task, pool, hp, hk, hf⟩ := exists_of_settle hx
          -- Its key was in the ledger until now, and is not any more.
          have hopen : c.fingerprint ∈ d'.pending.keys := by
            rw [hf, ← (hpath.ledger hl hclear').mem_openKeys_iff]
            refine List.mem_map_of_mem (List.mem_append_right _ ?_)
            rw [held_of_pool hp]
            exact List.mem_filterMap.mpr ⟨_, List.mem_of_getElem? hk, rfl⟩
          have hgone : c.fingerprint ∉ d''.pending.keys := by
            cases hx with
            | settled =>
                rw [settle_pending, Pending.mem_keys_close]
                exact fun h => h.2 rfl
          -- So it has not been reported before, and will not be open again.
          constructor
          · refine List.nodup_append.mpr ⟨hnodup, List.nodup_singleton _, ?_⟩
            rintro k hk j hj rfl
            obtain rfl := List.mem_singleton.mp hj
            exact hclosed _ hk hopen
          · intro k hk
            rcases List.mem_append.mp hk with hold | hnew
            · exact hclosed' k hold
            · obtain rfl := List.mem_singleton.mp hnew
              exact hgone

end Dispatcher

end AvatarPool
