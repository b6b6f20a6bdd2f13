import AvatarPool.Proofs.Dispatch.Deeds

/-! # The dispatcher's ledger

Callers wait for exactly the tasks that are queued or noted for a worker, each task once, and never
for anything that is cached.  Every deed but the last rejection of all callers keeps it so.

The ledger is the invariant behind single flight: a task is under way exactly if callers wait for
it.  It is kept as a permutation between two lists of fingerprints, so that it also says that no
task is there twice.  From this and from the clause on the cache it follows that nothing is worked
on whose result is known. -/

namespace AvatarPool.Dispatcher

variable {ω : Type} {d d' : Dispatcher ω}

/-- The fingerprints of the tasks under way. -/
def openKeys (d : Dispatcher ω) : List Fingerprint := d.openTasks.map Task.fingerprint

/-- **The ledger**: the tasks under way and the entries of waiting callers match one to one.  The
last clause says that each task is that of its own job, so that its fingerprint is its job's. -/
structure Ledger (d : Dispatcher ω) : Prop where
  books : d.openKeys.Perm d.pending.keys
  wellFormed : d.pending.WellFormed
  uncached : ∀ k ∈ d.pending.keys, d.cache.get? k = none
  own : ∀ t ∈ d.openTasks, t = Task.ofJob t.job

namespace Ledger

/-- Tasks under way have different fingerprints, since the entries have different keys. -/
theorem nodup (h : d.Ledger) : d.openKeys.Nodup := h.books.nodup_iff.mpr h.wellFormed.nodup

theorem mem_openKeys_iff (h : d.Ledger) (k : Fingerprint) :
    k ∈ d.openKeys ↔ k ∈ d.pending.keys :=
  h.books.mem_iff

theorem uncached_of_open (h : d.Ledger) {t : Task} (ht : t ∈ d.openTasks) :
    d.cache.get? t.fingerprint = none :=
  h.uncached _ ((h.mem_openKeys_iff _).mp (List.mem_map_of_mem ht))

/-- At first nothing is under way and nobody waits. -/
theorem ofSize (size : Nat) : ({ poolSize := size } : Dispatcher ω).Ledger where
  books := List.Perm.nil
  wellFormed := Pending.wellFormed_empty
  uncached := by simp [Pending.keys]
  own := by simp [openTasks, held]

/-- Nothing that the ledger reads has changed. -/
theorem congr (h : d.Ledger) (ht : d'.openTasks.Perm d.openTasks) (hp : d'.pending = d.pending)
    (hc : d'.cache = d.cache) : d'.Ledger where
  books := hp ▸ (ht.map Task.fingerprint).trans h.books
  wellFormed := hp ▸ h.wellFormed
  uncached := by rw [hp, hc]; exact h.uncached
  own t htm := h.own t (ht.subset htm)

/-- A task ends, and the entry of its callers is closed. -/
theorem close (h : d.Ledger) {task : Task} (ht : d.openTasks.Perm (task :: d'.openTasks))
    (hp : d'.pending = (d.pending.close task.fingerprint).1)
    (hc : ∀ k, k ≠ task.fingerprint → d'.cache.get? k = d.cache.get? k) : d'.Ledger where
  books := by
    have hbooks : (task.fingerprint :: d'.openKeys).Perm d.pending.keys :=
      (ht.map Task.fingerprint).symm.trans h.books
    rw [hp]
    exact Pending.keys_close_perm h.wellFormed.nodup hbooks
  wellFormed := hp ▸ h.wellFormed.close _
  uncached := by
    intro k hk
    rw [hp, Pending.mem_keys_close] at hk
    rw [hc k hk.2]
    exact h.uncached k hk.1
  own t htm := h.own t (ht.symm.subset (List.mem_cons_of_mem _ htm))

end Ledger

/-! ## What each deed does to the tasks under way

One lemma for each way in which the tasks under way can change or stay: a hand-over moves a task
from the queue to a slot, a report takes one off its slot, and a state of the gate moves none. -/

/-- A task that is handed over comes off the front of the queue and is noted for the worker. -/
theorem openTasks_pass {pool : Pool} {k : Nat} {task : Task} {rest : List Task}
    (hq : d.queue = task :: rest) (hp : d.pool = some pool) (hk : pool.slots[k]? = some {}) :
    ({ d with queue := rest }.pass pool k task).openTasks.Perm d.openTasks := by
  unfold openTasks
  rw [hq, held_of_pool hp]
  have hbox : (rest ++ (pool.box k task).held).Perm (rest ++ (task :: pool.held)) :=
    (Pool.held_box_perm hk task).append_left rest
  exact hbox.trans List.perm_middle

theorem held_work {pool pool' : Pool} (hp : d.pool = some pool) (hh : pool'.held = pool.held) :
    ({ d with pool := some pool' } : Dispatcher ω).held = d.held :=
  hh.trans (held_of_pool hp).symm

/-- A report's task is the one that was noted. -/
theorem held_settle {c : WorkReport} {task : Task} {pool : Pool} (hp : d.pool = some pool)
    (hk : pool.slots[c.worker]? = some { held := some task }) :
    d.held.Perm (task :: (d.settle c).held) := by
  unfold held
  rw [settle_pool, hp]
  exact (Pool.held_free_perm hk).symm

theorem settle_queue (d : Dispatcher ω) (c : WorkReport) : (d.settle c).queue = d.queue := by
  unfold settle book
  cases c.outcome <;> rfl

theorem settle_pending (d : Dispatcher ω) (c : WorkReport) :
    (d.settle c).pending = (d.pending.close c.fingerprint).1 := by
  unfold settle book
  cases c.outcome <;> rfl

/-- So a report takes its own task from those under way. -/
theorem openTasks_settle {c : WorkReport} {task : Task} {pool : Pool} (hp : d.pool = some pool)
    (hk : pool.slots[c.worker]? = some { held := some task }) :
    d.openTasks.Perm (task :: (d.settle c).openTasks) := by
  unfold openTasks
  rw [settle_queue]
  exact ((held_settle hp hk).append_left _).trans List.perm_middle

/-- A report adds at most its own result to the cache. -/
theorem settle_cache (d : Dispatcher ω) (c : WorkReport) :
    (d.settle c).cache =
      match c.outcome with
      | .ok artifact => (d.cache.insert c.fingerprint artifact).1
      | .error _ => d.cache := by
  unfold settle book
  cases c.outcome <;> rfl

/-- Other fingerprints are as they were. -/
theorem get?_settle_of_ne {c : WorkReport} {k : Fingerprint} (hk : k ≠ c.fingerprint) :
    (d.settle c).cache.get? k = d.cache.get? k := by
  rw [settle_cache]
  split
  · rw [Cache.get?_insert, if_neg hk]
  · rfl

/-- Tasks are handed out without a look at the cache. -/
theorem handOut_cache (d : Dispatcher ω) : d.handOut.cache = d.cache := by
  -- First of a single hand-over, then of the loop by induction on the tasks on offer.
  have hhand : ∀ (d : Dispatcher ω) pool k task, (d.hand pool k task).cache = d.cache := by
    intro d pool k task
    unfold hand
    split <;> rfl
  have hfold : ∀ (ts : List Task) (d : Dispatcher ω), (d.handOutFrom ts).cache = d.cache := by
    intro ts
    induction ts with
    | nil => exact fun _ => rfl
    | cons task rest ih =>
        intro d
        unfold handOutFrom
        split
        · rfl
        · split
          · rfl
          · exact (ih _).trans (hhand d _ _ task)
  unfold handOut
  split
  · exact hfold d.queue d
  · rfl

/-- **A result that is reported is in the cache from then on**, unless there has been one before. -/
theorem get?_takeReport {c : WorkReport} {artifact : Artifact} (hc : c.outcome = .ok artifact) :
    (d.takeReport c).cache.get? c.fingerprint =
      some ((d.cache.get? c.fingerprint).getD artifact) := by
  rw [takeReport_eq, handOut_cache, settle_cache, hc]
  dsimp only
  rw [Cache.get?_insert, if_pos rfl]

/-- A new pool has noted nothing. -/
theorem held_openPool (d : Dispatcher ω) : d.openPool.held = d.held := by
  rcases Option.eq_none_or_eq_some d.pool with hp | ⟨pool, hp⟩
  · have hpool : d.openPool.pool = some (Pool.ofSize (max 1 d.poolSize)) := by
      simp only [openPool, hp]
      rfl
    unfold held
    rw [hpool, hp]
    simp [Pool.held, Pool.ofSize]
  · simp only [openPool, hp]

theorem held_see (d : Dispatcher ω) (state : Readiness) : (d.see state).held = d.held := by
  cases state with
  | ready => exact held_openPool { d with readiness := .ready }
  | _ => rfl

theorem openTasks_see (d : Dispatcher ω) (state : Readiness) :
    (d.see state).openTasks = d.openTasks := by
  rw [openTasks, see_queue, held_see, openTasks]

/-! ## The ledger is kept

For each deed that changes entries or tasks: joining adds a caller only, opening adds a task and an
entry, and the end of a task closes its entry. -/

/-- Joining gives an entry one caller more, and leaves the keys of the table as they are. -/
theorem Ledger.join (h : d.Ledger) {job : Job} (w : ω) (hk : job.fingerprint ∈ d.pending.keys) :
    (d.join job w).Ledger where
  books := by
    have hkeys : (d.join job w).pending.keys = d.pending.keys := by
      rw [Dispatcher.join, Pending.keys_enter, if_pos hk]
    rw [hkeys]
    exact h.books
  wellFormed := h.wellFormed.enter _ _
  uncached := by
    rw [Dispatcher.join, Pending.keys_enter, if_pos hk]
    exact h.uncached
  own := h.own

/-- Both lists grow by one and the same fingerprint. -/
theorem Ledger.openTask (h : d.Ledger) {job : Job} (w : ω)
    (hc : d.cache.get? job.fingerprint = none) (hk : job.fingerprint ∉ d.pending.keys) :
    (d.openTask job w).Ledger := by
  -- The task goes between the queue and the noted ones, which is all the same for a permutation.
  have htasks : (d.openTask job w).openTasks.Perm (Task.ofJob job :: d.openTasks) := by
    unfold openTasks
    exact ((List.perm_append_singleton _ _).append_right _)
  have hkeys : (d.openTask job w).pending.keys = d.pending.keys ++ [job.fingerprint] :=
    (Pending.keys_enter _ _ _).trans (if_neg hk)
  refine ⟨?_, h.wellFormed.enter _ _, ?_, ?_⟩
  · rw [hkeys]
    refine (htasks.map Task.fingerprint).trans ?_
    exact (List.Perm.cons _ h.books).trans (List.perm_append_singleton _ _).symm
  · intro k hmem
    rw [hkeys] at hmem
    rcases List.mem_append.mp hmem with hold | hnew
    · exact h.uncached k hold
    · rw [List.mem_singleton.mp hnew]
      exact hc
  · intro t ht
    rcases List.mem_cons.mp (htasks.subset ht) with rfl | hold
    · rfl
    · exact h.own t hold

/-- **Every deed keeps the ledger**, but for the last rejection of all callers.  A dropped task and
a settled report close the entry of their task; all else leaves the tasks or opens one. -/
theorem Does.ledger {x : Deed ω} (hx : Does d x d') (h : d.Ledger)
    (hclear : ∀ why, x ≠ .clear why) : d'.Ledger := by
  cases hx with
  | hit | refused | late => exact h.congr (List.Perm.refl _) rfl rfl
  | joined w _ _ hk => exact h.join w hk
  | opened w hc _ hk => exact h.openTask w hc hk
  | handed _ hq hp _ hk => exact h.congr (openTasks_pass hq hp hk) rfl rfl
  | @dropped task rest why hq =>
      have hopen : d.openTasks = task :: ({ d with queue := rest }.reject task why).openTasks := by
        rw [openTasks, hq]
        rfl
      exact h.close (.of_eq hopen) rfl fun _ _ => rfl
  | settled hp hk hf =>
      refine h.close (openTasks_settle hp hk) ?_ ?_
      · rw [settle_pending, hf]
      · exact fun k hne => get?_settle_of_ne (hf ▸ hne)
  | observed state =>
      exact h.congr (.of_eq (openTasks_see _ _)) (see_pending _ _) (see_cache _ _)
  | @worked pool pool' hp hh =>
      refine h.congr (.of_eq ?_) rfl rfl
      exact congrArg (d.queue ++ ·) (held_work hp hh)
  | cleared why => exact absurd rfl (hclear why)

/-- **The ledger is kept** by any path on which nobody is given up.  By induction on the path. -/
theorem Path.ledger {ds : List (Deed ω)} (hpath : Path d ds d') (h : d.Ledger)
    (hclear : ∀ why, .clear why ∉ ds) : d'.Ledger := by
  induction hpath with
  | nil => exact h
  | snoc _ hx ih =>
      refine hx.ledger (ih fun why hmem => hclear why (List.mem_append_left _ hmem)) ?_
      rintro why rfl
      exact hclear why (by simp)

/-- Entries stay well-formed whatever the dispatcher does. -/
theorem Does.wellFormed {x : Deed ω} (hx : Does d x d') (h : d.pending.WellFormed) :
    d'.pending.WellFormed := by
  cases hx with
  | hit | refused | late | handed | worked => exact h
  | joined | opened => exact h.enter _ _
  | dropped => exact h.close _
  | settled => rw [settle_pending]; exact h.close _
  | observed => rw [see_pending]; exact h
  | cleared => exact Pending.wellFormed_empty

/-- Also after the last rejection, when the ledger holds no more. -/
theorem Path.wellFormed {ds : List (Deed ω)} (hpath : Path d ds d') (h : d.pending.WellFormed) :
    d'.pending.WellFormed := by
  induction hpath with
  | nil => exact h
  | snoc _ hx ih => exact hx.wellFormed ih

end AvatarPool.Dispatcher
