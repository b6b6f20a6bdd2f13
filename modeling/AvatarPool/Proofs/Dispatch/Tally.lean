import AvatarPool.Proofs.Dispatch.Ledger

/-! # The tally of invocations

Whatever has been handed to workers has failed, or is cached, or is still with a worker: the three
make up the fingerprints handed out, each as often as it was handed out.  What is cached came in the
one successful report of its fingerprint, and stays.

The balance is a permutation between lists of fingerprints, so it counts how often each has been
handed out.  It needs the ledger at one point only: a report with a result must be the first one for
its fingerprint, which holds since nothing cached is under way.  That what is cached came from a
report is the second clause, which also says that it was the only successful one. -/

namespace AvatarPool

variable {ω : Type}

/-- The fingerprint of the task that an effect hands to a worker. -/
def Effect.handed? : Effect ω → Option Fingerprint
  | .handed _ task => some task.fingerprint
  | _ => none

namespace WorkReport

/-- The fingerprint of a task that has failed. -/
def failed? (c : WorkReport) : Option Fingerprint :=
  match c.outcome with
  | .ok _ => none
  | .error _ => some c.fingerprint

/-- The result that a report brings for a fingerprint. -/
def result? (k : Fingerprint) (c : WorkReport) : Option Artifact :=
  match c.outcome with
  | .ok artifact => if c.fingerprint = k then some artifact else none
  | .error _ => none

/-- The fingerprints of failed tasks, once for each failure. -/
def failures (cs : List WorkReport) : List Fingerprint := cs.filterMap failed?

/-- The results reported for a fingerprint. -/
def results (k : Fingerprint) (cs : List WorkReport) : List Artifact := cs.filterMap (result? k)

end WorkReport

namespace Dispatcher

variable {d d' : Dispatcher ω} {cs : List WorkReport}

/-- The fingerprints of the tasks handed out, once for each time.  A fingerprint may come more than
once, namely after failures. -/
def handedKeys (d : Dispatcher ω) : List Fingerprint := d.effects.filterMap Effect.handed?

/-- The fingerprints of the tasks that are with workers. -/
def heldKeys (d : Dispatcher ω) : List Fingerprint := d.held.map Task.fingerprint

theorem handedKeys_note (d : Dispatcher ω) (es : List (Effect ω)) :
    (d.note es).handedKeys = d.handedKeys ++ es.filterMap Effect.handed? :=
  filterMap_note d es

theorem handedKeys_note_of_forall {es : List (Effect ω)} (h : ∀ e ∈ es, e.handed? = none) :
    (d.note es).handedKeys = d.handedKeys :=
  filterMap_note_of_forall h

/-- Neither answers, rejections, reports nor a state of the gate hand anything out; this and the
next four lemmas say so. -/
theorem handedKeys_answerAll (d : Dispatcher ω) (k : Fingerprint) (o : Outcome) :
    (d.answerAll k o).handedKeys = d.handedKeys :=
  filterMap_answerAll (fun _ _ => rfl) d k o

theorem handedKeys_reject (d : Dispatcher ω) (task : Task) (why : Failure) :
    (d.reject task why).handedKeys = d.handedKeys := by
  unfold reject
  rw [handedKeys_answerAll, handedKeys_note_of_forall (by simp [Effect.handed?])]

theorem handedKeys_settle (d : Dispatcher ω) (c : WorkReport) :
    (d.settle c).handedKeys = d.handedKeys :=
  filterMap_settle (fun _ _ => rfl) d c

theorem handedKeys_see (d : Dispatcher ω) (state : Readiness) :
    (d.see state).handedKeys = d.handedKeys :=
  filterMap_see (fun _ => rfl) (fun _ => rfl) d state

theorem handedKeys_rejectPending (d : Dispatcher ω) (why : Failure) :
    (d.rejectPending why).handedKeys = d.handedKeys :=
  filterMap_rejectPending (fun _ _ => rfl) d why

/-- A hand-over adds the task to those with workers. -/
theorem heldKeys_pass {pool : Pool} {k : Nat} {task : Task} {rest : List Task}
    (hp : d.pool = some pool) (hk : pool.slots[k]? = some {}) :
    ({ d with queue := rest }.pass pool k task).heldKeys.Perm (task.fingerprint :: d.heldKeys) := by
  unfold heldKeys
  rw [held_of_pool hp]
  exact (Pool.held_box_perm hk task).map Task.fingerprint

theorem heldKeys_settle {c : WorkReport} {task : Task} {pool : Pool} (hp : d.pool = some pool)
    (hk : pool.slots[c.worker]? = some { held := some task }) :
    d.heldKeys.Perm (task.fingerprint :: (d.settle c).heldKeys) :=
  (held_settle hp hk).map Task.fingerprint

/-! ## The tally -/

/-- **The tally** of a dispatcher that has taken the reports `cs`. -/
structure Tally (d : Dispatcher ω) (cs : List WorkReport) : Prop where
  balance : d.handedKeys.Perm (WorkReport.failures cs ++ (d.cache.keys ++ d.heldKeys))
  results : ∀ k, WorkReport.results k cs = (d.cache.get? k).toList
  keys : d.cache.keys.Nodup

namespace Tally

theorem ofSize (size : Nat) : Tally ({ poolSize := size } : Dispatcher ω) [] where
  balance := List.Perm.nil
  results _ := rfl
  keys := List.nodup_nil

/-- Only the tasks handed out, the cache and the tasks held matter to the accounts. -/
theorem congr (h : Tally d cs) (hh : d'.handedKeys = d.handedKeys) (hc : d'.cache = d.cache)
    (hk : d'.held = d.held) : Tally d' cs where
  balance := by rw [heldKeys, hh, hc, hk]; exact h.balance
  results := by rw [hc]; exact h.results
  keys := hc ▸ h.keys

/-- A task leaves its worker as a failure. -/
theorem fail (h : Tally d cs) {c : WorkReport} {why : Failure} (hc : c.outcome = .error why)
    (hh : d'.handedKeys = d.handedKeys) (hcache : d'.cache = d.cache)
    (hk : d.heldKeys.Perm (c.fingerprint :: d'.heldKeys)) : Tally d' (cs ++ [c]) where
  balance := by
    have hfail : WorkReport.failures (cs ++ [c]) = WorkReport.failures cs ++ [c.fingerprint] := by
      simp [WorkReport.failures, WorkReport.failed?, hc]
    rw [hh, hcache, hfail, List.append_assoc]
    refine h.balance.trans (List.Perm.append_left _ ?_)
    exact (hk.append_left _).trans List.perm_middle
  results k := by
    have hresult : WorkReport.results k (cs ++ [c]) = WorkReport.results k cs := by
      simp [WorkReport.results, WorkReport.result?, hc]
    rw [hresult, hcache]
    exact h.results k
  keys := hcache ▸ h.keys

/-- A task leaves its worker with a result that is kept. -/
theorem succeed (h : Tally d cs) {c : WorkReport} {artifact : Artifact}
    (hc : c.outcome = .ok artifact) (hnew : d.cache.get? c.fingerprint = none)
    (hh : d'.handedKeys = d.handedKeys)
    (hcache : d'.cache = (d.cache.insert c.fingerprint artifact).1)
    (hk : d.heldKeys.Perm (c.fingerprint :: d'.heldKeys)) : Tally d' (cs ++ [c]) where
  balance := by
    have hfail : WorkReport.failures (cs ++ [c]) = WorkReport.failures cs := by
      simp [WorkReport.failures, WorkReport.failed?, hc]
    rw [hh, hcache, hfail, Cache.keys_insert, if_neg ((Cache.get?_eq_none_iff _ _).mp hnew),
      List.append_assoc]
    exact h.balance.trans ((hk.append_left _).append_left _)
  results k := by
    -- The results of this key grow from none to one.
    have hresult : WorkReport.results k (cs ++ [c]) =
        WorkReport.results k cs ++ if c.fingerprint = k then [artifact] else [] := by
      by_cases hk : c.fingerprint = k <;>
        simp [WorkReport.results, WorkReport.result?, hc, hk]
    rw [hresult, h.results k, hcache, Cache.get?_insert]
    by_cases hk : c.fingerprint = k
    · subst hk
      simp [hnew]
    · simp [hk, Ne.symm hk]
  keys := by
    rw [hcache, Cache.keys_insert, if_neg ((Cache.get?_eq_none_iff _ _).mp hnew),
      ← List.concat_eq_append]
    exact h.keys.concat ((Cache.get?_eq_none_iff _ _).mp hnew)

end Tally

/-- A report that is settled is that of a worker with its task. -/
theorem exists_of_settle {c : WorkReport} (h : Does d (.settle c) d') :
    ∃ task pool, d.pool = some pool ∧ pool.slots[c.worker]? = some { held := some task } ∧
      c.fingerprint = task.fingerprint := by
  cases h with
  | settled hp hk hf => exact ⟨_, _, hp, hk, hf⟩

/-- **Every deed keeps the tally**, provided a settled task has no result yet.  Three deeds count: a
hand-over adds to two lists, and a report moves a fingerprint from the workers to the failures or to
the cache. -/
theorem Does.tally {x : Deed ω} (hx : Does d x d') (h : Tally d cs)
    (hnew : ∀ c, x = .settle c → d.cache.get? c.fingerprint = none) :
    Tally d' (cs ++ x.report?.toList) := by
  have hcongr : x.report? = none → d'.handedKeys = d.handedKeys → d'.cache = d.cache →
      d'.held = d.held → Tally d' (cs ++ x.report?.toList) := by
    intro hnone hh hc hk
    rw [hnone, Option.toList_none, List.append_nil]
    exact h.congr hh hc hk
  cases hx with
  | hit | refused | opened | late =>
      exact hcongr rfl (handedKeys_note_of_forall (by simp [Effect.handed?])) rfl rfl
  | joined => exact hcongr rfl rfl rfl rfl
  | @handed task rest pool k hr hq hp hi hk =>
      have hnone : cs ++ (Deed.hand k task : Deed ω).report?.toList = cs := List.append_nil cs
      have hhanded : ({ d with queue := rest }.pass pool k task).handedKeys =
          d.handedKeys ++ [task.fingerprint] := handedKeys_note _ _
      rw [hnone]
      refine ⟨?_, h.results, h.keys⟩
      rw [hhanded]
      -- The task comes from the queue, which the tally does not count.
      calc (d.handedKeys ++ [task.fingerprint]).Perm (task.fingerprint :: d.handedKeys) :=
            List.perm_append_singleton _ _
        _ |>.Perm (task.fingerprint :: (WorkReport.failures cs ++ (d.cache.keys ++ d.heldKeys))) :=
            h.balance.cons _
        _ |>.Perm (WorkReport.failures cs ++ (d.cache.keys ++ (task.fingerprint :: d.heldKeys))) :=
            List.perm_middle.symm.trans (List.perm_middle.symm.append_left _)
        _ |>.Perm (WorkReport.failures cs ++ (d.cache.keys ++ _)) :=
            ((heldKeys_pass hp hk).symm.append_left _).append_left _
  | dropped why => exact hcongr rfl (handedKeys_reject _ _ _) rfl rfl
  | @settled c task pool hp hk hf =>
      have hheld : d.heldKeys.Perm (c.fingerprint :: (d.settle c).heldKeys) :=
        hf ▸ heldKeys_settle hp hk
      have hcache := settle_cache d c
      cases hc : c.outcome with
      | ok artifact =>
          rw [hc] at hcache
          exact h.succeed hc (hnew c rfl) (handedKeys_settle d c) hcache hheld
      | error why =>
          rw [hc] at hcache
          exact h.fail hc (handedKeys_settle d c) hcache hheld
  | observed state =>
      exact hcongr rfl (handedKeys_see d state) (see_cache d state) (held_see d state)
  | worked hp hh => exact hcongr rfl rfl rfl (held_work hp hh)
  | cleared why => exact hcongr rfl (handedKeys_rejectPending d why) rfl rfl

/-- The accounts are kept by any path on which nobody is given up.  By induction on the path, with
the ledger at hand for each report. -/
theorem Path.tally {ds : List (Deed ω)} (hpath : Path d ds d') (hl : d.Ledger) (h : Tally d cs)
    (hclear : ∀ why, .clear why ∉ ds) : Tally d' (cs ++ ds.filterMap Deed.report?) := by
  induction hpath with
  | nil => exact (List.append_nil cs).symm ▸ h
  | @snoc d' d'' ds x hpath hx ih =>
      have hclear' : ∀ why, .clear why ∉ ds := fun why hmem =>
        hclear why (List.mem_append_left _ hmem)
      have hledger := hpath.ledger hl hclear'
      rw [filterMap_snoc, ← List.append_assoc]
      refine hx.tally (ih hclear') ?_
      -- A settled task is still in the ledger, which has no cached fingerprints.
      rintro c rfl
      obtain ⟨task, pool, hp, hk, hf⟩ := exists_of_settle hx
      rw [hf]
      refine hledger.uncached_of_open (List.mem_append_right _ ?_)
      rw [held_of_pool hp]
      exact List.mem_filterMap.mpr ⟨_, List.mem_of_getElem? hk, rfl⟩

/-! ## The last deeds -/

/-- Once everyone who waited has been rejected, nothing is handed out, cached or settled. -/
theorem Does.still {x : Deed ω} (hx : Does d x d') (hlast : x.isLast) :
    d'.handedKeys = d.handedKeys ∧ d'.cache = d.cache ∧ d'.held = d.held := by
  cases hx with
  | worked hp hh => exact ⟨rfl, rfl, held_work hp hh⟩
  | cleared why => exact ⟨handedKeys_rejectPending d why, rfl, rfl⟩
  | late => exact ⟨handedKeys_note_of_forall (by simp [Effect.handed?]), rfl, rfl⟩
  | _ => cases hlast

/-- The last deeds of a loop hand nothing out, cache nothing and note nothing.  By induction on the
path. -/
theorem Path.still {ds : List (Deed ω)} (hpath : Path d ds d') (hlast : ∀ x ∈ ds, x.isLast) :
    d'.handedKeys = d.handedKeys ∧ d'.cache = d.cache ∧ d'.held = d.held := by
  induction hpath with
  | nil => exact ⟨rfl, rfl, rfl⟩
  | snoc _ hx ih =>
      obtain ⟨hh, hc, hk⟩ := ih fun x hmem => hlast x (List.mem_append_left _ hmem)
      obtain ⟨hh', hc', hk'⟩ := hx.still (hlast _ (by simp))
      exact ⟨hh'.trans hh, hc'.trans hc, hk'.trans hk⟩

/-! ## Results stay

The cache only grows, and never changes what it holds.  With the ledger this means that a cached
fingerprint is never handed out again. -/

/-- Only a report can touch the cache, and it does not replace what is there. -/
theorem Does.get?_of_some {x : Deed ω} (hx : Does d x d') {k : Fingerprint} {artifact : Artifact}
    (h : d.cache.get? k = some artifact) : d'.cache.get? k = some artifact := by
  cases hx with
  | settled =>
      rw [settle_cache]
      split
      · exact Cache.get?_insert_of_some h _ _
      · exact h
  | observed => rw [see_cache]; exact h
  | _ => exact h

/-- What has been cached stays cached.  By induction on the path. -/
theorem Path.get?_of_some {ds : List (Deed ω)} (hpath : Path d ds d') {k : Fingerprint}
    {artifact : Artifact} (h : d.cache.get? k = some artifact) :
    d'.cache.get? k = some artifact := by
  induction hpath with
  | nil => exact h
  | snoc _ hx ih => exact hx.get?_of_some ih

/-- A deed hands out at most the oldest queued task. -/
theorem Does.handedKeys {x : Deed ω} (hx : Does d x d') :
    d'.handedKeys = d.handedKeys ∨
      ∃ task ∈ d.queue, d'.handedKeys = d.handedKeys ++ [task.fingerprint] := by
  cases hx with
  | hit | refused | opened | late =>
      exact .inl (handedKeys_note_of_forall (by simp [Effect.handed?]))
  | joined | worked => exact .inl rfl
  | @handed task rest pool k hr hq =>
      exact .inr ⟨task, by simp [hq], handedKeys_note _ _⟩
  | dropped => exact .inl (handedKeys_reject _ _ _)
  | settled => exact .inl (handedKeys_settle _ _)
  | observed state => exact .inl (handedKeys_see d state)
  | cleared why => exact .inl (handedKeys_rejectPending d why)

/-- **No work for what is known**: a cached fingerprint is not handed out again.  By induction on
the path: what could be handed out is queued, and nothing queued is cached. -/
theorem Path.count_handedKeys {ds : List (Deed ω)} (hpath : Path d ds d') (hl : d.Ledger)
    (hclear : ∀ why, .clear why ∉ ds) {k : Fingerprint} {artifact : Artifact}
    (h : d.cache.get? k = some artifact) : d'.handedKeys.count k = d.handedKeys.count k := by
  induction hpath with
  | nil => rfl
  | @snoc d' d'' ds x hpath hx ih =>
      have hclear' : ∀ why, .clear why ∉ ds := fun why hmem =>
        hclear why (List.mem_append_left _ hmem)
      rcases hx.handedKeys with hsame | ⟨task, hmem, hmore⟩
      · rw [hsame, ih hclear']
      · have hopen : d'.cache.get? task.fingerprint = none :=
          (hpath.ledger hl hclear').uncached_of_open (List.mem_append_left _ hmem)
        -- What is cached stays cached, and the queue holds nothing that is.
        have hne : task.fingerprint ≠ k := by
          rintro rfl
          rw [hpath.get?_of_some h] at hopen
          cases hopen
        rw [hmore, List.count_append, List.count_singleton, ih hclear']
        simp [hne]

end Dispatcher

end AvatarPool
