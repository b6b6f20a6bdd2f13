import AvatarPool.Proofs.Dispatch.Queueing

/-! # What the counters count

The counters of arrivals go up with each request, by what becomes of it; the others keep step with
the tasks handed out, the failures reported and the size of the cache.  All of it holds modulo the
range of a counter, so sums are taken among counters and not among numbers.

There are two groups.  The counters of arrivals are followed request by request: each request has
one of four fates, and the fate alone tells which counters go up.  The counters of tasks are tied to
the lists of `Dispatch.Tally`, by `Counted`, which every deed keeps; the balance between them is
then the balance of those lists, with their lengths taken as counters. -/

namespace AvatarPool

variable {ω : Type}

/-- The counters of requests, of answers from the cache, and of requests that joined others. -/
def Stats.arrivals (x : Stats) : UInt64 × UInt64 × UInt64 := (x.requests, x.cacheHits, x.coalesced)

/-- What the counters of arrivals show after requests with these fates. -/
def arrivals (fates : List Fate) : UInt64 × UInt64 × UInt64 :=
  (.ofNat fates.length, .ofNat (fates.count .hit), .ofNat (fates.count .joined))

/-- One more request is counted. -/
def countArrival (x : UInt64 × UInt64 × UInt64) (fate : Fate) : UInt64 × UInt64 × UInt64 :=
  match fate with
  | .hit => (x.1 + 1, x.2.1 + 1, x.2.2)
  | .joined => (x.1 + 1, x.2.1, x.2.2 + 1)
  | .refused | .opened => (x.1 + 1, x.2.1, x.2.2)

/-- So a list of fates is counted one by one, from its end. -/
theorem arrivals_concat (fates : List Fate) (fate : Fate) :
    arrivals (fates ++ [fate]) = countArrival (arrivals fates) fate := by
  unfold arrivals
  rw [List.length_append, List.count_append, List.count_append]
  cases fate <;> simp [countArrival, UInt64.ofNat_add]

/-- Each request has one fate.  It is by this that the sums of the counters of arrivals come out. -/
theorem length_fates (fates : List Fate) :
    fates.length =
      fates.count .hit + fates.count .joined + fates.count .refused + fates.count .opened := by
  induction fates with
  | nil => rfl
  | cons fate rest ih =>
      rw [List.length_cons, ih]
      cases fate <;> simp <;> omega

namespace Dispatcher

variable {d d' : Dispatcher ω} {x : Deed ω} {ds : List (Deed ω)} {cs : List WorkReport}

/-! ## Arrivals -/

theorem arrivals_settle (d : Dispatcher ω) (c : WorkReport) :
    (d.settle c).stats.arrivals = d.stats.arrivals := by
  unfold settle book
  cases c.outcome <;> rfl

/-- An admitted request is counted by what becomes of it.  The fate is decided by what the
dispatcher finds: the cache first, then the gate, then the table of those who wait. -/
theorem Does.arrivals_of_accept {job : Job} {w : ω} (hx : Does d (.accept job w) d') :
    d'.stats.arrivals = countArrival d.stats.arrivals (d.fate job) := by
  cases hx with
  | hit w hc =>
      rw [fate_of_get? hc]
      rfl
  | refused w hc hr =>
      rw [fate_of_failed hc hr]
      rfl
  | joined w hc hr hk =>
      rw [fate_of_notFailed hc hr, if_pos hk]
      rfl
  | opened w hc hr hk =>
      rw [fate_of_notFailed hc hr, if_neg hk]
      rfl

/-- Nothing else is counted as an arrival.  All other deeds leave the three counters, also those
that answer somebody. -/
theorem Does.arrivals_of_not_accept (hx : Does d x d') (hnot : ∀ job w, x ≠ .accept job w) :
    d'.stats.arrivals = d.stats.arrivals := by
  cases hx with
  | hit w | refused w | joined w | opened w => exact absurd rfl (hnot _ w)
  | settled => exact arrivals_settle _ _
  | observed state => rw [see_stats]
  | handed | dropped | worked | cleared | late => rfl

/-- Only admission counts arrivals.  By induction on the path. -/
theorem Path.arrivals (hpath : Path d ds d') (hnot : ∀ job w, .accept job w ∉ ds) :
    d'.stats.arrivals = d.stats.arrivals := by
  induction hpath with
  | nil => rfl
  | snoc _ hx ih =>
      have hlast := hx.arrivals_of_not_accept fun job w heq => hnot job w (by simp [heq])
      exact hlast.trans (ih fun job w hmem => hnot job w (List.mem_append_left _ hmem))

/-- One request is admitted, and tasks are handed out. -/
theorem arrivals_accept (hs : Ready d.slots) (job : Job) (w : ω) :
    (d.accept job w).stats.arrivals = countArrival d.stats.arrivals (d.fate job) := by
  -- The first deed of the path admits the request; after it tasks are handed out, and nothing more
  -- arrives.
  obtain ⟨hs, hpath⟩ := accept_path hs job w
  obtain ⟨e, hfirst, hrest⟩ := hpath.exists_of_cons
  rw [hrest.arrivals (by simp), hfirst.arrivals_of_accept]

/-! ## Tasks -/

/-- **The counters of tasks** of a dispatcher that has taken the reports `cs`. -/
structure Counted (d : Dispatcher ω) (cs : List WorkReport) : Prop where
  dispatched : d.stats.dispatched = .ofNat d.handedKeys.length
  failed : d.stats.failed = .ofNat (WorkReport.failures cs).length
  cacheEntries : d.stats.cacheEntries = .ofNat d.cache.size

/-- Hand-overs are counted when they are made, not when they are reported. -/
theorem dispatched_settle (d : Dispatcher ω) (c : WorkReport) :
    (d.settle c).stats.dispatched = d.stats.dispatched := by
  unfold settle book
  cases c.outcome <;> rfl

/-- A failure is one more, and a result none. -/
theorem failed_settle (d : Dispatcher ω) (c : WorkReport) :
    (d.settle c).stats.failed = d.stats.failed + .ofNat c.failed?.toList.length := by
  unfold settle book WorkReport.failed?
  cases c.outcome with
  | ok artifact => exact (UInt64.add_zero _).symm
  | error why => rfl

/-- The entries are counted anew with each result, whatever the cache held for its key.  This is an
equality between counters, so it holds even if the cache outgrows their range. -/
theorem cacheEntries_settle (h : d.stats.cacheEntries = .ofNat d.cache.size) (c : WorkReport) :
    (d.settle c).stats.cacheEntries = .ofNat (d.settle c).cache.size := by
  unfold settle book
  cases c.outcome with
  | ok artifact => rfl
  | error why => exact h

namespace Counted

theorem ofSize (size : Nat) : Counted ({ poolSize := size } : Dispatcher ω) [] := ⟨rfl, rfl, rfl⟩

/-- Only the tasks handed out, the cache and three counters matter to the balance. -/
theorem congr (h : Counted d cs) (hh : d'.handedKeys = d.handedKeys) (hc : d'.cache = d.cache)
    (hd : d'.stats.dispatched = d.stats.dispatched) (hf : d'.stats.failed = d.stats.failed)
    (he : d'.stats.cacheEntries = d.stats.cacheEntries) : Counted d' cs where
  dispatched := by rw [hd, hh, h.dispatched]
  failed := hf.trans h.failed
  cacheEntries := by rw [he, hc, h.cacheEntries]

/-- A report is settled: its result is kept and the cache counted anew, or its failure counted. -/
theorem settle (h : Counted d cs) (c : WorkReport) : Counted (d.settle c) (cs ++ [c]) where
  dispatched := by rw [dispatched_settle, handedKeys_settle, h.dispatched]
  failed := by
    have hfailures : WorkReport.failures (cs ++ [c]) =
        WorkReport.failures cs ++ c.failed?.toList := filterMap_snoc _ _ _
    rw [failed_settle, hfailures, List.length_append, UInt64.ofNat_add, h.failed]
  cacheEntries := cacheEntries_settle h.cacheEntries c

end Counted

/-- **Every deed keeps the counters.**  The reports are those taken so far, to which a deed adds at
most one. -/
-- For all deeds but two nothing changes that is counted here.
theorem Does.counted (hx : Does d x d') (h : Counted d cs) :
    Counted d' (cs ++ x.report?.toList) := by
  have hcongr : x.report? = none → d'.handedKeys = d.handedKeys → d'.cache = d.cache →
      d'.stats.dispatched = d.stats.dispatched → d'.stats.failed = d.stats.failed →
      d'.stats.cacheEntries = d.stats.cacheEntries → Counted d' (cs ++ x.report?.toList) := by
    intro hnone hh hc hd hf he
    rw [hnone, Option.toList_none, List.append_nil]
    exact h.congr hh hc hd hf he
  cases hx with
  | hit | refused | opened | late =>
      exact hcongr rfl (handedKeys_note_of_forall (by simp [Effect.handed?])) rfl rfl rfl rfl
  | joined | worked => exact hcongr rfl rfl rfl rfl rfl rfl
  -- A task is handed out, and counted.
  | @handed task rest pool k =>
      have hnone : cs ++ (Deed.hand k task : Deed ω).report?.toList = cs := List.append_nil cs
      rw [hnone]
      refine ⟨?_, h.failed, h.cacheEntries⟩
      have hhanded : ({ d with queue := rest }.pass pool k task).handedKeys =
          d.handedKeys ++ [task.fingerprint] := handedKeys_note _ _
      rw [hhanded, List.length_append, UInt64.ofNat_add, ← h.dispatched]
      rfl
  | dropped why => exact hcongr rfl (handedKeys_reject _ _ _) rfl rfl rfl rfl
  | @settled c => exact h.settle c
  | observed state =>
      exact hcongr rfl (handedKeys_see d state) (see_cache d state) (by rw [see_stats])
        (by rw [see_stats]) (by rw [see_stats])
  | cleared why => exact hcongr rfl (handedKeys_rejectPending d why) rfl rfl rfl rfl

/-- The counters are kept by any path.  By induction on the path, with the reports that it takes. -/
theorem Path.counted (hpath : Path d ds d') (h : Counted d cs) :
    Counted d' (cs ++ ds.filterMap Deed.report?) := by
  induction hpath with
  | nil => exact (List.append_nil cs).symm ▸ h
  | snoc _ hx ih =>
      rw [filterMap_snoc, ← List.append_assoc]
      exact hx.counted ih

/-! ## The balance -/

/-- The tasks that are held are those of the slots that hold one. -/
theorem length_held (d : Dispatcher ω) : d.held.length = d.running := by
  unfold running
  cases hp : d.pool with
  | none => simp [held, hp]
  | some pool =>
      rw [held_of_pool hp, Pool.held, List.length_filterMap_eq_countP]
      rfl

/-- **Whatever has been handed out is cached, has failed, or is with a worker.**  Numbers of
entries, failures and workers are taken modulo the counters' range, and their sum is taken there as
well. -/
theorem Counted.balance (h : Counted d cs) (ht : Tally d cs) :
    d.stats.dispatched = d.stats.cacheEntries + d.stats.failed + .ofNat d.running := by
  have hlength := ht.balance.length_eq
  rw [List.length_append, List.length_append, heldKeys, List.length_map, length_held] at hlength
  have hsize : d.cache.keys.length = d.cache.size := List.length_map _
  calc d.stats.dispatched
      = .ofNat ((WorkReport.failures cs).length + (d.cache.keys.length + d.running)) := by
        rw [h.dispatched, hlength]
    _ = d.stats.failed + (d.stats.cacheEntries + .ofNat d.running) := by
        rw [UInt64.ofNat_add, UInt64.ofNat_add, hsize, h.failed, h.cacheEntries]
    _ = d.stats.cacheEntries + d.stats.failed + .ofNat d.running := by
        rw [← UInt64.add_assoc, UInt64.add_comm d.stats.failed]

end Dispatcher

end AvatarPool
