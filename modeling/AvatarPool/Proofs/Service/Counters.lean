import AvatarPool.Proofs.Dispatch.Counters
import AvatarPool.Proofs.Service.Queueing

/-! # The counters balance

Over a run each request is counted once, by what becomes of it; each task that has been opened is
queued still, has been rejected, or has been handed out; and each task handed out is cached, has
failed, or is with a worker.  Counters wrap around, so the sums are taken among counters.

The two histories that are compared with the counters, what became of each request (`fates`) and
what was rejected (`rejected`), are put together move by move from the states of the run, and do not
look at any counter. -/

namespace AvatarPool.Service

variable {ω : Type} {config : PoolSettings} {gate : Gate} {s t u : Service ω} {m : Move ω}
  {τ : List (Move ω)}

/-- The tasks that a move rejects: all that are queued, if it rejects any. -/
def rejectedBy (s : Service ω) (m : Move ω) : List Task :=
  if (s.refusal? m).isSome then s.core.queue else []

/-- The tasks that have been rejected from the queue in a run, in order. -/
def rejected (s : Service ω) (τ : List (Move ω)) : List Task := s.gather rejectedBy τ

/-- What has become of the requests admitted in a run.  The order is that in which they were taken
from the channel. -/
def fates (s : Service ω) (τ : List (Move ω)) : List Fate := (s.admissions τ).map Admitted.fate

/-! ## Requests -/

/-- Only admissions count as arrivals.  A move that takes no request from the channel does nothing
that counts as an arrival. -/
theorem arrivals_of_fetched_eq_nil (hs : s.Sound) (hnone : s.fetched m = [])
    (h : s.move m = some t) : t.core.stats.arrivals = s.core.stats.arrivals := by
  obtain ⟨ds, hds⟩ := exists_tells_of_move hs h
  exact hds.path.arrivals (notMem_of_fetched hds h hnone)

/-- **Each request is counted by what becomes of it.**  By induction on the run, with the one
handler that takes a request. -/
theorem arrivals_of_play (h : (ofConfig config gate).play τ = some s) :
    s.core.stats.arrivals = arrivals ((ofConfig config gate : Service ω).fates τ) := by
  refine play_induction (P := fun τ s =>
    s.core.stats.arrivals = arrivals ((ofConfig config gate : Service ω).fates τ)) rfl ?_ h
  intro τ m s t hplay ih hmove
  obtain ⟨ds, hds⟩ := exists_tells_of_play (sound_ofConfig config gate) hplay
  rw [fates, admissions_concat hplay hmove, List.map_append]
  by_cases hnone : s.fetched m = []
  · rw [admitted, hnone, List.map_nil, List.map_nil, List.append_nil,
      arrivals_of_fetched_eq_nil hds.sound hnone hmove]
    exact ih
  · obtain ⟨rfl, job, w, rest, hc⟩ := exists_request_of_fetched hnone
    obtain ⟨hrun, hd⟩ := handled_of_request hc hmove
    rw [admitted_of_request hc, List.map_singleton, arrivals_concat, hd.core]
    show (s.core.accept job w).stats.arrivals = countArrival _ _
    rw [Dispatcher.arrivals_accept (hds.sound.carried hrun).ready job w, ih, fates]

/-- A request opens a task exactly if that is its fate. -/
theorem length_opened (s : Service ω) (τ : List (Move ω)) :
    (s.opened τ).length = (s.fates τ).count .opened := by
  unfold opened fates
  generalize s.admissions τ = as
  induction as with
  | nil => rfl
  | cons a rest ih =>
      rw [List.map_cons, List.count_cons, ← ih, List.filterMap_cons, Admitted.task?]
      by_cases hfate : a.fate = .opened <;> simp [hfate]

/-! ## Tasks -/

/-- The three numbers on the left are where tasks come from, those on the right where they go. -/
theorem length_rejectedBy_of_turnover {ts : List Task} (h : s.Turnover m ts t) :
    s.core.queue.length + (s.openedBy m).length + s.handedKeys.length =
      t.core.queue.length + (s.rejectedBy m).length + t.handedKeys.length := by
  have hqueue := congrArg List.length h.queue
  rw [List.length_append, List.length_append] at hqueue
  unfold rejectedBy
  cases hwhy : s.refusal? m with
  | none =>
      obtain ⟨hhanded, -⟩ := h.handed hwhy
      rw [hhanded, List.length_append, List.length_map]
      simp
      omega
  | some why =>
      obtain ⟨rfl, -, hhanded, -⟩ := h.rejected why hwhy
      rw [hhanded]
      simp
      omega

/-- Each task that has been opened is queued, has been rejected, or has been handed out.  By
induction on the run, from what one move does with the queue. -/
theorem length_opened_of_play (h : (ofConfig config gate).play τ = some s) :
    ((ofConfig config gate : Service ω).opened τ).length =
      s.core.queue.length + ((ofConfig config gate : Service ω).rejected τ).length +
        s.handedKeys.length := by
  refine play_induction (P := fun τ s => ((ofConfig config gate : Service ω).opened τ).length =
    s.core.queue.length + ((ofConfig config gate : Service ω).rejected τ).length +
      s.handedKeys.length) rfl ?_ h
  intro τ m s t hplay ih hmove
  obtain ⟨ds, hds⟩ := exists_tells_of_play (sound_ofConfig config gate) hplay
  obtain ⟨ts, hts⟩ := turnover_of_move hds.sound (ledger_of_play hplay) hmove
  have hstep := length_rejectedBy_of_turnover hts
  rw [opened_concat hplay hmove, rejected, gather_concat rejectedBy hplay hmove, List.length_append,
    List.length_append, ih, rejected]
  omega

/-- Hand-overs, failures and results are counted along the path of deeds. -/
theorem counted_of_play (h : (ofConfig config gate).play τ = some s) :
    s.story.Counted (reported τ) := by
  obtain ⟨ds, hds⟩ := exists_tells_of_play (sound_ofConfig config gate) h
  have hcounted := hds.path.counted (.ofSize config.poolSize)
  rwa [hds.reports] at hcounted

/-! ## The balance -/

/-- **What the counters show after a run.**  The first four fields are the balance; the last two say
what each counter stands for in the history, so that the balance is one of numbers that mean
something. -/
structure Balanced (config : PoolSettings) (gate : Gate) (τ : List (Move ω)) (s : Service ω) :
    Prop where
  /-- Requests are hits, joined others, were turned away, or opened a task. -/
  requests : s.core.stats.requests = s.core.stats.cacheHits + s.core.stats.coalesced +
    .ofNat (((ofConfig config gate : Service ω).fates τ).count .refused) +
    .ofNat ((ofConfig config gate : Service ω).opened τ).length
  /-- Tasks opened have been handed out, are queued, or have been rejected from the queue. -/
  opened : .ofNat ((ofConfig config gate : Service ω).opened τ).length =
    s.core.stats.dispatched + .ofNat s.core.queue.length +
      .ofNat ((ofConfig config gate : Service ω).rejected τ).length
  /-- Tasks handed out are cached, have failed, or are with a worker. -/
  dispatched : s.core.stats.dispatched =
    s.core.stats.cacheEntries + s.core.stats.failed + .ofNat s.core.running
  idle : s.core.running = 0 →
    s.core.stats.dispatched = s.core.stats.cacheEntries + s.core.stats.failed
  /-- Each request is counted once, and each by what has become of it. -/
  arrivals : s.core.stats.arrivals = arrivals ((ofConfig config gate : Service ω).fates τ)
  /-- Hand-overs, failures and results are counted as they come. -/
  counted : s.core.stats.dispatched = .ofNat s.handedKeys.length ∧
    s.core.stats.failed = .ofNat (WorkReport.failures (reported τ)).length ∧
    s.core.stats.cacheEntries = .ofNat s.core.cache.size

/-- **The counters balance** after every run, whatever callers, workers and the gate have done. -/
theorem counters_balance (h : (ofConfig config gate).play τ = some s) :
    Balanced config gate τ s := by
  have harrivals := arrivals_of_play h
  have hcounted := counted_of_play h
  have hhanded : s.core.stats.dispatched = .ofNat s.handedKeys.length := by
    rw [handedKeys_eq]
    exact hcounted.dispatched
  have hbalance : s.core.stats.dispatched =
      s.core.stats.cacheEntries + s.core.stats.failed + .ofNat s.core.running :=
    hcounted.balance (tally_of_play h).1
  refine ⟨?_, ?_, hbalance, fun hidle => ?_, harrivals,
    hhanded, hcounted.failed, hcounted.cacheEntries⟩
  · -- Each request has exactly one fate, so the counts of the four fates add up.
    obtain ⟨hrequests, hboth⟩ := Prod.mk.inj harrivals
    obtain ⟨hhits, hjoined⟩ := Prod.mk.inj hboth
    rw [hrequests, hhits, hjoined, length_opened, ← UInt64.ofNat_add, ← UInt64.ofNat_add,
      ← UInt64.ofNat_add, ← length_fates]
  · rw [hhanded, length_opened_of_play h, ← UInt64.ofNat_add, ← UInt64.ofNat_add]
    congr 1
    omega
  · rw [hbalance, hidle]
    exact UInt64.add_zero _

/-- Two callers share a task whose result a third one finds in the cache; one task is under way when
the gate fails, another is rejected from the queue, and the last caller is turned away. -/
def countedRun : List (Move Nat) :=
  [.begin, .request (.name "a") 0, .request (.name "a") 1, .command, .command, .take 0,
    .finish 0 (.ofJob (.name "a")) (.name "A"), .report ⟨0, .name "a", .ok (.name "A")⟩,
    .request (.name "a") 2, .request (.name "b") 3, .request (.name "c") 4, .command, .command,
    .command, .setGate (.failed (.engineNotReady "down")), .watch, .request (.name "d") 5, .command]

/-- What the counters show after it. -/
def countedStats : Stats where
  requests := 6
  cacheHits := 1
  coalesced := 1
  dispatched := 2
  cacheEntries := 1

theorem counters_balance_refused :
    ∃ s : Service Nat, (ofConfig { poolSize := 1 } { state := .ready }).play countedRun = some s ∧
      s.core.stats = countedStats ∧
      (ofConfig { poolSize := 1 } { state := .ready } : Service Nat).fates countedRun =
        [.opened, .joined, .hit, .opened, .opened, .refused] ∧
      s.core.running = 1 ∧ Balanced { poolSize := 1 } { state := .ready } countedRun s := by
  have hplay : ((ofConfig { poolSize := 1 } { state := .ready } : Service Nat).play countedRun).any
      fun s => decide (s.core.stats = countedStats) && decide (s.core.running = 1) := by
    decide +kernel
  obtain ⟨s, hs, hall⟩ := (Option.any_eq_true _ _).mp hplay
  obtain ⟨hstats, hrunning⟩ :=
    (Bool.and_eq_true_iff.mp hall).imp of_decide_eq_true of_decide_eq_true
  exact ⟨s, hs, hstats, by decide +kernel, hrunning, counters_balance hs⟩

end AvatarPool.Service
