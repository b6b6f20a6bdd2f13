import AvatarPool.Proofs.Dispatch.Tally
import AvatarPool.Proofs.Service.Ledger

/-! # One invocation at a time

For each fingerprint at most one task is ever with a worker, and none is handed out once there is a
result: what has been handed out has failed, is cached, or is under way.  A cached result is the
one that the engine made of the fingerprint's own job.

The dispatcher's tally, which counts hand-overs against failures and results, is kept while the loop
runs.  Deeds that come after that, giving up callers and refusing late ones, hand out nothing and
keep nothing, so the tally of a whole run is that of its running part. -/

namespace AvatarPool

variable {ω : Type}

/-- The fingerprint of the task that an output hands to a worker. -/
def Output.handed? : Output ω → Option Fingerprint
  | .effect (.handed _ task) => some task.fingerprint
  | _ => none

namespace Service

variable {config : PoolSettings} {gate : Gate} {s t : Service ω} {τ τ' : List (Move ω)}

/-- The fingerprints of the tasks handed out so far, once for each time. -/
def handedKeys (s : Service ω) : List Fingerprint := s.outputs.filterMap Output.handed?

/-- The tasks handed out can be read off the story. -/
theorem handedKeys_eq (s : Service ω) : s.handedKeys = s.story.handedKeys := by
  refine filterMap_outputs (fun o => ?_) s
  cases o with
  | effect e => cases e <;> rfl
  | _ => rfl

/-! ## The balance of a run -/

/-- The deeds after the loop has left take in no reports. -/
theorem filterMap_report?_of_last {ds : List (Deed ω)} (h : ∀ x ∈ ds, x.isLast) :
    ds.filterMap Deed.report? = [] := by
  refine List.filterMap_eq_nil_iff.mpr fun x hx => ?_
  have hlast := h x hx
  cases x with
  | settle => cases hlast
  | _ => rfl

/-- Together with it comes what makes it useful: held fingerprints are distinct and not cached. -/
theorem tally_of_play (h : (ofConfig config gate).play τ = some s) :
    s.story.Tally (reported τ) ∧ s.story.heldKeys.Nodup ∧
      ∀ k ∈ s.story.heldKeys, s.story.cache.get? k = none := by
  obtain ⟨ds, hds⟩ := exists_tells_of_play (sound_ofConfig config gate) h
  -- The tally is made over the deeds of the running loop; the last deeds leave it as it is.
  obtain ⟨-, es, fs, rfl, hclear, hlast, -, -⟩ := hds.staged
  obtain ⟨d, hrunning, hrest⟩ := hds.path.exists_of_append
  have hledger := hrunning.ledger (.ofSize config.poolSize) hclear
  have htally := hrunning.tally (.ofSize config.poolSize) (.ofSize config.poolSize) hclear
  have hreports : es.filterMap Deed.report? = reported τ := by
    rw [← hds.reports, List.filterMap_append, filterMap_report?_of_last hlast, List.append_nil]
  obtain ⟨hhanded, hcache, hheld⟩ := hrest.still hlast
  refine ⟨?_, ?_, ?_⟩
  · rw [← hreports]
    exact htally.congr hhanded hcache hheld
  · rw [Dispatcher.heldKeys, hheld]
    have hnodup := hledger.nodup
    rw [Dispatcher.openKeys, Dispatcher.openTasks, List.map_append] at hnodup
    exact (List.nodup_append.mp hnodup).2.1
  · rw [Dispatcher.heldKeys, hheld, hcache]
    intro k hk
    obtain ⟨task, htask, rfl⟩ := List.mem_map.mp hk
    exact hledger.uncached_of_open (List.mem_append_right _ htask)

/-- What is cached stays so, and is not handed out again.  From then on the tally leaves no room for
a further hand-over. -/
theorem cached_of_play (h : (ofConfig config gate).play τ = some s)
    (h' : (ofConfig config gate).play (τ ++ τ') = some t) {k : Fingerprint} {artifact : Artifact}
    (hk : s.core.cache.get? k = some artifact) :
    t.core.cache.get? k = some artifact ∧ t.handedKeys.count k = s.handedKeys.count k := by
  obtain ⟨ds₀, hds₀⟩ := exists_tells_of_play (sound_ofConfig config gate) h
  rw [play_append_of_play h] at h'
  obtain ⟨ds, hds⟩ := exists_tells_of_play hds₀.sound h'
  refine ⟨hds.path.get?_of_some hk, ?_⟩
  obtain ⟨-, es, fs, rfl, hclear, hlast, hes, -⟩ := hds.staged
  obtain ⟨d, hrunning, hrest⟩ := hds.path.exists_of_append
  rw [handedKeys_eq, handedKeys_eq, (hrest.still hlast).1]
  -- If the loop had stopped by then, it has only done last deeds since.
  by_cases hrun : s.isRunning
  · exact hrunning.count_handedKeys (story_ledger_of_play h hrun) hclear hk
  · rw [hes hrun] at hrunning
    rw [hrunning.eq_of_nil]

/-! ## Where results come from -/

/-- A report that the engine's invocation for the fingerprint's own job has filed.  It carries the
outcome of that invocation under the job's own fingerprint. -/
def Filed (τ : List (Move ω)) (c : WorkReport) : Prop :=
  ∃ job ending, Move.finish c.worker (Task.ofJob job) ending ∈ τ ∧
    c = ⟨c.worker, job.fingerprint, ending.outcome job.fingerprint⟩

theorem Filed.mono {c : WorkReport} (h : Filed τ c) (hsub : τ ⊆ τ') : Filed τ' c := by
  obtain ⟨job, ending, hmem, hc⟩ := h
  exact ⟨job, ending, hsub hmem, hc⟩

/-- While the loop runs, workers render tasks of the ledger. -/
theorem own_of_renders (h : (ofConfig config gate).play τ = some s) (hrun : s.isRunning) {k : Nat}
    {task : Task} (hrenders : s.renders k task) : task = Task.ofJob task.job := by
  obtain ⟨ds, hds⟩ := exists_tells_of_play (sound_ofConfig config gate) h
  obtain ⟨w, hw, hactivity⟩ := Option.any_eq_true _ _ |>.mp hrenders
  obtain ⟨pool, hpool, hworker⟩ := Option.bind_eq_some_iff.mp hw
  obtain ⟨slot, hslot, rfl⟩ := Option.map_eq_some_iff.mp hworker
  have hfits := (Dispatcher.slots_of_pool hpool ▸ hds.sound.carried hrun).fits k slot hslot
  generalize reportsOf s.reports k = unread at hfits
  -- Of the places of a task only one is under the worker's hands.
  have hheld : slot.held = some task := by
    have hrendering : slot.worker.activity = .rendering task := by simpa using hactivity
    cases hfits with
    | rendering task' => cases hrendering; rfl
    | _ => cases hrendering
  refine (ledger_of_play h hrun).own task (List.mem_append_right _ ?_)
  simp only [Dispatcher.held, hpool, Option.map_some, Option.getD_some]
  exact List.mem_filterMap.mpr ⟨slot, List.mem_of_getElem? hslot, hheld⟩

/-- While the loop runs, every report filed carries the outcome of an invocation for its own job.
By induction on the run, for an invocation can only end where its worker is at a task of the ledger.
-/
theorem filed_of_isRunning (h : (ofConfig config gate).play τ = some s) (hrun : s.isRunning) :
    ∀ c ∈ filed τ, Filed τ c := by
  refine play_induction (P := fun τ s => s.isRunning → ∀ c ∈ filed τ, Filed τ c) ?_ ?_ h hrun
  · exact fun _ => nofun
  · intro τ m t u hplay ih hmove hrun c hc
    obtain ⟨ds, hds⟩ := exists_tells_of_play (sound_ofConfig config gate) hplay
    obtain ⟨es, hes⟩ := exists_tells_of_move hds.sound hmove
    have hrun' := hes.staged.1 hrun
    rw [filed_append] at hc
    rcases List.mem_append.mp hc with hold | hnew
    · exact (ih hrun' c hold).mono (List.subset_append_left _ _)
    · cases m with
      | finish k task ending =>
          obtain rfl := List.mem_singleton.mp hnew
          obtain ⟨hrenders, -⟩ := Option.ite_none_right_eq_some.mp hmove
          have hown := own_of_renders hplay hrun' hrenders
          refine ⟨task.job, ending, ?_, ?_⟩
          · rw [← hown]
            exact List.mem_append_right _ (List.mem_singleton_self _)
          · rw [hown]
            rfl
      | _ => exact absurd hnew List.not_mem_nil

/-- Every report that the loop reads is of an invocation for the fingerprint's own job. -/
theorem filed_of_reported (h : (ofConfig config gate).play τ = some s) :
    ∀ c ∈ reported τ, Filed τ c := by
  refine play_induction (P := fun τ _ => ∀ c ∈ reported τ, Filed τ c) nofun ?_ h
  intro τ m t u hplay ih hmove c hc
  rw [reported_append] at hc
  rcases List.mem_append.mp hc with hold | hnew
  · exact (ih c hold).mono (List.subset_append_left _ _)
  · cases m with
    | report c' =>
        obtain rfl := List.mem_singleton.mp hnew
        obtain ⟨⟨hl, hc'⟩, -⟩ := Option.ite_none_right_eq_some.mp hmove
        have hrun := isRunning_of_isListening hl
        -- What is read now has been filed before, while the loop was running.
        obtain ⟨ds, hds⟩ := exists_tells_of_play (sound_ofConfig config gate) hplay
        have hfifo : filed τ = reported τ ++ t.reports := hds.fifo hrun
        have hmem : c ∈ filed τ :=
          hfifo ▸ List.mem_append_right _ (List.mem_of_head? hc')
        exact (filed_of_isRunning hplay hrun c hmem).mono (List.subset_append_left _ _)
    | _ => exact absurd hnew List.not_mem_nil

/-- A result that has been reported was made of the fingerprint's own job. -/
theorem made_of_result (h : (ofConfig config gate).play τ = some s) {k : Fingerprint}
    {artifact : Artifact} (hk : artifact ∈ WorkReport.results k (reported τ)) :
    ∃ worker job ending, Move.finish worker (Task.ofJob job) ending ∈ τ ∧ job.fingerprint = k ∧
      ending.outcome k = .ok artifact := by
  obtain ⟨c, hc, hresult⟩ := List.mem_filterMap.mp hk
  obtain ⟨job, ending, hmem, hfiled⟩ := filed_of_reported h c hc
  rw [hfiled, WorkReport.result?] at hresult
  dsimp only at hresult
  split at hresult
  · rename_i artifact' houtcome
    obtain ⟨rfl, hartifact⟩ := Option.ite_none_right_eq_some.mp hresult
    obtain rfl := Option.some.inj hartifact
    exact ⟨c.worker, job, ending, hmem, rfl, houtcome⟩
  · cases hresult

/-- **Single flight, and where results come from.**  In every state of every run, each fingerprint
has been handed to workers as often as it has failed, once more if it is cached, and once more if it
is with a worker, where it is at most once.  A cached result is the only one reported for its
fingerprint, an invocation for the fingerprint's own job has made it, and from then on it stays as
it is and the fingerprint is with no worker and handed to none. -/
theorem single_flight (h : (ofConfig config gate).play τ = some s) (k : Fingerprint) :
    s.handedKeys.count k =
      (WorkReport.failures (reported τ)).count k + (if k ∈ s.core.cache.keys then 1 else 0) +
        (if k ∈ s.core.heldKeys then 1 else 0) ∧
    s.core.heldKeys.count k ≤ 1 ∧
    ∀ artifact, s.core.cache.get? k = some artifact →
      k ∉ s.core.heldKeys ∧
      WorkReport.results k (reported τ) = [artifact] ∧
      (∃ worker job ending, Move.finish worker (Task.ofJob job) ending ∈ τ ∧ job.fingerprint = k ∧
        ending.outcome k = .ok artifact) ∧
      ∀ τ' t, (ofConfig config gate).play (τ ++ τ') = some t →
        t.core.cache.get? k = some artifact ∧ t.handedKeys.count k = s.handedKeys.count k := by
  obtain ⟨htally, hheld, huncached⟩ := tally_of_play h
  refine ⟨?_, List.nodup_iff_count_le_one.mp hheld k, fun artifact hk => ?_⟩
  · rw [handedKeys_eq, htally.balance.count_eq, List.count_append, List.count_append,
      htally.keys.count, hheld.count, Nat.add_assoc]
    rfl
  -- The reports for a key that came to something are what the cache holds under it.
  · have hresults : WorkReport.results k (reported τ) = [artifact] := by
      rw [htally.results k]
      exact congrArg Option.toList hk
    refine ⟨fun hmem => ?_, hresults, made_of_result h (hresults ▸ List.mem_singleton_self _), ?_⟩
    · have hnone : s.core.cache.get? k = none := huncached k hmem
      rw [hk] at hnone
      cases hnone
    · exact fun τ' t h' => cached_of_play h h' hk

/-- A first invocation fails and a second succeeds; between them the gate fails and turns a caller
away while the second is under way. -/
def retriedRun : List (Move Nat) :=
  [.begin, .request (.name "a") 0, .command, .take 0, .finish 0 (.ofJob (.name "a")) (.failed "x"),
    .report ⟨0, .name "a", .error (.engine "x")⟩, .request (.name "a") 1, .command, .take 0,
    .setGate (.failed .shuttingDown), .watch, .request (.name "a") 2, .command,
    .finish 0 (.ofJob (.name "a")) (.name "A"), .report ⟨0, .name "a", .ok (.name "A")⟩]

theorem single_flight_retried :
    ∃ s : Service Nat, (ofConfig { poolSize := 1 } { state := .ready }).play retriedRun = some s ∧
      s.core.cache.get? (.name "a") = some (.name "A") ∧ s.handedKeys.count (.name "a") = 2 ∧
      WorkReport.results (.name "a") (reported retriedRun) = [.name "A"] := by
  have hplay : ((ofConfig { poolSize := 1 } { state := .ready } : Service Nat).play retriedRun).any
      (fun s => s.core.cache.get? (.name "a") = some (.name "A") &&
        s.handedKeys.count (.name "a") = 2) := by
    decide +kernel
  obtain ⟨s, hs, hall⟩ := (Option.any_eq_true _ _).mp hplay
  obtain ⟨hcached, hcount⟩ := Bool.and_eq_true_iff.mp hall
  have hk := of_decide_eq_true hcached
  exact ⟨s, hs, hk, of_decide_eq_true hcount, ((single_flight hs (.name "a")).2.2 _ hk).2.1⟩

end Service

end AvatarPool
