import AvatarPool.Proofs.Dispatch.Ledger
import AvatarPool.Proofs.Service.History

/-! # The ledger of a running service

However requests, reports, changes of the gate and the beginning of a stop follow one another, the
dispatcher's ledger holds as long as the loop runs: nobody waits for a task that is lost, no task is
under way twice, and none is under way whose result is known. -/

namespace AvatarPool.Service

variable {ω : Type} {config : PoolSettings} {gate : Gate} {s : Service ω} {τ : List (Move ω)}

/-- The path of deeds keeps the ledger as long as nothing has been cleared, and only a loop that
leaves clears it. -/
theorem story_ledger_of_play (h : (ofConfig config gate).play τ = some s) (hrun : s.isRunning) :
    s.story.Ledger := by
  obtain ⟨ds, hds⟩ := exists_tells_of_play (sound_ofConfig config gate) h
  exact hds.path.ledger (.ofSize config.poolSize) (hds.staged.unclear hrun)

/-- The dispatcher's ledger does not look at effects. -/
theorem ledger_of_play (h : (ofConfig config gate).play τ = some s) (hrun : s.isRunning) :
    s.core.Ledger :=
  (story_ledger_of_play h hrun).congr (List.Perm.refl _) rfl rfl

/-- **Tasks and waiting callers match.**  While the loop runs, the fingerprints of the queued tasks
and of the tasks noted for workers are distinct and are the keys under which callers wait; under
each key somebody waits, and no such key is cached.  A noted task is in its worker's box, under its
worker's hands, or in a report that is still unread. -/
theorem open_tasks_match_pending (h : (ofConfig config gate).play τ = some s)
    (hrun : s.isRunning) :
    (s.core.queue.map Task.fingerprint ++ s.core.held.map Task.fingerprint).Nodup ∧
      (∀ f, f ∈ s.core.queue.map Task.fingerprint ++ s.core.held.map Task.fingerprint ↔
        f ∈ s.core.pending.keys) ∧
      s.core.pending.keys.Nodup ∧
      (∀ e ∈ s.core.pending.entries, e.2 ≠ []) ∧
      (∀ f ∈ s.core.pending.keys, f ∉ s.core.cache.keys) ∧
      Carried s.core.slots s.reports := by
  have hledger := ledger_of_play h hrun
  have hkeys : s.core.openKeys =
      s.core.queue.map Task.fingerprint ++ s.core.held.map Task.fingerprint := List.map_append
  obtain ⟨ds, hds⟩ := exists_tells_of_play (sound_ofConfig config gate) h
  rw [← hkeys]
  refine ⟨hledger.nodup, hledger.mem_openKeys_iff, hledger.wellFormed.nodup,
    hledger.wellFormed.waited, fun f hf => ?_, hds.sound.carried hrun⟩
  exact (Cache.get?_eq_none_iff _ _).mp (hledger.uncached f hf)

/-- One worker renders, one task is queued, two callers share it, and the gate has failed and opened
again meanwhile. -/
def flappedRun : List (Move Nat) :=
  [.begin, .request (.name "a") 0, .command, .take 0, .setGate (.failed .shuttingDown), .watch,
    .setGate .ready, .watch, .request (.name "b") 1, .request (.name "b") 2, .command, .command]

theorem open_tasks_match_pending_flapped :
    ∃ s : Service Nat, (ofConfig { poolSize := 1 } { state := .ready }).play flappedRun = some s ∧
      s.isRunning ∧ s.core.pending.keys = [.name "a", .name "b"] ∧
      (∀ f, f ∈ s.core.queue.map Task.fingerprint ++ s.core.held.map Task.fingerprint ↔
        f ∈ s.core.pending.keys) := by
  have hplay : ((ofConfig { poolSize := 1 } { state := .ready } : Service Nat).play flappedRun).any
      (fun s => s.isRunning && s.core.pending.keys = [.name "a", .name "b"]) := by
    decide +kernel
  obtain ⟨s, hs, hall⟩ := (Option.any_eq_true _ _).mp hplay
  obtain ⟨hrun, hkeys⟩ := Bool.and_eq_true_iff.mp hall
  exact ⟨s, hs, hrun, of_decide_eq_true hkeys, (open_tasks_match_pending hs hrun).2.1⟩

end AvatarPool.Service
