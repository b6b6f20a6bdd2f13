import AvatarPool.Proofs.Service.Shifts
import AvatarPool.Proofs.Service.Shutdown

/-! # Invocations of the engine

An invocation begins when a worker takes a task out of its box, and ends when the worker has its
result.  Nothing else begins or ends one: not the gate, not the callers, and not a stop of the
service, which an invocation may outlast.  So the invocations begun are those that have ended and
those that run, one for a worker.

The workers are looked at by what they are doing, so that an invocation is a worker together with
the task it is at.  A move changes one entry of that list at most, which is why a list of pairs
without repetition comes of it; that there are no more workers than the pool was opened with is
known from what the loop has seen of the gate. -/

namespace AvatarPool

variable {ω : Type}

/-! ## Invocations that run -/

/-- The invocations of workers who are at `l`: the worker and the task of each. -/
def renderings (l : List Activity) : List (Nat × Task) :=
  (l.mapIdx fun k a => a.task?.map (k, ·)).filterMap id

/-- One worker goes on from one thing to another.  What it was at before and what it is at now are
exchanged. -/
theorem renderings_set {l : List Activity} {k : Nat} {a : Activity} (h : l[k]? = some a)
    (b : Activity) : ((a.task?.map (k, ·)).toList ++ renderings (l.set k b)).Perm
      ((b.task?.map (k, ·)).toList ++ renderings l) := by
  unfold renderings
  rw [List.mapIdx_set]
  exact filterMap_set_perm (by rw [List.getElem?_mapIdx, h]; rfl) id _

/-- Who waits runs nothing. -/
theorem renderings_replicate (n : Nat) : renderings (List.replicate n .waiting) = [] := by
  refine List.filterMap_eq_nil_iff.mpr fun x hx => ?_
  obtain ⟨k, hk, rfl⟩ := List.mem_mapIdx.mp hx
  rw [List.getElem_replicate]
  rfl

/-- **One invocation for a worker**, and the workers are those there are.  By induction from the end
of the list, where the last worker is the one with the highest number. -/
theorem workers_sublist_range (l : List Activity) :
    ((renderings l).map Prod.fst).Sublist (List.range l.length) := by
  unfold renderings
  induction l using List.reverseRecOn with
  | nil => exact .slnil
  | append_singleton l a ih =>
      rw [List.mapIdx_concat, List.filterMap_append, List.map_append, List.length_append,
        List.length_singleton, List.range_succ]
      refine ih.append ?_
      cases a.task? with
      | none => exact List.nil_sublist _
      | some task => exact .refl _

/-! ## What begins and ends -/

/-- The invocations that have ended in a run. -/
def concluded (τ : List (Move ω)) : List (Nat × Task) := τ.filterMap Move.ended?

namespace Service

variable {config : PoolSettings} {gate : Gate} {s t : Service ω} {m : Move ω} {τ : List (Move ω)}

/-- The invocations begun in a run. -/
def invoked (s : Service ω) (τ : List (Move ω)) : List (Nat × Task) := s.gather begun τ

/-- The invocations that run. -/
def running (s : Service ω) : List (Nat × Task) :=
  renderings ((s.core.pool.map Pool.activities).getD [])

theorem running_eq (s : Service ω) : s.running = renderings (s.standing.activities.getD []) := rfl

/-- **A move begins what runs after it**, apart from what it ends.  By the three ways in which a
move shifts workers. -/
theorem running_of_move (hs : s.core.effects = []) (h : s.move m = some t) :
    (m.ended?.toList ++ t.running).Perm (s.begun m ++ s.running) := by
  rw [running_eq, running_eq]
  cases shifts_of_move hs h with
  | same hb he _ hstanding =>
      rw [hb, he, hstanding]
      exact .refl _
  | @saw state hb he _ hstanding =>
      rw [hb, he, hstanding]
      unfold Dispatcher.Standing.see
      cases hl : s.standing.activities with
      | some l => simp
      | none =>
          dsimp only
          split
          · exact .of_eq (renderings_replicate _)
          · exact .refl _
  | turned hl hk hb he _ hstanding =>
      rw [hb, he, hl, hstanding]
      exact renderings_set hk _

/-! ## Runs -/

/-- **What has begun has ended or runs.**  By induction on the run, since the last move exchanges
what it begins and ends. -/
theorem invoked_perm (h : (ofConfig config gate).play τ = some s) :
    ((ofConfig config gate).invoked τ).Perm (concluded τ ++ s.running) := by
  refine play_induction (P := fun τ s =>
    ((ofConfig config gate).invoked τ).Perm (concluded τ ++ s.running)) (.refl _) ?_ h
  intro τ m s t hplay ih hmove
  obtain ⟨ds, hds⟩ := exists_tells_of_play (sound_ofConfig config gate) hplay
  have hended : concluded (τ ++ [m]) = concluded τ ++ m.ended?.toList :=
    filterMap_snoc Move.ended? τ m
  rw [invoked, gather_concat begun hplay hmove, hended]
  calc ((ofConfig config gate).invoked τ ++ s.begun m).Perm
        (concluded τ ++ s.running ++ s.begun m) := ih.append_right _
    _ |>.Perm (concluded τ ++ (s.begun m ++ s.running)) := by
        rw [List.append_assoc]
        exact List.perm_append_comm.append_left _
    _ |>.Perm (concluded τ ++ (m.ended?.toList ++ t.running)) :=
        (running_of_move hds.sound.collected hmove).symm.append_left _
    _ |>.Perm (concluded τ ++ m.ended?.toList ++ t.running) := by
        rw [List.append_assoc]

/-- The workers who run something are among those there are to be.  Their numbers are distinct, and
below the size of the pool. -/
theorem workers_of_play (h : (ofConfig config gate).play τ = some s) :
    (s.running.map Prod.fst).Sublist (List.range (max 1 config.poolSize)) := by
  rw [running_eq]
  cases hl : s.standing.activities with
  | none => exact List.nil_sublist _
  | some l =>
      rw [← (stands_of_play h).workers l hl]
      exact workers_sublist_range l

/-- Of all that is announced on the states of the gate, the opening of the pool is one, and only the
first open state brings it. -/
theorem started_announced (size : Nat) (opened : Bool) (states : List Readiness) :
    (announced size opened states : List (Effect ω)).filterMap Effect.started? =
      if opened = false ∧ .ready ∈ states then [size] else [] := by
  induction states generalizing opened with
  | nil => simp [announced]
  | cons state rest ih =>
      rw [announced, List.filterMap_append, ih]
      cases state <;> cases opened <;> simp [announce, Effect.started?]

/-- **The pool is opened once**, at the first open gate. -/
theorem poolsOpened_of_play (h : (ofConfig config gate).play τ = some s) :
    s.poolsOpened =
      if .ready ∈ (ofConfig config gate).observed τ then [max 1 config.poolSize] else [] := by
  have hnotices : s.poolsOpened = s.standing.notices.filterMap Effect.started? := by
    have hdrawn : ∀ e : Effect ω, e.isNotice = false → e.started? = none := by
      intro e he
      cases e with
      | started => cases he
      | _ => rfl
    exact (poolsOpened_eq s).trans (s.story.filterMap_notices hdrawn).symm
  rw [hnotices, (stands_of_play h).notices, started_announced]
  simp

/-- **The pool bounds the invocations.**  After every run, whatever callers, engine and gate do, and
whether the service serves, stops or has ended, the invocations begun are those that have ended and
those that run.  Those that run are at most as many as the pool is to have workers, and belong to
different workers of the pool.  So no worker has begun two more than have ended.  The pool itself
is opened at the first open gate that the loop has seen, and never again. -/
theorem pool_bounds_invocations (h : (ofConfig config gate).play τ = some s) :
    ((ofConfig config gate).invoked τ).Perm (concluded τ ++ s.running) ∧
      s.running.length ≤ max 1 config.poolSize ∧
      (s.running.map Prod.fst).Nodup ∧
      (∀ i ∈ s.running, i.1 < max 1 config.poolSize) ∧
      (∀ k, (((ofConfig config gate).invoked τ).map Prod.fst).count k ≤
        ((concluded τ).map Prod.fst).count k + 1) ∧
      s.poolsOpened =
        if .ready ∈ (ofConfig config gate).observed τ then [max 1 config.poolSize] else [] := by
  have hworkers := workers_of_play h
  have hnodup : (s.running.map Prod.fst).Nodup := hworkers.nodup List.nodup_range
  refine ⟨invoked_perm h, ?_, hnodup, fun i hi => ?_, fun k => ?_, poolsOpened_of_play h⟩
  · have hlength := hworkers.length_le
    rwa [List.length_map, List.length_range] at hlength
  · exact List.mem_range.mp (hworkers.subset (List.mem_map_of_mem hi))
  · rw [((invoked_perm h).map Prod.fst).count_eq, List.map_append, List.count_append]
    exact Nat.add_le_add_left (List.nodup_iff_count_le_one.mp hnodup k) _

/-- An invocation panics, the gate fails and opens again, and another invocation outlasts the
service. -/
def outlastedRun : List (Move Nat) :=
  [.begin, .request (.name "a") 0, .request (.name "b") 1, .command, .command, .take 0,
    .finish 0 (.ofJob (.name "a")) .panicked, .report ⟨0, .name "a", .error (.enginePanicked "a")⟩,
    .setGate (.failed .shuttingDown), .watch, .setGate .ready, .watch, .take 0, .stop 2, .command,
    .pass 5000, .leave, .dismiss, .dismiss, .pass 5000, .farewell]

theorem pool_bounds_invocations_outlasted :
    ∃ s : Service Nat,
      (ofConfig { poolSize := 0 } { state := .ready }).play outlastedRun = some s ∧ s.hasEnded ∧
      s.running = [(0, .ofJob (.name "b"))] ∧
      ((ofConfig { poolSize := 0 } { state := .ready }).invoked outlastedRun).Perm
        [(0, .ofJob (.name "a")), (0, .ofJob (.name "b"))] ∧ s.running.length ≤ max 1 0 := by
  have hplay : ((ofConfig { poolSize := 0 } { state := .ready } : Service Nat).play outlastedRun).any
      fun s => s.hasEnded && s.running = [(0, .ofJob (.name "b"))] := by
    decide +kernel
  obtain ⟨s, hs, hall⟩ := (Option.any_eq_true _ _).mp hplay
  obtain ⟨hended, hrunning⟩ := Bool.and_eq_true_iff.mp hall
  have hrunning := of_decide_eq_true hrunning
  obtain ⟨hperm, hbound, -⟩ := pool_bounds_invocations hs
  rw [hrunning] at hperm
  exact ⟨s, hs, hended, hrunning, hperm, hbound⟩

end Service

end AvatarPool
