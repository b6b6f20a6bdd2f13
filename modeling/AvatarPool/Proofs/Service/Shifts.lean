import AvatarPool.Proofs.Dispatch.Standing
import AvatarPool.Proofs.Service.History
import AvatarPool.Proofs.Service.Steps

/-! # Workers and gate over a run

How a service stands changes in two ways only: one of its workers goes on to something else, or the
loop looks at the gate.  `Shifts` says so of every move, together with the invocation that it begins
or ends and the state of the gate that it takes.

Other modules need only what a run yields: the states of the gate it has taken (`observed`) and the
invocations it has begun.  These are gathered from the moves in the states in which they are made,
and `gather_concat` lets them be found by induction on the run. -/

namespace AvatarPool

variable {ω : Type}

/-- The task that a worker is at. -/
def Activity.task? : Activity → Option Task
  | .rendering task => some task
  | _ => none

/-- The invocation that a move ends, and its worker. -/
def Move.ended? : Move ω → Option (Nat × Task)
  | .finish k task _ => some (k, task)
  | _ => none

namespace Service

variable {s t u : Service ω} {m : Move ω} {τ : List (Move ω)}

/-! ## What a run yields -/

section Gather

variable {α : Type}

/-- What the moves of a run yield, each in the state in which it is made. -/
def gather (f : Service ω → Move ω → List α) (s : Service ω) : List (Move ω) → List α
  | [] => []
  | m :: τ =>
    match s.move m with
    | some t => f s m ++ t.gather f τ
    | none => []

/-- The last move adds what it yields. -/
theorem gather_concat (f : Service ω → Move ω → List α) (h : s.play τ = some t)
    (hm : t.move m = some u) : s.gather f (τ ++ [m]) = s.gather f τ ++ f t m := by
  -- By induction on the run, from its first move.
  induction τ generalizing s with
  | nil =>
      cases h
      simp [gather, hm]
  | cons m' τ ih =>
      obtain ⟨t', hm', hrest⟩ := Option.bind_eq_some_iff.mp h
      simp only [List.cons_append, gather, hm', ih hrest, List.append_assoc]

end Gather

/-- The invocation that a move begins: a worker takes a task out of its box. -/
def begun (s : Service ω) : Move ω → List (Nat × Task)
  | .take k =>
    match (s.core.pool.bind fun p => p.worker? k).bind Worker.inbox with
    | some (.render task) => [(k, task)]
    | _ => []
  | _ => []

/-- The state of the gate that a move takes, if the loop looks at it.  A gate that brings no news is
not taken, nor one that is lost. -/
def seen (s : Service ω) : Move ω → List Readiness
  | .begin => [s.gate.state]
  | .watch => if s.gateLive ∧ s.gate.isNew then [s.gate.state] else []
  | _ => []

/-- The states of the gate that the loop has taken in a run, in order. -/
def observed (s : Service ω) (τ : List (Move ω)) : List Readiness := s.gather seen τ

/-- How a service stands, with all that it has announced. -/
def standing (s : Service ω) : Dispatcher.Standing ω := s.story.standing

/-! ## What a move changes

Three things are looked at here and nothing else: what the workers are at, the last state of the
gate, and what has been announced. -/

/-- **What a move does to workers and to what is known of the gate**: nothing, or the loop takes a
state of the gate, or a worker goes on from one thing to another. -/
inductive Shifts (s : Service ω) (m : Move ω) (t : Service ω) : Prop
  | same (hb : s.begun m = []) (he : m.ended? = none) (hs : s.seen m = [])
      (h : t.standing = s.standing)
  | saw {state : Readiness} (hb : s.begun m = []) (he : m.ended? = none) (hs : s.seen m = [state])
      (h : t.standing = s.standing.see state)
  | turned {l : List Activity} {k : Nat} {a b : Activity} (hl : s.standing.activities = some l)
      (hk : l[k]? = some a) (hb : s.begun m = (b.task?.map (k, ·)).toList)
      (he : m.ended? = a.task?.map (k, ·)) (hs : s.seen m = [])
      (h : t.standing = { s.standing with activities := some (l.set k b) })

/-- A handler of the dispatcher runs, and effects have been collected before. -/
theorem standing_withCore {s' : Service ω} (hcore : s'.core = s.core)
    (hout : s'.outputs = s.outputs) {f : Dispatcher ω → Dispatcher ω} :
    (s'.withCore f).standing = { (f s.core).standing with
      notices := s.standing.notices ++ (f s.core).standing.notices } := by
  have hnotices : s.standing.notices =
      (s.outputs.filterMap Output.effect?).filter Effect.isNotice := rfl
  rw [standing, story_withCore, hcore, hout, Dispatcher.standing_after, hnotices]

/-- Between two moves the story differs from the dispatcher in what has been announced alone. -/
theorem standing_core (hs : s.core.effects = []) :
    s.core.standing = { s.standing with notices := [] } := by
  unfold standing story Dispatcher.standing
  rw [hs]
  rfl

/-- A handler that changes nothing of how the dispatcher stands.  Its own effects announce nothing
either. -/
theorem standing_of_handler (hs : s.core.effects = []) {s' : Service ω} (hcore : s'.core = s.core)
    (hout : s'.outputs = s.outputs) {f : Dispatcher ω → Dispatcher ω}
    (hf : (f s.core).standing = s.core.standing) : (s'.withCore f).standing = s.standing := by
  rw [standing_withCore hcore hout, hf, standing_core hs]
  exact congrArg (fun l => { s.standing with notices := l }) (List.append_nil _)

theorem standing_leave (hs : s.core.effects = []) : s.leave.standing = s.standing :=
  standing_of_handler hs rfl rfl (f := fun d => d.rejectPending .shuttingDown)
    (Dispatcher.standing_rejectPending _ _)

/-- A state of the gate is taken. -/
theorem standing_takeGate (hs : s.core.effects = []) :
    s.takeGate.standing = s.standing.see s.gate.state := by
  have hhandled := standing_withCore (s := s) (f := fun d => d.observe s.gate.state)
    (rfl : ({ s with gate := { s.gate with isNew := false } } : Service ω).core = s.core) rfl
  refine hhandled.trans ?_
  rw [Dispatcher.standing_observe, standing_core hs]
  exact congrArg (fun l => { s.standing.see s.gate.state with notices := s.standing.notices ++ l })
    (List.nil_append _)

theorem standing_quiet (h : s.Quiet t) : t.standing = s.standing :=
  congrArg Dispatcher.standing h.story_eq

/-! ## Answers alone

Many moves add answers to the story and nothing else, which is of interest neither here nor to
whoever follows the queue. -/

/-- Nothing comes to the story but answers. -/
def OnlyTells (s t : Service ω) : Prop :=
  ∃ as : List (ω × Outcome), t.story = s.story.note (as.map fun a => .answered a.1 a.2)

theorem onlyTells_of_story (h : t.story = s.story) : s.OnlyTells t := by
  refine ⟨[], h.trans ?_⟩
  unfold Dispatcher.note
  rw [List.map_nil, List.append_nil]

theorem Quiet.onlyTells (h : s.Quiet t) : s.OnlyTells t := onlyTells_of_story h.story_eq

/-- Answers are no announcements. -/
theorem OnlyTells.standing (h : s.OnlyTells t) : t.standing = s.standing := by
  obtain ⟨as, hstory⟩ := h
  unfold Service.standing
  rw [hstory]
  exact Dispatcher.standing_note _ (List.forall_mem_map.mpr fun _ _ => rfl)

/-- Someone is told that it is too late. -/
theorem onlyTells_emit (s : Service ω) (w : ω) (o : Outcome) :
    s.OnlyTells (s.emit [.effect (.answered w o)]) := by
  refine ⟨[(w, o)], ?_⟩
  unfold story emit Dispatcher.note
  rw [List.filterMap_append]
  rfl

theorem onlyTells_post (s : Service ω) (c : Command ω) : s.OnlyTells (s.post c) := by
  have hrouse := Quiet.rouse { s with commands := s.commands ++ [c] } .commands
  exact onlyTells_of_story (hrouse.story_eq.trans rfl)

/-- Those who have come too late are told at the end. -/
theorem onlyTells_finish (s : Service ω) : s.OnlyTells s.finish := by
  refine ⟨s.inChannel.map fun r => (r.2, .error .shuttingDown), ?_⟩
  unfold story finish emit Dispatcher.note
  dsimp only
  rw [List.filterMap_append, List.filterMap_append, inChannel, List.filterMap_map, List.map_map,
    FollowUp.filterMap_map_eq_nil (fun _ => rfl), List.append_nil]
  congr 2
  exact congrFun List.filterMap_eq_map _

/-- From outside comes nothing but requests that are refused after the end. -/
theorem onlyTells_of_outside (hm : m.isOutside) (h : s.move m = some t) : s.OnlyTells t := by
  cases m with
  | request job w =>
      obtain ⟨-, rfl⟩ := Option.ite_some_none_eq_some.mp h
      unfold request
      split
      -- The service has ended, and tells the caller so.
      · exact onlyTells_emit s w _
      · exact onlyTells_post s _
  | stop w =>
      obtain ⟨-, rfl⟩ := Option.ite_some_none_eq_some.mp h
      unfold stop
      split
      · exact (Quiet.emit s [.stopRefused w] rfl).onlyTells
      · exact onlyTells_post s _
  | share =>
      obtain ⟨-, rfl⟩ := Option.ite_some_none_eq_some.mp h
      exact onlyTells_of_story rfl
  | unshare =>
      obtain ⟨-, rfl⟩ := Option.ite_some_none_eq_some.mp h
      exact (Quiet.unshare s).onlyTells
  | setGate | releaseGate =>
      obtain ⟨-, rfl⟩ := Option.ite_some_none_eq_some.mp h
      exact (Quiet.setGate s _).onlyTells
  | pass =>
      cases h
      exact onlyTells_of_story rfl
  | rest =>
      cases h
      exact (Quiet.rest s).onlyTells
  | postpone =>
      cases h
      exact (Quiet.emit s [.postponed] rfl).onlyTells
  | _ => cases hm

/-! ## Workers -/

/-- While there is a pool, how its workers stand is part of how the service stands. -/
theorem activities_of_pool {pool : Pool} (hp : s.core.pool = some pool) :
    s.standing.activities = some pool.activities :=
  congrArg (Option.map Pool.activities) hp

/-- A worker is changed. -/
theorem standing_withPool (s : Service ω) (pool : Pool) :
    (s.withPool pool).standing = { s.standing with activities := some pool.activities } := rfl

/-- A worker takes what is in its box.  What it takes decides what it is at next: a task, or nothing
any more. -/
theorem shifts_of_take {k : Nat} (h : s.workerTakes k = some t) : s.Shifts (.take k) t := by
  obtain ⟨pool, slot, w, hp, hslot, hw, rfl⟩ := exists_of_workerTakes h
  have hbox : (s.core.pool.bind fun p => p.worker? k).bind Worker.inbox = slot.worker.inbox := by
    rw [hp, Option.bind_some, Pool.worker?, hslot]
    rfl
  -- The loop may be roused afterwards, which does not show.
  generalize ht : (if w.isOpen then _ else _ : Service ω) = t
  have hstanding : t.standing =
      { s.standing with activities := some (pool.activities.set k w.activity) } := by
    have hroused := Quiet.rouse (s.withPool (pool.setWorker k w)) (.room k)
    have hquiet : (s.withPool (pool.setWorker k w)).Quiet t := by
      subst ht
      split
      · exact hroused
      · exact hroused.trans (.rouse _ .farewell)
    rw [standing_quiet hquiet, standing_withPool, Pool.activities_setWorker hslot]
  have hat := Pool.getElem?_activities hslot
  unfold Worker.take at hw
  -- It takes a task, and is at it from now on, or it takes its stop, and is gone.
  split at hw <;> cases hw
  · rename_i task hactivity hinbox
    refine .turned (b := .rendering task) (activities_of_pool hp) hat ?_ ?_ rfl hstanding
    · rw [begun, hbox, hinbox]
      rfl
    · rw [hactivity]
      rfl
  · rename_i hactivity hinbox
    refine .turned (b := .gone) (activities_of_pool hp) hat ?_ ?_ rfl hstanding
    · rw [begun, hbox, hinbox]
      rfl
    · rw [hactivity]
      rfl

/-- A worker's invocation ends.  It waits then, for its next message. -/
theorem shifts_of_finish {k : Nat} {task : Task} {ending : Ending} (hrenders : s.renders k task)
    (h : s.workerFinishes k ending = some t) : s.Shifts (.finish k task ending) t := by
  obtain ⟨pool, slot, w, c, hp, hslot, hw, rfl⟩ := exists_of_workerFinishes h
  have hactivity := activity_of_renders hrenders hp hslot
  have hwaits : w.activity = .waiting := by
    unfold Worker.finish at hw
    rw [hactivity] at hw
    cases hw
    rfl
  -- Whether its report still reaches the loop makes no difference here.
  generalize ht : (if s.hasEnded then _ else _ : Service ω) = t
  have hstanding : t.standing =
      { s.standing with activities := some (pool.activities.set k .waiting) } := by
    have hset : (s.withPool (pool.setWorker k w)).standing =
        { s.standing with activities := some (pool.activities.set k .waiting) } := by
      rw [standing_withPool, Pool.activities_setWorker hslot, hwaits]
    subst ht
    split
    · exact hset
    · exact (standing_quiet (.rouse { s.withPool (pool.setWorker k w) with
        reports := s.reports ++ [c] } .reports)).trans hset
  have hat := Pool.getElem?_activities hslot
  rw [hactivity] at hat
  exact .turned (b := .waiting) (activities_of_pool hp) hat rfl rfl rfl hstanding

/-! ## All moves -/

/-- The loop looks at the gate again. -/
theorem shifts_of_watch (hs : s.core.effects = []) (h : s.move .watch = some t) :
    s.Shifts .watch t := by
  obtain ⟨-, hmap⟩ := Option.ite_none_right_eq_some.mp h
  obtain ⟨u, hu, rfl⟩ := Option.map_eq_some_iff.mp hmap
  have hafter := standing_quiet (Quiet.afterInput u false)
  unfold watchGate at hu
  -- There is no gate to look at, or it is looked at, or it turns out to be gone.
  split at hu
  · cases hu
  · rename_i hlive
    have hlive : s.gateLive = true := by simpa using hlive
    split at hu
    · rename_i hnew
      cases hu
      exact .saw rfl rfl (if_pos ⟨hlive, hnew⟩) (hafter.trans (standing_takeGate hs))
    · rename_i hnew
      split at hu <;> cases hu
      exact .same rfl rfl (if_neg fun hboth => hnew hboth.2) hafter

/-- **Every move is a shift** of what the workers are at, or of what is known of the gate, or of
neither.  By the cases of a step. -/
theorem shifts_of_move (hs : s.core.effects = []) (h : s.move m = some t) : s.Shifts m t := by
  cases steps_of_move h with
  | aside hm =>
      have hnone : s.begun m = [] ∧ m.ended? = none ∧ s.seen m = [] := by
        cases m with
        | take | finish | begin | watch => cases hm
        | _ => exact ⟨rfl, rfl, rfl⟩
      exact .same hnone.1 hnone.2.1 hnone.2.2 (onlyTells_of_outside hm h).standing
  | take => exact shifts_of_take h
  | finish =>
      obtain ⟨hrenders, hfinish⟩ := Option.ite_none_right_eq_some.mp h
      exact shifts_of_finish hrenders hfinish
  | begin => exact .saw rfl rfl rfl (standing_takeGate hs)
  | look | lose => exact shifts_of_watch hs h
  | report =>
      refine .same rfl rfl rfl ((standing_quiet (.afterInput _ true)).trans ?_)
      exact standing_of_handler hs rfl rfl (f := fun d => d.takeReport _)
        (Dispatcher.standing_takeReport _ _)
  | intake =>
      refine .same rfl rfl rfl ((standing_quiet (.afterInput _ false)).trans ?_)
      exact standing_of_handler hs rfl rfl (f := fun d => d.accept _ _)
        (Dispatcher.standing_accept _ _ _)
  | stop | desert =>
      refine .same rfl rfl rfl ((standing_quiet (.afterInput _ false)).trans ?_)
      exact standing_of_handler hs rfl rfl (f := fun d => d.rejectQueue .shuttingDown)
        (Dispatcher.standing_rejectQueue _ _)
  | leave => exact .same rfl rfl rfl (standing_leave hs)
  | giveUp =>
      exact .same rfl rfl rfl ((standing_quiet (.afterInput _ false)).trans (standing_leave hs))
  | @tell k pool w os _ hp hk _ hos =>
      obtain ⟨slot, hslot, rfl⟩ := Option.map_eq_some_iff.mp hk
      have hkept := Pool.activities_setWorker_of_eq
        (w := { slot.worker with inbox := some .stop }) hslot rfl
      -- The message is no effect of the dispatcher.
      have hemitted : os.filterMap Output.effect? = [] := by
        rcases hos with rfl | rfl <;> rfl
      have hset : (s.withPool (pool.setWorker k { slot.worker with inbox := some .stop })).standing =
          s.standing := by
        rw [standing_withPool, hkept, ← activities_of_pool hp]
      exact .same rfl rfl rfl ((standing_quiet (.emit _ os hemitted)).trans hset)
  | await | skip => exact .same rfl rfl rfl rfl
  | alone | part => exact .same rfl rfl rfl (onlyTells_finish s).standing

end Service

/-! ## Runs -/

/-- What is announced on these states of the gate, in order. -/
def announced (size : Nat) (opened : Bool) : List Readiness → List (Effect ω)
  | [] => []
  | state :: rest =>
    announce size opened state ++ announced size (opened || state == .ready) rest

/-- The pool is opened at most once, so it matters whether it has been opened by the states before.
-/
theorem announced_concat (size : Nat) (opened : Bool) (states : List Readiness)
    (state : Readiness) : (announced size opened (states ++ [state]) : List (Effect ω)) =
      announced size opened states ++ announce size (opened || states.contains .ready) state := by
  induction states generalizing opened with
  | nil => simp [announced]
  | cons first rest ih =>
      have hopened : (opened || first == .ready || rest.contains .ready) =
          (opened || (first :: rest).contains .ready) := by
        rw [List.contains_cons, Bool.or_assoc, BEq.comm]
      rw [List.cons_append, announced, announced, ih, hopened, List.append_assoc]

/-- **How a dispatcher stands once it has taken these states of the gate**: it knows the last one,
has workers if one was open, never more or fewer than there are to be, and has announced each as it
came. -/
structure Dispatcher.Stands (n : Nat) (states : List Readiness) (x : Standing ω) : Prop where
  size : x.size = n
  readiness : x.readiness = states.getLast?.getD .pending
  opened : x.activities.isSome = states.contains .ready
  workers : ∀ l, x.activities = some l → l.length = max 1 n
  notices : x.notices = announced (max 1 n) false states

/-- One further state is taken: workers come with the first open one, and their number does not
change afterwards. -/
theorem Dispatcher.Stands.see {n : Nat} {states : List Readiness} {x : Standing ω}
    (h : Stands n states x) (state : Readiness) :
    Stands n (states ++ [state]) (x.see state) where
  size := h.size
  readiness := by
    rw [List.getLast?_concat]
    rfl
  opened := by
    have hadd : (states ++ [state]).contains .ready =
        (states.contains .ready || state == .ready) := by
      rw [List.contains_append, List.contains_cons, BEq.comm]
      simp
    rw [hadd, ← h.opened]
    unfold Dispatcher.Standing.see
    by_cases hready : state = .ready <;> simp [hready]
  workers := by
    intro l hl
    unfold Dispatcher.Standing.see at hl
    split at hl
    -- The gate is open: workers come now, or there are workers already.
    · cases hold : x.activities with
      | none =>
          rw [hold] at hl
          cases hl
          rw [Option.getD_none, List.length_replicate, h.size]
      | some l' =>
          rw [hold] at hl
          cases hl
          exact h.workers _ hold
    · exact h.workers l hl
  notices := by
    rw [announced_concat, Bool.false_or, ← h.opened, ← h.notices, ← h.size]
    rfl

namespace Service

variable {config : PoolSettings} {gate : Gate} {s : Service ω} {τ : List (Move ω)}

/-- **How a service stands is settled by what it has seen of the gate**, but for what its workers
are at.  By induction on the run. -/
theorem stands_of_play (h : (ofConfig config gate).play τ = some s) :
    Dispatcher.Stands config.poolSize ((ofConfig config gate : Service ω).observed τ) s.standing := by
  refine play_induction (P := fun τ s =>
    Dispatcher.Stands config.poolSize ((ofConfig config gate : Service ω).observed τ) s.standing)
    ?_ ?_ h
  · exact ⟨rfl, rfl, rfl, nofun, rfl⟩
  · intro τ m s t hplay ih hmove
    obtain ⟨ds, hds⟩ := exists_tells_of_play (sound_ofConfig config gate) hplay
    rw [observed, gather_concat seen hplay hmove]
    cases shifts_of_move hds.sound.collected hmove with
    | same _ _ hseen hstanding =>
        -- No state is taken.
        rw [hseen, hstanding, List.append_nil]
        exact ih
    | saw _ _ hseen hstanding =>
        rw [hseen, hstanding]
        exact ih.see _
    | turned hl _ _ _ hseen hstanding =>
        rw [hseen, hstanding, List.append_nil]
        -- There are workers, so a gate was open.
        have hsome := ih.opened
        rw [hl] at hsome
        refine ⟨ih.size, ih.readiness, hsome, fun l hset => ?_, ih.notices⟩
        cases hset
        exact List.length_set.trans (ih.workers _ hl)

end Service

end AvatarPool
