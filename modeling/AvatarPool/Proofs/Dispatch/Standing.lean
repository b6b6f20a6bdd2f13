import AvatarPool.Proofs.Dispatch.Stopping

/-! # What only the gate changes

The dispatcher fills the boxes of its workers and keeps the books; what its workers are at it leaves
to them.  How it stands — the last state of the gate, its workers, and what it has announced — is
changed by nothing it does but by looking at the gate.

`Standing` is what the rest of a service can see of a dispatcher apart from answers and reports: how
many workers it has and what they are at, how the gate looks to it, and what it has announced.  That
it is changed by the gate alone is shown handler by handler; for two runs of a service that differ
in other respects, this is what keeps the standings equal. -/

namespace AvatarPool

variable {ω : Type}

/-- An entry is exchanged for one that is mapped to the same. -/
theorem map_set_of_getElem? {α β : Type} {l : List α} {k : Nat} {a b : α} {f : α → β}
    (h : l[k]? = some a) (hf : f b = f a) : (l.set k b).map f = l.map f := by
  obtain ⟨hk, rfl⟩ := List.getElem?_eq_some_iff.mp h
  rw [List.map_set, hf, ← List.map_set, List.set_getElem_self]

/-! ## Workers -/

/-- What the workers of a pool are at, by number. -/
def Pool.activities (p : Pool) : List Activity := p.slots.map fun s => s.worker.activity

namespace Pool

/-- A task in the box leaves what the worker is at. -/
theorem activities_give {p p' : Pool} {k : Nat} {task : Task} (h : p.give k task = .ok p') :
    p'.activities = p.activities := by
  unfold give at h
  split at h
  · cases h
  · rename_i s hs
    split at h
    · split at h <;> cases h
      exact map_set_of_getElem? hs rfl
    · cases h

/-- Freeing a slot is a matter of the books. -/
theorem activities_free (p : Pool) (k : Nat) : (p.free k).activities = p.activities := by
  refine List.ext_getElem? fun j => ?_
  simp only [activities, free, List.getElem?_map, List.getElem?_modify]
  cases p.slots[j]? with
  | none => rfl
  | some s =>
      simp only [Option.map_some]
      split <;> rfl

/-- A worker goes on to something else. -/
theorem activities_setWorker {p : Pool} {k : Nat} {s : Slot} (hs : p.slots[k]? = some s) (w : Worker) :
    (p.setWorker k w).activities = p.activities.set k w.activity := by
  rw [activities, setWorker, modify_eq_set_of_getElem? hs, List.map_set]
  rfl

/-- A worker's box is filled or emptied. -/
theorem activities_setWorker_of_eq {p : Pool} {k : Nat} {s : Slot} (hs : p.slots[k]? = some s)
    {w : Worker} (hw : w.activity = s.worker.activity) :
    (p.setWorker k w).activities = p.activities := by
  rw [setWorker, modify_eq_set_of_getElem? hs]
  exact map_set_of_getElem? hs hw

theorem activities_ofSize (size : Nat) :
    (ofSize size).activities = List.replicate size .waiting :=
  List.map_replicate

theorem getElem?_activities {p : Pool} {k : Nat} {s : Slot} (hs : p.slots[k]? = some s) :
    p.activities[k]? = some s.worker.activity := by
  rw [activities, List.getElem?_map, hs]
  rfl

end Pool

/-! ## Standing -/

/-- Whether an effect opens the pool or publishes an event. -/
def Effect.isNotice : Effect ω → Bool
  | .started _ => true
  | .published _ => true
  | _ => false

/-- **How a dispatcher stands**: the number of workers there are to be, what they are at once there
are any, the last state of the gate, and what has been announced, in order. -/
structure Dispatcher.Standing (ω : Type) where
  size : Nat
  activities : Option (List Activity) := none
  readiness : Readiness := .pending
  notices : List (Effect ω) := []

/-- What a state of the gate has the dispatcher announce, once it is `opened` or before: the first
open one its workers, and each failed one the failure. -/
def announce (size : Nat) (opened : Bool) : Readiness → List (Effect ω)
  | .pending => []
  | .ready => if opened then [] else [.started size, .published .engineReady]
  | .failed why => [.published (.readinessFailed why.message)]

/-- **What a state of the gate changes**: the first open one brings workers, who wait. -/
def Dispatcher.Standing.see (x : Standing ω) (state : Readiness) : Standing ω :=
  { x with
    activities :=
      if state = .ready then some (x.activities.getD (List.replicate (max 1 x.size) .waiting))
      else x.activities
    readiness := state
    notices := x.notices ++ announce (max 1 x.size) x.activities.isSome state }

namespace Dispatcher

variable {d d' : Dispatcher ω}

def standing (d : Dispatcher ω) : Standing ω where
  size := d.poolSize
  activities := d.pool.map Pool.activities
  readiness := d.readiness
  notices := d.effects.filter Effect.isNotice

/-- What is drawn from announcements alone. -/
theorem filterMap_notices (d : Dispatcher ω) {α : Type} {f : Effect ω → Option α}
    (hf : ∀ e, e.isNotice = false → f e = none) :
    d.standing.notices.filterMap f = d.effects.filterMap f := by
  unfold standing
  rw [List.filterMap_filter]
  refine List.filterMap_congr fun e _ => ?_
  split
  · rfl
  · exact (hf e (Bool.eq_false_iff.mpr ‹_›)).symm

/-- The four parts, each compared by itself. -/
theorem standing_of_eq (hsize : d'.poolSize = d.poolSize)
    (hpool : d'.pool.map Pool.activities = d.pool.map Pool.activities)
    (hready : d'.readiness = d.readiness)
    (hnotices : d'.effects.filter Effect.isNotice = d.effects.filter Effect.isNotice) :
    d'.standing = d.standing := by
  unfold standing
  rw [hsize, hpool, hready, hnotices]

/-- Earlier effects are earlier announcements. -/
theorem standing_after (d : Dispatcher ω) (es : List (Effect ω)) :
    (d.after es).standing =
      { d.standing with notices := es.filter Effect.isNotice ++ d.standing.notices } := by
  unfold standing after
  rw [List.filter_append]

/-- A note that announces nothing. -/
theorem standing_note (d : Dispatcher ω) {es : List (Effect ω)}
    (h : ∀ e ∈ es, e.isNotice = false) : (d.note es).standing = d.standing := by
  refine standing_of_eq rfl rfl rfl ?_
  have hnone : es.filter Effect.isNotice = [] :=
    List.filter_eq_nil_iff.mpr fun e he => by rw [h e he]; exact Bool.false_ne_true
  show (d.effects ++ es).filter Effect.isNotice = _
  rw [List.filter_append, hnone, List.append_nil]

theorem standing_answerAll (d : Dispatcher ω) (k : Fingerprint) (o : Outcome) :
    (d.answerAll k o).standing = d.standing :=
  standing_note { d with pending := (d.pending.close k).1 } (List.forall_mem_map.mpr fun _ _ => rfl)

theorem standing_reject (d : Dispatcher ω) (task : Task) (why : Failure) :
    (d.reject task why).standing = d.standing :=
  (standing_answerAll _ _ _).trans (standing_note d (by simp [Effect.isNotice]))

/-- A hand-over fills a box or, if the pool refuses the task, rejects it; neither counts here. -/
theorem standing_hand {pool : Pool} (hp : d.pool = some pool) (k : Nat) (task : Task) :
    (d.hand pool k task).standing = d.standing := by
  unfold hand
  split
  · rename_i pool' hgive
    refine (standing_note _ (by simp [Effect.isNotice])).trans (standing_of_eq rfl ?_ rfl rfl)
    rw [hp]
    exact congrArg some (Pool.activities_give hgive)
  · exact (standing_answerAll _ _ _).trans (standing_note _ (by simp [Effect.isNotice]))

/-- Handing tasks out announces nothing.  By induction on the tasks on offer. -/
theorem standing_handOutFrom (ts : List Task) : (d.handOutFrom ts).standing = d.standing := by
  induction ts generalizing d with
  | nil => rfl
  | cons task rest ih =>
      unfold handOutFrom
      split
      · rfl
      · rename_i pool hp
        split
        · rfl
        · exact ih.trans (standing_hand hp _ task)

theorem standing_handOut (d : Dispatcher ω) : d.handOut.standing = d.standing := by
  unfold handOut
  split
  · exact standing_handOutFrom d.queue
  · rfl

/-- A request changes nothing. -/
theorem standing_accept (d : Dispatcher ω) (job : Job) (w : ω) :
    (d.accept job w).standing = d.standing := by
  unfold accept
  dsimp only
  split
  · exact standing_note { d with stats := _ } (by simp [Effect.isNotice])
  · split
    · exact standing_note { d with stats := _ } (by simp [Effect.isNotice])
    · split
      · rfl
      · exact (standing_handOut _).trans
          (standing_note { d with stats := _, pending := _, queue := _ } (by simp [Effect.isNotice]))

/-- The worker's slot is free, and what it is at is its own affair. -/
theorem standing_settle (d : Dispatcher ω) (c : WorkReport) :
    (d.settle c).standing = d.standing := by
  have hfreed : (d.pool.map fun p => p.free c.worker).map Pool.activities =
      d.pool.map Pool.activities := by
    rw [Option.map_map]
    exact congrArg (d.pool.map ·) (funext fun p => Pool.activities_free p c.worker)
  have hbooked : ((d.releaseWorker c.worker).book c).standing = d.standing := by
    unfold book
    cases c.outcome <;> exact standing_of_eq rfl hfreed rfl rfl
  exact (standing_answerAll _ _ _).trans hbooked

/-- A report changes nothing. -/
theorem standing_takeReport (d : Dispatcher ω) (c : WorkReport) :
    (d.takeReport c).standing = d.standing := by
  rw [takeReport_eq, standing_handOut, standing_settle]

/-- Rejecting the queue announces nothing.  By induction on its tasks. -/
theorem standing_rejectQueue (d : Dispatcher ω) (why : Failure) :
    (d.rejectQueue why).standing = d.standing := by
  have hfold : ∀ (ts : List Task) (d : Dispatcher ω),
      (ts.foldl (fun d t => d.reject t why) d).standing = d.standing := by
    intro ts
    induction ts with
    | nil => exact fun d => rfl
    | cons t rest ih => exact fun d => (ih (d.reject t why)).trans (standing_reject d t why)
  exact hfold d.queue d

/-- Everyone is told, which announces nothing. -/
theorem standing_rejectPending (d : Dispatcher ω) (why : Failure) :
    (d.rejectPending why).standing = d.standing := by
  refine standing_note { d with pending := d.pending.closeAll.1 } fun e he => ?_
  obtain ⟨entry, -, he⟩ := List.mem_flatMap.mp he
  obtain ⟨w, -, rfl⟩ := List.mem_map.mp he
  rfl

/-- What is noted of a state is what the state changes, case by case. -/
theorem standing_see (d : Dispatcher ω) (state : Readiness) :
    (d.see state).standing = d.standing.see state := by
  unfold Standing.see standing see
  cases state with
  | pending => simp [announce]
  | ready =>
      unfold openPool
      cases d.pool <;> simp [announce, note, Pool.activities_ofSize, Effect.isNotice]
  | failed why => simp [announce, note, Effect.isNotice]

/-- **Looking at the gate changes what its state changes**, and nothing else. -/
theorem standing_observe (d : Dispatcher ω) (state : Readiness) :
    (d.observe state).standing = d.standing.see state := by
  rw [← standing_see]
  cases state with
  | pending => rfl
  | ready => exact standing_handOut _
  | failed why =>
      have hrejected := standing_rejectQueue (d.note [.published (.readinessFailed why.message)]) why
      exact congrArg (fun x : Standing ω => { x with readiness := .failed why }) hrejected

end Dispatcher

end AvatarPool
