import AvatarPool.Proofs.Dispatch.Purity
import AvatarPool.Proofs.Pool.Workday

/-! # What a worker reports

The record of a worker, told from the messages sent to it and from what its engine does: every task
that comes before the first stop is run, one after the other, up to one that never ends; every one
that ends is reported once; and once all have ended the stop is acknowledged.  Whether anybody takes
the reports makes no difference to that. -/

namespace AvatarPool

/-! ## Engines that do as they like -/

/-- **An engine that may do with each invocation what it likes**: what the `n`-th invocation of a
worker yields, or nothing if it never ends. -/
structure WilfulEngine where
  render : Nat → String → Size → Option (Yield (List UInt8))
  name : Nat → String → Option (Yield String)

namespace WilfulEngine

/-- How the invocations of a worker end with this engine: a picture is rendered, and a name is
derived. -/
def endings (e : WilfulEngine) : Endings := fun n task =>
  match task.job with
  | .image seed size => (e.render n seed size).map (Yield.ending .image)
  | .name seed => (e.name n seed).map (Yield.ending .name)

/-- **What is to be reported** of a worker's `n`-th invocation, if it ends. -/
def outcome? (e : WilfulEngine) (n : Nat) (task : Task) : Option Outcome :=
  match task.job with
  | .image seed size =>
    (e.render n seed size).map (Yield.outcome task.fingerprint fun png => .image (Image.ofPng png))
  | .name seed => (e.name n seed).map (Yield.outcome task.fingerprint .name)

theorem outcome?_eq (e : WilfulEngine) (n : Nat) (task : Task) :
    e.outcome? n task = (e.endings n task).map (Ending.outcome task.fingerprint) := by
  unfold outcome? endings
  split
  · rw [Option.map_map]
    exact Option.map_congr fun y _ => (Yield.outcome_ending (fun _ => rfl) y).symm
  · rw [Option.map_map]
    exact Option.map_congr fun y _ => (Yield.outcome_ending (fun _ => rfl) y).symm

/-- **The tasks that a worker serves**, out of those sent to it, with their outcomes: the first
ones, as far as their invocations end. -/
structure Serves (e : WilfulEngine) (tasks : List Task) (served : List (Task × Outcome)) :
    Prop where
  /-- They are the first tasks, in their order. -/
  inOrder : served.map Prod.fst = tasks.take served.length
  /-- The invocation of each has ended. -/
  ended : ∀ i s, served[i]? = some s → e.outcome? i s.1 = some s.2
  /-- The invocation of the next one, if there is one, never ends. -/
  stuck : ∀ task, tasks[served.length]? = some task → e.outcome? served.length task = none

/-- The tasks served by a worker that has ended `n` invocations before. -/
def servedFrom (e : WilfulEngine) : Nat → List Task → List (Task × Outcome)
  | _, [] => []
  | n, task :: rest =>
    match e.outcome? n task with
    | some outcome => (task, outcome) :: e.servedFrom (n + 1) rest
    | none => []

theorem servedFrom_of_some {e : WilfulEngine} {n : Nat} {task : Task} {outcome : Outcome}
    (h : e.outcome? n task = some outcome) (rest : List Task) :
    e.servedFrom n (task :: rest) = (task, outcome) :: e.servedFrom (n + 1) rest := by
  rw [servedFrom, h]

theorem servedFrom_of_none {e : WilfulEngine} {n : Nat} {task : Task}
    (h : e.outcome? n task = none) (rest : List Task) : e.servedFrom n (task :: rest) = [] := by
  rw [servedFrom, h]

theorem map_fst_servedFrom (e : WilfulEngine) (n : Nat) (tasks : List Task) :
    (e.servedFrom n tasks).map Prod.fst = tasks.take (e.servedFrom n tasks).length := by
  induction tasks generalizing n with
  | nil => rfl
  | cons task rest ih =>
      cases h : e.outcome? n task with
      | some outcome =>
          rw [servedFrom_of_some h, List.map_cons, List.length_cons, List.take_succ_cons, ih]
      | none =>
          rw [servedFrom_of_none h]
          rfl

theorem outcome?_of_mem_servedFrom {e : WilfulEngine} {n i : Nat} {tasks : List Task}
    {s : Task × Outcome} (h : (e.servedFrom n tasks)[i]? = some s) :
    e.outcome? (n + i) s.1 = some s.2 := by
  induction tasks generalizing n i with
  | nil => cases h
  | cons task rest ih =>
      cases hout : e.outcome? n task with
      | some outcome =>
          rw [servedFrom_of_some hout] at h
          cases i with
          | zero =>
              cases h
              exact hout
          | succ i =>
              have hlater := ih h
              rwa [Nat.add_right_comm] at hlater
      | none =>
          rw [servedFrom_of_none hout] at h
          cases h

theorem outcome?_after_servedFrom {e : WilfulEngine} {n : Nat} {tasks : List Task} {task : Task}
    (h : tasks[(e.servedFrom n tasks).length]? = some task) :
    e.outcome? (n + (e.servedFrom n tasks).length) task = none := by
  induction tasks generalizing n with
  | nil => cases h
  | cons first rest ih =>
      cases hout : e.outcome? n first with
      | some outcome =>
          rw [servedFrom_of_some hout, List.length_cons] at h ⊢
          have hlater := ih h
          rwa [Nat.add_right_comm] at hlater
      | none =>
          rw [servedFrom_of_none hout] at h ⊢
          cases h
          exact hout

theorem serves_servedFrom (e : WilfulEngine) (tasks : List Task) :
    e.Serves tasks (e.servedFrom 0 tasks) where
  inOrder := map_fst_servedFrom e 0 tasks
  ended := fun i _ h => Nat.zero_add i ▸ outcome?_of_mem_servedFrom h
  stuck := fun _ h => Nat.zero_add (e.servedFrom 0 tasks).length ▸ outcome?_after_servedFrom h

end WilfulEngine

/-! ## The course of a day -/

/-- The task of a message. -/
def Work.task? : Work → Option Task
  | .render task => some task
  | .stop => none

/-- The tasks sent before the first stop. -/
def tasksBeforeStop (messages : List Work) : List Task :=
  (messages.takeWhile fun work => work ≠ .stop).filterMap Work.task?

namespace Workday

open WilfulEngine WorkEntry

/-- What is reported of a task served by worker number `index`. -/
def reportOf (index : Nat) (s : Task × Outcome) : WorkReport := ⟨index, s.1.fingerprint, s.2⟩

/-- A task that is served is begun and reported. -/
def service (index : Nat) (s : Task × Outcome) : List WorkEntry :=
  [.began s.1, .reported (reportOf index s)]

/-- What follows on the tasks served: the next task is begun and never ends, or, if there is none,
the stop is acknowledged. -/
def close (next : Option Task) (stops : Bool) : List WorkEntry :=
  match next with
  | some task => [.began task]
  | none => if stops then [.acknowledged] else []

/-- **The course of a worker's day**, out of the tasks sent before the first stop, those that are
served, and whether there is a stop. -/
def courseOf (index : Nat) (tasks : List Task) (served : List (Task × Outcome)) (stops : Bool) :
    List WorkEntry :=
  served.flatMap (service index) ++ close tasks[served.length]? stops

/-- **What a worker does is told by the tasks that it serves.** -/
theorem courseFrom_eq (e : WilfulEngine) (index n : Nat) (messages : List Work) :
    courseFrom e.endings index n messages =
      courseOf index (tasksBeforeStop messages) (e.servedFrom n (tasksBeforeStop messages))
        (messages.contains .stop) := by
  induction messages generalizing n with
  | nil => rfl
  | cons work rest ih =>
      cases work with
      | stop => rfl
      | render task =>
          have htasks : tasksBeforeStop (.render task :: rest) = task :: tasksBeforeStop rest := rfl
          have hstops : (Work.render task :: rest).contains .stop = rest.contains .stop := rfl
          have hout := e.outcome?_eq n task
          rw [courseFrom, htasks, hstops, goOn]
          cases hending : e.endings n task with
          | some ending =>
              rw [hending] at hout
              rw [servedFrom_of_some hout, ih]
              rfl
          | none =>
              rw [hending] at hout
              rw [servedFrom_of_none hout]
              rfl

/-- Nothing that follows on the tasks served is a report. -/
theorem reports_close (next : Option Task) (stops : Bool) : reports (close next stops) = [] := by
  cases next with
  | some task => rfl
  | none => cases stops <;> rfl

/-- **Each task served is reported once**, and nothing else is. -/
theorem reports_courseOf (index : Nat) (tasks : List Task) (served : List (Task × Outcome))
    (stops : Bool) :
    reports (courseOf index tasks served stops) = served.map (reportOf index) := by
  rw [courseOf, reports_append, reports_close, List.append_nil, reports, List.filterMap_flatMap]
  exact List.flatMap_pure_eq_map _ _

/-- No task that is served is a stop. -/
theorem acknowledged_notMem_services (index : Nat) (served : List (Task × Outcome)) :
    .acknowledged ∉ served.flatMap (service index) := by
  intro hmem
  obtain ⟨s, -, hs⟩ := List.mem_flatMap.mp hmem
  simp [service] at hs

/-- **A stop is acknowledged after all tasks before it, and last of all.** -/
theorem eq_of_acknowledged {index : Nat} {tasks : List Task} {served : List (Task × Outcome)}
    {stops : Bool} {record : List WorkEntry} (hstart : record <+: courseOf index tasks served stops)
    (hmem : .acknowledged ∈ record) :
    stops = true ∧ tasks.length ≤ served.length ∧
      record = served.flatMap (service index) ++ [.acknowledged] := by
  have hnot := acknowledged_notMem_services index served
  rcases List.mem_append.mp (hstart.mem hmem) with hserved | hclose
  · exact absurd hserved hnot
  · unfold courseOf close at hstart
    unfold close at hclose
    cases hnext : tasks[served.length]? with
    | some task => simp [hnext] at hclose
    | none =>
        rw [hnext] at hstart hclose
        cases stops with
        | false => simp at hclose
        | true =>
            refine ⟨rfl, List.getElem?_eq_none_iff.mp hnext, ?_⟩
            rcases List.prefix_concat_iff.mp hstart with heq | hshort
            · exact heq
            · exact absurd (hshort.mem hmem) hnot

variable {e : WilfulEngine} {index : Nat} {messages : List Work} {τ : List WorkdayMove}
  {d : Workday}

/-- The record of a fresh worker is a beginning of the course of its day. -/
theorem record_due_of_ofMessages (h : (ofMessages messages).play e.endings index τ = some d) :
    d.record ++ d.due e.endings index =
      courseOf index (tasksBeforeStop messages) (e.servedFrom 0 (tasksBeforeStop messages))
        (messages.contains .stop) := by
  rw [record_due_of_play h, ← courseFrom_eq]
  rfl

/-- **A worker reports every task once, and outlives what its engine does.**  Whatever is sent to it
and whatever its engine does with each invocation, however messages, invocations and the departure
of whoever takes its reports follow one another: the worker serves the first tasks before the first
stop, in their order, as far as their invocations end.  At all times its record is a beginning of
the course that this makes of its day: each task served is begun and then reported, with the
worker's number, the task's fingerprint and the outcome; a task whose invocation never ends is begun
last.  A stop is acknowledged after all tasks before it, and nothing comes after that.  The worker
comes to rest by a limited amount of work, and at rest the whole course is recorded, whether its
reports were taken or not; those taken are the first ones, and all of them unless somebody hung up.
-/
theorem every_task_reported_once (h : (ofMessages messages).play e.endings index τ = some d) :
    ∃ served, e.Serves (tasksBeforeStop messages) served ∧
      d.record <+: courseOf index (tasksBeforeStop messages) served (messages.contains .stop) ∧
      reports d.record <+: served.map (reportOf index) ∧
      (.acknowledged ∈ d.record →
        .stop ∈ messages ∧ served.map Prod.fst = tasksBeforeStop messages ∧
        d.record = served.flatMap (service index) ++ [.acknowledged]) ∧
      (d.AtRest e.endings index →
        d.record = courseOf index (tasksBeforeStop messages) served (messages.contains .stop) ∧
        reports d.record = served.map (reportOf index)) ∧
      d.tray <+: reports d.record ∧ (.hangUp ∉ τ → d.tray = reports d.record) ∧
      τ.countP WorkdayMove.isWork ≤ 3 * messages.length ∧
      ∃ τ' d', (∀ m ∈ τ', WorkdayMove.isWork m) ∧ d.play e.endings index τ' = some d' ∧
        d'.AtRest e.endings index := by
  have hserves := serves_servedFrom e (tasksBeforeStop messages)
  -- What is recorded and what is still due make up the course at all times.
  have hwhole := record_due_of_ofMessages h
  have hstart := hwhole ▸ List.prefix_append d.record (d.due e.endings index)
  have hears : d.Hears := Hears.play (d := ofMessages messages) ⟨List.prefix_refl _, fun _ => rfl⟩ h
  refine ⟨_, hserves, hstart, ?_, ?_, ?_, hears.taken, ?_, ?_, exists_play_atRest _ _ d⟩
  · rw [← reports_courseOf index (tasksBeforeStop messages) _ (messages.contains .stop)]
    exact hstart.filterMap _
  · intro hmem
    obtain ⟨hstops, hall, hrecord⟩ := eq_of_acknowledged hstart hmem
    refine ⟨List.contains_iff_mem.mp hstops, ?_, hrecord⟩
    rw [hserves.inOrder, List.take_of_length_le hall]
  · intro hrest
    rw [due_of_atRest hrest, List.append_nil] at hwhole
    exact ⟨hwhole, by rw [hwhole, reports_courseOf]⟩
  · intro hτ
    exact hears.all (heard_of_play h hτ)
  · have hbound := countP_isWork_le h
    have hfresh : (ofMessages messages).effort = 3 * messages.length := rfl
    omega

/-- An engine with a mind of its own: the first invocation yields a name, the second refuses its
picture, the third breaks off, and a later one never ends. -/
def moodyEngine : WilfulEngine where
  render n _ _ := if n = 1 then some (.refused "dull") else none
  name n seed := if n = 0 then some (.value seed) else if n = 2 then some .broken else none

/-- Three tasks, a stop, and a task that comes too late. -/
def threeTasks : List Work :=
  [.render (.ofJob (.name "a")), .render (.ofJob (.image "b" .small)), .render (.ofJob (.name "c")),
    .stop, .render (.ofJob (.name "d"))]

/-- Whoever takes the reports goes away before the second one. -/
def desertedRun : List WorkdayMove :=
  [.arrive, .take, .arrive, .finish, .take, .hangUp, .finish, .arrive, .take, .finish, .arrive,
    .take]

/-- The reports made of the three tasks by worker number `1`. -/
def threeReports : List WorkReport :=
  [⟨1, .name "a", .ok (.name "a")⟩, ⟨1, .image .small "b", .error (.engine "dull")⟩,
    ⟨1, .name "c", .error (.enginePanicked "c")⟩]

/-- The worker after its three tasks, when this is the tray. -/
def threeTasksDone (heard : Bool) (tray : List WorkReport) : Workday where
  worker := ⟨none, .gone⟩
  coming := [.render (.ofJob (.name "d"))]
  heard := heard
  tray := tray
  record :=
    (((tasksBeforeStop threeTasks).zip threeReports).flatMap fun s =>
      [.began s.1, .reported s.2]) ++ [.acknowledged]

theorem every_task_reported_once_deserted :
    let deserted := threeTasksDone false (threeReports.take 1)
    let attended := threeTasksDone true threeReports
    let quiet := desertedRun.filter WorkdayMove.isWork
    (ofMessages threeTasks).play moodyEngine.endings 1 desertedRun = some deserted ∧
      deserted.AtRest moodyEngine.endings 1 ∧ .acknowledged ∈ deserted.record ∧
      (∃ served, moodyEngine.Serves (tasksBeforeStop threeTasks) served ∧
        threeReports = served.map (reportOf 1) ∧
        served.map Prod.fst = tasksBeforeStop threeTasks ∧
        deserted.record = served.flatMap (service 1) ++ [.acknowledged]) ∧
      (ofMessages threeTasks).play moodyEngine.endings 1 quiet = some attended ∧
      .hangUp ∉ quiet ∧ attended.tray = reports attended.record := by
  intro deserted attended quiet
  have hdeserted :
      (ofMessages threeTasks).play moodyEngine.endings 1 desertedRun = some deserted := by decide
  have hquiet : (ofMessages threeTasks).play moodyEngine.endings 1 quiet = some attended := by
    decide
  have hrest : deserted.AtRest moodyEngine.endings 1 := by
    intro m hm
    cases m with
    | hangUp => cases hm
    | _ => rfl
  have hstop : .acknowledged ∈ deserted.record := by decide
  have hnobody : .hangUp ∉ quiet := by decide
  obtain ⟨served, hserves, -, -, hacknowledged, hwhole, -⟩ := every_task_reported_once hdeserted
  obtain ⟨-, -, -, -, -, -, -, htray, -⟩ := every_task_reported_once hquiet
  obtain ⟨-, hall, hrecord⟩ := hacknowledged hstop
  have hreports : reports deserted.record = threeReports := by decide
  exact ⟨hdeserted, hrest, hstop, ⟨served, hserves, hreports ▸ (hwhole hrest).2, hall, hrecord⟩,
    hquiet, hnobody, htray hnobody⟩

end Workday

end AvatarPool
