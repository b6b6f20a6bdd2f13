import AvatarPool.Pool.Worker

/-! # A worker's day

A worker by itself, with the messages that are on their way to it and whoever takes its reports.
Messages reach its box one by one, whenever there is room; the worker takes them and its invocations
end at times of their own, or never; and at any time there may be nobody left to take reports.  The
worker's record says what it has done, in order.

What is recorded and what is still due make up the same list at all times
(`Workday.record_due_of_move`), so the messages and the ends of the invocations settle the record,
however the parties are scheduled.  Messages that cease without a stop leave the worker waiting, and
nothing tells that from a worker that has gone home.

A move is read off its program once, as `Workday.Moves`, which says under which circumstances it is
made and what comes of it.  What every move keeps is shown by the cases of that relation and carried
over to runs by `Workday.play_induction`; that a run of work ends somewhere is shown by
`Workday.effort`, which each piece of work lessens. -/

namespace AvatarPool

/-- What a worker does, as others see it. -/
inductive WorkEntry where
  /-- An invocation for a task begins. -/
  | began (task : Task)
  /-- The report of an invocation is sent. -/
  | reported (report : WorkReport)
  /-- A stop is acknowledged. -/
  | acknowledged
  deriving DecidableEq, Repr

namespace WorkEntry

/-- What a worker does when it takes a message. -/
def ofWork : Work → WorkEntry
  | .render task => .began task
  | .stop => .acknowledged

/-- The report that an entry of the record stands for, if it stands for one. -/
def report? : WorkEntry → Option WorkReport
  | reported report => some report
  | _ => none

/-- The reports of a record. -/
def reports (record : List WorkEntry) : List WorkReport := record.filterMap report?

theorem reports_append (record record' : List WorkEntry) :
    reports (record ++ record') = reports record ++ reports record' :=
  List.filterMap_append

/-- A report is counted as an invocation that has ended, and nothing else is. -/
theorem length_reports_concat (record : List WorkEntry) (entry : WorkEntry) :
    (reports (record ++ [entry])).length =
      (reports record).length + entry.report?.toList.length := by
  rw [reports_append, List.length_append]
  cases entry <;> rfl

end WorkEntry

/-- What worker number `index` reports of a task whose invocation has ended. -/
def Task.report (task : Task) (index : Nat) (ending : Ending) : WorkReport :=
  ⟨index, task.fingerprint, ending.outcome task.fingerprint⟩

/-- How the invocations of a worker end, by their number and their task; one for which there is
nothing never ends. -/
abbrev Endings := Nat → Task → Option Ending

/-- A worker among those with whom it deals. -/
structure Workday where
  worker : Worker := {}
  /-- The messages on their way to the worker. -/
  coming : List Work := []
  /-- Whether anybody still takes reports. -/
  heard : Bool := true
  /-- The reports that have been taken. -/
  tray : List WorkReport := []
  /-- What the worker has done so far. -/
  record : List WorkEntry := []
  deriving DecidableEq, Repr

/-- What can happen in a worker's day. -/
inductive WorkdayMove where
  /-- The next message reaches the worker's box. -/
  | arrive
  /-- The worker takes the message in its box. -/
  | take
  /-- The worker's invocation ends, and is reported. -/
  | finish
  /-- Whoever takes reports goes away. -/
  | hangUp
  deriving DecidableEq, Repr

/-- Whether the move gets work done. -/
def WorkdayMove.isWork : WorkdayMove → Bool
  | .hangUp => false
  | _ => true

namespace Workday

open WorkEntry (reports reports_append length_reports_concat)

variable {endings : Endings} {index : Nat} {d d' : Workday} {m : WorkdayMove} {τ : List WorkdayMove}

/-- A fresh worker to whom these messages are sent. -/
def ofMessages (messages : List Work) : Workday := { coming := messages }

/-- The number of invocations that have ended. -/
def ended (d : Workday) : Nat := (reports d.record).length

/-- The next message reaches the box of a worker that has room for it. -/
def receive (d : Workday) : Option Workday :=
  match d.coming with
  | [] => none
  | work :: rest =>
    if d.worker.isOpen ∧ d.worker.inbox = none then
      some { d with coming := rest, worker := { d.worker with inbox := some work } }
    else none

/-- The worker takes the message in its box. -/
def takeNext (d : Workday) : Option Workday := do
  let work ← d.worker.inbox
  let w ← d.worker.take
  some { d with worker := w, record := d.record ++ [.ofWork work] }

/-- The invocation of the worker ends, if it is one that does. -/
def finish (endings : Endings) (index : Nat) (d : Workday) : Option Workday :=
  match d.worker.activity with
  | .rendering task => do
    let ending ← endings d.ended task
    let (w, report) ← d.worker.finish index ending
    some { d with
      worker := w
      record := d.record ++ [.reported report]
      tray := if d.heard then d.tray ++ [report] else d.tray }
  | _ => none

/-- **One move** of worker number `index`, or none where it cannot be made. -/
def move (endings : Endings) (index : Nat) (d : Workday) : WorkdayMove → Option Workday
  | .arrive => d.receive
  | .take => d.takeNext
  | .finish => d.finish endings index
  | .hangUp => some { d with heard := false }

/-- A run. -/
def play (endings : Endings) (index : Nat) (d : Workday) : List WorkdayMove → Option Workday
  | [] => some d
  | m :: τ => (d.move endings index m).bind fun d' => d'.play endings index τ

theorem play_cons_eq_some_iff {d'' : Workday} :
    d.play endings index (m :: τ) = some d'' ↔
      ∃ d', d.move endings index m = some d' ∧ d'.play endings index τ = some d'' :=
  Option.bind_eq_some_iff

/-- A run that goes on. -/
theorem play_append_of_play (h : d.play endings index τ = some d') (τ' : List WorkdayMove) :
    d.play endings index (τ ++ τ') = d'.play endings index τ' := by
  induction τ generalizing d with
  | nil =>
      cases h
      rfl
  | cons m τ ih =>
      obtain ⟨d₁, hmove, hrest⟩ := play_cons_eq_some_iff.mp h
      have hlater := ih hrest
      rw [List.cons_append, play, hmove, Option.bind_some, hlater]

/-- **Induction on runs**: what holds at first and is kept by each of the moves holds after them. -/
theorem play_induction {P : Workday → Prop} (first : P d)
    (step : ∀ m ∈ τ, ∀ c c', P c → c.move endings index m = some c' → P c')
    (h : d.play endings index τ = some d') : P d' := by
  induction τ generalizing d with
  | nil =>
      cases h
      exact first
  | cons m τ ih =>
      obtain ⟨d₁, hmove, hrest⟩ := play_cons_eq_some_iff.mp h
      exact ih (step m List.mem_cons_self d d₁ first hmove)
        (fun m' hm' => step m' (List.mem_cons_of_mem m hm')) hrest

/-! ## What a move does -/

/-- What a move can do.  There is one case for each thing that a move may turn out to be, with what
made it possible; the record, the box and the tray are spelt out in its result. -/
inductive Moves (endings : Endings) (index : Nat) (d : Workday) : WorkdayMove → Workday → Prop where
  | arrive {work : Work} {rest : List Work} (hcoming : d.coming = work :: rest)
      (hopen : d.worker.isOpen) (hinbox : d.worker.inbox = none) :
      Moves endings index d .arrive
        { d with coming := rest, worker := { d.worker with inbox := some work } }
  | begin {task : Task} (hinbox : d.worker.inbox = some (.render task))
      (hactivity : d.worker.activity = .waiting) :
      Moves endings index d .take
        { d with
          worker := { inbox := none, activity := .rendering task }
          record := d.record ++ [.began task] }
  | stop (hinbox : d.worker.inbox = some .stop) (hactivity : d.worker.activity = .waiting) :
      Moves endings index d .take
        { d with
          worker := { inbox := none, activity := .gone }
          record := d.record ++ [.acknowledged] }
  | finish {task : Task} {ending : Ending} (hactivity : d.worker.activity = .rendering task)
      (hending : endings d.ended task = some ending) :
      Moves endings index d .finish
        { d with
          worker := { d.worker with activity := .waiting }
          record := d.record ++ [.reported (task.report index ending)]
          tray := if d.heard then d.tray ++ [task.report index ending] else d.tray }
  | hangUp : Moves endings index d .hangUp { d with heard := false }

/-- A message is received in one way only, as there is one box. -/
theorem moves_of_receive (h : d.receive = some d') : d.Moves endings index .arrive d' := by
  unfold receive at h
  split at h
  · cases h
  · rename_i work rest hcoming
    obtain ⟨⟨hopen, hinbox⟩, rfl⟩ := Option.ite_some_none_eq_some.mp h
    exact .arrive hcoming hopen hinbox

/-- What is taken is an order to render or the order to stop, and the two leave the worker at
different things. -/
theorem moves_of_takeNext (h : d.takeNext = some d') : d.Moves endings index .take d' := by
  obtain ⟨work, hinbox, h⟩ := Option.bind_eq_some_iff.mp h
  obtain ⟨w, htake, h⟩ := Option.bind_eq_some_iff.mp h
  cases h
  unfold Worker.take at htake
  split at htake
  · rename_i task hactivity hbox
    cases htake
    cases hbox.symm.trans hinbox
    exact .begin hbox hactivity
  · rename_i hactivity hbox
    cases htake
    cases hbox.symm.trans hinbox
    exact .stop hbox hactivity
  · cases htake

/-- Only an invocation that is under way can end, and only if it is one that does end. -/
theorem moves_of_finish (h : d.finish endings index = some d') :
    d.Moves endings index .finish d' := by
  unfold finish at h
  split at h
  · rename_i task hactivity
    obtain ⟨ending, hending, h⟩ := Option.bind_eq_some_iff.mp h
    obtain ⟨⟨w, report⟩, hfinish, h⟩ := Option.bind_eq_some_iff.mp h
    unfold Worker.finish at hfinish
    rw [hactivity] at hfinish
    cases hfinish
    cases h
    exact .finish hactivity hending
  · cases h

/-- The cases of a move, whichever it is. -/
theorem moves_of_move (h : d.move endings index m = some d') : d.Moves endings index m d' := by
  cases m with
  | arrive => exact moves_of_receive h
  | take => exact moves_of_takeNext h
  | finish => exact moves_of_finish h
  | hangUp =>
      cases h
      exact .hangUp

/-! ## What is due -/

/-- An invocation is reported if it ends; then the worker goes on.  One that never ends holds back
everything that would have come after it, so nothing else is due. -/
def goOn (endings : Endings) (index n : Nat) (task : Task) (next : List WorkEntry) :
    List WorkEntry :=
  match endings n task with
  | some ending => .reported (task.report index ending) :: next
  | none => []

/-- **What a worker does that waits for these messages** and has ended `n` invocations.  A stop is
the last message that counts: what stands behind it is never taken. -/
def courseFrom (endings : Endings) (index : Nat) : Nat → List Work → List WorkEntry
  | _, [] => []
  | _, .stop :: _ => [.acknowledged]
  | n, .render task :: rest =>
    .began task :: goOn endings index n task (courseFrom endings index (n + 1) rest)

/-- What is still to be recorded.  The message in the box comes before those on their way. -/
def due (endings : Endings) (index : Nat) (d : Workday) : List WorkEntry :=
  let rest := d.worker.inbox.toList ++ d.coming
  match d.worker.activity with
  | .waiting => courseFrom endings index d.ended rest
  | .rendering task => goOn endings index d.ended task (courseFrom endings index (d.ended + 1) rest)
  | .gone => []

/-- **What is recorded and what is due make up the same list after every move.** -/
theorem record_due_of_move (h : d.move endings index m = some d') :
    d'.record ++ d'.due endings index = d.record ++ d.due endings index := by
  cases moves_of_move h with
  | arrive hcoming hopen hinbox =>
      -- The message is the first one that is left, on its way before and in the box after.
      unfold due ended
      dsimp only
      rw [hcoming, hinbox]
      rfl
  | @begin task hinbox hactivity =>
      -- The task that has begun was the first thing due; what is due after it is as before.
      have hdue : d.due endings index =
          .began task ::
            goOn endings index d.ended task (courseFrom endings index (d.ended + 1) d.coming) := by
        unfold due
        rw [hinbox, hactivity]
        rfl
      have hended := length_reports_concat d.record (.began task)
      rw [hdue]
      simp only [due, ended, hended, WorkEntry.report?, Option.toList_none, List.length_nil,
        List.nil_append, Nat.add_zero, List.append_assoc]
      rfl
  | stop hinbox hactivity =>
      have hdue : d.due endings index = [.acknowledged] := by
        unfold due
        rw [hinbox, hactivity]
        rfl
      rw [hdue]
      exact List.append_nil _
  | @finish task ending hactivity hending =>
      -- The end of the invocation is known by its number, so its report was the next thing due.
      have hdue : d.due endings index =
          .reported (task.report index ending) ::
            courseFrom endings index (d.ended + 1) (d.worker.inbox.toList ++ d.coming) := by
        unfold due goOn
        rw [hactivity]
        dsimp only
        rw [hending]
      have hended := length_reports_concat d.record (.reported (task.report index ending))
      rw [hdue]
      simp only [due, ended, hended, WorkEntry.report?, Option.toList_some, List.length_singleton,
        List.append_assoc]
      rfl
  | hangUp => rfl

/-- So the record of a whole run is always a beginning of one and the same list. -/
theorem record_due_of_play (h : d.play endings index τ = some d') :
    d'.record ++ d'.due endings index = d.record ++ d.due endings index :=
  play_induction (P := fun c => c.record ++ c.due endings index = d.record ++ d.due endings index) rfl
    (fun _ _ _ _ hc hmove => (record_due_of_move hmove).trans hc) h

/-! ## Coming to rest -/

/-- No work is left that could be done. -/
def AtRest (endings : Endings) (index : Nat) (d : Workday) : Prop :=
  ∀ m : WorkdayMove, m.isWork → d.move endings index m = none

/-- **A worker at rest has nothing due**, whoever may have gone away meanwhile.  There are three
ways to be at rest: all messages are done, or an invocation is one that never ends, or the worker
has gone home. -/
theorem due_of_atRest (h : d.AtRest endings index) : d.due endings index = [] := by
  have harrive := h .arrive rfl
  have htake := h .take rfl
  have hfinish := h .finish rfl
  unfold due
  cases hactivity : d.worker.activity with
  | waiting =>
      -- A full box could be emptied, and a message on its way be brought.
      have hbox : d.worker.inbox = none := by
        cases hinbox : d.worker.inbox with
        | none => rfl
        | some work => cases work <;> simp [move, takeNext, Worker.take, hinbox, hactivity] at htake
      have hcoming : d.coming = [] := by
        cases hcoming : d.coming with
        | nil => rfl
        | cons work rest => simp [move, receive, hcoming, hbox, Worker.isOpen, hactivity] at harrive
      simp only [hbox, hcoming]
      rfl
  | rendering task =>
      -- An invocation that ends could be finished.
      have hnever : endings d.ended task = none := by
        cases hending : endings d.ended task with
        | none => rfl
        | some ending => simp [move, finish, hactivity, hending, Worker.finish] at hfinish
      simp only [goOn, hnever]
  | gone => rfl

/-- How much work can be left: a message is brought, taken and done.  Bringing, taking and doing a
message lower this by one each, so a message counts for three as long as it is on its way. -/
def effort (d : Workday) : Nat :=
  3 * d.coming.length + 2 * d.worker.inbox.toList.length +
    match d.worker.activity with
    | .rendering _ => 1
    | _ => 0

/-- Every piece of work lessens what is left. -/
theorem effort_lt_of_move (hm : m.isWork) (h : d.move endings index m = some d') :
    d'.effort < d.effort := by
  cases moves_of_move h with
  | arrive hcoming hopen hinbox =>
      simp only [effort, hcoming, hinbox, List.length_cons, Option.toList_some, Option.toList_none,
        List.length_nil]
      omega
  | begin hinbox hactivity =>
      simp only [effort, hinbox, hactivity, Option.toList_some, Option.toList_none,
        List.length_cons, List.length_nil]
      omega
  | stop hinbox hactivity =>
      simp only [effort, hinbox, hactivity, Option.toList_some, Option.toList_none,
        List.length_cons, List.length_nil]
      omega
  | finish hactivity hending =>
      simp only [effort, hactivity]
      omega
  | hangUp => cases hm

/-- **No run works for ever.**  The pieces of work in a run are no more than the effort at its
beginning. -/
theorem countP_isWork_le (h : d.play endings index τ = some d') :
    τ.countP WorkdayMove.isWork + d'.effort ≤ d.effort := by
  induction τ generalizing d with
  | nil =>
      cases h
      exact Nat.le_of_eq (Nat.zero_add _)
  | cons m τ ih =>
      obtain ⟨d₁, hmove, hrest⟩ := play_cons_eq_some_iff.mp h
      have hlater := ih hrest
      rw [List.countP_cons]
      by_cases hm : m.isWork
      · have hless := effort_lt_of_move hm hmove
        rw [if_pos hm]
        omega
      · -- Hanging up leaves the work as it is.
        have hsame : d₁.effort = d.effort := by
          cases m with
          | hangUp =>
              cases hmove
              rfl
          | _ => exact absurd rfl hm
        rw [if_neg hm]
        omega

/-- **The worker comes to rest from wherever it is**, by work alone.  By induction on the effort
that is left: as long as the worker is not at rest, there is a piece of work that can be done. -/
theorem exists_play_atRest (endings : Endings) (index : Nat) (d : Workday) :
    ∃ τ d', (∀ m ∈ τ, WorkdayMove.isWork m) ∧ d.play endings index τ = some d' ∧
      d'.AtRest endings index := by
  induction hn : d.effort using Nat.strongRecOn generalizing d with
  | ind n ih =>
      by_cases hrest : d.AtRest endings index
      · exact ⟨[], d, nofun, rfl, hrest⟩
      · simp only [AtRest, Classical.not_forall] at hrest
        obtain ⟨m, hm, hmove⟩ := hrest
        obtain ⟨d₁, hd₁⟩ := Option.ne_none_iff_exists'.mp hmove
        have hless := effort_lt_of_move hm hd₁
        obtain ⟨τ, d', hτ, hplay, hend⟩ := ih d₁.effort (hn ▸ hless) d₁ rfl
        exact ⟨m :: τ, d', List.forall_mem_cons.mpr ⟨hm, hτ⟩,
          play_cons_eq_some_iff.mpr ⟨d₁, hd₁, hplay⟩, hend⟩

/-! ## Reports that are taken -/

/-- Reports are taken in order, up to the moment when nobody takes them any longer.  The second part
is what makes the first one go on: whoever still takes reports has got all of them. -/
structure Hears (d : Workday) : Prop where
  taken : d.tray <+: reports d.record
  all : d.heard → d.tray = reports d.record

/-- A move keeps this: an end adds one report to both sides as long as it is heard, and none to the
tray afterwards. -/
theorem Hears.move (hd : d.Hears) (h : d.move endings index m = some d') : d'.Hears := by
  cases moves_of_move h with
  | arrive => exact ⟨hd.taken, hd.all⟩
  | begin | stop =>
      refine ⟨?_, fun hheard => ?_⟩
      · rw [reports_append]
        exact hd.taken.trans (List.prefix_append _ _)
      · rw [reports_append, hd.all hheard]
        exact (List.append_nil _).symm
  | @finish task ending =>
      by_cases hheard : d.heard
      · have htray : (if d.heard then d.tray ++ [task.report index ending] else d.tray) =
            reports (d.record ++ [.reported (task.report index ending)]) := by
          rw [if_pos hheard, reports_append, hd.all hheard]
          rfl
        exact ⟨⟨[], (List.append_nil _).trans htray⟩, fun _ => htray⟩
      · refine ⟨?_, fun hh => absurd hh hheard⟩
        rw [if_neg hheard, reports_append]
        exact hd.taken.trans (List.prefix_append _ _)
  | hangUp => exact ⟨hd.taken, nofun⟩

/-- In any run what the loop has taken stays the beginning of what has been reported. -/
theorem Hears.play (hd : d.Hears) (h : d.play endings index τ = some d') : d'.Hears :=
  play_induction hd (fun _ _ _ _ hc hmove => hc.move hmove) h

/-- Only who hangs up is not there any longer. -/
theorem heard_of_play (h : d.play endings index τ = some d') (hτ : .hangUp ∉ τ) :
    d'.heard = d.heard := by
  refine play_induction (P := fun c => c.heard = d.heard) rfl (fun m hm c c' hc hmove => ?_) h
  cases moves_of_move hmove with
  | hangUp => exact absurd hm hτ
  | _ => exact hc

end Workday

end AvatarPool
