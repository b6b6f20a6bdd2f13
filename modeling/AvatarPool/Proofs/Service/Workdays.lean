import AvatarPool.Proofs.Dispatch.Boxes
import AvatarPool.Proofs.Pool.Reports
import AvatarPool.Proofs.Service.Assignment

/-! # The workers of a service

Each worker of a service lives a day of its own (`Workday`): what reaches its box are the tasks
handed to it, in their order, and in the end a stop; its invocations end as they do in the run; and
the loop takes its reports until it has ended.  So all that a worker does by itself it does in the
pool, and in every run its reports are about the tasks handed to it, one by one.

Every move of the service is sorted by what it means to one fixed worker (`Affects`), and each of
the three things it can mean is a short run of that worker's day.  The day needs to know beforehand
which messages will come and how invocations will end; both are read off the run, so
`exists_day_of_play` goes by induction on the moves to come and hands the rest of the day the rest
of the messages. -/

namespace AvatarPool

variable {ω : Type}

/-- How a move ends an invocation of worker `k`, if it does. -/
def Move.ending? (k : Nat) : Move ω → Option Ending
  | .finish j _ ending => if j = k then some ending else none
  | _ => none

namespace Service

variable {config : PoolSettings} {gate : Gate} {s t : Service ω} {m : Move ω} {τ : List (Move ω)}
  {k : Nat} {works : List Work} {endings : Endings} {d : Workday}

/-- The endings of the invocations of worker `k` in a run, in order. -/
def endingsIn (k : Nat) (τ : List (Move ω)) : List Ending := τ.filterMap (Move.ending? k)

/-- The tasks handed to worker `k` so far, in order. -/
def handedTo (s : Service ω) (k : Nat) : List Task := s.exits.filterMap (exitTo? k)

theorem endingsIn_cons (k : Nat) (m : Move ω) (τ : List (Move ω)) :
    endingsIn k (m :: τ) = (m.ending? k).toList ++ endingsIn k τ := by
  rw [endingsIn, List.filterMap_cons]
  cases m.ending? k <;> rfl

theorem reportsOf_filed_cons (k : Nat) (m : Move ω) (τ : List (Move ω)) :
    reportsOf (filed (m :: τ)) k = reportsOf (filed [m]) k ++ reportsOf (filed τ) k := by
  rw [← reportsOf_append, ← filed_append]
  rfl

/-- A worker files a report with each invocation that ends, and at no other time. -/
theorem length_reportsOf_filed_singleton (k : Nat) (m : Move ω) :
    (reportsOf (filed [m]) k).length = (m.ending? k).toList.length := by
  cases m with
  | finish j task ending =>
      by_cases hj : j = k <;> simp [reportsOf, filed, Move.filed?, Move.ending?, hj]
  | _ => rfl

/-- As many reports as ended invocations, over the whole run. -/
theorem length_reportsOf_filed (k : Nat) (τ : List (Move ω)) :
    (reportsOf (filed τ) k).length = (endingsIn k τ).length := by
  induction τ with
  | nil => rfl
  | cons m τ ih =>
      rw [reportsOf_filed_cons, endingsIn_cons, List.length_append, List.length_append, ih,
        length_reportsOf_filed_singleton]

/-! ## What a move means to a worker -/

/-- **What a move means to worker `k`**: messages come to its box, or it takes one, or its
invocation ends. -/
inductive Affects (s : Service ω) (k : Nat) (m : Move ω) (t : Service ω) : List Work → Prop where
  | gets {works : List Work} (hm : m.ending? k = none)
      (h : (s.core.workerAt k).Gets works (t.core.workerAt k)) : s.Affects k m t works
  | takes (hm : m.ending? k = none) (h : (s.core.workerAt k).take = some (t.core.workerAt k)) :
      s.Affects k m t []
  | finishes {task : Task} {ending : Ending} {c : WorkReport} (hm : m = .finish k task ending)
      (hactivity : (s.core.workerAt k).activity = .rendering task)
      (h : (s.core.workerAt k).finish k ending = some (t.core.workerAt k, c)) : s.Affects k m t []

/-- The messages that a move brings to worker `k`: the tasks that it hands to it, or a stop.  What
comes is at the same time what is noted as handed to the worker. -/
def Brings (s : Service ω) (k : Nat) (m : Move ω) (t : Service ω) : Prop :=
  ∃ works, s.Affects k m t works ∧ t.handedTo k = s.handedTo k ++ works.filterMap Work.task?

/-- A handler of the dispatcher hands tasks over, or does not. -/
theorem brings_of_path {d : Dispatcher ω} {ds : List (Deed ω)} (hs : s.Sound) (hd : Handled s d t)
    (hpath : Dispatcher.Path s.core ds d) (hwork : .work ∉ ds) (hm : m.ending? k = none) :
    s.Brings k m t := by
  obtain ⟨tasks, hgets, hhanded⟩ := hpath.feeds hwork k
  have hcore : t.core.workerAt k = d.workerAt k := by
    rw [hd.core]
    rfl
  -- What was handed over before is not among the effects any more.
  have hnone : s.core.handedTo k = [] := by
    rw [Dispatcher.handedTo, exits_of_collected hs.collected]
    rfl
  refine ⟨tasks.map .render, .gets hm (hcore ▸ hgets), ?_⟩
  have htasks : (tasks.map Work.render).filterMap Work.task? = tasks := by
    rw [List.filterMap_map]
    exact List.filterMap_some
  rw [hnone, List.nil_append] at hhanded
  rw [handedTo, hd.exits, List.filterMap_append, htasks, ← hhanded]
  rfl

/-- A handler that runs with an input hands tasks over in the end.  The first deed is not the
worker's own, and the others are hand-overs. -/
theorem brings_of_hands {d : Dispatcher ω} {x : Deed ω} {hs' : List (Nat × Task)} (hs : s.Sound)
    (hd : Handled s d t) (hx : x ≠ .work) (hm : m.ending? k = none)
    (hpath : Dispatcher.Path s.core (x :: hs'.map fun h => .hand h.1 h.2) d) : s.Brings k m t := by
  refine brings_of_path hs hd hpath ?_ hm
  intro hmem
  rcases List.mem_cons.mp hmem with hfirst | hhand
  · exact hx hfirst.symm
  · simp at hhand

/-- A state of the gate is taken. -/
theorem brings_of_observe {state : Readiness} (hs : s.Sound) (hrun : s.isRunning)
    (hd : Handled s (s.core.observe state) t) (hm : m.ending? k = none) : s.Brings k m t := by
  obtain ⟨ds, hpath, hds⟩ := Dispatcher.observe_path (hs.carried hrun).ready state
  -- An open gate hands tasks over, and one that has failed rejects them.
  rcases hds with ⟨hs', rfl⟩ | ⟨why, -, rfl⟩
  · exact brings_of_hands hs hd (by simp) hm hpath
  · exact brings_of_path hs hd hpath (by simp) hm

/-- The queue is rejected. -/
theorem brings_of_rejectQueue {why : Failure} (hs : s.Sound)
    (hd : Handled s (s.core.rejectQueue why) t) (hm : m.ending? k = none) : s.Brings k m t :=
  brings_of_path hs hd (Dispatcher.rejectQueue_path s.core why) (by simp) hm

/-- Everyone who waits is rejected. -/
theorem brings_of_rejectPending {why : Failure} (hs : s.Sound)
    (hd : Handled s (s.core.rejectPending why) t) (hm : m.ending? k = none) : s.Brings k m t :=
  brings_of_path hs hd (Dispatcher.Does.cleared s.core why).path (by simp) hm

/-- The workers are left as they are. -/
theorem brings_of_idle (hcore : t.core = s.core) (htells : s.OnlyTells t)
    (hm : m.ending? k = none) : s.Brings k m t := by
  refine ⟨[], .gets hm ?_, ?_⟩
  · rw [hcore]
    exact .nothing _
  · rw [handedTo, htells.exits]
    exact (List.append_nil _).symm

/-- A worker goes on.  For the worker itself it is left open what has happened to it; for every
other one nothing has. -/
theorem brings_of_work {j : Nat} {pool : Pool} {slot : Slot} {w : Worker}
    (hp : s.core.pool = some pool) (hslot : pool.slots[j]? = some slot)
    (hp' : t.core.pool = some (pool.setWorker j w)) (hexits : t.exits = s.exits)
    (hself : j = k → s.core.workerAt k = slot.worker → t.core.workerAt k = w →
      ∃ works, s.Affects k m t works ∧ works.filterMap Work.task? = [])
    (hother : j ≠ k → m.ending? k = none) : s.Brings k m t := by
  have hhanded : t.handedTo k = s.handedTo k := by rw [handedTo, handedTo, hexits]
  have hworker := Dispatcher.workerAt_setWorker (k := k) hp hslot hp'
  -- It is this worker that goes on, or another one.
  by_cases hj : j = k
  · have hbefore := Dispatcher.workerAt_of_slot (Dispatcher.slots_of_pool hp ▸ hslot)
    rw [if_pos hj] at hworker
    obtain ⟨works, haffects, hnone⟩ := hself hj (hj ▸ hbefore) hworker
    exact ⟨works, haffects, by rw [hhanded, hnone, List.append_nil]⟩
  · refine ⟨[], .gets (hother hj) ?_, ?_⟩
    · rw [hworker, if_neg hj]
      exact .nothing _
    · rw [hhanded]
      exact (List.append_nil _).symm

/-- **Every move brings messages to a worker or not**, and they are those noted as handed to it.  By
the cases of a step.  A worker that is told to stop gets the message, unless it is gone and the loop
only passes it. -/
theorem brings_of_move (hs : s.Sound) (h : s.move m = some t) (k : Nat) : s.Brings k m t := by
  cases steps_of_move h with
  | aside hm ha =>
      have hnone : m.ending? k = none := by
        cases m with
        | finish => cases hm
        | _ => rfl
      exact brings_of_idle ha.core (onlyTells_of_outside hm h) hnone
  | @take j pool slot w _ hp hslot hw ha =>
      have hp' : t.core.pool = some (pool.setWorker j w) := by
        rw [ha.core]
        rfl
      refine brings_of_work hp hslot hp' (exits_of_unhanding hs rfl rfl h) ?_ fun _ => rfl
      intro _ hbefore hafter
      refine ⟨[], .takes rfl ?_, rfl⟩
      rw [hbefore, hafter]
      exact hw
  | @finish j task ending pool slot w c _ hp hslot hactivity hw ha =>
      have hp' : t.core.pool = some (pool.setWorker j w) := by
        rw [ha.core]
        rfl
      refine brings_of_work hp hslot hp' (exits_of_unhanding hs rfl rfl h) ?_ fun hj => if_neg hj
      intro hj hbefore hafter
      -- The invocation that ends is the one that the worker is at.
      subst hj
      have hended : (s.core.workerAt j).finish j ending = some (t.core.workerAt j, c) := by
        rw [hbefore, hafter]
        exact hw
      exact ⟨[], .finishes rfl (hbefore ▸ hactivity) hended, rfl⟩
  | begin =>
      obtain ⟨hrun, hd⟩ := handled_of_seen rfl h
      exact brings_of_observe hs hrun hd rfl
  | look hl =>
      have hd := (handled_takeGate s).afterInput false
      exact brings_of_observe hs (isRunning_of_isListening hl) hd rfl
  | lose =>
      have hquiet : s.Quiet ({ s with gateLive := false }.afterInput false) :=
        ⟨rfl, rfl, rfl, rfl, rfl⟩
      exact brings_of_idle hquiet.core hquiet.onlyTells rfl
  | @report c rest _ hr =>
      obtain ⟨hrun, -, hd⟩ := handled_of_report h
      obtain ⟨hs', hpath⟩ := Dispatcher.takeReport_path (hr ▸ hs.carried hrun)
      exact brings_of_hands hs hd (by simp) rfl hpath
  | @intake job w rest _ hc =>
      obtain ⟨hrun, hd⟩ := handled_of_request hc h
      obtain ⟨hs', hpath⟩ := Dispatcher.accept_path (hs.carried hrun).ready job w
      exact brings_of_hands hs hd (by simp) rfl hpath
  | stop | desert => exact brings_of_rejectQueue hs (.of_input rfl rfl rfl) rfl
  | leave => exact brings_of_rejectPending hs (.of_withCore rfl rfl rfl) rfl
  | giveUp => exact brings_of_rejectPending hs (.of_input rfl rfl rfl) rfl
  | alone | part => exact brings_of_idle rfl (onlyTells_finish s) rfl
  | await | skip => exact brings_of_idle rfl (onlyTells_of_story rfl) rfl
  | @tell j pool w os hphase hp hj hinbox =>
      -- The stop is a message like any other to a worker that is there.
      by_cases hopen : w.isOpen
      · have hexits := exits_of_unhanding hs rfl rfl h
        obtain ⟨slot, hslot, rfl⟩ := Option.map_eq_some_iff.mp hj
        refine brings_of_work hp hslot rfl hexits ?_ fun _ => rfl
        intro _ hbefore hafter
        refine ⟨[.stop], .gets rfl ?_, rfl⟩
        rw [hbefore, hafter]
        exact .one hopen hinbox
      · -- A worker that is gone is passed over.
        have hskip : s.move .dismiss = some { s with phase := .dismissing (j + 1) } := by
          simp [move, hphase, dismiss, hp, hj, hopen]
        rw [Option.some.inj (h.symm.trans hskip)]
        exact brings_of_idle rfl (onlyTells_of_story rfl) rfl

/-! ## A day in the service -/

/-- The day of worker `k` as it stands in a state of the service: the loop takes reports until it
has ended. -/
structure Shows (s : Service ω) (k : Nat) (d : Workday) : Prop where
  worker : d.worker = s.core.workerAt k
  heard : d.heard = !s.hasEnded

/-- Messages reach the box of a worker one by one.  They come while it has room, as each is taken
before the next. -/
theorem play_arrive {w w' : Worker} {rest : List Work} (h : w.Gets works w') (hw : d.worker = w)
    (hcoming : d.coming = works ++ rest) :
    d.play endings k (List.replicate works.length .arrive) =
      some { d with worker := w', coming := rest } := by
  -- By induction on the messages, each of which finds the box empty.
  induction h generalizing d with
  | nothing =>
      subst hw
      have hrest : d.coming = rest := hcoming
      subst hrest
      rfl
  | @message w w' work rest' hopen hinbox _ ih =>
      subst hw
      refine Workday.play_cons_eq_some_iff.mpr
        ⟨{ d with coming := rest' ++ rest, worker := { d.worker with inbox := some work } }, ?_,
          ih rfl rfl⟩
      simp [Workday.move, Workday.receive, hcoming, hopen, hinbox]

/-- A worker that can take a message takes it.  It is recorded what the message was. -/
theorem exists_takeNext {w : Worker} (h : d.worker.take = some w) :
    ∃ work, d.takeNext = some { d with worker := w, record := d.record ++ [.ofWork work] } := by
  cases hinbox : d.worker.inbox with
  | none => simp [Worker.take, hinbox] at h
  | some work => exact ⟨work, by simp [Workday.takeNext, hinbox, h]⟩

/-- No worker files a report but with an invocation that ends. -/
theorem reportsOf_filed_eq_nil (hm : m.ending? k = none) : reportsOf (filed [m]) k = [] := by
  rw [← List.length_eq_zero_iff, length_reportsOf_filed_singleton, hm]
  rfl

/-- **What a move means to a worker is played in its day.** -/
theorem exists_play_of_affects {rest : List Work} (ha : s.Affects k m t works)
    (hd : d.worker = s.core.workerAt k) (hcoming : d.coming = works ++ rest)
    (hends : ∀ ending ∈ m.ending? k, ∀ task, endings d.ended task = some ending) :
    ∃ σ d', d.play endings k σ = some d' ∧ d'.worker = t.core.workerAt k ∧ d'.coming = rest ∧
      d'.heard = d.heard ∧
      WorkEntry.reports d'.record = WorkEntry.reports d.record ++ reportsOf (filed [m]) k := by
  cases ha with
  | gets hm h =>
      refine ⟨_, _, play_arrive h hd hcoming, rfl, rfl, rfl, ?_⟩
      rw [reportsOf_filed_eq_nil hm, List.append_nil]
  | takes hm h =>
      obtain ⟨work, htake⟩ := exists_takeNext (hd ▸ h)
      refine ⟨[.take], _, Workday.play_cons_eq_some_iff.mpr ⟨_, htake, rfl⟩, rfl, hcoming, rfl, ?_⟩
      rw [WorkEntry.reports_append, reportsOf_filed_eq_nil hm]
      cases work <;> rfl
  | @finishes task ending c hm hactivity h =>
      -- The run says how the invocation ends, and the day is told the same.
      subst hm
      have hending : endings d.ended task = some ending :=
        hends ending (by simp [Move.ending?]) task
      have hfinish : d.finish endings k = some { d with
          worker := t.core.workerAt k
          record := d.record ++ [.reported c]
          tray := if d.heard then d.tray ++ [c] else d.tray } := by
        rw [← hd] at hactivity h
        simp [Workday.finish, hactivity, hending, h]
      refine ⟨[.finish], _, Workday.play_cons_eq_some_iff.mpr ⟨_, hfinish, rfl⟩, rfl, hcoming, rfl,
        ?_⟩
      have hfiled : reportsOf (filed [Move.finish (ω := ω) k task ending]) k = [c] := by
        rw [report_of_finish hactivity h]
        simp [reportsOf, filed, Move.filed?]
      rw [WorkEntry.reports_append, hfiled]
      rfl

/-- The loop has taken reports up to its end.  Nobody takes them afterwards, and the loop does not
come back once it has ended. -/
theorem exists_play_hangUp (endings : Endings) (k : Nat) (hheard : d.heard = !s.hasEnded)
    (h : s.move m = some t) :
    ∃ σ, d.play endings k σ = some { d with heard := !t.hasEnded } := by
  cases ht : t.hasEnded with
  | true => exact ⟨[.hangUp], rfl⟩
  | false =>
      -- A service that has ended stays so, and the loop took reports until now.
      have hs : s.hasEnded = false := by
        by_contra hended
        have hlater := hasEnded_of_move (by simpa using hended) h
        rw [ht] at hlater
        cases hlater
      rw [hs] at hheard
      refine ⟨[], ?_⟩
      rw [← hheard]
      rfl

/-- **The rest of a run is the rest of a worker's day**, out of the messages that are still to come.
By induction on the run.  It is stated for all days at once, since the day after the first move is
another one. -/
theorem exists_day_of_play (hs : s.Sound) (h : s.play τ = some t) (k : Nat) :
    ∃ messages, t.handedTo k = s.handedTo k ++ messages.filterMap Work.task? ∧
      ∀ (endings : Endings) (d : Workday), s.Shows k d → d.coming = messages →
        (∀ i ending, (endingsIn k τ)[i]? = some ending →
          ∀ task, endings (d.ended + i) task = some ending) →
        ∃ σ d', d.play endings k σ = some d' ∧ t.Shows k d' ∧ d'.coming = [] ∧
          WorkEntry.reports d'.record = WorkEntry.reports d.record ++ reportsOf (filed τ) k := by
  induction τ generalizing s with
  | nil =>
      cases h
      refine ⟨[], (List.append_nil _).symm, fun endings d hd hcoming _ => ?_⟩
      exact ⟨[], d, rfl, hd, hcoming, (List.append_nil _).symm⟩
  | cons m τ ih =>
      obtain ⟨s₁, hmove, hrest⟩ := Option.bind_eq_some_iff.mp h
      obtain ⟨ds, htells⟩ := exists_tells_of_move hs hmove
      obtain ⟨works, haffects, hhanded⟩ := brings_of_move hs hmove k
      obtain ⟨messages, hhanded', hday⟩ := ih htells.sound hrest
      refine ⟨works ++ messages, ?_, fun endings d hd hcoming hends => ?_⟩
      · rw [hhanded', hhanded, List.filterMap_append, List.append_assoc]
      rw [endingsIn_cons] at hends
      have hfirst : ∀ ending ∈ m.ending? k, ∀ task, endings d.ended task = some ending := by
        intro ending hm task
        refine hends 0 ending ?_ task
        rw [Option.mem_def.mp hm]
        rfl
      obtain ⟨σ, d₁, hplay, hworker, hcoming₁, hheard, hrecord⟩ :=
        exists_play_of_affects haffects hd.worker hcoming hfirst
      obtain ⟨σ', hhangUp⟩ := exists_play_hangUp endings k (hheard.trans hd.heard) hmove
      have hended : d₁.ended = d.ended + (m.ending? k).toList.length := by
        rw [Workday.ended, hrecord, List.length_append, length_reportsOf_filed_singleton]
        rfl
      -- The invocations of the rest are numbered from there on.
      have hlater : ∀ i ending, (endingsIn k τ)[i]? = some ending →
          ∀ task, endings (d₁.ended + i) task = some ending := by
        intro i ending hi task
        rw [hended, Nat.add_assoc]
        refine hends ((m.ending? k).toList.length + i) ending ?_ task
        rw [List.getElem?_append_right (Nat.le_add_right _ _), Nat.add_sub_cancel_left]
        exact hi
      obtain ⟨σ'', d', hplay', hshows, hcoming', hrecord'⟩ :=
        hday endings { d₁ with heard := !s₁.hasEnded } ⟨hworker, rfl⟩ hcoming₁ hlater
      refine ⟨σ ++ (σ' ++ σ''), d', ?_, hshows, hcoming', ?_⟩
      · rw [Workday.play_append_of_play hplay, Workday.play_append_of_play hhangUp, hplay']
      · rw [hrecord', reportsOf_filed_cons, ← List.append_assoc, ← hrecord]

/-- **Every worker of a service lives a day of its own.**  In every run the tasks handed to a worker
are those sent to it, they have all reached its box, its invocations have ended as in the run, and
it has reported what it has filed. -/
theorem exists_workday (h : (ofConfig config gate).play τ = some s) (k : Nat) :
    ∃ messages σ d,
      (Workday.ofMessages messages).play (fun n _ => (endingsIn k τ)[n]?) k σ = some d ∧
      s.Shows k d ∧ d.coming = [] ∧ messages.filterMap Work.task? = s.handedTo k ∧
      WorkEntry.reports d.record = reportsOf (filed τ) k := by
  obtain ⟨messages, hhanded, hday⟩ := exists_day_of_play (sound_ofConfig config gate) h k
  have hends : ∀ i ending, (endingsIn k τ)[i]? = some ending →
      ∀ _task : Task, (endingsIn k τ)[(Workday.ofMessages messages).ended + i]? = some ending := by
    intro i ending hi _
    rw [← hi]
    exact congrArg _ (Nat.zero_add i)
  obtain ⟨σ, d, hplay, hshows, hcoming, hrecord⟩ :=
    hday (fun n _ => (endingsIn k τ)[n]?) (.ofMessages messages) ⟨rfl, rfl⟩ rfl hends
  exact ⟨messages, σ, d, hplay, hshows, hcoming, hhanded.symm, hrecord⟩

/-! ## Reports

Together with what is known of a worker's day this gives the reports of a worker in a service, which
is the point of the comparison. -/

/-- Where these are the endings of a worker's invocations, it reports on the first tasks sent to it,
one with each ending. -/
theorem reports_courseFrom (es : List Ending) (k n : Nat) (messages : List Work) :
    WorkEntry.reports (Workday.courseFrom (fun n _ => es[n]?) k n messages) =
      List.zipWith (fun task ending => task.report k ending) (tasksBeforeStop messages)
        (es.drop n) := by
  induction messages generalizing n with
  | nil => rfl
  | cons work rest ih =>
      cases work with
      | stop => rfl
      | render task =>
          have htasks : tasksBeforeStop (.render task :: rest) = task :: tasksBeforeStop rest := rfl
          rw [htasks, Workday.courseFrom, Workday.goOn]
          cases hn : es[n]? with
          | none =>
              rw [List.drop_eq_nil_of_le (List.getElem?_eq_none_iff.mp hn)]
              rfl
          | some ending =>
              obtain ⟨hlt, rfl⟩ := List.getElem?_eq_some_iff.mp hn
              rw [List.drop_eq_getElem_cons hlt, List.zipWith_cons_cons, ← ih]
              rfl

/-- What has no partner is left out. -/
theorem zipWith_append_of_length_le {α β γ : Type} (f : α → β → γ) {as : List α} {bs : List β}
    (h : bs.length ≤ as.length) (cs : List α) :
    List.zipWith f (as ++ cs) bs = List.zipWith f as bs := by
  induction as generalizing bs with
  | nil =>
      rw [List.length_eq_zero_iff.mp (Nat.le_zero.mp h), List.zipWith_nil_right,
        List.zipWith_nil_right]
  | cons a as ih =>
      cases bs with
      | nil => rfl
      | cons b bs =>
          have hrest := ih (Nat.le_of_succ_le_succ h)
          rw [List.cons_append, List.zipWith_cons_cons, List.zipWith_cons_cons, hrest]

/-- **The reports of a worker are about the tasks handed to it, one by one.**  In every run of the
service the first report of a worker is about the first task handed to it, the next one about the
next, and so on; none is passed over, and none is reported twice. -/
theorem reports_follow_handOvers (h : (ofConfig config gate).play τ = some s) (k : Nat) :
    reportsOf (filed τ) k =
      List.zipWith (fun task ending => task.report k ending) (s.handedTo k) (endingsIn k τ) := by
  obtain ⟨messages, σ, d, hplay, -, -, hhanded, hrecord⟩ := exists_workday h k
  have hcourse := congrArg WorkEntry.reports (Workday.record_due_of_play hplay)
  have hfresh : (Workday.ofMessages messages).record ++
      (Workday.ofMessages messages).due (fun n _ => (endingsIn k τ)[n]?) k =
        Workday.courseFrom (fun n _ => (endingsIn k τ)[n]?) k 0 messages := rfl
  rw [hfresh, reports_courseFrom, List.drop_zero, WorkEntry.reports_append, hrecord] at hcourse
  have hlength := congrArg List.length hcourse
  rw [List.length_append, List.length_zipWith, length_reportsOf_filed] at hlength
  -- There are as many reports as endings, so nothing is due that would be reported.
  have hdue : WorkEntry.reports (d.due (fun n _ => (endingsIn k τ)[n]?) k) = [] := by
    refine List.length_eq_zero_iff.mp ?_
    omega
  have henough : (endingsIn k τ).length ≤ (tasksBeforeStop messages).length := by omega
  obtain ⟨later, hlater⟩ : tasksBeforeStop messages <+: s.handedTo k :=
    hhanded ▸ (List.takeWhile_prefix _).filterMap _
  rw [hdue, List.append_nil] at hcourse
  rw [← hlater, zipWith_append_of_length_le _ henough, hcourse]

end Service

end AvatarPool
