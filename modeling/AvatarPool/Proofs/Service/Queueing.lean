import AvatarPool.Proofs.Dispatch.Queueing
import AvatarPool.Proofs.Service.Backlog

/-! # Tasks in the order of their requests

Requests leave the channel in the order in which they were sent, and those that open a task put it
at the end of the queue.  Tasks leave the queue at its front, for a worker or because a failed gate
or a stop rejects all that is queued.  So whatever has left the queue, followed by what is still in
it, is what has been opened, in the order of the requests.

Each move's part in this is its turnover: the tasks it takes off the front of the queue and the task
it puts at its end.  `turnover_of_move` finds it for every move, and the history of a run is put
together from them.  Which tasks have been opened is read from the admissions of the run and not
from the queue, so that the two can be compared. -/

namespace AvatarPool

variable {ω : Type}

/-- A request that has been admitted, with what has become of it. -/
structure Admitted (ω : Type) where
  job : Job
  caller : ω
  fate : Fate
  deriving DecidableEq, Repr

namespace Admitted

/-- The request as it was sent. -/
def request (a : Admitted ω) : Job × ω := (a.job, a.caller)

/-- The task that the request has opened. -/
def task? (a : Admitted ω) : Option Task :=
  if a.fate = .opened then some (Task.ofJob a.job) else none

end Admitted

/-- The task that an output takes off the queue. -/
def Output.taken? (o : Output ω) : Option Task := o.effect?.bind Effect.taken?

namespace Service

variable {config : PoolSettings} {gate : Gate} {s t u : Service ω} {m : Move ω} {τ : List (Move ω)}
  {d : Dispatcher ω}

/-! ## Admissions -/

/-- The request that a move admits. -/
def admitted (s : Service ω) (m : Move ω) : List (Admitted ω) :=
  (s.fetched m).map fun r => ⟨r.1, r.2, s.core.fate r.1⟩

/-- The requests that have been admitted in a run, in order. -/
def admissions (s : Service ω) (τ : List (Move ω)) : List (Admitted ω) := s.gather admitted τ

/-- The tasks that have been opened in a run, in the order of their requests. -/
def opened (s : Service ω) (τ : List (Move ω)) : List Task :=
  (s.admissions τ).filterMap Admitted.task?

/-- The task that a move opens. -/
def openedBy (s : Service ω) (m : Move ω) : List Task := (s.admitted m).filterMap Admitted.task?

/-- A request at the front of the channel is admitted with the fate that the dispatcher has for it.
-/
theorem admitted_of_request {job : Job} {w : ω} {rest : List (Command ω)}
    (hc : s.commands = .request job w :: rest) :
    s.admitted .command = [⟨job, w, s.core.fate job⟩] := by
  rw [admitted, fetched_of_request hc, List.map_singleton]

theorem openedBy_of_request {job : Job} {w : ω} {rest : List (Command ω)}
    (hc : s.commands = .request job w :: rest) : s.openedBy .command = s.core.opens job := by
  rw [openedBy, admitted_of_request hc, filterMap_singleton, Admitted.task?, Dispatcher.opens]
  split <;> rfl

theorem openedBy_of_fetched (h : s.fetched m = []) : s.openedBy m = [] := by
  rw [openedBy, admitted, h]
  rfl

theorem map_request_admitted (s : Service ω) (m : Move ω) :
    (s.admitted m).map Admitted.request = s.fetched m := by
  rw [admitted, List.map_map]
  exact List.map_id _

theorem admissions_concat (h : s.play τ = some t) (hm : t.move m = some u) :
    s.admissions (τ ++ [m]) = s.admissions τ ++ t.admitted m :=
  gather_concat admitted h hm

theorem opened_concat (h : s.play τ = some t) (hm : t.move m = some u) :
    s.opened (τ ++ [m]) = s.opened τ ++ t.openedBy m := by
  rw [opened, admissions_concat h hm, List.filterMap_append]
  rfl

/-- Nothing is taken out of the channel once the loop has left: a request is fetched only where a
handler runs with it. -/
theorem fetched_of_not_isRunning (hrun : ¬ s.isRunning) (h : s.move m = some t) :
    s.fetched m = [] := by
  by_contra hne
  obtain ⟨rfl, job, w, rest, hc⟩ := exists_request_of_fetched hne
  exact hrun (handled_of_request hc h).1

/-- **Requests are admitted in the order in which they were sent**; while the loop runs the others
are still in the channel. -/
theorem admissions_of_play (h : (ofConfig config gate).play τ = some s) :
    ((ofConfig config gate).admissions τ).map Admitted.request <+: requested τ ∧
      (s.isRunning →
        ((ofConfig config gate).admissions τ).map Admitted.request ++ s.inChannel = requested τ) := by
  refine play_induction (P := fun τ s =>
    ((ofConfig config gate).admissions τ).map Admitted.request <+: requested τ ∧
      (s.isRunning → ((ofConfig config gate).admissions τ).map Admitted.request ++ s.inChannel =
        requested τ)) ⟨List.prefix_rfl, fun _ => rfl⟩ ?_ h
  rintro τ m s t hplay ⟨hsent, hall⟩ hmove
  rw [admissions_concat hplay hmove, List.map_append, map_request_admitted, requested_append]
  by_cases hrun : s.isRunning
  · have heq : ((ofConfig config gate).admissions τ).map Admitted.request ++ s.fetched m ++
        t.inChannel = requested τ ++ requested [m] := by
      rw [List.append_assoc, fetched_append_inChannel hrun hmove, ← List.append_assoc, hall hrun]
    exact ⟨⟨t.inChannel, heq⟩, fun _ => heq⟩
  · rw [fetched_of_not_isRunning hrun hmove, List.append_nil]
    refine ⟨hsent.trans (List.prefix_append _ _), fun hrun' => ?_⟩
    obtain ⟨ds, hds⟩ := exists_tells_of_play (sound_ofConfig config gate) hplay
    obtain ⟨es, hes⟩ := exists_tells_of_move hds.sound hmove
    exact absurd (hes.staged.1 hrun') hrun

/-! ## What leaves the queue -/

/-- The tasks taken off the queue so far, in the order in which they were taken. -/
def taken (s : Service ω) : List Task := s.outputs.filterMap Output.taken?

theorem taken_eq (s : Service ω) : s.taken = s.story.taken :=
  filterMap_outputs (fun _ => rfl) s

/-- Why a move rejects what is queued, if it does: it takes a failed state of the gate, or begins
the stop. -/
def refusal? (s : Service ω) (m : Move ω) : Option Failure :=
  match m with
  | .command => if s.meetsStop then some .shuttingDown else none
  | m =>
    match s.seen m with
    | [.failed why] => some why
    | _ => none

/-- A command that leads to a stop rejects: the loop was serving, so that the stop begins with it. -/
theorem refusal?_of_stopping (h : s.move .command = some t) (hstop : t.isStopping) :
    s.refusal? .command = some .shuttingDown := by
  obtain ⟨hphase, -⟩ := Option.ite_none_right_eq_some.mp h
  obtain ⟨-, hmeets⟩ := meetsStop_of_move (not_isStopping_of_serving hphase) hstop h
  exact if_pos hmeets

/-- **What a move takes off the queue**: all of it to be rejected, or the oldest tasks to be handed
to workers.  In the first case everybody who waits for them is told why, and in the second one each
of them is with its worker. -/
structure Turnover (s : Service ω) (m : Move ω) (ts : List Task) (t : Service ω) : Prop where
  /-- What was queued and is opened has left the queue, or is still in it. -/
  queue : s.core.queue ++ s.openedBy m = ts ++ t.core.queue
  taken : t.taken = s.taken ++ ts
  /-- Each task is in the box of its worker now. -/
  handed : s.refusal? m = none → t.handedKeys = s.handedKeys ++ ts.map Task.fingerprint ∧
    ∀ task ∈ ts, ∃ k : Nat, t.core.slots[k]? = some (.boxed task)
  /-- All who wait for these tasks, and nobody else, are told why. -/
  rejected : ∀ why, s.refusal? m = some why → ts = s.core.queue ∧ t.core.queue = [] ∧
    t.handedKeys = s.handedKeys ∧
    t.answers = s.answers ++ ts.flatMap fun task =>
      (s.core.pending.waiting task.fingerprint).map fun w => (w, .error why)

theorem Handled.taken (h : Handled s d t) : t.taken = s.taken ++ d.taken := by
  rw [taken_eq, taken_eq, h.story]
  exact List.filterMap_append

theorem taken_of_collected (hs : s.core.effects = []) : s.core.taken = [] := by
  rw [Dispatcher.taken, hs]
  rfl

theorem OnlyTells.taken (h : s.OnlyTells t) : t.taken = s.taken := by
  obtain ⟨as, hstory⟩ := h
  rw [taken_eq, taken_eq, hstory]
  exact Dispatcher.taken_note_of_forall (List.forall_mem_map.mpr fun _ _ => rfl)

namespace Turnover

/-- Nothing happens to the queue.  There is neither a request nor a rejection. -/
theorem still (hfetched : s.fetched m = []) (hrefusal : s.refusal? m = none)
    (hqueue : t.core.queue = s.core.queue) (htaken : t.taken = s.taken)
    (hhanded : t.handedKeys = s.handedKeys) : s.Turnover m [] t where
  queue := by rw [openedBy_of_fetched hfetched, hqueue, List.append_nil, List.nil_append]
  taken := htaken.trans (List.append_nil _).symm
  handed _ := ⟨hhanded.trans (List.append_nil _).symm, nofun⟩
  rejected why hwhy := by rw [hrefusal] at hwhy; cases hwhy

/-- A handler hands out tasks.  It may have put the new task at the end before. -/
theorem of_serves {new ts : List Task} (hs : s.core.effects = []) (hd : Handled s d t)
    (hnew : s.openedBy m = new) (h : Dispatcher.Serves s.core new ts d)
    (hrefusal : s.refusal? m = none) : s.Turnover m ts t where
  queue := by rw [hnew, h.queue, hd.core]
  taken := by rw [hd.taken, h.taken, taken_of_collected hs, List.nil_append]
  handed _ := by
    constructor
    · rw [hd.handedKeys, h.handed, handed_of_collected hs, List.nil_append]
    · rw [hd.core]
      exact h.boxed
  rejected why hwhy := by rw [hrefusal] at hwhy; cases hwhy

/-- A handler rejects the queue.  What the dispatcher shows of it is all that is asked for. -/
theorem of_rejects {why : Failure} (hs : s.core.effects = []) (hd : Handled s d t)
    (hfetched : s.fetched m = []) (h : Dispatcher.Rejects s.core why d)
    (htaken : d.taken = s.core.taken ++ s.core.queue) (hrefusal : s.refusal? m = some why) :
    s.Turnover m s.core.queue t where
  queue := by
    have hqueue : t.core.queue = [] := by rw [hd.core]; exact h.queue
    rw [openedBy_of_fetched hfetched, hqueue]
  taken := by rw [hd.taken, htaken, taken_of_collected hs, List.nil_append]
  handed hnone := by rw [hrefusal] at hnone; cases hnone
  rejected why' hwhy := by
    obtain rfl : why = why' := Option.some.inj (hrefusal.symm.trans hwhy)
    refine ⟨rfl, ?_, ?_, ?_⟩
    · rw [hd.core]
      exact h.queue
    · rw [hd.handedKeys, h.handed, handed_of_collected hs, List.append_nil]
    · rw [hd.answers, h.answered, answered_of_collected hs, List.nil_append]

end Turnover

/-- The beginning of a stop goes to the dispatcher. -/
theorem handled_of_meetsStop (hstop : s.meetsStop) (h : s.move .command = some t) :
    s.isRunning ∧ Handled s (s.core.rejectQueue .shuttingDown) t := by
  cases steps_of_move h with
  | aside hm => cases hm
  | intake _ hc => simp [meetsStop, hc] at hstop
  | stop hphase | desert hphase =>
      exact ⟨by simp [isRunning, hphase], .of_input rfl rfl rfl⟩

/-- A move that rejects the queue takes all of it.  Whether a stop begins or the gate has failed
makes no difference but for the reason that callers are told. -/
theorem turnover_of_refusal {why : Failure} (hs : s.Sound) (hl : s.isRunning → s.core.Ledger)
    (hwhy : s.refusal? m = some why) (h : s.move m = some t) : s.Turnover m s.core.queue t := by
  -- A failed gate may be met at the beginning or by the watch.
  have hseen : ∀ {m : Move ω}, s.move m = some t → s.seen m = [.failed why] → s.fetched m = [] →
      s.refusal? m = some why → s.Turnover m s.core.queue t := by
    intro m hmove hseen hfetched hwhy
    obtain ⟨hrun, hd⟩ := handled_of_seen hseen hmove
    exact .of_rejects hs.collected hd hfetched
      (Dispatcher.observe_failed_rejects (hl hrun).nodup_queue why)
      (Dispatcher.taken_observe_failed s.core why) hwhy
  unfold refusal? at hwhy
  split at hwhy
  · obtain ⟨hstop, heq⟩ := Option.ite_none_right_eq_some.mp hwhy
    cases heq
    obtain ⟨hrun, hd⟩ := handled_of_meetsStop hstop h
    exact .of_rejects hs.collected hd (fetched_of_meetsStop hstop)
      (Dispatcher.rejectQueue_rejects (hl hrun).nodup_queue _)
      (Dispatcher.taken_rejectQueue s.core _) (if_pos hstop)
  · rename_i hcommand
    split at hwhy
    · rename_i hfailed
      cases hwhy
      cases m with
      | begin | watch => exact hseen h hfailed rfl (by simp only [refusal?, hfailed])
      | _ => cases hfailed
    · cases hwhy

/-- A move that neither rejects the queue nor admits a request lets workers go on at most.  By the
kinds of acts: whoever leaves rejects callers and not the queue, and the other handlers hand out
what they can. -/
theorem turnover_of_unfetched (hs : s.Sound) (hwhy : s.refusal? m = none)
    (hfetched : s.fetched m = []) (h : s.move m = some t) : ∃ ts, s.Turnover m ts t := by
  -- A handler that serves and opens nothing only takes tasks off the front of the queue.
  have hserves : ∀ {d : Dispatcher ω}, Handled s d t →
      (∃ ts, Dispatcher.Serves s.core [] ts d) → ∃ ts, s.Turnover m ts t := by
    rintro d hd ⟨ts, hts⟩
    exact ⟨ts, .of_serves hs.collected hd (openedBy_of_fetched hfetched) hts hwhy⟩
  cases acts_of_move h with
  | idle hcore htells =>
      exact ⟨[], .still hfetched hwhy (by rw [hcore]) htells.taken htells.handedKeys⟩
  | worked _ _ hcore hstory =>
      refine ⟨[], .still hfetched hwhy (by rw [hcore]) ?_ ?_⟩
      · rw [taken_eq, taken_eq, hstory]
        rfl
      · rw [handedKeys_eq, handedKeys_eq, hstory]
        rfl
  | admitted hm _ hc =>
      subst hm
      rw [fetched_of_request hc] at hfetched
      cases hfetched
  | reported _ hrun hr hd =>
      exact hserves hd (Dispatcher.takeReport_serves (hr ▸ hs.carried hrun))
  | @saw state hseen hrun hd =>
      apply hserves hd
      apply Dispatcher.observe_serves (hs.carried hrun).ready
      rintro why rfl
      cases m with
      | begin | watch => simp only [refusal?, hseen] at hwhy; cases hwhy
      | _ => cases hseen
  | stopped hm hstop hrun hd =>
      subst hm
      cases (refusal?_of_stopping h hstop).symm.trans hwhy
  | left _ _ hd =>
      refine ⟨[], .still hfetched hwhy (by rw [hd.core]; rfl) ?_ ?_⟩
      · rw [hd.taken, Dispatcher.taken_rejectPending, taken_of_collected hs.collected,
          List.append_nil]
      · rw [hd.handedKeys, Dispatcher.handedKeys_rejectPending, handed_of_collected hs.collected,
          List.append_nil]

/-- **What each move takes off the queue.**  There are three kinds of moves, by whether they reject,
admit, or do neither. -/
theorem turnover_of_move (hs : s.Sound) (hl : s.isRunning → s.core.Ledger)
    (h : s.move m = some t) : ∃ ts, s.Turnover m ts t := by
  cases hwhy : s.refusal? m with
  | some why => exact ⟨_, turnover_of_refusal hs hl hwhy h⟩
  | none =>
      by_cases hfetched : s.fetched m = []
      · exact turnover_of_unfetched hs hwhy hfetched h
      · obtain ⟨rfl, job, w, rest, hc⟩ := exists_request_of_fetched hfetched
        obtain ⟨hrun, hd⟩ := handled_of_request hc h
        obtain ⟨ts, hts⟩ := Dispatcher.accept_serves (hs.carried hrun).ready job w
        exact ⟨ts, .of_serves hs.collected hd (openedBy_of_request hc) hts hwhy⟩

/-- What has left the queue and what is still in it is what has been opened.  By induction on the
run. -/
theorem taken_append_queue_of_play (h : (ofConfig config gate).play τ = some s) :
    s.taken ++ s.core.queue = (ofConfig config gate : Service ω).opened τ := by
  refine play_induction (P := fun τ s =>
    s.taken ++ s.core.queue = (ofConfig config gate : Service ω).opened τ) rfl ?_ h
  intro τ m s t hplay ih hmove
  obtain ⟨ds, hds⟩ := exists_tells_of_play (sound_ofConfig config gate) hplay
  obtain ⟨ts, hts⟩ := turnover_of_move hds.sound (ledger_of_play hplay) hmove
  rw [opened_concat hplay hmove, ← ih, hts.taken, List.append_assoc, List.append_assoc, hts.queue]

/-- **How the queue has been run**, over a run.  The first two fields are about the run so far, and
the last one is about whatever comes next. -/
structure FirstInFirstOut (config : PoolSettings) (gate : Gate) (τ : List (Move ω))
    (s : Service ω) : Prop where
  /-- Nothing is lost, and nothing overtakes anything. -/
  history : s.taken ++ s.core.queue = (ofConfig config gate : Service ω).opened τ
  /-- Requests have been admitted in the order of the calls. -/
  calls : ((ofConfig config gate).admissions τ).map Admitted.request <+: requested τ
  /-- What the next move takes off the queue goes to workers, or is rejected with all the rest. -/
  next : ∀ m t, s.move m = some t → ∃ ts, s.Turnover m ts t

/-- **First in, first out**: after every run, however workers end their tasks and whatever the gate
does, the tasks that have left the queue, in that order, and then those that are still queued are
the tasks that have been opened, in the order of their requests. -/
theorem first_in_first_out (h : (ofConfig config gate).play τ = some s) :
    FirstInFirstOut config gate τ s := by
  obtain ⟨ds, hds⟩ := exists_tells_of_play (sound_ofConfig config gate) h
  exact ⟨taken_append_queue_of_play h, (admissions_of_play h).1,
    fun _ _ hmove => turnover_of_move hds.sound (ledger_of_play h) hmove⟩

/-- Two workers have the first two of five tasks; the second of them ends first, and the gate fails
behind the third. -/
def orderedRun : List (Move Nat) :=
  [.begin, .request (.name "a") 0, .request (.name "b") 1, .request (.name "c") 2,
    .request (.name "d") 3, .request (.name "e") 4, .command, .command, .command, .command,
    .command, .take 0, .take 1, .finish 1 (.ofJob (.name "b")) (.name "B"),
    .report ⟨1, .name "b", .ok (.name "B")⟩, .setGate (.failed (.engineNotReady "down"))]

theorem first_in_first_out_ordered :
    ∃ s t : Service Nat, (ofConfig { poolSize := 2 } { state := .ready }).play orderedRun = some s ∧
      s.core.queue = [.ofJob (.name "d"), .ofJob (.name "e")] ∧
      (ofConfig { poolSize := 2 } { state := .ready } : Service Nat).opened orderedRun =
        ["a", "b", "c", "d", "e"].map (fun name => .ofJob (.name name)) ∧
      s.move .watch = some t ∧
      t.taken = ["a", "b", "c", "d", "e"].map (fun name => .ofJob (.name name)) ∧
      t.answers = s.answers ++
        [(3, .error (.engineNotReady "down")), (4, .error (.engineNotReady "down"))] := by
  have hplay : ((ofConfig { poolSize := 2 } { state := .ready } : Service Nat).play orderedRun).any
      fun s => decide (s.taken = ["a", "b", "c"].map fun name => .ofJob (.name name)) &&
        decide (s.core.queue = [.ofJob (.name "d"), .ofJob (.name "e")]) &&
        decide (s.refusal? .watch = some (.engineNotReady "down")) &&
        decide (s.core.pending.waiting (.name "d") = [3]) &&
        decide (s.core.pending.waiting (.name "e") = [4]) && (s.move .watch).isSome := by
    decide +kernel
  obtain ⟨s, hs, hall⟩ := (Option.any_eq_true _ _).mp hplay
  simp only [Bool.and_eq_true, decide_eq_true_eq] at hall
  obtain ⟨⟨⟨⟨⟨htaken, hqueue⟩, hwhy⟩, hd⟩, he⟩, hmove⟩ := hall
  obtain ⟨t, ht⟩ := Option.isSome_iff_exists.mp hmove
  have horder := first_in_first_out hs
  obtain ⟨ts, hts⟩ := horder.next .watch t ht
  obtain ⟨rfl, -, -, hanswers⟩ := hts.rejected _ hwhy
  refine ⟨s, t, hs, hqueue, ?_, ht, ?_, ?_⟩
  · rw [← horder.history, htaken, hqueue]
    rfl
  · rw [hts.taken, htaken, hqueue]
    rfl
  · rw [hanswers, hqueue]
    show s.answers ++ ((s.core.pending.waiting (.name "d")).map _ ++
      ((s.core.pending.waiting (.name "e")).map _ ++ [])) = _
    rw [hd, he]
    rfl

end Service

end AvatarPool
