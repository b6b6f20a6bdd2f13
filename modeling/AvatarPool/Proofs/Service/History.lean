import AvatarPool.Proofs.Service.Story

/-! # What a run makes the dispatcher do

Each move of the service is a short path of the dispatcher's deeds, and so a run is one path.

The relation `Tells` carries all that later modules want of a run: the path of deeds, in which order
reports and requests went through, and that the service stays sound.  Each part of the program gets
one lemma that gives its path, for callers, workers and the phases of the loop in turn; then
`exists_tells_of_move` puts them together, and a run is dealt with by joining paths. -/

namespace AvatarPool.Service

variable {ω : Type} {s t u : Service ω} {τ τ' : List (Move ω)} {ds ds' : List (Deed ω)}

/-! ## The loop's handlers -/

/-- Deeds that a handler does after its first: tasks leave the queue.  They neither take anything in
nor give up those who wait. -/
structure FollowUp (ds : List (Deed ω)) : Prop where
  reports : ds.filterMap Deed.report? = []
  requests : ds.filterMap Deed.request? = []
  notLast : ∀ x ∈ ds, x.isLast = false

namespace FollowUp

theorem filterMap_map_eq_nil {α β γ : Type} {f : β → Option γ} {g : α → β}
    (h : ∀ a, f (g a) = none) (l : List α) : (l.map g).filterMap f = [] := by
  rw [List.filterMap_map, List.filterMap_eq_nil_iff]
  exact fun a _ => h a

/-- Tasks are handed out. -/
theorem hands (ts : List (Nat × Task)) :
    FollowUp (ts.map fun h => (Deed.hand h.1 h.2 : Deed ω)) where
  reports := filterMap_map_eq_nil (fun _ => rfl) _
  requests := filterMap_map_eq_nil (fun _ => rfl) _
  notLast := List.forall_mem_map.mpr fun _ _ => rfl

/-- Tasks are rejected. -/
theorem drops (ts : List Task) (why : Failure) :
    FollowUp (ts.map fun t => (Deed.drop t why : Deed ω)) where
  reports := filterMap_map_eq_nil (fun _ => rfl) _
  requests := filterMap_map_eq_nil (fun _ => rfl) _
  notLast := List.forall_mem_map.mpr fun _ _ => rfl

end FollowUp

theorem not_hasEnded_of_isRunning (h : s.isRunning) : ¬ s.hasEnded := by
  rw [hasEnded_iff]
  intro hphase
  simp [isRunning, hphase] at h

/-- **A handler as a move**: the loop goes on running, with a channel and reports that the
handler's path accounts for. -/
theorem tells_withCore {s' : Service ω} {f : Dispatcher ω → Dispatcher ω} {m : Move ω}
    (hs : s.Sound) (hrun : s.isRunning) (hrun' : s'.isRunning) (hcore : s'.core = s.core)
    (hout : s'.outputs = s.outputs) (hpath : Dispatcher.Path s.core ds (f s.core))
    (hds : ∀ x ∈ ds, x.isLast = false)
    (hreports : s.reports = ds.filterMap Deed.report? ++ s'.reports)
    (hread : ds.filterMap Deed.report? = reported [m])
    (hfile : filed [m] = [])
    (hrequests : ds.filterMap Deed.request? ++ s'.inChannel = s.inChannel ++ requested [m]) :
    Tells s [m] ds (s'.withCore f) where
  path := by
    have hstory : s.story = s'.story := by rw [story, story, hcore, hout]
    rw [hstory]
    rw [← hcore] at hpath
    exact path_withCore (hcore ▸ hs.collected) hpath
  sound := {
    collected := rfl
    carried := by
      intro _
      -- The workers' own moves are not among the deeds of a handler.
      have hwork : .work ∉ ds := fun hmem => nomatch hds _ hmem
      show Carried (f s'.core).slots s'.reports
      rw [hcore]
      exact hpath.carried hwork (hreports ▸ hs.carried hrun)
    departed := fun h => absurd hrun' h
    quiet := fun h => absurd h (not_hasEnded_of_isRunning (s := s') hrun') }
  reports := hread
  requests := hrequests
  fifo := fun _ => by rw [hfile, List.append_nil, ← hread]; exact hreports
  staged := .of_running hrun fun why hmem => nomatch hds _ hmem

/-- A handler does one deed, and then tasks leave the queue.  The first deed takes in the report or
the request of the move, if it has one; the others take in nothing. -/
theorem tells_handler {s' : Service ω} {f : Dispatcher ω → Dispatcher ω} {m : Move ω} {x : Deed ω}
    (hs : s.Sound) (hrun : s.isRunning) (hrun' : s'.isRunning) (hcore : s'.core = s.core)
    (hout : s'.outputs = s.outputs) (hpath : Dispatcher.Path s.core (x :: ds) (f s.core))
    (hx : x.isLast = false) (hds : FollowUp ds) (hreports : s.reports = reported [m] ++ s'.reports)
    (hread : x.report?.toList = reported [m]) (hfile : filed [m] = [])
    (hrequests : x.request?.toList ++ s'.inChannel = s.inChannel ++ requested [m]) :
    Tells s [m] (x :: ds) (s'.withCore f) := by
  -- Only the first deed takes in a report or a request.
  have hread' : (x :: ds).filterMap Deed.report? = reported [m] := by
    rw [← List.singleton_append, List.filterMap_append, filterMap_singleton, hds.reports,
      List.append_nil, hread]
  have hsent : (x :: ds).filterMap Deed.request? = x.request?.toList := by
    rw [← List.singleton_append, List.filterMap_append, filterMap_singleton, hds.requests,
      List.append_nil]
  refine tells_withCore hs hrun hrun' hcore hout hpath ?_ ?_ hread' hfile ?_
  · exact List.forall_mem_cons.mpr ⟨hx, hds.notLast⟩
  · rw [hread', hreports]
  · rw [hsent, hrequests]

/-- A state of the gate is taken.  It is seen, and then tasks are handed out or rejected, by what
the state is. -/
theorem tells_observe {m : Move ω} (hs : s.Sound) (hrun : s.isRunning) (gate : Gate)
    {phase : Phase} (hphase : ({ s with phase := phase } : Service ω).isRunning)
    (hm : m.isSilent) :
    ∃ ds, Tells s [m] ds
      ({ s with gate := gate, phase := phase }.withCore fun d => d.observe s.gate.state) := by
  -- The deeds after the first hand tasks out or reject them.
  obtain ⟨ds, hpath, hds⟩ := Dispatcher.observe_path (hs.carried hrun).ready s.gate.state
  have hfollow : FollowUp ds := by
    rcases hds with ⟨ts, rfl⟩ | ⟨why, -, rfl⟩
    · exact .hands ts
    · exact .drops _ why
  obtain ⟨hreq, hrep, hfile⟩ := m.nothing_of_isSilent hm
  refine ⟨_, tells_handler hs hrun hphase rfl rfl hpath rfl hfollow ?_ hrep.symm hfile ?_⟩
  · rw [hrep]
    rfl
  · rw [hreq]
    exact (List.append_nil _).symm

theorem tells_begin (hs : s.Sound) (hphase : s.phase = .starting) :
    ∃ ds, Tells s [.begin] ds { s.takeGate with phase := .serving } :=
  tells_observe hs (by simp [isRunning, hphase]) { s.gate with isNew := false } rfl rfl

/-- A loop that listens runs. -/
theorem isRunning_of_isListening (h : s.isListening) : s.isRunning := by
  unfold isListening at h
  unfold isRunning
  split at h
  · rename_i hphase
    rw [hphase]
  · rename_i hphase
    rw [hphase]
  · cases h

/-- Afterwards it looks when there is news; a gate that is gone is only remembered as such. -/
theorem tells_watch (hs : s.Sound) (hl : s.isListening) (h : s.watchGate = some t) :
    ∃ ds, Tells s [.watch] ds t := by
  have hrun := isRunning_of_isListening hl
  unfold watchGate at h
  -- There is news, or whoever holds the gate has gone, or nothing has come about.
  split at h
  · cases h
  · split at h
    · cases h
      exact tells_observe hs hrun { s.gate with isNew := false } hrun rfl
    · split at h
      · cases h
      · cases h
        have hquiet : s.Quiet { s with gateLive := false } := ⟨rfl, rfl, rfl, rfl, rfl⟩
        exact ⟨[], hquiet.tells hs rfl⟩

/-- The first report is taken, and the worker that it frees gets another task. -/
theorem tells_report {c : WorkReport} (hs : s.Sound) (hl : s.isListening)
    (hc : s.reports.head? = some c) (h : s.nextReport = some t) :
    ∃ ds, Tells s [.report c] ds t := by
  have hrun := isRunning_of_isListening hl
  unfold nextReport at h
  split at h
  · cases h
  -- The report taken is the one at the front.
  · rename_i c' rest hreports
    cases h
    obtain rfl : c' = c := by simpa [hreports] using hc
    obtain ⟨ts, hpath⟩ := Dispatcher.takeReport_path (hreports ▸ hs.carried hrun)
    refine ⟨_, tells_handler hs hrun hrun rfl rfl hpath rfl (.hands ts) hreports rfl rfl ?_⟩
    exact (List.append_nil _).symm

/-- A stop begins: the queue is rejected. -/
theorem tells_beginStop {s' : Service ω} (hs : s.Sound) (hrun : s.isRunning)
    (hcore : s'.core = s.core) (hout : s'.outputs = s.outputs) (hrep : s'.reports = s.reports)
    (hcommands : s'.inChannel = s.inChannel) : ∃ ds, Tells s [.command] ds s'.beginStop := by
  have hpath := Dispatcher.rejectQueue_path s.core .shuttingDown
  have hfollow : FollowUp (s.core.queue.map fun t => (Deed.drop t .shuttingDown : Deed ω)) :=
    .drops _ _
  refine ⟨_, tells_withCore hs hrun rfl hcore hout hpath hfollow.notLast ?_ hfollow.reports rfl ?_⟩
  -- A rejected queue takes in neither a report nor a request.
  · rw [hfollow.reports]
    exact hrep.symm
  · rw [hfollow.requests]
    exact hcommands.trans (List.append_nil _).symm

/-- A request is accepted, and tasks go out; a stop rejects what is queued, whether it was asked for
or comes from the last handle being dropped. -/
theorem tells_command (hs : s.Sound) (hphase : s.phase = .serving)
    (h : s.takeCommand = some t) : ∃ ds, Tells s [.command] ds t := by
  have hrun : s.isRunning := by simp [isRunning, hphase]
  unfold takeCommand at h
  -- A request, a stop, or an empty channel to which nobody holds a handle.
  split at h
  · rename_i job caller rest hcommands
    cases h
    obtain ⟨ts, hpath⟩ := Dispatcher.accept_path (hs.carried hrun).ready job caller
    refine ⟨_, tells_handler hs hrun hrun rfl rfl hpath rfl (.hands ts) rfl rfl rfl ?_⟩
    simp [inChannel, hcommands, Command.request?, Deed.request?, requested, Move.request?]
  · rename_i caller rest hcommands
    cases h
    refine tells_beginStop hs hrun rfl rfl rfl ?_
    show rest.filterMap Command.request? = s.commands.filterMap Command.request?
    rw [hcommands]
    rfl
  · split at h
    · cases h
      exact tells_beginStop hs hrun rfl rfl rfl rfl
    · cases h

/-! ## Callers -/

/-- A move that is one deed, as far as the story goes. -/
theorem Tells.of_story {m : Move ω} {x : Deed ω} (hx : Dispatcher.Does s.story x t.story)
    (hsound : t.Sound) (hreports : x.report?.toList = reported [m])
    (hrequests : x.request?.toList ++ t.inChannel = s.inChannel ++ requested [m])
    (hfiled : t.isRunning → s.reports ++ filed [m] = reported [m] ++ t.reports)
    (hstaged : Staged s.isRunning t.isRunning [x]) : Tells s [m] [x] t where
  path := hx.path
  sound := hsound
  reports := (filterMap_singleton _ x).trans hreports
  requests := by rw [filterMap_singleton, hrequests]
  fifo := hfiled
  staged := hstaged

/-- A command goes to the end of the channel.  Nothing of it is seen by the dispatcher until the
loop takes it. -/
theorem tells_post {m : Move ω} {c : Command ω} (hs : s.Sound) (hended : ¬ s.hasEnded)
    (hreq : requested [m] = c.request?.toList) (hrep : reported [m] = []) (hfile : filed [m] = []) :
    Tells s [m] [] (s.post c) := by
  refine Tells.quiet (t := { s with commands := s.commands ++ [c] }) ?_ (.rouse _ _)
  refine ⟨.nil, ⟨hs.collected, hs.carried, hs.departed, fun h => absurd h hended⟩, hrep.symm, ?_,
    fun _ => by rw [hfile, hrep]; exact List.append_nil _, .nil id⟩
  show (s.commands ++ [c]).filterMap Command.request? = s.inChannel ++ requested [m]
  rw [hreq, filterMap_snoc]
  rfl

/-- A request sent after the end is a deed as well, so that it has its place in the order of
answers. -/
theorem tells_request (hs : s.Sound) (job : Job) (w : ω) :
    ∃ ds, Tells s [.request job w] ds (s.request job w) := by
  unfold request
  split
  · rename_i hended
    have hnot : ¬ s.isRunning := fun hrun => not_hasEnded_of_isRunning hrun hended
    -- The request overtakes nobody: the channel is empty once the loop has ended.
    have hnone : s.inChannel = [] := by rw [inChannel, hs.quiet hended]; rfl
    -- A refusal is an output of its own, and for the story an answer.
    have hstory : (s.emit [.effect (.answered w (.error .shuttingDown))]).story =
        s.story.note [.answered w (.error .shuttingDown)] := by
      unfold story emit Dispatcher.note
      dsimp only
      rw [List.filterMap_append]
      rfl
    refine ⟨[.refuse job w], Tells.of_story (hstory ▸ .late _ job w) ?_ rfl ?_ (absurd · hnot) ?_⟩
    · exact ⟨hs.collected, hs.carried, hs.departed, hs.quiet⟩
    · show [(job, w)] ++ s.inChannel = s.inChannel ++ [(job, w)]
      rw [hnone]
      rfl
    · exact .of_last hnot (by simp [Deed.isLast])
  · rename_i hended
    exact ⟨[], tells_post hs hended rfl rfl rfl⟩

/-- A request to stop is answered at once after the end, and is posted before. -/
theorem tells_stop (hs : s.Sound) (w : ω) : ∃ ds, Tells s [.stop w] ds (s.stop w) := by
  unfold stop
  split
  · exact ⟨[], (Quiet.emit s _ rfl).tells hs rfl⟩
  · rename_i hended
    exact ⟨[], tells_post hs hended rfl rfl rfl⟩

/-! ## Workers -/

/-- A worker that changes keeps its task. -/
theorem map_held_setWorker (pool : Pool) (k : Nat) (w : Worker) :
    (pool.setWorker k w).slots.map Slot.held = pool.slots.map Slot.held := by
  refine List.ext_getElem? fun j => ?_
  unfold Pool.setWorker
  rw [List.getElem?_map, List.getElem?_map, List.getElem?_modify]
  by_cases hj : k = j
  · cases pool.slots[j]? <;> simp [hj]
  · simp [hj]

/-- What the pool holds can be told from its slots one by one. -/
theorem held_of_map {pool pool' : Pool}
    (h : pool'.slots.map Slot.held = pool.slots.map Slot.held) : pool'.held = pool.held := by
  have hheld : ∀ p : Pool, p.held = (p.slots.map Slot.held).filterMap id := by
    intro p
    -- The tasks noted are read off the slots, whatever their workers are at.
    rw [List.filterMap_map]
    rfl
  rw [hheld, hheld, h]

theorem held_setWorker (pool : Pool) (k : Nat) (w : Worker) :
    (pool.setWorker k w).held = pool.held := held_of_map (map_held_setWorker pool k w)

/-- A worker goes on with its work, or is told to.  The deed is that of the pool as a whole, for the
dispatcher's ledger does not see which worker it is. -/
theorem tells_work {s' : Service ω} {m : Move ω} {pool : Pool} {k : Nat} {w : Worker}
    (hs : s.Sound) (hpool : s.core.pool = some pool)
    (hcore : s'.core = { s.core with pool := some (pool.setWorker k w) })
    (hout : s'.outputs.filterMap Output.effect? = s.outputs.filterMap Output.effect?)
    (hcommands : s'.commands = s.commands) (hrun : s'.isRunning = s.isRunning)
    (hended : s'.hasEnded → s.hasEnded)
    (hcarried : s.isRunning → Carried (pool.setWorker k w).slots s'.reports)
    (hreq : requested [m] = []) (hrep : reported [m] = [])
    (hfiled : s.isRunning → s.reports ++ filed [m] = s'.reports) : Tells s [m] [.work] s' := by
  have hstory : s'.story = { s.story with pool := some (pool.setWorker k w) } := by
    unfold story
    rw [hout, hcore]
  -- Soundness is about the slots and about who reports; the worker changes neither wrongly.
  refine Tells.of_story (hstory ▸ .worked hpool (held_setWorker pool k w)) ?_ hrep.symm ?_ ?_ ?_
  · refine ⟨?_, ?_, ?_, ?_⟩
    · rw [hcore]
      exact hs.collected
    · rw [hrun, hcore]
      exact hcarried
    · rw [hrun, hcore]
      exact hs.departed
    · rw [hcommands]
      exact fun h => hs.quiet (hended h)
  · rw [inChannel, hcommands, hreq]
    exact (List.append_nil _).symm
  · rw [hrun, hrep]
    exact hfiled
  · rw [hrun]
    by_cases h : s.isRunning
    · exact .of_running h (by simp)
    · exact .of_last h (by simp [Deed.isLast])

theorem setWorker_slots {pool : Pool} {k : Nat} {sl : Slot} (h : pool.slots[k]? = some sl)
    (w : Worker) : (pool.setWorker k w).slots = pool.slots.set k { sl with worker := w } :=
  modify_eq_set_of_getElem? h _

/-- Taking a message may make room for the loop, and a worker that takes its stop may be the last
one. -/
theorem tells_take {k : Nat} (hs : s.Sound) (h : s.workerTakes k = some t) :
    Tells s [.take k] [.work] t := by
  -- The loop may be roused, as there is room, or as everyone has gone.
  obtain ⟨pool, slot, w, hpool, hslot, htake, rfl⟩ := exists_of_workerTakes h
  have hwork : Tells s [.take k] [.work] (s.withPool (pool.setWorker k w)) := by
    refine tells_work hs hpool rfl rfl rfl rfl id (fun hrun => ?_) rfl rfl fun _ => List.append_nil _
    rw [setWorker_slots hslot]
    exact ((Dispatcher.slots_of_pool hpool ▸ hs.carried hrun).take hslot htake).1
  have hroused := hwork.quiet (.rouse _ (.room k))
  split
  · exact hroused
  · exact hroused.quiet (.rouse _ .farewell)

/-- The report goes to the end of those that are on their way. -/
theorem tells_finish {k : Nat} {task : Task} {ending : Ending} (hs : s.Sound)
    (hrenders : s.renders k task) (h : s.workerFinishes k ending = some t) :
    Tells s [.finish k task ending] [.work] t := by
  obtain ⟨pool, slot, w, c, hpool, hslot, hfinish, rfl⟩ := exists_of_workerFinishes h
  -- The report is about the task that the worker has been at.
  have hc := report_of_finish (activity_of_renders hrenders hpool hslot) hfinish
  split
  -- A report to a loop that has ended is lost.
  · rename_i hended
    have hnot : ¬ s.isRunning := fun hrun => not_hasEnded_of_isRunning hrun hended
    -- Otherwise it is filed, and the loop is roused.
    exact tells_work hs hpool rfl rfl rfl rfl id (absurd · hnot) rfl rfl (absurd · hnot)
  · refine Tells.quiet (t := { s.withPool (pool.setWorker k w) with
      reports := s.reports ++ [c] }) ?_ (.rouse _ _)
    refine tells_work hs hpool rfl rfl rfl rfl id (fun hrun => ?_) rfl rfl fun _ => ?_
    · rw [setWorker_slots hslot]
      exact (Dispatcher.slots_of_pool hpool ▸ hs.carried hrun).finish hslot hfinish
    · rw [hc]
      rfl

/-! ## The end -/

/-- Commands that come too late are refused one by one.  Each refusal is a deed of its own, so a
path is built from the end of the list. -/
theorem refuse_path (d : Dispatcher ω) (rs : List (Job × ω)) :
    d.Path (rs.map fun r => .refuse r.1 r.2)
      (d.note (rs.map fun r => .answered r.2 (.error .shuttingDown))) := by
  induction rs generalizing d with
  | nil =>
      have hnote : d.note [] = d := by simp [Dispatcher.note]
      show d.Path [] (d.note [])
      rw [hnote]
      exact .nil
  | cons r rest ih =>
      -- The first refusal is noted, and then the others.
      have hnote : d.note ((r :: rest).map fun r => .answered r.2 (.error .shuttingDown)) =
          (d.note [.answered r.2 (.error .shuttingDown)]).note
            (rest.map fun r => .answered r.2 (.error .shuttingDown)) := by
        simp [Dispatcher.note]
      rw [hnote]
      exact Dispatcher.Does.cons (.late d r.1 r.2) (ih _)

/-- The loop gives up who still waits.  From here on the loop takes in nothing more. -/
theorem tells_leave (hs : s.Sound) : Tells s [.leave] [.clear .shuttingDown] s.leave where
  path := by
    have hdoes : Dispatcher.Does s.core (.clear .shuttingDown) (s.core.rejectPending .shuttingDown) :=
      .cleared _ _
    exact path_withCore (s := { s with phase := .dismissing 0 }) hs.collected hdoes.path
  sound := ⟨rfl, fun h => (nomatch h), fun _ => rfl, fun h => (nomatch h)⟩
  reports := rfl
  requests := (List.append_nil _).symm
  fifo := fun h => (nomatch h)
  staged := .of_last (by simp [isRunning, leave, withCore, collect]) (by simp [Deed.isLast])

/-- The loop ends.  Commands that are still in the channel are refused in their order. -/
theorem tells_end {m : Move ω} (hs : s.Sound) (hrun : ¬ s.isRunning) (hm : m.isSilent) :
    Tells s [m] (s.inChannel.map fun r => .refuse r.1 r.2) s.finish where
  path := by
    -- What is put out at the end is refusals, then the answers to stops, which are not of the
    -- story.
    have hstory : s.finish.story =
        s.story.note (s.inChannel.map fun r => .answered r.2 (.error .shuttingDown)) := by
      unfold story finish emit Dispatcher.note
      dsimp only
      rw [List.filterMap_append, List.filterMap_append, inChannel, List.filterMap_map,
        FollowUp.filterMap_map_eq_nil (fun _ => rfl), List.append_nil]
      congr 2
      exact congrFun List.filterMap_eq_map _
    rw [hstory]
    exact refuse_path s.story s.inChannel
  sound := ⟨hs.collected, fun h => (nomatch h), fun _ => hs.departed hrun, fun _ => rfl⟩
  reports := by
    rw [(m.nothing_of_isSilent hm).2.1]
    exact FollowUp.filterMap_map_eq_nil (fun _ => rfl) _
  requests := by
    rw [(m.nothing_of_isSilent hm).1, List.filterMap_map]
    exact congrArg (· ++ []) List.filterMap_some
  fifo := fun h => (nomatch h)
  staged := .of_last (by simp [isRunning, finish, emit]) (List.forall_mem_map.mpr fun _ _ => rfl)

/-- Going on to another phase once the loop has stopped. -/
theorem tells_phase {m : Move ω} (hs : s.Sound) (hrun : ¬ s.isRunning) {phase : Phase}
    (hphase : ¬ ({ s with phase := phase } : Service ω).isRunning) (hended : phase ≠ .ended)
    (hm : m.isSilent) : Tells s [m] [] { s with phase := phase } where
  path := .nil
  sound := {
    collected := hs.collected
    carried := fun h => absurd h hphase
    departed := fun _ => hs.departed hrun
    quiet := fun h => absurd ((hasEnded_iff _).mp h) hended }
  reports := (m.nothing_of_isSilent hm).2.1.symm
  requests := by rw [(m.nothing_of_isSilent hm).1]; exact (List.append_nil _).symm
  fifo := fun h => absurd h hphase
  staged := .nil fun h => absurd h hphase

/-- The loop goes on to the next worker in any case, but only a worker that still listens is sent
the message, and then the pool has changed. -/
theorem tells_dismiss {k : Nat} (hs : s.Sound) (hphase : s.phase = .dismissing k)
    (h : s.dismiss k = some t) : ∃ ds, Tells s [.dismiss] ds t := by
  have hrun : ¬ s.isRunning := by simp [isRunning, hphase]
  unfold dismiss at h
  split at h
  · cases h
    exact ⟨_, tells_end hs hrun rfl⟩
  · rename_i pool hpool
    -- There is no worker with this number: all have been told.
    split at h
    · cases h
      exact ⟨[], tells_phase hs hrun nofun nofun rfl⟩
    -- The worker has left already, or its box is full, or it gets the message.
    · rename_i w hw
      split at h
      · cases h
        exact ⟨[], tells_phase hs hrun nofun nofun rfl⟩
      · split at h
        · cases h
        · -- The message is in the box; the task that the pool has noted stays noted.
          have hwork : Tells s [.dismiss] [.work]
              { s.withPool (pool.setWorker k { w with inbox := some .stop }) with
                phase := .dismissing (k + 1) } := by
            refine tells_work hs hpool rfl rfl rfl ?_ nofun (absurd · hrun) rfl rfl (absurd · hrun)
            simp [isRunning, hphase]
          cases h
          split
          · exact ⟨_, hwork.quiet (.emit _ _ rfl)⟩
          · exact ⟨_, hwork⟩

/-! ## Every run -/

/-- **A move is a path of deeds.**  By the moves.  There are those of callers, of workers, of the
clock and of the loop, and for each a lemma above. -/
theorem exists_tells_of_move {m : Move ω} (hs : s.Sound) (h : s.move m = some t) :
    ∃ ds, Tells s [m] ds t := by
  -- Callers.
  cases m with
  | request job w =>
      obtain ⟨-, rfl⟩ := Option.ite_some_none_eq_some.mp h
      exact tells_request hs job w
  | stop w =>
      obtain ⟨-, rfl⟩ := Option.ite_some_none_eq_some.mp h
      exact tells_stop hs w
  | share =>
      obtain ⟨-, rfl⟩ := Option.ite_some_none_eq_some.mp h
      have hquiet : s.Quiet s.share := ⟨rfl, rfl, rfl, rfl, rfl⟩
      exact ⟨[], hquiet.tells hs rfl⟩
  | unshare =>
      obtain ⟨-, rfl⟩ := Option.ite_some_none_eq_some.mp h
      exact ⟨[], (Quiet.unshare s).tells hs rfl⟩
  | setGate state =>
      obtain ⟨-, rfl⟩ := Option.ite_some_none_eq_some.mp h
      exact ⟨[], (Quiet.setGate s _).tells hs rfl⟩
  | releaseGate =>
      obtain ⟨-, rfl⟩ := Option.ite_some_none_eq_some.mp h
      exact ⟨[], (Quiet.setGate s _).tells hs rfl⟩
  -- Workers and the clock.
  | take k => exact ⟨_, tells_take hs h⟩
  | finish k task ending =>
      obtain ⟨hrenders, hfinish⟩ := Option.ite_none_right_eq_some.mp h
      exact ⟨_, tells_finish hs hrenders hfinish⟩
  | pass millis =>
      cases h
      have hquiet : s.Quiet { s with clock := s.clock + millis } := ⟨rfl, rfl, rfl, rfl, rfl⟩
      exact ⟨[], hquiet.tells hs rfl⟩
  -- The loop.
  | begin =>
      obtain ⟨hphase, rfl⟩ := Option.ite_some_none_eq_some.mp h
      exact tells_begin hs hphase
  | report c =>
      obtain ⟨⟨hl, hc⟩, hmap⟩ := Option.ite_none_right_eq_some.mp h
      obtain ⟨u, hu, rfl⟩ := Option.map_eq_some_iff.mp hmap
      exact (tells_report hs hl hc hu).imp fun _ hds => hds.quiet (.afterInput u true)
  | watch =>
      obtain ⟨hl, hmap⟩ := Option.ite_none_right_eq_some.mp h
      obtain ⟨u, hu, rfl⟩ := Option.map_eq_some_iff.mp hmap
      exact (tells_watch hs hl hu).imp fun _ hds => hds.quiet (.afterInput u false)
  | command =>
      obtain ⟨hphase, hmap⟩ := Option.ite_none_right_eq_some.mp h
      obtain ⟨u, hu, rfl⟩ := Option.map_eq_some_iff.mp hmap
      exact (tells_command hs hphase hu).imp fun _ hds => hds.quiet (.afterInput u false)
  | leave =>
      simp only [move] at h
      split at h
      · split at h
        · cases h
          exact ⟨_, tells_leave hs⟩
        · obtain ⟨-, rfl⟩ := Option.ite_some_none_eq_some.mp h
          exact ⟨_, (tells_leave hs).quiet (.afterInput _ false)⟩
      · cases h
  | dismiss =>
      simp only [move] at h
      split at h
      · exact tells_dismiss hs ‹_› h
      · cases h
  | farewell =>
      simp only [move] at h
      split at h
      · rename_i hphase
        obtain ⟨-, rfl⟩ := Option.ite_some_none_eq_some.mp h
        exact ⟨_, tells_end hs (by simp [isRunning, hphase]) rfl⟩
      · cases h
  | rest =>
      cases h
      exact ⟨[], (Quiet.rest s).tells hs rfl⟩
  | postpone =>
      cases h
      exact ⟨[], (Quiet.emit s _ rfl).tells hs rfl⟩

/-- What is reported by now has been reported before, or is filed by this move.  Reports are filed
by ends of invocations only. -/
theorem reports_of_move {m : Move ω} (hs : s.Sound) (h : s.move m = some t) (hrun : t.isRunning) :
    ∀ c ∈ t.reports, c ∈ s.reports ∨ m.filed? = some c := by
  obtain ⟨ds, hds⟩ := exists_tells_of_move hs h
  intro c hc
  -- Reports are read in the order in which they have been filed.
  have hmem : c ∈ s.reports ++ filed [m] :=
    hds.fifo hrun ▸ List.mem_append_right (reported [m]) hc
  refine (List.mem_append.mp hmem).imp_right fun hnew => ?_
  rw [filed, filterMap_singleton] at hnew
  exact Option.mem_toList.mp hnew

/-- **A run is a path of deeds.**  The paths of its moves are joined. -/
theorem exists_tells_of_play (hs : s.Sound) (h : s.play τ = some t) : ∃ ds, Tells s τ ds t :=
  play_induction (P := fun τ t => ∃ ds, Tells s τ ds t) ⟨[], tells_nil hs⟩
    (fun τ m t u _ ⟨ds, hds⟩ hmove => by
      obtain ⟨es, hes⟩ := exists_tells_of_move hds.sound hmove
      exact ⟨ds ++ es, hds.append hes⟩) h

end AvatarPool.Service
