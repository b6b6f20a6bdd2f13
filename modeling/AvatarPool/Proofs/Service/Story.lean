import AvatarPool.Proofs.Dispatch.Deeds
import AvatarPool.Proofs.Service.Moves

/-! # The story of a run

`Service.story` is the dispatcher with all effects since the start, as the service has written them
down.  `Tells` says how a run continues it: by a path of deeds that takes the requests in the order
they were sent and the reports in the order they were read; a request that is on no path yet is
still in the channel.

Effects are collected after every handler, so the dispatcher in a service has none between two
moves, and what it has done is found in the outputs.  Looking at the story instead of the dispatcher
lets the lemmas about its deeds, which speak of effects, be used for whole runs. -/

namespace AvatarPool

variable {ω : Type}

/-- The effect that an output stands for. -/
def Output.effect? : Output ω → Option (Effect ω)
  | .effect e => some e
  | _ => none

/-- The request that a move sends. -/
def Move.request? : Move ω → Option (Job × ω)
  | .request job caller => some (job, caller)
  | _ => none

/-- The report that a move reads. -/
def Move.report? : Move ω → Option WorkReport
  | .report c => some c
  | _ => none

/-- The report that a move files. -/
def Move.filed? : Move ω → Option WorkReport
  | .finish k task ending => some ⟨k, task.fingerprint, ending.outcome task.fingerprint⟩
  | _ => none

/-- The requests sent in a run, with their callers. -/
def requested (τ : List (Move ω)) : List (Job × ω) := τ.filterMap Move.request?

/-- The reports read in a run. -/
def reported (τ : List (Move ω)) : List WorkReport := τ.filterMap Move.report?

/-- The reports filed in a run. -/
def filed (τ : List (Move ω)) : List WorkReport := τ.filterMap Move.filed?

theorem requested_append (τ τ' : List (Move ω)) :
    requested (τ ++ τ') = requested τ ++ requested τ' :=
  List.filterMap_append

theorem reported_append (τ τ' : List (Move ω)) : reported (τ ++ τ') = reported τ ++ reported τ' :=
  List.filterMap_append

theorem filed_append (τ τ' : List (Move ω)) : filed (τ ++ τ') = filed τ ++ filed τ' :=
  List.filterMap_append

/-- Whether a move neither sends a request nor files or reads a report. -/
def Move.isSilent : Move ω → Bool
  | .request _ _ | .report _ | .finish _ _ _ => false
  | _ => true

/-- There is nothing of it in the three records. -/
theorem Move.nothing_of_isSilent (m : Move ω) (h : m.isSilent) :
    requested [m] = [] ∧ reported [m] = [] ∧ filed [m] = [] := by
  cases m with
  | request | report | finish => cases h
  | _ => exact ⟨rfl, rfl, rfl⟩

/-! ## Stages -/

/-- Deeds from `before` to `after`, each of which says whether the loop runs: it runs until it
rejects everyone who waits, and the dispatcher does little afterwards. -/
def Staged (before after : Prop) (ds : List (Deed ω)) : Prop :=
  (after → before) ∧ ∃ es fs, ds = es ++ fs ∧ (∀ why, .clear why ∉ es) ∧ (∀ x ∈ fs, x.isLast) ∧
    (¬ before → es = []) ∧ (after → fs = [])

namespace Staged

variable {p q r : Prop} {ds ds' : List (Deed ω)}

theorem of_running (hp : p) (h : ∀ why, .clear why ∉ ds) : Staged p q ds :=
  ⟨fun _ => hp, ds, [], by simp, h, by simp, absurd hp, fun _ => rfl⟩

theorem of_last (hq : ¬ q) (h : ∀ x ∈ ds, x.isLast) : Staged p q ds :=
  ⟨fun hq' => absurd hq' hq, [], ds, rfl, by simp, h, fun _ => rfl, fun hq' => absurd hq' hq⟩

theorem nil (h : q → p) : Staged p q ([] : List (Deed ω)) :=
  ⟨h, [], [], rfl, by simp, by simp, fun _ => rfl, fun _ => rfl⟩

/-- The division of the whole is that of the first part if the loop does not run at the joint, and
of the second part otherwise. -/
theorem append (h : Staged p q ds) (h' : Staged q r ds') : Staged p r (ds ++ ds') := by
  obtain ⟨hqp, es, fs, rfl, hclear, hlast, hes, hfs⟩ := h
  obtain ⟨hrq, es', fs', rfl, hclear', hlast', hes', hfs'⟩ := h'
  refine ⟨hqp ∘ hrq, ?_⟩
  -- A loop that runs at the joint has done no last deed; one that does not does only such.
  by_cases hq : q
  · refine ⟨es ++ es', fs', by simp [hfs hq], fun why hmem => ?_, hlast', ?_, hfs'⟩
    · exact (List.mem_append.mp hmem).elim (hclear why) (hclear' why)
    · exact fun hp => absurd (hqp hq) hp
  · refine ⟨es, fs ++ fs', by simp [hes' hq], hclear, fun x hx => ?_, hes, ?_⟩
    · exact (List.mem_append.mp hx).elim (hlast x) (hlast' x)
    · exact fun hr => absurd (hrq hr) hq

/-- While the loop runs nobody has been rejected for waiting. -/
theorem unclear (h : Staged p q ds) (hq : q) (why : Failure) : .clear why ∉ ds := by
  obtain ⟨-, es, fs, rfl, hclear, -, -, hfs⟩ := h
  rw [hfs hq, List.append_nil]
  exact hclear why

end Staged

namespace Service

variable {s t u : Service ω} {τ τ' : List (Move ω)} {ds ds' : List (Deed ω)}

/-! ## The story so far -/

/-- The dispatcher with all effects since the start. -/
def story (s : Service ω) : Dispatcher ω :=
  { s.core with effects := s.outputs.filterMap Output.effect? }

/-- The requests in the channel. -/
def inChannel (s : Service ω) : List (Job × ω) := s.commands.filterMap Command.request?

/-- Whatever is picked from the outputs has been picked from the effects of the story. -/
theorem filterMap_outputs {α : Type} {f : Output ω → Option α} {g : Effect ω → Option α}
    (h : ∀ o, f o = o.effect?.bind g) (s : Service ω) :
    s.outputs.filterMap f = s.story.effects.filterMap g := by
  unfold story
  rw [List.filterMap_filterMap]
  exact List.filterMap_congr fun o _ => h o

theorem effects_collect (es : List (Effect ω)) :
    (es.map Output.effect).filterMap Output.effect? = es := by
  rw [List.filterMap_map]
  exact List.filterMap_some

/-- What the handler has done is added to the story. -/
theorem story_withCore (s : Service ω) (f : Dispatcher ω → Dispatcher ω) :
    (s.withCore f).story = (f s.core).after (s.outputs.filterMap Output.effect?) := by
  unfold story withCore collect Dispatcher.after
  dsimp only
  rw [List.filterMap_append, effects_collect]

/-- A handler's path continues the story. -/
theorem path_withCore {f : Dispatcher ω → Dispatcher ω} (hs : s.core.effects = [])
    (h : Dispatcher.Path s.core ds (f s.core)) :
    Dispatcher.Path s.story ds (s.withCore f).story := by
  have hstory : s.story = s.core.after (s.outputs.filterMap Output.effect?) := by
    unfold story Dispatcher.after
    rw [hs, List.append_nil]
  rw [story_withCore, hstory]
  exact h.after _

theorem hasEnded_iff (s : Service ω) : s.hasEnded ↔ s.phase = .ended := by
  simp [hasEnded]

/-- What holds between two moves: effects have been collected; while the loop runs every task is in
its place, afterwards nobody waits, and in the end no command is left. -/
structure Sound (s : Service ω) : Prop where
  collected : s.core.effects = []
  carried : s.isRunning → Carried s.core.slots s.reports
  departed : ¬ s.isRunning → s.core.pending.entries = []
  quiet : s.hasEnded → s.commands = []

/-- A fresh service is sound. -/
theorem sound_ofConfig (config : PoolSettings) (gate : Gate) :
    (ofConfig config gate : Service ω).Sound where
  collected := rfl
  carried _ := Carried.fresh 0
  departed h := absurd rfl h
  quiet h := nomatch h

/-- **The deeds of a run**: the story goes on by them, requests are taken as they were sent, and
reports as they are read, which is as they were filed. -/
structure Tells (s : Service ω) (τ : List (Move ω)) (ds : List (Deed ω)) (t : Service ω) : Prop where
  path : Dispatcher.Path s.story ds t.story
  sound : t.Sound
  reports : ds.filterMap Deed.report? = reported τ
  requests : ds.filterMap Deed.request? ++ t.inChannel = s.inChannel ++ requested τ
  fifo : t.isRunning → s.reports ++ filed τ = reported τ ++ t.reports
  staged : Staged s.isRunning t.isRunning ds

/-- Runs are joined by joining their paths, and what the first one leaves in the channel and unread
the second one takes from there. -/
theorem Tells.append (h : Tells s τ ds t) (h' : Tells t τ' ds' u) :
    Tells s (τ ++ τ') (ds ++ ds') u where
  path := h.path.append h'.path
  sound := h'.sound
  reports := by rw [List.filterMap_append, h.reports, h'.reports, reported_append]
  requests := by
    rw [List.filterMap_append, List.append_assoc, h'.requests, ← List.append_assoc, h.requests,
      List.append_assoc, requested_append]
  fifo := fun hrun => by
    rw [filed_append, ← List.append_assoc, h.fifo (h'.staged.1 hrun), List.append_assoc,
      h'.fifo hrun, reported_append, List.append_assoc]
  staged := h.staged.append h'.staged

/-! ## What the dispatcher does not notice -/

/-- Nothing has changed but what the control loop keeps for itself. -/
structure Quiet (s t : Service ω) : Prop where
  core : t.core = s.core
  effects : t.outputs.filterMap Output.effect? = s.outputs.filterMap Output.effect?
  commands : t.commands = s.commands
  reports : t.reports = s.reports
  phase : t.phase = s.phase

namespace Quiet

theorem refl (s : Service ω) : s.Quiet s := ⟨rfl, rfl, rfl, rfl, rfl⟩

/-- Changes that are not noticed can follow each other. -/
theorem trans (h : s.Quiet t) (h' : t.Quiet u) : s.Quiet u where
  core := h'.core.trans h.core
  effects := h'.effects.trans h.effects
  commands := h'.commands.trans h.commands
  reports := h'.reports.trans h.reports
  phase := h'.phase.trans h.phase

/-- Outputs that are not effects are not part of the story. -/
theorem emit (s : Service ω) (os : List (Output ω)) (h : os.filterMap Output.effect? = []) :
    s.Quiet (s.emit os) := by
  refine ⟨rfl, ?_, rfl, rfl, rfl⟩
  show (s.outputs ++ os).filterMap Output.effect? = _
  rw [List.filterMap_append, h, List.append_nil]

/-- Rousing the loop is only noted. -/
theorem rouse (s : Service ω) (a : Alert) : s.Quiet (s.rouse a) := by
  unfold Service.rouse
  split
  · have herase : s.Quiet { s with alerts := s.alerts.erase a } := ⟨rfl, rfl, rfl, rfl, rfl⟩
    exact herase.trans (emit _ _ rfl)
  · exact refl s

theorem listen (s : Service ω) (alerts : List Alert) : s.Quiet (s.listen alerts) :=
  ⟨rfl, rfl, rfl, rfl, rfl⟩

theorem afterInput (s : Service ω) (isReport : Bool) : s.Quiet (s.afterInput isReport) := by
  cases isReport <;> exact ⟨rfl, rfl, rfl, rfl, rfl⟩

/-- The number of handles is not known to the dispatcher. -/
theorem unshare (s : Service ω) : s.Quiet s.unshare := by
  have hless : s.Quiet { s with handles := s.handles - 1 } := ⟨rfl, rfl, rfl, rfl, rfl⟩
  unfold Service.unshare
  dsimp only
  split
  · exact hless.trans (rouse _ .commands)
  · exact hless

/-- The gate is not known to the dispatcher until the loop looks at it. -/
theorem setGate (s : Service ω) (gate : Gate) : s.Quiet (s.setGate gate) := by
  unfold Service.setGate
  split
  · exact refl s
  · have hset : s.Quiet { s with gate := gate } := ⟨rfl, rfl, rfl, rfl, rfl⟩
    exact hset.trans (rouse _ .gate)

/-- Resting only arms alerts. -/
theorem rest (s : Service ω) : s.Quiet s.rest := by
  unfold Service.rest
  dsimp only
  split
  · exact listen s _
  · exact listen s _
  · exact listen s _
  · exact listen s _
  · exact refl s

theorem story_eq (h : s.Quiet t) : t.story = s.story := by
  unfold story
  rw [h.core, h.effects]

theorem isRunning_eq (h : s.Quiet t) : t.isRunning = s.isRunning := by
  unfold isRunning
  rw [h.phase]

/-- Soundness does not look at what has changed. -/
theorem sound (h : s.Quiet t) (hs : s.Sound) : t.Sound where
  collected := by rw [h.core]; exact hs.collected
  carried := by rw [h.isRunning_eq, h.core, h.reports]; exact hs.carried
  departed := by rw [h.isRunning_eq, h.core]; exact hs.departed
  quiet := by rw [hasEnded, h.phase, h.commands]; exact hs.quiet

end Quiet

/-- A run stays a path of the same deeds if an unnoticed change comes after it. -/
theorem Tells.quiet (h : Tells s τ ds t) (hq : t.Quiet u) : Tells s τ ds u where
  path := hq.story_eq ▸ h.path
  sound := hq.sound h.sound
  reports := h.reports
  requests := by rw [inChannel, hq.commands]; exact h.requests
  fifo := by rw [hq.isRunning_eq, hq.reports]; exact h.fifo
  staged := hq.isRunning_eq ▸ h.staged

theorem tells_nil (hs : s.Sound) : Tells s [] [] s where
  path := .nil
  sound := hs
  reports := rfl
  requests := (List.append_nil _).symm
  fifo := fun _ => List.append_nil _
  staged := .nil id

/-- A silent move may go unnoticed. -/
theorem Quiet.tells (h : s.Quiet t) (hs : s.Sound) {m : Move ω} (hm : m.isSilent) :
    Tells s [m] [] t := by
  obtain ⟨hreq, hrep, hfile⟩ := m.nothing_of_isSilent hm
  have hnil := (tells_nil hs).quiet h
  refine ⟨hnil.path, hnil.sound, hrep.symm, ?_, ?_, hnil.staged⟩
  · rw [hreq]
    exact hnil.requests
  · rw [hfile, hrep]
    exact hnil.fifo

end Service

end AvatarPool
