import AvatarPool.Proofs.Service.Acts
import AvatarPool.Proofs.Service.Purity
import AvatarPool.Session.Steps

/-! # A gate that is lost

Who holds the gate can go away before it has settled: a signal is dropped, or the engine's start
breaks off, and then nobody keeps the bound on the wait either.  The gate stays pending for good.
The loop notices that it will not change, and goes on with the state it has last seen; so nothing is
handed out, and nothing is refused, and whoever asks waits until the service stops.

What cannot happen is shown by one invariant, `Unopened`, which is kept by every move that neither
begins a stop nor takes a state of the gate other than pending; and a lost gate yields no other
state.  Whatever then remains of the places in which callers can be is the channel and the table. -/

namespace AvatarPool

/-! ## How a gate is lost -/

/-- **A start that breaks off releases the gate as it is**, whatever bound there is on the wait. -/
theorem Watch.look_of_panicked {w : Watch} (hw : w.isWaiting) (now : Nat) (g : Gate) :
    w.look now (some .panicked) g = (.closed, g.release) := by
  cases w with
  | closed => cases hw
  | fresh limit => cases limit <;> rfl
  | bounded | unbounded => rfl

namespace Service

variable {ω : Type} {config : PoolSettings} {gate : Gate} {s t u : Service ω} {m : Move ω}
  {τ τ' : List (Move ω)}

/-- The gate has been lost before it settled. -/
def HasLostGate (s : Service ω) : Prop := s.gate.state = .pending ∧ s.gate.isHeld = false

/-- **Nobody gets a lost gate back.**  Setting it and letting go of it are for who holds it. -/
theorem hasLostGate_of_move (hlost : s.HasLostGate) (h : s.move m = some t) : t.HasLostGate := by
  have haccess := access_of_move h
  have hkept : m.access s.access = (s.gate.state, s.gate.isHeld, (m.access s.access).2.2) := by
    cases m with
    | setGate | releaseGate =>
        -- Who holds the gate is gone.
        obtain ⟨hheld, -⟩ := Option.ite_some_none_eq_some.mp h
        rw [hlost.2] at hheld
        cases hheld
    | _ => rfl
  injection haccess.trans hkept with hstate hrest
  injection hrest with hheld
  exact ⟨hstate.trans hlost.1, hheld.trans hlost.2⟩

theorem hasLostGate_of_play (hlost : s.HasLostGate) (h : s.play τ = some t) : t.HasLostGate :=
  play_induction (P := fun _ t => t.HasLostGate) hlost
    (fun _ _ _ _ _ ih hmove => hasLostGate_of_move ih hmove) h

/-- What is seen is what the gate shows.  This is all the loop can come to know of it. -/
theorem eq_of_mem_seen {state : Readiness} (h : state ∈ s.seen m) : state = s.gate.state := by
  unfold seen at h
  split at h
  · exact List.mem_singleton.mp h
  · split at h
    · exact List.mem_singleton.mp h
    · exact absurd h List.not_mem_nil
  · exact absurd h List.not_mem_nil

/-! ## Until the gate is seen open or failed -/

end Service

/-- The dispatcher has seen nothing of the gate but that it is pending: there are no workers, and
nothing is cached.  This is how a dispatcher begins. -/
structure Dispatcher.Untouched {ω : Type} (d : Dispatcher ω) : Prop where
  readiness : d.readiness = .pending
  pool : d.pool = none
  cache : d.cache = {}

/-- A request waits: nothing is known, and nobody is turned away.  Its task goes to the end of the
queue and stays there, or it joins one that is there. -/
theorem Dispatcher.Untouched.accept {ω : Type} {d : Dispatcher ω} (h : d.Untouched) (job : Job)
    (w : ω) : (d.accept job w).Untouched ∧ (d.accept job w).answered = d.answered := by
  have hnone : d.cache.get? job.fingerprint = none := by rw [h.cache]; rfl
  have hopen : ∀ why, d.readiness ≠ .failed why := fun why => by
    rw [h.readiness]
    exact nofun
  by_cases hk : job.fingerprint ∈ d.pending.keys
  · rw [accept_of_mem hnone hopen hk]
    exact ⟨⟨h.readiness, h.pool, h.cache⟩, rfl⟩
  · -- The gate is closed, so the new task stays in the queue.
    have hclosed : (d.openTask job w).readiness ≠ .ready := by
      show d.readiness ≠ .ready
      rw [h.readiness]
      exact nofun
    rw [accept_of_notMem hnone hopen hk, handOut, if_neg hclosed]
    exact ⟨⟨h.readiness, h.pool, h.cache⟩, (answered_note _ _).trans (List.append_nil _)⟩

namespace Service

variable {ω : Type} {config : PoolSettings} {gate : Gate} {s t u : Service ω} {m : Move ω}
  {τ τ' : List (Move ω)}

/-- No stop has begun, the gate has only been seen pending, and nobody has been told anything. -/
structure Unopened (s : Service ω) : Prop where
  serving : ¬ s.isStopping
  core : s.core.Untouched
  answers : s.answers = []

/-- A service stays unopened as long as the gate is only seen pending and no stop begins.  By the
kinds of acts, most of which cannot occur: there are no workers, so nobody goes on and nobody
reports. -/
theorem unopened_of_move (hs : s.Sound) (h : s.Unopened) (hmove : s.move m = some t)
    (hserve : ¬ t.isStopping) (hseen : ∀ state ∈ s.seen m, state = .pending) : t.Unopened := by
  have hrun := isRunning_of_not_isStopping h.serving
  have htold := answered_of_collected hs.collected
  cases acts_of_move hmove with
  | idle hcore _ hstory =>
      refine ⟨hserve, hcore ▸ h.core, ?_⟩
      rw [answers_eq, hstory (isRunning_of_not_isStopping hserve), ← answers_eq]
      exact h.answers
  | worked hp =>
      rw [h.core.pool] at hp
      cases hp
  | @admitted job w _ _ _ _ hd =>
      obtain ⟨hcore, hanswered⟩ := h.core.accept job w
      refine ⟨hserve, hd.core ▸ ⟨hcore.readiness, hcore.pool, hcore.cache⟩, ?_⟩
      rw [hd.answers, h.answers, hanswered, htold]
      rfl
  | reported _ _ hr =>
      -- Without workers nobody reports.
      have hknown := (hs.carried hrun).known
      rw [hr] at hknown
      have hlt := hknown _ List.mem_cons_self
      simp [Dispatcher.slots, h.core.pool] at hlt
  | @saw state hm _ hd =>
      obtain rfl := hseen state (hm ▸ List.mem_singleton_self state)
      refine ⟨hserve, hd.core ▸ ⟨rfl, h.core.pool, h.core.cache⟩, ?_⟩
      rw [hd.answers, h.answers]
      exact htold
  | stopped _ hstop => exact absurd hstop hserve
  | left _ hleft => exact absurd (isRunning_of_not_isStopping hserve) hleft

/-- **As long as the gate is seen pending and no stop begins, nobody is told anything.** -/
theorem unopened_of_play (h : (ofConfig config gate).play τ = some s) (hserve : ¬ s.isStopping)
    (hseen : ∀ state ∈ (ofConfig config gate).observed τ, state = .pending) : s.Unopened := by
  -- A stop that has not begun by now has not begun earlier, and what is seen only grows.
  refine play_induction (P := fun τ s => ¬ s.isStopping →
    (∀ state ∈ (ofConfig config gate).observed τ, state = .pending) → s.Unopened) ?_ ?_ h hserve hseen
  · exact fun hserve _ => ⟨hserve, ⟨rfl, rfl, rfl⟩, rfl⟩
  · intro τ m s t hplay ih hmove hserve hseen
    obtain ⟨ds, hds⟩ := exists_tells_of_play (sound_ofConfig config gate) hplay
    rw [observed, gather_concat seen hplay hmove] at hseen
    have hbefore := ih (fun hstop => hserve (isStopping_of_move hstop hmove)) fun state hmem =>
      hseen state (List.mem_append_left _ hmem)
    exact unopened_of_move hds.sound hbefore hmove hserve fun state hmem =>
      hseen state (List.mem_append_right _ hmem)

/-- Of a lost gate nothing is seen but that it is pending.  What is taken in the rest of the run is
the state it shows, which has not changed. -/
theorem observed_of_hasLostGate (h : (ofConfig config gate).play τ = some s) (hlost : s.HasLostGate)
    (hseen : ∀ state ∈ (ofConfig config gate).observed τ, state = .pending)
    (h' : s.play τ' = some t) :
    ∀ state ∈ (ofConfig config gate).observed (τ ++ τ'), state = .pending := by
  refine play_induction (P := fun τ' _ => ∀ state ∈ (ofConfig config gate).observed (τ ++ τ'),
    state = .pending) ((List.append_nil τ).symm ▸ hseen) ?_ h'
  intro τ' m t u hplay ih hmove
  have hwhole := (play_append_of_play h τ').trans hplay
  rw [← List.append_assoc, observed, gather_concat seen hwhole hmove]
  intro state hmem
  rcases List.mem_append.mp hmem with hold | hnew
  · exact ih state hold
  · exact (eq_of_mem_seen hnew).trans (hasLostGate_of_play hlost hplay).1

/-- At rest the loop has taken every command, and knows that a lost gate will not change.  Rest
means that no step is left, neither of the loop nor of what the loop waits for. -/
theorem rest_of_hasLostGate (hlost : s.HasLostGate) (hserve : ¬ s.isStopping)
    (hrest : s.step = none) : s.gateLive = false ∧ s.commands = [] ∧ 0 < s.handles := by
  unfold isStopping at hserve
  unfold step at hrest
  split at hrest
  · cases hrest
  · simp only [Option.orElse_eq_orElse, Option.orElse_eq_or, Option.or_eq_none_iff,
      Option.map_eq_none_iff] at hrest
    -- While it serves, the loop rests only if no input is left of any kind.
    obtain ⟨-, hwatch, hcommand⟩ := hrest
    constructor
    · unfold watchGate at hwatch
      rw [hlost.2] at hwatch
      split at hwatch
      · simpa using ‹(!s.gateLive) = true›
      · split at hwatch <;> cases hwatch
    · unfold takeCommand at hcommand
      split at hcommand
      · cases hcommand
      · cases hcommand
      · rename_i hnone
        exact ⟨hnone, Nat.pos_of_ne_zero fun hzero => by simp [hzero] at hcommand⟩
  all_goals
    rename_i hphase
    simp [hphase] at hserve

/-- **Callers of a lost gate wait for good.**  Once the gate is lost before it has been seen open or
failed, then in every state that a run comes to before a stop begins, whoever has asked is in the
channel or waits, and nobody has been told anything.  At rest the loop has noticed that the gate
will not change; everyone waits under a task that stays in the queue, though there is a handle
left to ask through. -/
theorem lost_gate_strands_callers (h : (ofConfig config gate).play τ = some s)
    (hlost : s.HasLostGate)
    (hseen : ∀ state ∈ (ofConfig config gate).observed τ, state = .pending)
    (h' : s.play τ' = some t) (hserve : ¬ t.isStopping) :
    t.answers = [] ∧
      (t.inChannel.map Prod.snd ++ t.core.pending.callers).Perm
        ((requested (τ ++ τ')).map Prod.snd) ∧
      (t.step = none →
        t.gateLive = false ∧ 0 < t.handles ∧
          t.core.pending.callers.Perm ((requested (τ ++ τ')).map Prod.snd) ∧
          ∀ k ∈ t.core.pending.keys, k ∈ t.core.queue.map Task.fingerprint) := by
  have hwhole := (play_append_of_play h τ').trans h'
  have hunopened := unopened_of_play hwhole hserve (observed_of_hasLostGate h hlost hseen h')
  have hwaiting : (t.inChannel.map Prod.snd ++ t.core.pending.callers).Perm
      ((requested (τ ++ τ')).map Prod.snd) := by
    have hperm := perm_requested_of_play hwhole
    -- Nobody has been told anything, so all who were let in still wait.
    have hserved : t.story.served = t.core.pending.callers := by
      unfold Dispatcher.served
      rw [← answers_eq, hunopened.answers]
      exact List.append_nil _
    rwa [hserved] at hperm
  refine ⟨hunopened.answers, hwaiting, fun hrest => ?_⟩
  obtain ⟨hlive, hnone, hhandles⟩ :=
    rest_of_hasLostGate (hasLostGate_of_play hlost h') hserve hrest
  refine ⟨hlive, hhandles, ?_, fun k hk => ?_⟩
  · rwa [inChannel, hnone] at hwaiting
  · have hledger := ledger_of_play hwhole (isRunning_of_not_isStopping hserve)
    -- There is no pool, and so no task but in the queue.
    have hheld : t.core.held = [] := by rw [Dispatcher.held, hunopened.core.pool]; rfl
    have hopen := (hledger.mem_openKeys_iff k).mpr hk
    rwa [Dispatcher.openKeys, Dispatcher.openTasks, hheld, List.append_nil] at hopen

/-- The signal is dropped while a caller waits, and another one comes once the loop knows. -/
def droppedRun : List (Move Nat) := [.begin, .request (.name "a") 0, .command, .releaseGate]

def afterwardsRun : List (Move Nat) := [.watch, .request (.name "b") 1, .command, .rest]

theorem lost_gate_strands_callers_dropped :
    ∃ s t : Service Nat, (ofConfig {} {}).play droppedRun = some s ∧ s.HasLostGate ∧
      s.play afterwardsRun = some t ∧ ¬ t.isStopping ∧ t.step = none ∧ t.answers = [] ∧
      t.core.pending.callers.Perm [0, 1] := by
  have hplay : ((ofConfig {} {} : Service Nat).play droppedRun).any fun s =>
      s.gate.state = .pending && s.gate.isHeld = false &&
        (s.play afterwardsRun).any fun t => !t.isStopping && t.step.isNone := by
    decide +kernel
  obtain ⟨s, hs, hall⟩ := (Option.any_eq_true _ _).mp hplay
  obtain ⟨hgate, hrest⟩ := Bool.and_eq_true_iff.mp hall
  obtain ⟨t, ht, hstill⟩ := (Option.any_eq_true _ _).mp hrest
  obtain ⟨hserve, hnone⟩ := Bool.and_eq_true_iff.mp hstill
  have hlost : s.HasLostGate :=
    (Bool.and_eq_true_iff.mp hgate).imp of_decide_eq_true of_decide_eq_true
  have hserve : ¬ t.isStopping := by simpa using hserve
  have hnone := Option.isNone_iff_eq_none.mp hnone
  obtain ⟨hanswers, -, hatRest⟩ := lost_gate_strands_callers hs hlost (by decide +kernel) ht hserve
  exact ⟨s, t, hs, hlost, ht, hserve, hnone, hanswers, (hatRest hnone).2.2.1⟩

end Service

namespace Session

/-- A session at rest in which a client can still ask, but everyone who has asked waits, on a gate
that nobody is left to set. -/
def IsStranded (s : Session) : Prop :=
  s.agenda = [] ∧ s.service.step.isNone ∧ s.ownsHandle ∧
    s.service.HasLostGate ∧ s.watch.isWaiting = false ∧ s.calls.length = 2 ∧
    ∀ c ∈ s.calls, c.waiting ∧ c.abandoned = false

/-- A session that is asked for something, loses its gate, and is asked for something else much
later. -/
def afterLoss (drive : GateDrive) (limit : Option Span) (loss : Step) : Session :=
  [.ask (.name "a") .text false, loss, .advance 60000, .ask (.name "b") .text false].foldl
    (fun s step => (s.perform step).1.settle)
    (create { readinessTimeout := limit } (.scripted false []) drive).settle

/-- A dropped signal and a start that panics, with a bound on the wait or without, leave callers
waiting. -/
theorem lost_gate_at_rest :
    (afterLoss .manual none .dropGate).IsStranded ∧
      (afterLoss .engine none (.ready .panic)).IsStranded ∧
      (afterLoss .engine (some (Span.ofSeconds 5)) (.ready .panic)).IsStranded := by
  unfold IsStranded Service.HasLostGate
  decide +kernel

end Session

end AvatarPool
