import AvatarPool.Proofs.Dispatch.Laws
import AvatarPool.Proofs.Service.Acts
import AvatarPool.Proofs.Service.Waiters

/-! # A service under a law

Whatever its engine makes of a job, and whenever it is stopped, a service keeps and reports only what
work has led to, and whoever is told anything is told what the law allows for what he has awaited.
For a service that can be stopped the law must allow that callers are told of the stop.

Laws are kept from deed to deed, and this module brings that to moves.  A handler's path consists of
deeds that obey the law, provided that the report, the state of the gate or the request it runs with
does; these are lawful because the channels they come through hold lawful things only, which is what
`Lawful` adds to the dispatcher's own state. -/

namespace AvatarPool

variable {ω : Type} {L : Law}

/-- Callers may be told that the service is shutting down. -/
def Law.AllowsStop (L : Law) : Prop := ∀ k, L.told k (.error .shuttingDown)

/-- Whether an invocation that a move ends leads to what may be made, and so does a gate that it
fails.  Every other move obeys, as it brings nothing new into the service. -/
def Move.Obeys (L : Law) : Move ω → Prop
  | .setGate state => ∀ why, state = .failed why → ∀ k, L.made k (.error why)
  | .finish _ task ending => L.made task.fingerprint (ending.outcome task.fingerprint)
  | _ => True

namespace Service

variable {s t : Service ω} {m : Move ω} {d : Dispatcher ω}

/-- **A lawful service**: what it keeps, what its gate shows and what its workers have reported.
Reports matter only while the loop runs, as nobody reads them afterwards. -/
structure Lawful (L : Law) (s : Service ω) : Prop where
  core : s.core.Lawful L
  gate : ∀ why, s.gate.state = .failed why → ∀ k, L.made k (.error why)
  reports : s.isRunning → ∀ c ∈ s.reports, L.made c.fingerprint c.outcome

/-- Before anything has happened there is nothing that could break the law, except a gate that has
failed already. -/
theorem lawful_ofConfig (L : Law) (config : PoolSettings) {gate : Gate}
    (hgate : ∀ why, gate.state ≠ .failed why) : (ofConfig config gate : Service ω).Lawful L where
  core := Dispatcher.lawful_ofSize L config.poolSize
  gate why hwhy := absurd hwhy (hgate why)
  reports := nofun

/-- What is told by a move, and to whom.  Whoever is told has awaited it before, or asks with this
very move. -/
def TellsUnder (L : Law) (s : Service ω) (m : Move ω) (t : Service ω) : Prop :=
  ∀ a ∈ t.answers, a ∈ s.answers ∨
    ∃ k, (s.Awaits a.1 k ∨ ∃ job, m.request? = some (job, a.1) ∧ job.fingerprint = k) ∧ L.told k a.2

/-- What the loop does with one input. -/
structure Follows (L : Law) (s : Service ω) (d : Dispatcher ω) : Prop where
  lawful : d.Lawful L
  told : ∀ a ∈ d.answered, ∃ k, s.Awaits a.1 k ∧ L.told k a.2

/-- A handler of the dispatcher does deeds that obey the law.  What it tells is lawful by the law of
paths; whom it tells has waited, or has sent the request that it takes in. -/
theorem follows_of_path (h : s.Lawful L) (hs : s.Settled) {ds : List (Deed ω)}
    (hpath : Dispatcher.Path s.core ds d) (hobeys : ∀ x ∈ ds, x.Obeys L)
    (hsent : ∀ r ∈ ds.filterMap Deed.request?, r ∈ s.inChannel) : Follows L s d := by
  refine ⟨hpath.lawful h.core hobeys, fun a ha => ?_⟩
  rcases hpath.toldUnder h.core hobeys hs.wellFormed ha with hold | ⟨k, hk, ho⟩
  · rw [answered_of_collected hs.sound.collected] at hold
    exact absurd hold List.not_mem_nil
  · refine ⟨k, hk.imp_right ?_, ho⟩
    rintro ⟨job, hmem, rfl⟩
    exact ⟨job, hsent _ hmem, rfl⟩

/-- The deeds after the first one hand tasks out. -/
theorem follows_of_hands (h : s.Lawful L) (hs : s.Settled) {x : Deed ω} {ts : List (Nat × Task)}
    (hpath : Dispatcher.Path s.core (x :: ts.map fun h => .hand h.1 h.2) d) (hx : x.Obeys L)
    (hsent : ∀ r ∈ x.request?, r ∈ s.inChannel) : Follows L s d := by
  refine follows_of_path h hs hpath (fun y hy => ?_) fun r hr => ?_
  · rcases List.mem_cons.mp hy with rfl | hhand
    · exact hx
    · obtain ⟨p, -, rfl⟩ := List.mem_map.mp hhand
      trivial
  · have hrequests : (x :: ts.map fun h => (.hand h.1 h.2 : Deed ω)).filterMap Deed.request? =
        x.request?.toList := by
      rw [← List.singleton_append, List.filterMap_append, filterMap_singleton,
        (FollowUp.hands ts).requests, List.append_nil]
    rw [hrequests] at hr
    exact hsent r (Option.mem_toList.mp hr)

/-- Tasks that are rejected.  Rejecting brings no result, so the law need only allow that it is
told. -/
theorem follows_of_drops (h : s.Lawful L) (hs : s.Settled) {ts : List Task} {why : Failure}
    (hpath : Dispatcher.Path s.core (ts.map fun t => .drop t why) d)
    (hwhy : ∀ k, L.told k (.error why)) : Follows L s d := by
  refine follows_of_path h hs hpath (fun y hy => ?_) fun r hr => ?_
  · obtain ⟨task, -, rfl⟩ := List.mem_map.mp hy
    exact hwhy
  · rw [(FollowUp.drops ts why).requests] at hr
    exact absurd hr List.not_mem_nil

/-- A state of the gate that obeys is seen.  A failure of the gate is made by the gate, and rejects
what is queued. -/
theorem follows_observe (h : s.Lawful L) (hs : s.Settled) (hrun : s.isRunning) {state : Readiness}
    (hstate : ∀ why, state = .failed why → ∀ k, L.made k (.error why)) :
    Follows L s (s.core.observe state) := by
  obtain ⟨ds, hpath, hds⟩ := Dispatcher.observe_path (hs.sound.carried hrun).ready state
  rcases hds with ⟨ts, rfl⟩ | ⟨why, rfl, rfl⟩
  · exact follows_of_hands h hs hpath hstate nofun
  · refine follows_of_path h hs hpath (fun y hy => ?_) fun r hr => ?_
    · rcases List.mem_cons.mp hy with rfl | hdrop
      · exact hstate
      · obtain ⟨task, -, rfl⟩ := List.mem_map.mp hdrop
        exact fun k => L.told_of_made (hstate why rfl k)
    · rw [← List.singleton_append, List.filterMap_append, filterMap_singleton,
        (FollowUp.drops s.core.queue why).requests] at hr
      exact absurd hr List.not_mem_nil

/-! ## Moves -/

/-- The law is kept, and nobody is told what it does not allow. -/
structure Heeds (L : Law) (s : Service ω) (m : Move ω) (t : Service ω) : Prop where
  core : t.core.Lawful L
  told : TellsUnder L s m t

namespace Heeds

/-- A handler of the dispatcher has run. -/
theorem handled (hd : Follows L s d) (h : Handled s d t) : Heeds L s m t := by
  refine ⟨h.core ▸ hd.lawful.congr rfl rfl, fun a ha => ?_⟩
  rw [h.answers] at ha
  refine (List.mem_append.mp ha).imp_right fun hnew => ?_
  obtain ⟨k, hk, ho⟩ := hd.told a hnew
  exact ⟨k, .inl hk, ho⟩

/-- Nobody has been told anything. -/
theorem silent (h : s.Lawful L) (hcore : t.core = s.core) (hanswers : t.answers = s.answers) :
    Heeds L s m t :=
  ⟨hcore ▸ h.core, fun _ ha => .inl (hanswers ▸ ha)⟩

theorem quiet (h : s.Lawful L) (hq : s.Quiet t) : Heeds L s m t :=
  silent h hq.core (by rw [answers_eq, answers_eq, hq.story_eq])

/-- A worker has gone on. -/
theorem worked (h : s.Lawful L) {τ : List (Move ω)} (htells : Tells s τ [.work] t) :
    Heeds L s m t := by
  have hpath : Dispatcher.Path s.story ([] ++ [.work]) t.story := htells.path
  obtain ⟨e, hnil, hdoes⟩ := hpath.exists_of_snoc
  obtain rfl := hnil.eq_of_nil
  generalize hstory : t.story = d at hdoes
  have hreadiness : t.core.readiness = d.readiness := by
    rw [← hstory]
    rfl
  have hcache : t.core.cache = d.cache := by
    rw [← hstory]
    rfl
  have hanswers : t.answers = d.answered := (answers_eq t).trans (congrArg Dispatcher.answered hstory)
  cases hdoes with
  | worked =>
      refine ⟨h.core.congr hreadiness hcache, fun a ha => .inl ?_⟩
      rw [hanswers] at ha
      rw [answers_eq]
      exact ha

end Heeds

/-- Those who have come too late are told of the stop. -/
theorem heeds_finish (h : s.Lawful L) (hstop : L.AllowsStop) : Heeds L s m s.finish := by
  have hanswers : s.finish.answers =
      s.answers ++ s.inChannel.map fun r => (r.2, .error .shuttingDown) := by
    have hlate : ∀ rs : List (Job × ω), (rs.map fun r => (Output.effect
        (.answered r.2 (.error .shuttingDown)) : Output ω)).filterMap Output.answer? =
          rs.map fun r => (r.2, .error .shuttingDown) := by
      intro rs
      rw [List.filterMap_map]
      exact congrFun List.filterMap_eq_map rs
    have hnone : ∀ ws : List ω, (ws.map Output.stopped).filterMap Output.answer? = [] :=
      FollowUp.filterMap_map_eq_nil fun _ => rfl
    unfold answers finish emit
    rw [List.filterMap_append, List.filterMap_append, hlate, hnone, List.append_nil]
    rfl
  refine ⟨h.core, fun a ha => ?_⟩
  rw [hanswers] at ha
  refine (List.mem_append.mp ha).imp_right fun hnew => ?_
  obtain ⟨⟨job, w⟩, hmem, rfl⟩ := List.mem_map.mp hnew
  exact ⟨job.fingerprint, .inl (.inr ⟨job, hmem, rfl⟩), hstop _⟩

/-- Whoever comes after the end is told so at once. -/
theorem heeds_of_outside (h : s.Lawful L) (hstop : L.AllowsStop) (hm : m.isOutside)
    (hmove : s.move m = some t) : Heeds L s m t := by
  -- The request or the stop goes into the channel.
  have hpost : ∀ c : Command ω, Heeds L s m (s.post c) := by
    intro c
    have hrouse := Quiet.rouse { s with commands := s.commands ++ [c] } .commands
    refine .silent h hrouse.core ?_
    rw [answers_eq, answers_eq, post, hrouse.story_eq]
    rfl
  cases m with
  | request job w =>
      obtain ⟨-, rfl⟩ := Option.ite_some_none_eq_some.mp hmove
      by_cases hended : s.hasEnded
      · rw [request, if_pos hended]
        refine ⟨h.core, fun a ha => ?_⟩
        have hanswers : (s.emit [.effect (.answered w (.error .shuttingDown))]).answers =
            s.answers ++ [(w, .error .shuttingDown)] := List.filterMap_append
        rw [hanswers] at ha
        refine (List.mem_append.mp ha).imp_right fun hnew => ?_
        obtain rfl := List.mem_singleton.mp hnew
        exact ⟨job.fingerprint, .inr ⟨job, rfl, rfl⟩, hstop _⟩
      · rw [request, if_neg hended]
        exact hpost _
  | stop w =>
      obtain ⟨-, rfl⟩ := Option.ite_some_none_eq_some.mp hmove
      by_cases hended : s.hasEnded
      · rw [stop, if_pos hended]
        exact .quiet h (.emit s _ rfl)
      · rw [stop, if_neg hended]
        exact hpost _
  | share =>
      obtain ⟨-, rfl⟩ := Option.ite_some_none_eq_some.mp hmove
      exact .silent h rfl rfl
  | unshare =>
      obtain ⟨-, rfl⟩ := Option.ite_some_none_eq_some.mp hmove
      exact .quiet h (.unshare s)
  | setGate | releaseGate =>
      obtain ⟨-, rfl⟩ := Option.ite_some_none_eq_some.mp hmove
      exact .quiet h (.setGate s _)
  | pass =>
      cases hmove
      exact .silent h rfl rfl
  | rest =>
      cases hmove
      exact .quiet h (.rest s)
  | postpone =>
      cases hmove
      exact .quiet h (.emit s _ rfl)
  | _ => cases hm

/-- **A move of a lawful service**, whatever it is.  By the cases of a step: those that run a
handler follow its path, and the others tell nobody or tell them of the stop. -/
theorem heeds_of_move (h : s.Lawful L) (hs : s.Settled) (hstop : L.AllowsStop)
    (hmove : s.move m = some t) : Heeds L s m t := by
  cases steps_of_move hmove with
  | aside hm => exact heeds_of_outside h hstop hm hmove
  | take => exact .worked h (tells_take hs.sound hmove)
  | finish =>
      obtain ⟨hrenders, hfinish⟩ := Option.ite_none_right_eq_some.mp hmove
      exact .worked h (tells_finish hs.sound hrenders hfinish)
  | begin hphase =>
      have hrun : s.isRunning := by simp [isRunning, hphase]
      have htook := handled_takeGate s
      exact .handled (follows_observe h hs hrun h.gate) ⟨htook.core, htook.story⟩
  | report hl hr =>
      have hrun := isRunning_of_isListening hl
      obtain ⟨ts, hpath⟩ := Dispatcher.takeReport_path (hr ▸ hs.sound.carried hrun)
      have hmade := h.reports hrun _ (hr ▸ List.mem_cons_self)
      refine .handled (follows_of_hands h hs hpath hmade fun r hr => ?_) (.of_input rfl rfl rfl)
      cases hr
  | look hl =>
      have hrun := isRunning_of_isListening hl
      exact .handled (follows_observe h hs hrun h.gate) ((handled_takeGate s).afterInput false)
  | lose => exact .quiet h ⟨rfl, rfl, rfl, rfl, rfl⟩
  | intake hphase hc =>
      have hrun : s.isRunning := by simp [isRunning, hphase]
      obtain ⟨ts, hpath⟩ := Dispatcher.accept_path (hs.sound.carried hrun).ready _ _
      refine .handled (follows_of_hands h hs hpath trivial fun r hr => ?_) (.of_input rfl rfl rfl)
      obtain rfl := Option.some.inj hr
      rw [inChannel, hc]
      exact List.mem_cons_self
  | stop | desert =>
      have hpath := Dispatcher.rejectQueue_path s.core .shuttingDown
      exact .handled (follows_of_drops h hs hpath hstop) (.of_input rfl rfl rfl)
  | leave | giveUp =>
      have hdoes : Dispatcher.Does s.core (.clear .shuttingDown)
        (s.core.rejectPending .shuttingDown) := .cleared _ _
      have hfollows : Follows L s (s.core.rejectPending .shuttingDown) := by
        refine follows_of_path h hs hdoes.path (fun x hx => ?_) fun r hr => ?_
        · rw [List.mem_singleton.mp hx]
          exact hstop
        · cases hr
      first
        | exact .handled hfollows (.of_withCore rfl rfl rfl)
        | exact .handled hfollows (.of_input rfl rfl rfl)
  | alone | part => exact heeds_finish h hstop
  | await | skip => exact .silent h rfl rfl
  | tell _ hp hk _ hos =>
      obtain ⟨slot, -, rfl⟩ := Option.map_eq_some_iff.mp hk
      refine ⟨h.core.congr rfl rfl, fun a ha => .inl ?_⟩
      -- Telling a worker to stop answers no request.
      rcases hos with rfl | rfl
      · simpa [answers, emit, withPool, Output.answer?] using ha
      · simpa [answers, emit, withPool, Output.answer?] using ha

/-- **What a lawful service does stays lawful**, if what its invocations and its gate lead to does.
The gate shows what this move has set or what it has shown before, and a report is filed by this
move or was there. -/
theorem Lawful.move (h : s.Lawful L) (hs : s.Settled) (hstop : L.AllowsStop) (hm : m.Obeys L)
    (hmove : s.move m = some t) : t.Lawful L := by
  refine ⟨(heeds_of_move h hs hstop hmove).core, fun why hwhy => ?_, fun hrun c hc => ?_⟩
  · have hgate : t.gate.state = (m.doors s.doors).1 := congrArg Prod.fst (doors_of_move hmove)
    rw [hgate] at hwhy
    cases m with
    | setGate state => exact hm why hwhy
    | _ => exact h.gate why hwhy
  · obtain ⟨ds, htells⟩ := exists_tells_of_move hs.sound hmove
    rcases reports_of_move hs.sound hmove hrun c hc with hold | hnew
    · exact h.reports (htells.staged.1 hrun) c hold
    · cases m with
      | finish k task ending =>
          obtain rfl := Option.some.inj hnew
          exact hm
      | _ => cases hnew

end Service

end AvatarPool
