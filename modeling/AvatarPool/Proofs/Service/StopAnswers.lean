import AvatarPool.Proofs.Service.Steps

/-! # Who asked for a stop

Whoever asks for a stop while the channel is open is told when the service has ended that it has
stopped; whoever asks later is refused at once.

A caller who asks for a stop is in one of three places: its command is in the channel, it has been
noted by the loop, or it has been told.  The first two are the `askers`, in the order in which they
have asked, and they are told together by the move that ends the service. -/

namespace AvatarPool

variable {ω : Type}

/-- The caller whose stop a move asks for. -/
def Move.stopper? (m : Move ω) : Option ω := m.command?.bind Command.stopper?

/-- Those who ask for a stop in a run, in their order. -/
def stopsAsked (τ : List (Move ω)) : List ω := τ.filterMap Move.stopper?

theorem stopsAsked_append (τ τ' : List (Move ω)) :
    stopsAsked (τ ++ τ') = stopsAsked τ ++ stopsAsked τ' :=
  List.filterMap_append

namespace Service

variable {config : PoolSettings} {gate : Gate} {s t : Service ω} {m : Move ω} {τ : List (Move ω)}

/-- Those who have asked for a stop and have not been told, as they will be. -/
def askers (s : Service ω) : List ω := s.stoppers ++ s.commands.filterMap Command.stopper?

/-- What the dispatcher does tells nobody who asked for a stop. -/
theorem stopAnswers_of_effects {es : List (Effect ω)}
    (h : t.outputs = s.outputs ++ es.map Output.effect) : t.stopAnswers = s.stopAnswers := by
  have hnone : (es.map Output.effect).filterMap Output.stop? = [] := by
    rw [List.filterMap_map]
    exact List.filterMap_eq_nil_iff.mpr fun _ _ => rfl
  rw [stopAnswers, h, List.filterMap_append, hnone, List.append_nil]
  rfl

/-- The last move of the loop tells all of them; those whose requests are left in the channel are
told as callers, which does not count here. -/
theorem stopAnswers_finish (s : Service ω) :
    s.finish.stopAnswers = s.stopAnswers ++ s.askers.map fun w => (w, .ok ()) := by
  have hlate : ((s.commands.filterMap Command.request?).map fun r =>
      (Output.effect (.answered r.2 (.error .shuttingDown)) : Output ω)).filterMap Output.stop? =
        [] := by
    rw [List.filterMap_map]
    exact List.filterMap_eq_nil_iff.mpr fun _ _ => rfl
  -- Those who have asked are told one by one.
  have htold : (s.askers.map Output.stopped).filterMap Output.stop? =
      s.askers.map fun w => (w, .ok ()) := by
    rw [List.filterMap_map]
    exact congrFun List.filterMap_eq_map s.askers
  show (s.outputs ++ (_ ++ s.askers.map Output.stopped)).filterMap Output.stop? = _
  rw [List.filterMap_append, List.filterMap_append, hlate, List.nil_append, htold]
  rfl

/-- While the channel is open whoever asks for a stop is noted, and told at the end.  By the cases
of a step. -/
theorem askers_of_move (hs : ¬ s.hasEnded) (h : s.move m = some t) :
    (¬ t.hasEnded ∧ t.stopAnswers = s.stopAnswers ∧ t.askers = s.askers ++ m.stopper?.toList) ∨
      (t.hasEnded ∧ m.stopper? = none ∧
        t.stopAnswers = s.stopAnswers ++ s.askers.map fun w => (w, .ok ())) := by
  have hlasts : ∀ {t : Service ω}, t.phase = s.phase → ¬ t.hasEnded := fun hphase => by
    rwa [hasEnded, hphase]
  -- The loop's steps but the last note who asks, and tell nobody.
  have hloop : ∀ {t : Service ω} {m : Move ω} (es : List (Effect ω)), ¬ t.hasEnded →
      t.outputs = s.outputs ++ es.map Output.effect → t.askers = s.askers → m.stopper? = none →
      (¬ t.hasEnded ∧ t.stopAnswers = s.stopAnswers ∧ t.askers = s.askers ++ m.stopper?.toList) ∨
        (t.hasEnded ∧ m.stopper? = none ∧
          t.stopAnswers = s.stopAnswers ++ s.askers.map fun w => (w, .ok ())) := by
    intro t m es hended hout haskers hm
    refine .inl ⟨hended, stopAnswers_of_effects hout, ?_⟩
    rw [haskers, hm]
    exact (List.append_nil _).symm
  cases steps_of_move h with
  | aside _ ha =>
      have hsent : s.sentBy m = m.command?.toList := if_neg hs
      have hrefused : s.refusedBy m = [] := if_neg hs
      refine .inl ⟨hlasts ha.phase, ?_, ?_⟩
      · rw [ha.stopAnswers, hrefused, List.append_nil]
      · have hstopper : m.command?.toList.filterMap Command.stopper? = m.stopper?.toList := by
          unfold Move.stopper?
          cases m.command? with
          | none => rfl
          | some c => cases c <;> rfl
        rw [askers, askers, ha.stoppers, ha.commands, hsent, List.filterMap_append, hstopper,
          List.append_assoc]
  | take _ _ _ ha | finish _ _ _ _ ha =>
      refine .inl ⟨hlasts ha.phase, ?_, ?_⟩
      · rw [ha.stopAnswers, List.append_nil]
        rfl
      · rw [askers, ha.stoppers, ha.commands, List.append_nil]
        exact (List.append_nil _).symm
  | alone | part => exact .inr ⟨rfl, rfl, stopAnswers_finish s⟩
  | begin => exact hloop _ Bool.false_ne_true rfl rfl rfl
  | report | look => exact hloop _ hs rfl rfl rfl
  | lose => exact hloop [] hs (List.append_nil _).symm rfl rfl
  | intake hphase hc =>
      refine hloop _ hs rfl ?_ rfl
      rw [askers, askers, hc]
      rfl
  | stop hphase hc =>
      -- The caller goes from the channel to those who are noted.
      refine hloop _ Bool.false_ne_true rfl ?_ rfl
      rw [askers, askers, hc]
      exact List.append_assoc _ _ _
  | desert | leave | giveUp => exact hloop _ Bool.false_ne_true rfl rfl rfl
  | await | skip => exact hloop [] Bool.false_ne_true (List.append_nil _).symm rfl rfl
  | tell _ _ _ _ hos =>
      refine .inl ⟨Bool.false_ne_true, ?_, (List.append_nil _).symm⟩
      rcases hos with rfl | rfl <;>
        exact (Aside.emit _ _ fun _ => rfl).stopAnswers.trans (List.append_nil _)

/-- Nobody is noted as asking for a stop but who has asked for one.  This holds in every phase, also
after the end. -/
theorem mem_askers_of_move (h : s.move m = some t) {w : ω} (hw : w ∈ t.askers) :
    w ∈ s.askers ∨ m.stopper? = some w := by
  cases steps_of_move h with
  | aside _ ha =>
      rw [askers, ha.stoppers, ha.commands, List.filterMap_append, ← List.append_assoc] at hw
      refine (List.mem_append.mp hw).imp_right fun hsent => ?_
      obtain ⟨c, hc, hstopper⟩ := List.mem_filterMap.mp hsent
      -- After the end nothing is put into the channel any more.
      unfold sentBy at hc
      split at hc
      · cases hc
      · rw [Move.stopper?, Option.mem_toList.mp hc]
        exact hstopper
  | take _ _ _ ha | finish _ _ _ _ ha =>
      rw [askers, ha.stoppers, ha.commands, List.append_nil] at hw
      exact .inl hw
  | intake _ hc =>
      left
      rw [askers, hc]
      exact hw
  | @stop w' rest _ hc =>
      -- The caller was in the channel before.
      have hnoted : w ∈ (s.stoppers ++ [w']) ++ rest.filterMap Command.stopper? := hw
      left
      rw [askers, hc]
      rwa [List.append_assoc] at hnoted
  | alone | part => exact absurd hw List.not_mem_nil
  | begin | report | look | lose | desert | leave | giveUp | await | skip => exact .inl hw
  | tell _ _ _ _ hos =>
      left
      rcases hos with rfl | rfl <;> exact hw

/-- After the end whoever asks for a stop is refused.  The loop has no move left, so only those from
outside are to be looked at. -/
theorem stopAnswers_of_hasEnded (hs : s.hasEnded) (h : s.move m = some t) :
    t.hasEnded ∧ t.stopAnswers =
      s.stopAnswers ++ m.stopper?.toList.map fun w => (w, .error .shuttingDown) := by
  have hphase := (hasEnded_iff s).mp hs
  -- No step of the loop is possible in its last phase.
  cases steps_of_move h with
  | aside _ ha =>
      have hrefused : s.refusedBy m = m.stopper?.toList.map fun w => (w, .error .shuttingDown) :=
        if_pos hs
      exact ⟨by rw [hasEnded_iff, ha.phase, hphase], by rw [ha.stopAnswers, hrefused]⟩
  | take _ _ _ ha | finish _ _ _ _ ha =>
      exact ⟨by rw [hasEnded_iff, ha.phase]; exact hphase, ha.stopAnswers⟩
  | begin hphase' | intake hphase' | stop hphase' | desert hphase' | leave hphase' | giveUp hphase'
  | alone hphase' | await hphase' | skip hphase' | tell hphase' | part hphase' =>
      rw [hphase] at hphase'
      cases hphase'
  | report hl | look hl | lose hl => simp [isListening, hphase] at hl

/-- **Stops are answered at the end.**  Until the service ends nobody who asks for a stop is told;
then all who have asked are told that it has stopped, and those who ask later are refused.  By
induction on the run, where the move that ends the service divides it. -/
theorem stopAnswers_of_play (h : (ofConfig config gate).play τ = some s) :
    (¬ s.hasEnded → s.stopAnswers = [] ∧ s.askers = stopsAsked τ) ∧
      (s.hasEnded → ∃ τ₁ m τ₂ u v, τ = τ₁ ++ m :: τ₂ ∧ (ofConfig config gate).play τ₁ = some u ∧
        ¬ u.hasEnded ∧ u.move m = some v ∧ v.hasEnded ∧
        s.stopAnswers = (stopsAsked τ₁).map (fun w => (w, .ok ())) ++
          (stopsAsked τ₂).map fun w => (w, .error .shuttingDown)) := by
  have hfirst : ¬ (ofConfig config gate : Service ω).hasEnded := Bool.false_ne_true
  refine play_induction (P := fun τ s =>
    (¬ s.hasEnded → s.stopAnswers = [] ∧ s.askers = stopsAsked τ) ∧
      (s.hasEnded → ∃ τ₁ m τ₂ u v, τ = τ₁ ++ m :: τ₂ ∧ (ofConfig config gate).play τ₁ = some u ∧
        ¬ u.hasEnded ∧ u.move m = some v ∧ v.hasEnded ∧
        s.stopAnswers = (stopsAsked τ₁).map (fun w => (w, .ok ())) ++
          (stopsAsked τ₂).map fun w => (w, .error .shuttingDown)))
    ⟨fun _ => ⟨rfl, rfl⟩, fun h => absurd h hfirst⟩ ?_ h
  rintro τ m s t hplay ⟨hopen, hclosed⟩ hmove
  have hlast : stopsAsked [m] = m.stopper?.toList := filterMap_singleton _ m
  -- The service had ended before this move, or this move ends it, or it goes on.
  by_cases hs : s.hasEnded
  · obtain ⟨hended, hanswers⟩ := stopAnswers_of_hasEnded hs hmove
    obtain ⟨τ₁, m', τ₂, u, v, rfl, hu, hnot, hmove', hv, heq⟩ := hclosed hs
    refine ⟨fun h => absurd hended h, fun _ => ⟨τ₁, m', τ₂ ++ [m], u, v, by simp, hu, hnot, hmove',
      hv, ?_⟩⟩
    rw [hanswers, heq, stopsAsked_append, hlast, List.map_append, List.append_assoc]
  · obtain ⟨hnone, haskers⟩ := hopen hs
    rcases askers_of_move hs hmove with ⟨hended, hanswers, haskers'⟩ | ⟨hended, hm, hanswers⟩
    · refine ⟨fun _ => ⟨hanswers.trans hnone, ?_⟩, fun h => absurd h hended⟩
      rw [haskers', haskers, stopsAsked_append, hlast]
    · refine ⟨fun h => absurd hended h, fun _ => ⟨τ, m, [], s, t, rfl, hplay, hs, hmove, hended, ?_⟩⟩
      rw [hanswers, hnone, haskers, List.nil_append]
      exact (List.append_nil _).symm

end Service

end AvatarPool
