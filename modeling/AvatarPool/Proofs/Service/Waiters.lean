import AvatarPool.Proofs.Service.Stopping

/-! # Who awaits an answer

Beside a run stands what it looks like from outside between one move and the next: who has asked for
something and has not been told, who is told now, through how many handles requests can come, and
what the gate shows.

A conversation around the service, such as that of a host with its clients, needs to know of a move
only whom it tells and who still waits; `Conserves` says so, without deeds or handlers, and is
proved from the path of deeds behind the move. -/

namespace AvatarPool.Service

variable {ω : Type} {s t : Service ω} {m : Move ω}

/-- A caller awaits what is told under a fingerprint: his request is in the channel, or he waits. -/
def Awaits (s : Service ω) (w : ω) (k : Fingerprint) : Prop :=
  w ∈ s.core.pending.waiting k ∨ ∃ job, (job, w) ∈ s.inChannel ∧ job.fingerprint = k

/-- Those who await an answer. -/
def waiters (s : Service ω) : List ω := s.inChannel.map Prod.snd ++ s.core.pending.callers

/-- A caller who awaits something is in the channel or in an entry of the table. -/
theorem mem_waiters_iff (h : s.core.pending.WellFormed) {w : ω} :
    w ∈ s.waiters ↔ ∃ k, s.Awaits w k := by
  unfold waiters Awaits
  rw [List.mem_append, Pending.mem_callers_iff h.nodup]
  constructor
  · rintro (hmem | ⟨k, hk⟩)
    · obtain ⟨⟨job, v⟩, hjob, rfl⟩ := List.mem_map.mp hmem
      exact ⟨job.fingerprint, .inr ⟨job, hjob, rfl⟩⟩
    · exact ⟨k, .inl hk⟩
  · rintro ⟨k, hk | ⟨job, hjob, -⟩⟩
    · exact .inr ⟨k, hk⟩
    · exact .inl (List.mem_map_of_mem (f := Prod.snd) hjob)

/-! ## Nobody is lost between two moves -/

/-- What holds of the callers after every move: nobody waits twice in one place. -/
structure Settled (s : Service ω) : Prop where
  sound : s.Sound
  wellFormed : s.core.pending.WellFormed

theorem settled_ofConfig (config : PoolSettings) (gate : Gate) :
    (ofConfig config gate : Service ω).Settled :=
  ⟨sound_ofConfig config gate, Pending.wellFormed_empty⟩

/-- **What a move does to callers**: those of `rs` ask, those of `as` are told, and nobody else is
lost or comes to await anything. -/
structure Conserves (s : Service ω) (rs : List (Job × ω)) (as : List (ω × Outcome))
    (t : Service ω) : Prop where
  settled : t.Settled
  answers : t.answers = s.answers ++ as
  waiters : (t.waiters ++ as.map Prod.fst).Perm (s.waiters ++ rs.map Prod.snd)
  awaits : ∀ w k, t.Awaits w k → s.Awaits w k ∨ ∃ job, (job, w) ∈ rs ∧ job.fingerprint = k

/-- What is told is what the path has added to the answers. -/
theorem exists_conserves (hs : s.Settled) (h : s.move m = some t) :
    ∃ as, s.Conserves m.request?.toList as t := by
  obtain ⟨ds, hds⟩ := exists_tells_of_move hs.sound h
  have hsent : requested [m] = m.request?.toList := filterMap_singleton _ m
  have hrequests := hds.requests
  rw [hsent] at hrequests
  obtain ⟨as, has⟩ := hds.path.answered_isPrefix
  rw [← answers_eq, ← answers_eq] at has
  refine ⟨as, ⟨hds.sound, hds.path.wellFormed hs.wellFormed⟩, has.symm, ?_, ?_⟩
  · have hserved := hds.path.served_perm hs.wellFormed
    unfold Dispatcher.served at hserved
    rw [← answers_eq, ← answers_eq, ← has, List.map_append] at hserved
    have hsnd := congrArg (List.map Prod.snd) hrequests
    rw [List.map_append, List.map_append] at hsnd
    -- What is taken from the channel has been in it or is sent now; earlier answers cancel.
    refine (List.perm_append_right_iff (s.answers.map Prod.fst)).mp ?_
    calc (t.waiters ++ as.map Prod.fst ++ s.answers.map Prod.fst).Perm
          (t.inChannel.map Prod.snd ++ (t.core.pending.callers ++
            (s.answers.map Prod.fst ++ as.map Prod.fst))) := by
          unfold Service.waiters
          simp only [List.append_assoc]
          exact (List.perm_append_comm.append_left _).append_left _
      _ |>.Perm (t.inChannel.map Prod.snd ++ ((ds.filterMap Deed.request?).map Prod.snd ++
            (s.core.pending.callers ++ s.answers.map Prod.fst))) := hserved.append_left _
      _ |>.Perm ((ds.filterMap Deed.request?).map Prod.snd ++ t.inChannel.map Prod.snd ++
            (s.core.pending.callers ++ s.answers.map Prod.fst)) := by
          rw [← List.append_assoc]
          exact List.perm_append_comm.append_right _
      _ |>.Perm (s.waiters ++ m.request?.toList.map Prod.snd ++ s.answers.map Prod.fst) := by
          rw [hsnd]
          unfold Service.waiters
          simp only [List.append_assoc]
          refine List.Perm.append_left _ ?_
          rw [← List.append_assoc, ← List.append_assoc]
          exact List.perm_append_comm.append_right _
  · rintro w k (hwait | ⟨job, hjob, hk⟩)
    · rcases hds.path.mem_waiting hwait with hold | ⟨job, hjob, hk⟩
      · exact .inl (.inl hold)
      · have hmem := hrequests ▸ List.mem_append_left t.inChannel hjob
        exact (List.mem_append.mp hmem).imp (fun h => .inr ⟨job, h, hk⟩) fun h => ⟨job, h, hk⟩
    · have hmem := hrequests ▸ List.mem_append_right (ds.filterMap Deed.request?) hjob
      exact (List.mem_append.mp hmem).imp (fun h => .inr ⟨job, h, hk⟩) fun h => ⟨job, h, hk⟩

/-! ## The gate and the handles -/

/-- What the gate shows, and the number of handles. -/
def doors (s : Service ω) : Readiness × Nat := (s.gate.state, s.handles)

/-- What the gate shows, whether anyone can still set it, and the number of handles. -/
def access (s : Service ω) : Readiness × Bool × Nat := (s.gate.state, s.gate.isHeld, s.handles)

theorem access_rouse (s : Service ω) (a : Alert) : (s.rouse a).access = s.access := by
  unfold rouse
  split <;> rfl

theorem access_afterInput (s : Service ω) (isReport : Bool) :
    (s.afterInput isReport).access = s.access := by
  cases isReport <;> rfl

/-- Setting a gate changes what it shows, and says who may set it again. -/
theorem access_setGate (s : Service ω) (gate : Gate) :
    (s.setGate gate).access = (gate.state, gate.isHeld, s.handles) := by
  unfold setGate
  split
  · rename_i heq
    rw [heq]
    rfl
  · exact access_rouse _ .gate

end AvatarPool.Service

namespace AvatarPool

variable {ω : Type}

/-- What a move makes of what the gate shows and of the number of handles. -/
def Move.doors : Move ω → Readiness × Nat → Readiness × Nat
  | .share, d => (d.1, d.2 + 1)
  | .unshare, d => (d.1, d.2 - 1)
  | .setGate state, d => (state, d.2)
  | _, d => d

/-- What a move does to the gate, to whether anyone can still set it, and to the handles: whoever
lets go of the gate cannot set it any more. -/
def Move.access : Move ω → Readiness × Bool × Nat → Readiness × Bool × Nat
  | .share, a => (a.1, a.2.1, a.2.2 + 1)
  | .unshare, a => (a.1, a.2.1, a.2.2 - 1)
  | .setGate state, a => (state, a.2)
  | .releaseGate, a => (a.1, false, a.2.2)
  | _, a => a

namespace Service

variable {s t : Service ω} {m : Move ω}

/-- What a move from outside does to the gate and to the handles: only whoever holds them changes
them. -/
theorem access_of_outside (hm : m.isOutside) (h : s.move m = some t) :
    t.access = m.access s.access := by
  cases m with
  -- Sending anything wakes the loop, which is no part of the access.
  | request job w =>
      obtain ⟨-, rfl⟩ := Option.ite_some_none_eq_some.mp h
      unfold request
      split
      · rfl
      · exact access_rouse _ .commands
  | stop w =>
      obtain ⟨-, rfl⟩ := Option.ite_some_none_eq_some.mp h
      unfold stop
      split
      · rfl
      · exact access_rouse _ .commands
  | share =>
      obtain ⟨-, rfl⟩ := Option.ite_some_none_eq_some.mp h
      rfl
  | unshare =>
      obtain ⟨-, rfl⟩ := Option.ite_some_none_eq_some.mp h
      unfold unshare
      dsimp only
      split
      · exact access_rouse _ .commands
      · rfl
  | setGate | releaseGate =>
      obtain ⟨-, rfl⟩ := Option.ite_some_none_eq_some.mp h
      exact access_setGate s _
  | rest =>
      cases h
      show s.rest.access = s.access
      unfold rest
      dsimp only
      split <;> rfl
  | pass | postpone =>
      cases h
      rfl
  | _ => cases hm

/-- What any move does to the gate and to the handles.  By the cases of a step; the loop, its
workers and its callers leave both alone. -/
theorem access_of_move (h : s.move m = some t) : t.access = m.access s.access := by
  cases steps_of_move h with
  | aside hm => exact access_of_outside hm h
  | @take k =>
      obtain ⟨pool, slot, w, -, -, -, rfl⟩ := exists_of_workerTakes h
      have hroused := access_rouse (s.withPool (pool.setWorker k w)) (.room k)
      split
      · exact hroused
      · exact (access_rouse _ .farewell).trans hroused
  | finish =>
      obtain ⟨-, hfinish⟩ := Option.ite_none_right_eq_some.mp h
      obtain ⟨pool, slot, w, c, -, -, -, rfl⟩ := exists_of_workerFinishes hfinish
      split
      · rfl
      · exact access_rouse _ .reports
  | begin | leave | alone | await | skip | tell | part => rfl
  | report | look | lose | intake | stop | desert | giveUp => exact access_afterInput _ _

/-- **Only handles make handles, and only who holds the gate sets it.** -/
theorem doors_of_move (h : s.move m = some t) : t.doors = m.doors s.doors := by
  have haccess := congrArg (fun a => (a.1, a.2.2)) (access_of_move h)
  refine haccess.trans ?_
  cases m <;> rfl

end Service

end AvatarPool
