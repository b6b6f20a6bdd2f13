import AvatarPool.Proofs.Dispatch.Answers

/-! # What callers may be told

An engine may do with a job what it likes: it may yield one thing now and another one later, fail, or
never end.  A `Law` says which outcomes its work may lead to, and what else callers may hear.  Under
a law that its inputs obey the dispatcher keeps nothing but what work has led to, and whoever is told
anything is told what the law allows for that for which he has waited.

A law has two predicates, because a caller may be told more than work can lead to: that the service
is shutting down, or that the gate has failed.  The inputs of a dispatcher are its reports and the
states of its gate; `Deed.Obeys` asks of each what the law asks.  The invariant is small: what is
kept was made.  What callers are told then follows deed by deed, since an answer is always for those
who wait under a key or for the caller at the door. -/

namespace AvatarPool

/-- **A law** for the outcomes under each fingerprint. -/
structure Law where
  /-- What work may lead to. -/
  made : Fingerprint → Outcome → Prop
  /-- What callers may be told. -/
  told : Fingerprint → Outcome → Prop
  told_of_made : ∀ {key o}, made key o → told key o

variable {ω : Type} {L : Law}

/-- Whether a deed reports what work may lead to, and rejects with what callers may be told. -/
def Deed.Obeys (L : Law) : Deed ω → Prop
  | .accept _ _ | .hand _ _ | .work => True
  | .settle c => L.made c.fingerprint c.outcome
  | .observe state => ∀ why, state = .failed why → ∀ k, L.made k (.error why)
  | .drop _ why | .clear why => ∀ k, L.told k (.error why)
  | .refuse job _ => L.told job.fingerprint (.error .shuttingDown)

namespace Dispatcher

variable {d d' : Dispatcher ω}

/-- **A lawful dispatcher**: what it keeps, and the failure of a failed gate, may be made. -/
structure Lawful (L : Law) (d : Dispatcher ω) : Prop where
  cached : ∀ k artifact, d.cache.get? k = some artifact → L.made k (.ok artifact)
  failed : ∀ why, d.readiness = .failed why → ∀ k, L.made k (.error why)

theorem lawful_ofSize (L : Law) (size : Nat) : ({ poolSize := size } : Dispatcher ω).Lawful L where
  cached := nofun
  failed := nofun

/-- Neither the gate nor the cache has changed. -/
theorem Lawful.congr (h : d.Lawful L) (hr : d'.readiness = d.readiness) (hc : d'.cache = d.cache) :
    d'.Lawful L where
  cached := hc ▸ h.cached
  failed := hr ▸ h.failed

theorem settle_readiness (d : Dispatcher ω) (c : WorkReport) :
    (d.settle c).readiness = d.readiness := by
  unfold settle book
  cases c.outcome <;> rfl

/-- The state that is noted is the one that was shown. -/
theorem see_readiness (d : Dispatcher ω) (state : Readiness) : (d.see state).readiness = state := by
  cases state with
  | ready =>
      unfold see openPool
      dsimp only
      split <;> rfl
  | _ => rfl

/-- If it is kept it has been made, and what was there before stays. -/
theorem Lawful.settle (h : d.Lawful L) {c : WorkReport} (hc : L.made c.fingerprint c.outcome) :
    (d.settle c).Lawful L where
  cached k artifact hk := by
    rw [settle_cache] at hk
    split at hk
    · rename_i kept houtcome
      -- Under other keys the cache is as it was.
      rcases Cache.get?_or_eq_of_insert hk with hbefore | ⟨rfl, rfl⟩
      · exact h.cached k artifact hbefore
      · exact houtcome ▸ hc
    · exact h.cached k artifact hk
  failed := settle_readiness d c ▸ h.failed

/-- **A deed that obeys keeps the dispatcher lawful.** -/
theorem Does.lawful {x : Deed ω} (hx : Does d x d') (h : d.Lawful L) (hobeys : x.Obeys L) :
    d'.Lawful L := by
  cases hx with
  | hit | refused | joined | opened | handed | worked | cleared | late => exact h.congr rfl rfl
  | dropped => exact h.congr rfl rfl
  | settled => exact h.settle hobeys
  | observed state =>
      refine ⟨see_cache d state ▸ h.cached, fun why hwhy => ?_⟩
      rw [see_readiness] at hwhy
      exact hobeys why hwhy

/-- Whether a caller is told, by a deed, what the law allows for what he waits for or asks. -/
def ToldUnder (L : Law) (d : Dispatcher ω) (rs : List (Job × ω)) (a : ω × Outcome) : Prop :=
  ∃ k, (a.1 ∈ d.pending.waiting k ∨ ∃ job, (job, a.1) ∈ rs ∧ job.fingerprint = k) ∧ L.told k a.2

/-- **A deed that obeys tells what the law allows.**  Four deeds tell somebody: a request that is
answered at once, a rejection, a report, and the end of all waiting.  In each the outcome is one
that was made, or one that the deed obeys to tell. -/
theorem Does.toldUnder {x : Deed ω} (hx : Does d x d') (h : d.Lawful L) (hobeys : x.Obeys L)
    (hd : d.pending.WellFormed) {a : ω × Outcome} (ha : a ∈ d'.answered) :
    a ∈ d.answered ∨ d.ToldUnder L x.request?.toList a := by
  -- All who wait for one thing are told alike.
  have hclosed : ∀ {k o}, L.told k o → d'.answered =
      d.answered ++ (d.pending.waiting k).map (fun w => (w, o)) →
      a ∈ d.answered ∨ d.ToldUnder L x.request?.toList a := by
    intro k o ho heq
    rw [heq] at ha
    refine (List.mem_append.mp ha).imp_right fun hnew => ?_
    obtain ⟨w, hw, rfl⟩ := List.mem_map.mp hnew
    exact ⟨k, .inl hw, ho⟩
  -- One who asks is told at once.
  have hdoor : ∀ {job w o}, x.request? = some (job, w) → L.told job.fingerprint o →
      d'.answered = d.answered ++ [(w, o)] →
      a ∈ d.answered ∨ d.ToldUnder L x.request?.toList a := by
    intro job w o hrequest ho heq
    rw [heq] at ha
    refine (List.mem_append.mp ha).imp_right fun hnew => ?_
    obtain rfl := List.mem_singleton.mp hnew
    exact ⟨_, .inr ⟨job, by simp [hrequest], rfl⟩, ho⟩
  cases hx with
  | hit w hc => exact hdoor rfl (L.told_of_made (h.cached _ _ hc)) (answered_note _ _)
  | refused w _ hr => exact hdoor rfl (L.told_of_made (h.failed _ hr _)) (answered_note _ _)
  | joined | worked => exact .inl ha
  | @opened job w =>
      have hsame : (d.openTask job w).answered = d.answered :=
        (answered_note _ _).trans (List.append_nil _)
      exact .inl (hsame ▸ ha)
  | @handed task rest pool k =>
      have hsame : ({ d with queue := rest }.pass pool k task).answered = d.answered :=
        (answered_note _ _).trans (List.append_nil _)
      exact .inl (hsame ▸ ha)
  | dropped why => exact hclosed (hobeys _) (answered_reject _ _ _)
  | settled => exact hclosed (L.told_of_made hobeys) (answered_settle _ _)
  | observed state =>
      rw [answered_see] at ha
      exact .inl ha
  | cleared why =>
      rw [answered_rejectPending] at ha
      refine (List.mem_append.mp ha).imp_right fun hnew => ?_
      obtain ⟨w, hw, rfl⟩ := List.mem_map.mp hnew
      obtain ⟨k, hk⟩ := (Pending.mem_callers_iff hd.nodup).mp hw
      exact ⟨k, .inl hk, hobeys k⟩
  | late job w => exact hdoor rfl hobeys (answered_note _ _)

/-- Deeds that obey the law keep the dispatcher lawful.  By induction on the path. -/
theorem Path.lawful {ds : List (Deed ω)} (hpath : Path d ds d') (h : d.Lawful L)
    (hobeys : ∀ x ∈ ds, x.Obeys L) : d'.Lawful L := by
  induction hpath with
  | nil => exact h
  | snoc _ hx ih =>
      refine hx.lawful (ih fun x hmem => hobeys x (List.mem_append_left _ hmem)) (hobeys _ ?_)
      simp

/-- **Along a path that obeys everyone is told what the law allows** for what he has waited for from
the start or has come for. -/
theorem Path.toldUnder {ds : List (Deed ω)} (hpath : Path d ds d') (h : d.Lawful L)
    (hobeys : ∀ x ∈ ds, x.Obeys L) (hd : d.pending.WellFormed) {a : ω × Outcome}
    (ha : a ∈ d'.answered) : a ∈ d.answered ∨ d.ToldUnder L (ds.filterMap Deed.request?) a := by
  induction hpath with
  | nil => exact .inl ha
  | @snoc d' d'' ds x hpath hx ih =>
      have hearlier : ∀ y ∈ ds, y.Obeys L := fun y hy => hobeys y (List.mem_append_left _ hy)
      rw [filterMap_snoc]
      rcases hx.toldUnder (hpath.lawful h hearlier) (hobeys x (by simp)) (hpath.wellFormed hd) ha with
        hold | ⟨k, hk, ho⟩
      · refine (ih hearlier hold).imp_right ?_
        rintro ⟨k, hk, ho⟩
        exact ⟨k, hk.imp_right fun ⟨job, hmem, heq⟩ => ⟨job, List.mem_append_left _ hmem, heq⟩, ho⟩
      · refine .inr ⟨k, ?_, ho⟩
        rcases hk with hwait | ⟨job, hmem, heq⟩
        -- Who waits by now has waited from the start, or has come for it on the way.
        · rcases hpath.mem_waiting hwait with hfirst | ⟨job, hmem, heq⟩
          · exact .inl hfirst
          · exact .inr ⟨job, List.mem_append_left _ hmem, heq⟩
        · exact .inr ⟨job, List.mem_append_right _ hmem, heq⟩

end Dispatcher

end AvatarPool
