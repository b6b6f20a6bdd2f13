import AvatarPool.Proofs.Dispatch.Laws

/-! # Engines whose results depend on the job alone

A `PureEngine` makes of equal jobs equal results.  As long as the gate does not fail and nothing is
rejected, the dispatcher agrees with such an engine: whatever it keeps or tells is what an invocation
for that very job yields, whether it comes from a worker, from the cache, or to many callers at
once.

This is the case of `Dispatch.Laws` in which both predicates are equality with one function of the
job.  Nothing is asked of the engine but that it be a function; it may refuse a job or break down,
as long as it does so each time. -/

namespace AvatarPool

/-- What a pure engine makes of one job: a value, a refusal with its message, or a breakdown. -/
inductive Yield (α : Type) where
  | value (a : α)
  | refused (message : String)
  | broken
  deriving DecidableEq, Repr

/-- How an invocation with this result ends. -/
def Yield.ending {α : Type} (f : α → Ending) : Yield α → Ending
  | value a => f a
  | refused message => .failed message
  | broken => .panicked

/-- What is reported of an invocation with this result: the artifact made of its value, the engine's
own error, or a breakdown, which names the task. -/
def Yield.outcome {α : Type} (key : Fingerprint) (make : α → Artifact) : Yield α → Outcome
  | value a => .ok (make a)
  | refused message => .error (.engine message)
  | broken => .error (.enginePanicked key.label)

/-- A worker reports an invocation as what it has yielded, whether it has rendered a picture or
derived a name. -/
theorem Yield.outcome_ending {α : Type} {key : Fingerprint} {f : α → Ending} {make : α → Artifact}
    (hf : ∀ a, (f a).outcome key = .ok (make a)) (y : Yield α) :
    (y.ending f).outcome key = y.outcome key make := by
  cases y with
  | value a => exact hf a
  | refused message => rfl
  | broken => rfl

/-- An engine whose results are functions of their arguments. -/
structure PureEngine where
  render : String → Size → Yield (List UInt8)
  name : String → Yield String

/-- The job of a fingerprint. -/
def Fingerprint.job : Fingerprint → Job
  | .image size seed => .image seed size
  | .name seed => .name seed

@[simp] theorem Job.job_fingerprint (job : Job) : job.fingerprint.job = job := by
  cases job <;> rfl

namespace PureEngine

/-- How an invocation for a job ends. -/
def ending (e : PureEngine) : Job → Ending
  | .image seed size => (e.render seed size).ending .image
  | .name seed => (e.name seed).ending .name

/-- **The outcome of a job done directly**, told from what the engine yields and not from what a
worker makes of it: the picture of its bytes, the name, the engine's own error, or a breakdown that
names the job. -/
def direct (e : PureEngine) : Job → Outcome
  | .image seed size =>
    (e.render seed size).outcome (.image size seed) fun png => .image (.ofPng png)
  | .name seed => (e.name seed).outcome (.name seed) .name

/-- **A worker reports the outcome of the job done directly.** -/
theorem outcome_ending (e : PureEngine) (job : Job) :
    (e.ending job).outcome job.fingerprint = e.direct job := by
  cases job with
  | image seed size => exact Yield.outcome_ending (fun _ => rfl) (e.render seed size)
  | name seed => exact Yield.outcome_ending (fun _ => rfl) (e.name seed)

/-- What is told under a fingerprint. -/
def told (e : PureEngine) (key : Fingerprint) : Outcome := e.direct key.job

/-- The law that nothing but what the engine yields is made or told. -/
def law (e : PureEngine) : Law where
  made key o := o = e.told key
  told key o := o = e.told key
  told_of_made := id

@[simp] theorem told_fingerprint (e : PureEngine) (job : Job) :
    e.told job.fingerprint = e.direct job := by
  rw [told, Job.job_fingerprint]

end PureEngine

variable {ω : Type} {e : PureEngine}

/-- Whether a deed is one of a dispatcher that serves a pure engine behind a gate that does not
fail: nothing is rejected, and what is reported is what the engine yields. -/
def Deed.IsCalm (e : PureEngine) : Deed ω → Prop
  | .accept _ _ | .hand _ _ | .work => True
  | .settle c => c.outcome = e.told c.fingerprint
  | .observe state => ∀ why, state ≠ .failed why
  | .drop _ _ | .clear _ | .refuse _ _ => False

theorem Deed.IsCalm.obeys {x : Deed ω} (h : x.IsCalm e) : x.Obeys e.law := by
  cases x with
  | accept | hand | work => trivial
  | settle c => exact h
  | observe state => exact fun why hwhy => absurd hwhy (h why)
  | drop | clear | refuse => exact h.elim

namespace Dispatcher

variable {d d' : Dispatcher ω}

/-- The dispatcher has seen no failed gate, and keeps what the engine yields. -/
structure Agrees (e : PureEngine) (d : Dispatcher ω) : Prop where
  unfailed : ∀ why, d.readiness ≠ .failed why
  cached : ∀ k artifact, d.cache.get? k = some artifact → e.told k = .ok artifact

theorem agrees_ofSize (e : PureEngine) (size : Nat) :
    ({ poolSize := size } : Dispatcher ω).Agrees e where
  unfailed := nofun
  cached := nofun

/-- Neither the gate nor the cache has changed. -/
theorem Agrees.congr (h : d.Agrees e) (hr : d'.readiness = d.readiness) (hc : d'.cache = d.cache) :
    d'.Agrees e where
  unfailed := hr ▸ h.unfailed
  cached := hc ▸ h.cached

/-- Such a dispatcher is lawful. -/
theorem Agrees.lawful (h : d.Agrees e) : d.Lawful e.law where
  cached k artifact hk := (h.cached k artifact hk).symm
  failed why hwhy := absurd hwhy (h.unfailed why)

/-- A report of the engine's own result. -/
theorem Agrees.settle (h : d.Agrees e) {c : WorkReport} (hc : c.outcome = e.told c.fingerprint) :
    (d.settle c).Agrees e where
  unfailed := settle_readiness d c ▸ h.unfailed
  cached k artifact hk := ((h.lawful.settle hc).cached k artifact hk).symm

/-- **A calm deed keeps the agreement.** -/
theorem Does.agrees {x : Deed ω} (hx : Does d x d') (h : d.Agrees e) (hcalm : x.IsCalm e) :
    d'.Agrees e := by
  cases hx with
  | hit | refused | joined | opened | handed | worked => exact h.congr rfl rfl
  | settled => exact h.settle hcalm
  | observed state =>
      refine ⟨fun why => ?_, see_cache d state ▸ h.cached⟩
      rw [see_readiness]
      exact hcalm why
  | dropped | cleared | late => exact hcalm.elim

/-- Whether a caller is told, by a deed, what the engine yields for what he waits for or asks. -/
def ToldBy (e : PureEngine) (d : Dispatcher ω) (rs : List (Job × ω)) (a : ω × Outcome) : Prop :=
  ∃ k, (a.1 ∈ d.pending.waiting k ∨ ∃ job, (job, a.1) ∈ rs ∧ job.fingerprint = k) ∧ a.2 = e.told k

/-- Calm deeds keep the dispatcher in agreement with the engine.  By induction on the path. -/
theorem Path.agrees {ds : List (Deed ω)} (hpath : Path d ds d') (h : d.Agrees e)
    (hcalm : ∀ x ∈ ds, x.IsCalm e) : d'.Agrees e := by
  induction hpath with
  | nil => exact h
  | snoc _ hx ih =>
      refine hx.agrees (ih fun x hmem => hcalm x (List.mem_append_left _ hmem)) (hcalm _ ?_)
      simp

/-- **Along a calm path everyone is told what the engine yields** for what he has waited for from
the start or has come for. -/
theorem Path.toldBy {ds : List (Deed ω)} (hpath : Path d ds d') (h : d.Agrees e)
    (hcalm : ∀ x ∈ ds, x.IsCalm e) (hd : d.pending.WellFormed) {a : ω × Outcome}
    (ha : a ∈ d'.answered) : a ∈ d.answered ∨ d.ToldBy e (ds.filterMap Deed.request?) a :=
  hpath.toldUnder h.lawful (fun x hx => (hcalm x hx).obeys) hd ha

end Dispatcher

end AvatarPool
