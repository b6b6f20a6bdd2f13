import AvatarPool.Proofs.Service.Waiters
import AvatarPool.Proofs.Session.Agenda

/-! # What the service tells the parties of a session

The outputs of the service reach those they are for: a handler or a call gets its answer, a lines
host hears that the service has stopped, and whoever hears something is woken.  Nothing else of a
session changes.

The outputs are carried out one after the other, and what several of them do is not a function of
what each of them does alone: a handler or a call that is told twice keeps the last.  So `Delivered`
is a relation between the sessions before and after, with one field for each party that can hear
something, and it composes (`Delivered.trans`).  Who is on the agenda afterwards is only bounded:
`orderly` says that the handlers woken are among those that have been answered. -/

namespace AvatarPool.Session

variable {s t u : Session} {os os' : List (Output Caller)}

/-- A session without what outputs of the service can change. -/
def unheard (s : Session) : Session :=
  { s.body with handlers := [], calls := [], linesHosts := [], bus := {} }

/-- The answers among outputs. -/
def answersIn (os : List (Output Caller)) : List (Caller × Outcome) := os.filterMap Output.answer?

/-- What outputs tell those who asked for a stop. -/
def stopsIn (os : List (Output Caller)) : List (Caller × Except Failure Unit) :=
  os.filterMap Output.stop?

/-- The answers among two lists of outputs are those of the first and then those of the second. -/
theorem answersIn_append (os os' : List (Output Caller)) :
    answersIn (os ++ os') = answersIn os ++ answersIn os' := List.filterMap_append

/-- What two lists of outputs tell those who asked for a stop stands in the same order. -/
theorem stopsIn_append (os os' : List (Output Caller)) :
    stopsIn (os ++ os') = stopsIn os ++ stopsIn os' := List.filterMap_append

/-- What call `n` can hear from outputs. -/
def Hears (os : List (Output Caller)) (n : Nat) (c c' : Call) : Prop :=
  c' = c ∨ (∃ o, (.call n, o) ∈ answersIn os ∧ c' = { c with arrived := some (c.form.answer o) }) ∨
    ∃ r, (.call n, r) ∈ stopsIn os ∧ c' = { c with arrived := some (.unit r) }

/-- **What outputs change**: handlers get their outcomes, calls their answers, and lines hosts are
told that the service has stopped. -/
structure Delivered (os : List (Output Caller)) (s t : Session) : Prop where
  unheard : t.unheard = s.unheard
  -- Either nobody answers handler `h`, and it is as before, or its outcome is one of the answers.
  handlers : ∀ h : Nat,
    (t.handlers[h]? = s.handlers[h]? ∧ ∀ o, (.handler h, o) ∉ answersIn os) ∨
      ∃ o, (.handler h, o) ∈ answersIn os ∧
        t.handlers[h]? = s.handlers[h]?.map fun x : Handler => { x with outcome := some o }
  calls : ∀ (n : Nat) c', t.calls[n]? = some c' → ∃ c, s.calls[n]? = some c ∧ Hears os n c c'
  lines : ∀ i : Nat, t.linesHosts[i]? = s.linesHosts[i]? ∨
    t.linesHosts[i]? = s.linesHosts[i]?.map fun l : LinesHost => { l with serviceStopped := true }
  -- Whoever is on the agenda, if it is a handler, was allowed there before or has been answered.
  orderly : ∀ P, Orderly P s → Orderly (fun h => P h ∨ ∃ o, (.handler h, o) ∈ answersIn os) t
  count : t.calls.length = s.calls.length

namespace Delivered

/-- Outputs can be carried out in two portions. -/
theorem trans (h : Delivered os s t) (h' : Delivered os' t u) : Delivered (os ++ os') s u where
  unheard := h'.unheard.trans h.unheard
  handlers n := by
    rw [answersIn_append]
    rcases h'.handlers n with ⟨hsame', hnone'⟩ | ⟨o', ho', hset'⟩
    · rcases h.handlers n with ⟨hsame, hnone⟩ | ⟨o, ho, hset⟩
      · refine .inl ⟨hsame'.trans hsame, fun o hmem => ?_⟩
        exact (List.mem_append.mp hmem).elim (hnone o) (hnone' o)
      · exact .inr ⟨o, List.mem_append_left _ ho, hsame'.trans hset⟩
    -- What is told last stands.
    · refine .inr ⟨o', List.mem_append_right _ ho', ?_⟩
      rcases h.handlers n with ⟨hsame, -⟩ | ⟨o, -, hset⟩
      · rw [hset', hsame]
      · rw [hset', hset, Option.map_map]
        rfl
  calls n c'' hc'' := by
    obtain ⟨c', hc', hears'⟩ := h'.calls n c'' hc''
    obtain ⟨c, hc, hears⟩ := h.calls n c' hc'
    refine ⟨c, hc, ?_⟩
    unfold Hears at hears hears' ⊢
    rw [answersIn_append, stopsIn_append]
    -- The form of a call never changes, and forgetting what has arrived restores the call.
    have hform : c'.form = c.form ∧ { c' with arrived := c.arrived } = c := by
      rcases hears with rfl | ⟨o, -, rfl⟩ | ⟨r, -, rfl⟩ <;> exact ⟨rfl, rfl⟩
    rcases hears' with rfl | ⟨o, ho, rfl⟩ | ⟨r, hr, rfl⟩
    · rcases hears with rfl | ⟨o, ho, rfl⟩ | ⟨r, hr, rfl⟩
      · exact .inl rfl
      · exact .inr (.inl ⟨o, List.mem_append_left _ ho, rfl⟩)
      · exact .inr (.inr ⟨r, List.mem_append_left _ hr, rfl⟩)
    · refine .inr (.inl ⟨o, List.mem_append_right _ ho, ?_⟩)
      rw [hform.1, ← hform.2]
    · refine .inr (.inr ⟨r, List.mem_append_right _ hr, ?_⟩)
      rw [← hform.2]
  lines i := by
    rcases h'.lines i with hsame' | hset'
    · rw [hsame']
      exact h.lines i
    · right
      rcases h.lines i with hsame | hset
      · rw [hset', hsame]
      · rw [hset', hset, Option.map_map]
        rfl
  orderly P hs := by
    -- A handler may be there because it was before, or because either portion answers it.
    refine (h'.orderly _ (h.orderly P hs)).mono fun n hn => ?_
    rw [answersIn_append]
    rcases hn with (hP | ⟨o, ho⟩) | ⟨o, ho⟩
    · exact .inl hP
    · exact .inr ⟨o, List.mem_append_left _ ho⟩
    · exact .inr ⟨o, List.mem_append_right _ ho⟩
  count := h'.count.trans h.count

/-- Outputs that tell nobody anything. -/
theorem of_silent (hanswers : answersIn os = [])
    (hbody : { t.body with bus := {} } = { s.body with bus := {} })
    (horder : ∀ P, Orderly P s → Orderly P t) : Delivered os s t := by
  have hhandlers : t.handlers = s.handlers := (congrArg Session.handlers hbody :)
  have hcalls : t.calls = s.calls := (congrArg Session.calls hbody :)
  have hlines : t.linesHosts = s.linesHosts := (congrArg Session.linesHosts hbody :)
  -- Every field follows from what has stayed the same.
  refine ⟨?_, fun n => .inl ⟨by rw [hhandlers], by simp [hanswers]⟩, fun n c hc => ?_,
    fun i => .inl (by rw [hlines]), fun P hs => (horder P hs).mono fun n => .inl, by rw [hcalls]⟩
  · exact (congrArg (fun b : Session => { b with handlers := [], calls := [], linesHosts := [] })
      hbody :)
  · exact ⟨c, hcalls ▸ hc, .inl rfl⟩

/-- Only turns that are not a handler's are put on the agenda. -/
theorem of_wake {o : Output Caller} (hanswers : answersIn [o] = []) {v : Turn}
    (hv : ∀ n, v ≠ .handler n) : Delivered [o] s (s.wake v) :=
  .of_silent hanswers (congrArg (fun b : Session => { b with bus := {} }) (body_wake s v))
    fun _ hs => hs.wake fun n hn => absurd hn (hv n)

/-- A call hears its answer, if it still waits for one. -/
theorem of_arrive {n : Nat} {c : Call} (hc : s.calls[n]? = some c) {a : Answer}
    (ha : (∃ o, (.call n, o) ∈ answersIn os ∧ a = c.form.answer o) ∨
      ∃ r, (.call n, r) ∈ stopsIn os ∧ a = .unit r)
    (hnone : ∀ h o, (.handler h, o) ∉ answersIn os) : Delivered os s (s.arrive n a) := by
  -- A call that has gone away, or that has its answer, is not told anything more.
  unfold arrive
  rw [hc]
  dsimp only
  split
  · have hbody := body_wake (s.modifyCall n fun c => { c with arrived := some a }) (.call n)
    have hhandlers := congrArg Session.handlers hbody
    have hlines := congrArg Session.linesHosts hbody
    have hcalls := congrArg Session.calls hbody
    refine ⟨congrArg (fun b : Session =>
      { b with handlers := [], calls := [], linesHosts := [], bus := {} }) hbody,
      fun h => .inl ⟨?_, hnone h⟩, fun m c' hc' => ?_, fun i => .inl ?_, fun P hs => ?_,
      (congrArg List.length hcalls).trans (List.length_modify _ _ _)⟩
    · exact congrArg (fun l : List Handler => l[h]?) hhandlers
    -- The calls afterwards are those before with one of them modified.
    · have hc'' : (s.calls.modify n fun c => { c with arrived := some a })[m]? = some c' :=
        (congrArg (fun l : List Call => l[m]?) hcalls).symm.trans hc'
      rw [List.getElem?_modify] at hc''
      obtain ⟨b, hb, rfl⟩ := Option.map_eq_some_iff.mp hc''
      refine ⟨b, hb, ?_⟩
      -- Only call `n` itself can differ.
      split
      · rename_i hnm
        subst hnm
        obtain rfl := Option.some.inj (hc.symm.trans hb)
        rcases ha with ⟨o, ho, rfl⟩ | ⟨r, hr, rfl⟩
        · exact .inr (.inl ⟨o, ho, rfl⟩)
        · exact .inr (.inr ⟨r, hr, rfl⟩)
      · exact .inl rfl
    · exact congrArg (fun l : List LinesHost => l[i]?) hlines
    · have hsame : Orderly P (s.modifyCall n fun c => { c with arrived := some a }) :=
        hs.of_body rfl rfl
      exact (hsame.wake (u := .call n) nofun).mono fun m => .inl
  · exact ⟨rfl, fun h => .inl ⟨rfl, hnone h⟩, fun m c' hc' => ⟨c', hc', .inl rfl⟩,
      fun i => .inl rfl, fun P hs => hs.mono fun m => .inl, rfl⟩

end Delivered

/-! ## Every output -/

/-- An answer reaches the handler or the call that it is for.  A lines host never asks the service
for a picture, so an answer for one would be lost. -/
theorem delivered_answer (s : Session) (caller : Caller) (o : Outcome) :
    Delivered [.effect (.answered caller o)] s (s.arriveOutcome caller o) := by
  have hmem : (caller, o) ∈ answersIn [.effect (.answered caller o)] := List.mem_singleton_self _
  cases caller with
  | call n =>
      have hnone : ∀ h o', (Caller.handler h, o') ∉ answersIn [.effect (.answered (.call n) o)] :=
        fun h o' hm => nomatch List.mem_singleton.mp hm
      unfold arriveOutcome
      dsimp only
      split
      · rename_i c hc
        exact .of_arrive hc (.inl ⟨o, hmem, rfl⟩) hnone
      · exact ⟨rfl, fun h => .inl ⟨rfl, hnone h⟩, fun m c' hc' => ⟨c', hc', .inl rfl⟩,
          fun i => .inl rfl, fun P hs => hs.mono fun m => .inl, rfl⟩
  -- The handler keeps its outcome and is woken; nothing else changes.
  | handler h =>
      have hbody := body_wake
        { s with handlers := s.handlers.modify h fun x => { x with outcome := some o } } (.handler h)
      have hhandlers := congrArg Session.handlers hbody
      have hlines : (s.arriveOutcome (.handler h) o).linesHosts = s.linesHosts :=
        (congrArg Session.linesHosts hbody :)
      refine ⟨congrArg (fun b : Session =>
        { b with handlers := [], calls := [], linesHosts := [], bus := {} }) hbody, fun n => ?_,
        fun m c' hc' => ⟨c', ?_, .inl rfl⟩, fun i => .inl (by rw [hlines]), fun P hs => ?_,
        (congrArg (fun b : Session => b.calls.length) hbody :)⟩
      · have hget : (s.arriveOutcome (.handler h) o).handlers[n]? =
            (s.handlers.modify h fun x => { x with outcome := some o })[n]? :=
          congrArg (fun l : List Handler => l[n]?) hhandlers
        rw [hget, List.getElem?_modify]
        -- Of the other handlers the output says nothing, because it is a single answer.
        by_cases hn : h = n
        · subst hn
          exact .inr ⟨o, hmem, by simp⟩
        · refine .inl ⟨by simp [hn], fun o' hm => ?_⟩
          cases List.mem_singleton.mp hm
          exact hn rfl
      · exact (congrArg (fun l : List Call => l[m]?) (congrArg Session.calls hbody)).symm.trans hc'
      · have hsame : Orderly P
            { s with handlers := s.handlers.modify h fun x => { x with outcome := some o } } :=
          hs.of_body rfl rfl
        refine (hsame.mono fun n => .inl).wake fun n hn => ?_
        cases hn
        exact .inr ⟨o, hmem⟩
  | lines i =>
      exact ⟨rfl, fun h => .inl ⟨rfl, fun o' hm => nomatch List.mem_singleton.mp hm⟩,
        fun m c' hc' => ⟨c', hc', .inl rfl⟩, fun i => .inl rfl, fun P hs => hs.mono fun m => .inl, rfl⟩

/-- The answer to a request to stop reaches the call that made it; a lines host is marked as told,
and a handler never asks for a stop. -/
theorem delivered_stop {o : Output Caller} {caller : Caller} {r : Except Failure Unit}
    (ho : o.stop? = some (caller, r)) (hanswers : answersIn [o] = []) (s : Session) :
    Delivered [o] s (s.arriveStop caller r) := by
  have hmem : (caller, r) ∈ stopsIn [o] := by simp [stopsIn, ho]
  cases caller with
  | call n =>
      unfold arriveStop
      dsimp only
      cases hc : s.calls[n]? with
      | some c => exact .of_arrive hc (.inr ⟨r, hmem, rfl⟩) (by simp [hanswers])
      | none =>
          -- There is no such call: nothing happens.
          have hsame : s.arrive n (.unit r) = s := by
            unfold arrive
            rw [hc]
          rw [hsame]
          exact .of_silent hanswers rfl fun _ => id
  | handler h => exact .of_silent hanswers rfl fun _ => id
  | lines i =>
      have hbody := body_wake (s.modifyLines i fun l => { l with serviceStopped := true }) (.lines i)
      have hhandlers := congrArg Session.handlers hbody
      refine ⟨congrArg (fun b : Session =>
        { b with handlers := [], calls := [], linesHosts := [], bus := {} }) hbody,
        fun n => .inl ⟨?_, by simp [hanswers]⟩, fun m c' hc' => ⟨c', ?_, .inl rfl⟩, fun j => ?_,
        fun P hs => ?_, (congrArg (fun b : Session => b.calls.length) hbody :)⟩
      · exact congrArg (fun l : List Handler => l[n]?) hhandlers
      · exact (congrArg (fun l : List Call => l[m]?) (congrArg Session.calls hbody)).symm.trans hc'
      · have hget : (s.arriveStop (.lines i) r).linesHosts[j]? =
            (s.linesHosts.modify i fun l => { l with serviceStopped := true })[j]? :=
          congrArg (fun l : List LinesHost => l[j]?) (congrArg Session.linesHosts hbody)
        rw [hget, List.getElem?_modify]
        by_cases hj : i = j
        · exact .inr (by simp [hj])
        · exact .inl (by simp [hj])
      · have hsame : Orderly P (s.modifyLines i fun l => { l with serviceStopped := true }) :=
          hs.of_body rfl rfl
        exact (hsame.wake (u := .lines i) nofun).mono fun m => .inl

/-- **One output.** -/
theorem delivered_carryOut (s : Session) (o : Output Caller) : Delivered [o] s (s.carryOut o) := by
  cases o with
  | effect e =>
      cases e with
      | answered caller outcome => exact delivered_answer s caller outcome
      | handed k task => exact .of_wake rfl nofun
      | started size =>
          -- Waking the workers one by one is waking a list of turns.
          have hfold : ∀ (ks : List Nat) (s : Session),
              (ks.foldl (fun s k => s.schedule (.worker k)) s) =
                (ks.map Turn.worker).foldl schedule s := by
            intro ks s
            rw [List.foldl_map]
          show Delivered _ s ((List.range size).foldl (fun s k => s.schedule (.worker k)) s)
          rw [hfold]
          refine .of_silent rfl
            (congrArg (fun b : Session => { b with bus := {} }) (body_foldl_schedule _ s))
            fun P hs => hs.foldl_schedule fun n hn => ?_
          obtain ⟨k, -, hk⟩ := List.mem_map.mp hn
          cases hk
      | published | queued | dropped => exact .of_silent rfl rfl fun P hs => hs.of_body rfl rfl
  | stopped caller => exact delivered_stop rfl rfl s
  | stopRefused caller => exact delivered_stop rfl rfl s
  | dismissed k => exact .of_wake rfl nofun
  | roused =>
      exact .of_silent rfl
        (congrArg (fun b : Session => { b with bus := {} }) (body_schedule s .dispatcher))
        fun _ hs => hs.schedule nofun
  | postponed => exact .of_silent rfl rfl fun _ hs => hs.postpone nofun

/-- **All outputs of the service take place.** -/
theorem delivered_setService (s : Session) (service : Service Caller) :
    Delivered service.outputs { s with service := { service with outputs := [] } }
      (s.setService service) := by
  have hfold : ∀ (os : List (Output Caller)) (s : Session), Delivered os s (os.foldl carryOut s) := by
    intro os
    induction os with
    | nil => exact fun s => .of_silent rfl rfl fun _ => id
    -- Each output takes place in the session that those before it have left.
    | cons o rest ih => exact fun s => (delivered_carryOut s o).trans (ih _)
  exact hfold service.outputs _

end AvatarPool.Session
