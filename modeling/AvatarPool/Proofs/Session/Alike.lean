import AvatarPool.Proofs.Session.Agenda

/-! # Sessions that are alike but for callers who have left

A caller who has asked for something and goes away leaves a call behind, with turns for it and
perhaps an answer that nobody hears.  `Session.without` takes these out of a session, and two
sessions are `Alike` if nothing else tells them apart.  Every function of a session makes alike
sessions of alike ones: none of them looks at a call in order to find out whether its caller is
still there, except to end that call.

The comparison is by what is left: `Alike` asks that both sessions are the same without these
callers, and that these callers are mere requests, which hold no handle and for which no host runs.
For every operation there are then two cases.  One that concerns such a call changes neither session
as far as the rest can see, on whichever side it takes place (the lemmas in `_left`); one that
concerns anybody else is the same operation on both sides, because `without` commutes with it. -/

namespace AvatarPool.Session

variable {gone : List Nat} {s t u : Session}

/-! ## Without some callers -/

/-- A call that nobody waits for and that has been told nothing. -/
def Call.vacated (c : Call) : Call :=
  { c with waiting := false, abandoned := false, arrived := none }

/-- Whether it is the turn of one of the calls `gone`. -/
def Turn.isOf (gone : List Nat) : Turn → Bool
  | .call n => n ∈ gone
  | _ => false

@[simp] theorem Turn.isOf_call {n : Nat} : (Turn.call n).isOf gone ↔ n ∈ gone := by
  simp [Turn.isOf]

/-- **A session without the callers `gone`**: their calls are vacated, have no turns, and have not
been answered. -/
def without (gone : List Nat) (s : Session) : Session :=
  { s with
    calls := s.calls.mapIdx fun n c => if n ∈ gone then c.vacated else c
    agenda := s.agenda.filter fun t => !t.isOf gone
    postponed := s.postponed.filter fun t => !t.isOf gone
    done := s.done.filter fun d => d.1 ∉ gone }

theorem getElem?_calls_without (gone : List Nat) (s : Session) (n : Nat) :
    (s.without gone).calls[n]? = s.calls[n]?.map fun c => if n ∈ gone then c.vacated else c :=
  List.getElem?_mapIdx

/-- Whoever asks that is not gone is found at the same place.  Leaving others out does not move it
out of the list, nor into it. -/
theorem contains_filter_isOf {v : Turn} (hv : ¬ v.isOf gone) (l : List Turn) :
    (l.filter fun t => !t.isOf gone).contains v = l.contains v := by
  rw [Bool.eq_iff_iff, List.contains_iff_mem, List.contains_iff_mem, List.mem_filter]
  simp [hv]

/-- A turn of somebody else is put on the agenda all the same. -/
theorem without_schedule {v : Turn} (hv : ¬ v.isOf gone) (s : Session) :
    (s.schedule v).without gone = (s.without gone).schedule v := by
  have hsame : (s.without gone).agenda.contains v = s.agenda.contains v :=
    contains_filter_isOf hv s.agenda
  unfold schedule
  rw [hsame]
  split
  · rfl
  · have hkept : (s.agenda ++ [v]).filter (fun t => !t.isOf gone) =
        s.agenda.filter (fun t => !t.isOf gone) ++ [v] := by simp [List.filter_append, hv]
    exact congrArg (fun a => { s.without gone with agenda := a }) hkept

/-- A turn of one of the calls does not count. -/
theorem without_schedule_of_isOf {v : Turn} (hv : v.isOf gone) (s : Session) :
    (s.schedule v).without gone = s.without gone := by
  unfold schedule
  split
  · rfl
  · have hdropped : (s.agenda ++ [v]).filter (fun t => !t.isOf gone) =
        s.agenda.filter (fun t => !t.isOf gone) := by simp [List.filter_append, hv]
    exact congrArg (fun a => { s.without gone with agenda := a }) hdropped

/-- Of a row of turns only those of others count. -/
theorem without_foldl_schedule (turns : List Turn) (s : Session) :
    (turns.foldl schedule s).without gone =
      (turns.filter fun t => !t.isOf gone).foldl schedule (s.without gone) := by
  induction turns generalizing s with
  | nil => rfl
  | cons v rest ih =>
      rw [List.foldl_cons, ih]
      by_cases hv : v.isOf gone
      · rw [without_schedule_of_isOf hv, List.filter_cons_of_neg (by simp [hv])]
      · rw [without_schedule hv, List.filter_cons_of_pos (by simp [hv]), List.foldl_cons]

/-- A change to one of the calls does not count. -/
theorem without_modifyCall_of_mem {n : Nat} (hn : n ∈ gone) {f : Call → Call}
    (hf : ∀ c, (f c).vacated = c.vacated) (s : Session) :
    (s.modifyCall n f).without gone = s.without gone := by
  have hcalls : ((s.modifyCall n f).without gone).calls = (s.without gone).calls := by
    refine List.ext_getElem? fun m => ?_
    rw [getElem?_calls_without, getElem?_calls_without, modifyCall, List.getElem?_modify]
    cases s.calls[m]? with
    | none => rfl
    | some c =>
        by_cases hm : n = m
        · subst hm
          simp [hn, hf]
        · simp [hm]
  exact congrArg (fun l => { s.without gone with calls := l }) hcalls

/-- A change to another call takes place all the same. -/
theorem without_modifyCall {n : Nat} (hn : n ∉ gone) (f : Call → Call) (s : Session) :
    (s.modifyCall n f).without gone = (s.without gone).modifyCall n f := by
  have hcalls : ((s.modifyCall n f).without gone).calls = (s.without gone).calls.modify n f := by
    refine List.ext_getElem? fun m => ?_
    rw [getElem?_calls_without, List.getElem?_modify, getElem?_calls_without, modifyCall,
      List.getElem?_modify]
    cases s.calls[m]? with
    | none => rfl
    | some c =>
        by_cases hm : n = m
        · subst hm
          simp [hn]
        · simp [hm]
  exact congrArg (fun l => { s.without gone with calls := l }) hcalls

/-- More callers are left out.  Whoever is left out twice is left out once. -/
theorem without_without {more : List Nat} (hmore : gone ⊆ more) (s : Session) :
    (s.without gone).without more = s.without more := by
  have hturns : ∀ l : List Turn, (l.filter fun t => !t.isOf gone).filter (fun t => !t.isOf more) =
      l.filter fun t => !t.isOf more := by
    intro l
    rw [List.filter_filter]
    refine List.filter_congr fun v _ => ?_
    cases v with
    | call n =>
        rw [Bool.and_eq_left_iff_imp]
        simp only [Turn.isOf, Bool.not_eq_true', decide_eq_false_iff_not]
        exact fun hn hgone => hn (hmore hgone)
    | _ => rfl
  have hdone : (s.done.filter fun d => d.1 ∉ gone).filter (fun d => d.1 ∉ more) =
      s.done.filter fun d => d.1 ∉ more := by
    rw [List.filter_filter]
    refine List.filter_congr fun d _ => ?_
    rw [Bool.and_eq_left_iff_imp]
    simp only [decide_eq_true_eq]
    exact fun hn hgone => hn (hmore hgone)
  have hcalls : ((s.without gone).without more).calls = (s.without more).calls := by
    refine List.ext_getElem? fun n => ?_
    rw [getElem?_calls_without, getElem?_calls_without, getElem?_calls_without, Option.map_map]
    congr 1
    funext c
    by_cases hn : n ∈ more
    · by_cases hgone : n ∈ gone <;> simp [hn, hgone, Call.vacated]
    · have hgone : n ∉ gone := fun h => hn (hmore h)
      simp [hn, hgone]
  unfold without at hcalls ⊢
  dsimp only at hcalls ⊢
  -- Each of the fields that `without` changes has been dealt with.
  rw [hcalls, hturns, hturns, hdone]

/-! ## What calls are -/

/-- Who takes the turn in which a call ends, and whether it holds a handle. -/
def kind? (s : Session) (n : Nat) : Option (Turn × Bool) :=
  s.calls[n]?.map fun c => (c.turn, c.holds)

/-- Call `n` is no more than a request: it ends in its own turn, and holds no handle. -/
def IsRequest (s : Session) (n : Nat) : Prop := s.kind? n = some (.call n, false)

instance (s : Session) (n : Nat) : Decidable (s.IsRequest n) :=
  inferInstanceAs (Decidable (s.kind? n = some (.call n, false)))

/-- Call `n` is one that a host runs for: it ends in the turn of the host. -/
def IsHosted (s : Session) (n : Nat) : Prop := ∃ v holds, s.kind? n = some (v, holds) ∧ v ≠ .call n

/-- The two kinds exclude each other. -/
theorem IsHosted.not_isRequest {n : Nat} (h : s.IsHosted n) : ¬ s.IsRequest n := by
  obtain ⟨v, holds, hkind, hv⟩ := h
  intro hrequest
  cases hkind.symm.trans hrequest
  exact hv rfl

theorem IsRequest.lt_length {n : Nat} (h : s.IsRequest n) : n < s.calls.length := by
  obtain ⟨c, hc, -⟩ := Option.map_eq_some_iff.mp h
  exact (List.getElem?_eq_some_iff.mp hc).1

theorem kind?_of_calls (h : t.calls = s.calls) : t.kind? = s.kind? := by
  funext n
  rw [kind?, kind?, h]

/-- Calls stay what they are.  Only what is kept when a call is vacated is looked at, and that is
not changed. -/
theorem kind?_modifyCall (n : Nat) {f : Call → Call} (hf : ∀ c, (f c).vacated = c.vacated)
    (s : Session) : (s.modifyCall n f).kind? = s.kind? := by
  funext m
  have hkind : ∀ c, ((f c).turn, (f c).holds) = (c.turn, c.holds) :=
    fun c => (congrArg (fun c : Call => (c.turn, c.holds)) (hf c) :)
  rw [kind?, kind?, modifyCall, List.getElem?_modify]
  cases s.calls[m]? with
  | none => rfl
  | some c =>
      by_cases hm : n = m
      · simpa [hm] using hkind c
      · simp [hm]

/-- A vacated call is of the kind it was. -/
theorem kind?_without (gone : List Nat) (s : Session) : (s.without gone).kind? = s.kind? := by
  funext n
  rw [kind?, kind?, getElem?_calls_without, Option.map_map]
  congr 1
  funext c
  by_cases hn : n ∈ gone
  · simp [hn, Call.vacated]
  · simp [hn]

/-! ## Alike sessions

The fields besides the first one are not about the difference between the two sessions, but about
the callers in it: that they are of the simple kind. -/

/-- **Sessions that are alike but for the callers `gone`**, each of whom has only asked for something;
the calls that hosts run for are others.  What a caller who has left does can be added to either side
alone. -/
structure Alike (gone : List Nat) (s t : Session) : Prop where
  seen : s.without gone = t.without gone
  requests : ∀ n ∈ gone, s.IsRequest n
  hostCalls : ∀ host ∈ s.hosts, ∀ n, host.call = some n → s.IsHosted n
  linesCalls : ∀ l ∈ s.linesHosts, s.IsHosted l.call

namespace Alike

section

variable (h : Alike gone s t)

include h

theorem service : s.service = t.service := (congrArg Session.service h.seen :)

theorem hosts : s.hosts = t.hosts := (congrArg Session.hosts h.seen :)

theorem linesHosts : s.linesHosts = t.linesHosts := (congrArg Session.linesHosts h.seen :)

theorem handlers : s.handlers = t.handlers := (congrArg Session.handlers h.seen :)

theorem links : s.links = t.links := (congrArg Session.links h.seen :)

theorem postponed : s.postponed.filter (fun t => !t.isOf gone) =
    t.postponed.filter fun t => !t.isOf gone := (congrArg Session.postponed h.seen :)

theorem kind? : s.kind? = t.kind? := by
  rw [← kind?_without gone s, h.seen, kind?_without]

theorem length_calls : s.calls.length = t.calls.length := by
  have hlength := congrArg (fun u : Session => u.calls.length) h.seen
  simpa [without] using hlength

/-- All other calls are the same. -/
theorem getElem?_calls {n : Nat} (hn : n ∉ gone) : s.calls[n]? = t.calls[n]? := by
  have hsame := congrArg (fun u : Session => u.calls[n]?) h.seen
  simpa [getElem?_calls_without, hn] using hsame

theorem isAbandoned {n : Nat} (hn : n ∉ gone) : s.isAbandoned n = t.isAbandoned n := by
  rw [Session.isAbandoned, Session.isAbandoned, h.getElem?_calls hn]

/-- All other turns are due alike. -/
theorem mem_agenda {v : Turn} (hv : ¬ v.isOf gone) : v ∈ s.agenda ↔ v ∈ t.agenda := by
  have hagenda : s.agenda.filter (fun t => !t.isOf gone) = t.agenda.filter fun t => !t.isOf gone :=
    (congrArg Session.agenda h.seen :)
  have hmem := congrArg (fun l : List Turn => v ∈ l) hagenda
  simpa [List.mem_filter, hv] using hmem

/-- What is asked of the hosts carries over, as both sides have the same hosts and the same kinds of
calls. -/
theorem symm : Alike gone t s := by
  have hkind := h.kind?
  obtain ⟨hseen, hrequests, hhosts, hlines⟩ := h
  have hhosts' : s.hosts = t.hosts := (congrArg Session.hosts hseen :)
  have hlines' : s.linesHosts = t.linesHosts := (congrArg Session.linesHosts hseen :)
  rw [hhosts'] at hhosts
  rw [hlines'] at hlines
  unfold IsRequest at hrequests
  unfold IsHosted at hhosts hlines
  rw [hkind] at hrequests hhosts hlines
  exact ⟨hseen.symm, hrequests, hhosts, hlines⟩

theorem trans (h' : Alike gone t u) : Alike gone s u :=
  ⟨h.seen.trans h'.seen, h.requests, h.hostCalls, h.linesCalls⟩

/-- Neither the hosts have changed, nor what the calls are. -/
theorem of_kind? {s' t' : Session} (hkind : s'.kind? = s.kind?) (hhosts : s'.hosts = s.hosts)
    (hlines : s'.linesHosts = s.linesHosts) (hseen : s'.without gone = t'.without gone) :
    Alike gone s' t' := by
  obtain ⟨-, hrequests, hhostCalls, hlinesCalls⟩ := h
  unfold IsRequest at hrequests
  unfold IsHosted at hhostCalls hlinesCalls
  rw [← hkind] at hrequests hhostCalls hlinesCalls
  rw [← hhosts] at hhostCalls
  rw [← hlines] at hlinesCalls
  exact ⟨hseen, hrequests, hhostCalls, hlinesCalls⟩

/-- What concerns neither calls nor hosts is changed in both. -/
theorem update (f : Session → Session) (hf : ∀ u, (f u).without gone = f (u.without gone))
    (hsame : (f s).hosts = s.hosts ∧ (f s).linesHosts = s.linesHosts ∧ (f s).calls = s.calls) :
    Alike gone (f s) (f t) :=
  h.of_kind? (kind?_of_calls hsame.2.2) hsame.1 hsame.2.1 (by rw [hf, hf, h.seen])

/-- Only the agendas have changed. -/
theorem of_body {s' t' : Session} (hbody : s'.body = s.body)
    (hseen : s'.without gone = t'.without gone) : Alike gone s' t' :=
  h.of_kind? (kind?_of_calls (congrArg Session.calls hbody :)) (congrArg Session.hosts hbody :)
    (congrArg Session.linesHosts hbody :) hseen

/-! ## The agenda -/

/-- The turn is one that counts, or not. -/
theorem schedule (v : Turn) : Alike gone (s.schedule v) (t.schedule v) := by
  refine h.of_body (body_schedule s v) ?_
  by_cases hv : v.isOf gone
  · rw [without_schedule_of_isOf hv, without_schedule_of_isOf hv, h.seen]
  · rw [without_schedule hv, without_schedule hv, h.seen]

/-- A turn of a caller who has left does not count. -/
theorem schedule_left {v : Turn} (hv : v.isOf gone) : Alike gone (s.schedule v) t :=
  h.of_body (body_schedule s v) ((without_schedule_of_isOf hv s).trans h.seen)

/-- Waking is the same, if it does anything. -/
theorem wake_left {v : Turn} (hv : v.isOf gone) : Alike gone (s.wake v) t := by
  unfold Session.wake
  split
  · exact h
  · exact h.schedule_left hv

/-- For a turn that counts, both sides know alike whether it has been put off. -/
theorem wake (v : Turn) : Alike gone (s.wake v) (t.wake v) := by
  by_cases hv : v.isOf gone
  · exact ((h.wake_left hv).symm.wake_left hv).symm
  · have hsame : s.postponed.contains v = t.postponed.contains v := by
      rw [← contains_filter_isOf hv, ← contains_filter_isOf hv t.postponed, h.postponed]
    unfold Session.wake
    rw [hsame]
    split
    · exact h
    · exact h.schedule v

/-- A turn that counts is put off on both sides. -/
theorem postpone (v : Turn) : Alike gone (s.postpone v) (t.postpone v) := by
  have hadded : ∀ u : Session, (u.postpone v).without gone =
      { u.without gone with
        postponed := (u.without gone).postponed ++ [v].filter fun t => !t.isOf gone } := by
    intro u
    have happend : (u.postponed ++ [v]).filter (fun t => !t.isOf gone) = _ :=
      List.filter_append u.postponed [v]
    exact congrArg (fun l => { u.without gone with postponed := l }) happend
  exact h.of_body rfl (by rw [hadded, hadded, h.seen])

/-- The turns that count come back in the same order. -/
theorem resume : Alike gone s.resume t.resume := by
  refine h.of_body (body_resume s) ?_
  unfold Session.resume
  rw [without_foldl_schedule, without_foldl_schedule, h.postponed]
  exact congrArg (fun u : Session => List.foldl Session.schedule { u with postponed := [] } _) h.seen

/-! ## Calls -/

/-- A call is changed in a way that leaves no trace once it is vacated. -/
theorem modifyCall (n : Nat) {f : Call → Call} (hf : ∀ c, (f c).vacated = c.vacated) :
    Alike gone (s.modifyCall n f) (t.modifyCall n f) := by
  refine h.of_kind? (kind?_modifyCall n hf s) rfl rfl ?_
  by_cases hn : n ∈ gone
  · rw [without_modifyCall_of_mem hn hf, without_modifyCall_of_mem hn hf, h.seen]
  · rw [without_modifyCall hn, without_modifyCall hn, h.seen]

/-- What happens to the call of a caller who has left does not count. -/
theorem modifyCall_left {n : Nat} (hn : n ∈ gone) {f : Call → Call}
    (hf : ∀ c, (f c).vacated = c.vacated) : Alike gone (s.modifyCall n f) t :=
  h.of_kind? (kind?_modifyCall n hf s) rfl rfl ((without_modifyCall_of_mem hn hf s).trans h.seen)

/-- An answer for such a call is stored and wakes it, and nobody looks. -/
theorem arrive_left {n : Nat} (hn : n ∈ gone) (a : Answer) : Alike gone (s.arrive n a) t := by
  unfold Session.arrive
  split
  · split
    · have htold := h.modifyCall_left hn (f := fun c => { c with arrived := some a }) fun _ => rfl
      exact htold.wake_left (Turn.isOf_call.mpr hn)
    · exact h
  · exact h

/-- Any other call is found alike on both sides. -/
theorem arrive (n : Nat) (a : Answer) : Alike gone (s.arrive n a) (t.arrive n a) := by
  by_cases hn : n ∈ gone
  · exact ((h.arrive_left hn a).symm.arrive_left hn a).symm
  · unfold Session.arrive
    rw [h.getElem?_calls hn]
    split
    · split
      · have htold := h.modifyCall n (f := fun c => { c with arrived := some a }) fun _ => rfl
        exact htold.wake (.call n)
      · exact h
    · exact h

/-- The call of a caller who has left ends without anybody being told. -/
theorem endCall_left {n : Nat} (hn : n ∈ gone) (a : Option Answer) :
    Alike gone (s.endCall n a) t := by
  unfold Session.endCall
  split
  · rename_i c hc
    have hended := h.modifyCall_left hn (f := fun c => { c with waiting := false }) fun _ => rfl
    refine hended.of_kind? (kind?_of_calls rfl) rfl rfl (Eq.trans ?_ hended.seen)
    -- Nobody hears what the call is told.
    have huntold : (s.done ++ if c.abandoned then [] else (a.map fun a => (n, a)).toList).filter
        (fun d => d.1 ∉ gone) = s.done.filter fun d => d.1 ∉ gone := by
      rw [List.filter_append]
      cases a <;> cases c.abandoned <;> simp [hn]
    exact congrArg (fun l => { (s.modifyCall n fun c => { c with waiting := false }).without gone with
      done := l }) huntold
  · exact h

/-- For any other call the answer counts, and is told on both sides or on neither. -/
theorem endCall (n : Nat) (a : Option Answer) : Alike gone (s.endCall n a) (t.endCall n a) := by
  by_cases hn : n ∈ gone
  · exact ((h.endCall_left hn a).symm.endCall_left hn a).symm
  · unfold Session.endCall
    rw [h.getElem?_calls hn]
    split
    · rename_i c _
      refine (h.modifyCall n (f := fun c => { c with waiting := false }) fun _ => rfl).update
        (fun u => { u with
          done := u.done ++ if c.abandoned then [] else (a.map fun a => (n, a)).toList })
        (fun u => ?_) ⟨rfl, rfl, rfl⟩
      have htold : (u.done ++ if c.abandoned then [] else (a.map fun a => (n, a)).toList).filter
          (fun d => d.1 ∉ gone) = u.done.filter (fun d => d.1 ∉ gone) ++
            if c.abandoned then [] else (a.map fun a => (n, a)).toList := by
        rw [List.filter_append]
        cases a <;> cases c.abandoned <;> simp [hn]
      exact congrArg (fun l => { u.without gone with done := l }) htold
    · exact h

/-! ## Hosts and bridges -/

/-- Frame hosts change, and for whom they run does not. -/
theorem modifyHost (i : Nat) {f : FrameHost → FrameHost} (hf : ∀ host, (f host).call = host.call) :
    Alike gone (s.modifyHost i f) (t.modifyHost i f) where
  seen := congrArg (fun u : Session => u.modifyHost i f) h.seen
  requests := h.requests
  hostCalls host hhost n hn := by
    obtain ⟨k, hk⟩ := List.getElem?_of_mem hhost
    rw [Session.modifyHost, List.getElem?_modify] at hk
    obtain ⟨old, hold, rfl⟩ := Option.map_eq_some_iff.mp hk
    refine h.hostCalls old (List.mem_of_getElem? hold) n ?_
    split at hn
    · exact hf old ▸ hn
    · exact hn
  linesCalls := h.linesCalls

/-- Lines hosts change, and for whom they run does not. -/
theorem modifyLines (i : Nat) {f : LinesHost → LinesHost} (hf : ∀ l, (f l).call = l.call) :
    Alike gone (s.modifyLines i f) (t.modifyLines i f) where
  seen := congrArg (fun u : Session => u.modifyLines i f) h.seen
  requests := h.requests
  hostCalls := h.hostCalls
  linesCalls l hl := by
    obtain ⟨k, hk⟩ := List.getElem?_of_mem hl
    rw [Session.modifyLines, List.getElem?_modify] at hk
    obtain ⟨old, hold, rfl⟩ := Option.map_eq_some_iff.mp hk
    have hhosted := h.linesCalls old (List.mem_of_getElem? hold)
    split
    · exact hf old ▸ hhosted
    · exact hhosted

theorem modifyLink (b : Nat) (f : Link → Link) :
    Alike gone (s.modifyLink b f) (t.modifyLink b f) :=
  h.update (fun u => u.modifyLink b f) (fun _ => rfl) ⟨rfl, rfl, rfl⟩

/-! ## The service -/

/-- **An outcome reaches its caller**, or the call that a caller has left behind. -/
theorem arriveOutcome (caller : Caller) (outcome : Outcome) :
    Alike gone (s.arriveOutcome caller outcome) (t.arriveOutcome caller outcome) := by
  cases caller with
  | call n =>
      by_cases hn : n ∈ gone
      -- The answer may be shown in another form, but nobody looks at it.
      · have hleft : ∀ {u v : Session}, Alike gone u v →
            Alike gone (u.arriveOutcome (.call n) outcome) v := by
          intro u v huv
          unfold Session.arriveOutcome
          dsimp only
          split
          · exact huv.arrive_left hn _
          · exact huv
        exact (hleft (hleft h).symm).symm
      · unfold Session.arriveOutcome
        dsimp only
        rw [h.getElem?_calls hn]
        split
        · exact h.arrive n _
        · exact h
  | handler k =>
      have htold := h.update
        (fun u => { u with
          handlers := u.handlers.modify k fun x => { x with outcome := some outcome } })
        (fun _ => rfl) ⟨rfl, rfl, rfl⟩
      exact htold.wake (.handler k)
  | lines i => exact h

/-- An answer to a stop is for a call, or for the lines host that asked for it. -/
theorem arriveStop (caller : Caller) (r : Except Failure Unit) :
    Alike gone (s.arriveStop caller r) (t.arriveStop caller r) := by
  cases caller with
  | call n => exact h.arrive n _
  | handler k => exact h
  | lines i =>
      have hstopped := h.modifyLines i (f := fun l => { l with serviceStopped := true }) fun _ => rfl
      exact hstopped.wake (.lines i)

/-- **An output of the service takes place.**  Outputs of the service are for callers, for its
workers or for its own loop, and each of them is alike on both sides. -/
theorem carryOut (o : Output Caller) : Alike gone (s.carryOut o) (t.carryOut o) := by
  cases o with
  | effect e =>
      cases e with
      | answered caller outcome => exact h.arriveOutcome caller outcome
      | handed k task => exact h.wake (.worker k)
      | started size => exact List.foldl_rel h fun k _ _ _ h => h.schedule (.worker k)
      | published e =>
          exact h.update (fun u => { u with bus := u.bus.publish e }) (fun _ => rfl) ⟨rfl, rfl, rfl⟩
      | queued | dropped => exact h
  | stopped caller => exact h.arriveStop caller _
  | stopRefused caller => exact h.arriveStop caller _
  | dismissed k => exact h.wake (.worker k)
  | roused => exact h.schedule .dispatcher
  | postponed => exact h.postpone .dispatcher

theorem setService (v : Service Caller) : Alike gone (s.setService v) (t.setService v) := by
  have hset := h.update (fun u => { u with service := { v with outputs := [] } }) (fun _ => rfl)
    ⟨rfl, rfl, rfl⟩
  exact List.foldl_rel hset fun o _ _ _ h => h.carryOut o

/-- A request is taken by a service that is the same on both sides. -/
theorem request (job : Job) (caller : Caller) :
    Alike gone (s.request job caller) (t.request job caller) := by
  unfold Session.request
  rw [h.service]
  exact h.setService _

/-- A request to stop is taken in the same way. -/
theorem stopService (caller : Caller) :
    Alike gone (s.stopService caller) (t.stopService caller) := by
  unfold Session.stopService
  rw [h.service]
  exact h.setService _

theorem share : Alike gone s.share t.share :=
  h.update Session.share (fun _ => rfl) ⟨rfl, rfl, rfl⟩

theorem unshare : Alike gone s.unshare t.unshare := by
  unfold Session.unshare
  rw [h.service]
  exact h.setService _

theorem setGate (gate : Gate) : Alike gone (s.setGate gate) (t.setGate gate) := by
  unfold Session.setGate
  rw [h.service]
  exact h.setService _

end

end Alike

end AvatarPool.Session
