import AvatarPool.Bridge.Client
import AvatarPool.Dispatcher
import AvatarPool.Proofs.Waiting.Steps
import Mathlib.Data.List.DropRight

/-! # Waiting callers are told once

Whatever joins, stops listening and is answered in a waiting room, and under which keys: a caller is
told the value with which its key is closed first after it has joined, and never anything else.
What a join and a resolve show depends on the callers who joined the key since it was closed last,
whether they still listen or not.

The life of one caller falls into two parts.  As long as it waits, nothing but a step that closes
its key is of any importance to it (`Sound.play_of_mem`); from then on no step is
(`Sound.play_of_notMem`).  Both are proved for an arbitrary sound room by induction on the steps,
and `callers_told_once` begins them with the room right after the caller has joined. -/

namespace AvatarPool

namespace WaitingRoom

variable {κ ν : Type} [DecidableEq κ] {r : WaitingRoom κ ν}

/-! ## Runs -/

/-- The room after these steps. -/
def play (r : WaitingRoom κ ν) (steps : List (Step κ ν)) : WaitingRoom κ ν :=
  steps.foldl (fun r s => (r.step s).1) r

theorem play_cons (r : WaitingRoom κ ν) (s : Step κ ν) (steps : List (Step κ ν)) :
    r.play (s :: steps) = (r.step s).1.play steps := rfl

theorem play_append (r : WaitingRoom κ ν) (steps steps' : List (Step κ ν)) :
    r.play (steps ++ steps') = (r.play steps).play steps' := List.foldl_append

theorem play_concat (r : WaitingRoom κ ν) (steps : List (Step κ ν)) (s : Step κ ν) :
    r.play (steps ++ [s]) = ((r.play steps).step s).1 := play_append r steps [s]

theorem Sound.play (h : r.Sound) (steps : List (Step κ ν)) : (r.play steps).Sound := by
  induction steps generalizing r with
  | nil => exact h
  | cons s steps ih => exact ih (h.step s)

/-! ## After the answer -/

/-- **Who has been answered is never told anything again**, and looks at its answer until it stops
listening.  It cannot come to wait again, since whoever joins gets a new number. -/
theorem Sound.play_of_notMem (h : r.Sound) {c : Nat} {l : Listener ν}
    (hl : r.listeners[c]? = some l) (hc : c ∉ r.table.callers) (steps : List (Step κ ν)) :
    told c (r.play steps).sent = told c r.sent ∧
      (r.play steps).listeners[c]? =
        some (if steps.any (Step.forgets c) then .gone else l) := by
  induction steps generalizing r l with
  | nil => exact ⟨rfl, hl⟩
  | cons s steps ih =>
      -- Nothing that this step sends is for the caller, so its far end changes only if it stops
      -- listening.
      have hlt : c < r.listeners.length := (List.getElem?_eq_some_iff.mp hl).1
      have hquiet : told c (r.sends s) = [] := h.told_sends_of_notMem hc s
      have hnext : (r.step s).1.listeners[c]? = some (if s.forgets c then .gone else l) := by
        rw [getElem?_listeners_step r s hlt, hl, hquiet]
        rfl
      obtain ⟨htold, hheld⟩ := ih (h.step s) hnext (h.notMem_callers_step hlt hc s)
      refine ⟨?_, ?_⟩
      · rw [play_cons, htold, sent_step, told_append, hquiet, List.append_nil]
      · rw [play_cons, hheld, List.any_cons]
        cases s.forgets c <;> cases steps.any (Step.forgets c) <;> rfl

/-! ## Before the answer -/

/-- **Who waits under a key is told the value with which the key is closed first**, if it ever is.
The value arrives unless the caller stops listening.  By induction on the steps, up to the first one
that closes the key; from there on `play_of_notMem` goes on. -/
theorem Sound.play_of_mem (h : r.Sound) {c : Nat} {key : κ} {l : Listener ν}
    (hl : r.listeners[c]? = some l) (hc : c ∈ r.table.waiting key) (steps : List (Step κ ν)) :
    told c (r.play steps).sent = told c r.sent ++ (steps.findSome? (Step.closing? key)).toList ∧
      (r.play steps).listeners[c]? =
        some (if steps.any (Step.forgets c) then .gone
          else (steps.findSome? (Step.closing? key)).elim l l.receive) := by
  induction steps generalizing r l with
  | nil => exact ⟨(List.append_nil _).symm, hl⟩
  | cons s steps ih =>
      have hlt : c < r.listeners.length := (List.getElem?_eq_some_iff.mp hl).1
      have hsent : told c (r.sends s) = (s.closing? key).toList := h.told_sends_of_mem hc s
      have hnext := getElem?_listeners_step r s hlt
      rw [hl, hsent] at hnext
      cases hclosing : s.closing? key with
      | none =>
          -- The step does not close the key: the caller waits on, and the rest of the run decides.
          have hwaits : c ∈ (r.step s).1.table.waiting key := by
            rw [waiting_step, hclosing]
            by_cases hj : s.joined? = some key
            · simp [hj, hc]
            · simp [hj, hc]
          rw [hclosing] at hnext hsent
          obtain ⟨htold, hheld⟩ := ih (h.step s) hnext hwaits
          rw [List.findSome?_cons_of_isNone (by rw [hclosing]; rfl)]
          refine ⟨?_, ?_⟩
          · rw [play_cons, htold, sent_step, told_append, hsent, Option.toList_none,
              List.append_nil]
          · rw [play_cons, hheld, List.any_cons]
            cases s.forgets c with
            | true => cases steps.findSome? (Step.closing? key) <;> simp
            | false => rfl
      | some value =>
          -- The step closes the key: this is the answer, and what comes later changes nothing.
          have hforgets : s.forgets c = false := by
            cases s with
            | forget => cases hclosing
            | _ => rfl
          rw [hclosing, hforgets] at hnext
          rw [hclosing] at hsent
          obtain ⟨htold, hheld⟩ :=
            (h.step s).play_of_notMem hnext (h.notMem_callers_of_closing hc hclosing) steps
          have hfirst : (s :: steps).findSome? (Step.closing? key) = some value := by
            rw [List.findSome?_cons, hclosing]
          rw [hfirst]
          refine ⟨?_, ?_⟩
          · rw [play_cons, htold, sent_step, told_append, hsent]
          · rw [play_cons, hheld, List.any_cons, hforgets]
            rfl

/-! ## Histories -/

/-- The number of callers who have come; the next one gets this number. -/
def arrivals (steps : List (Step κ ν)) : Nat := steps.countP fun s => s.joined?.isSome

/-- The number of callers who joined a key since it was closed last.  Since then, the entry has been
opened by the first of them and joined by the others. -/
def joinedSince (key : κ) (steps : List (Step κ ν)) : Nat :=
  (steps.rtakeWhile fun s => (s.closing? key).isNone).countP fun s => s.joined? = some key

/-- A further step sets it to nothing, or counts one more, or leaves it. -/
theorem joinedSince_concat (key : κ) (steps : List (Step κ ν)) (s : Step κ ν) :
    joinedSince key (steps ++ [s]) =
      if (s.closing? key).isSome then 0
      else joinedSince key steps + if s.joined? = some key then 1 else 0 := by
  unfold joinedSince
  rw [List.rtakeWhile_concat]
  cases s.closing? key with
  | none => simp [List.countP_append, List.countP_singleton]
  | some value => simp

/-- In a room that was empty at first, everyone who listens has come by a join. -/
theorem length_listeners_play (steps : List (Step κ ν)) :
    (({} : WaitingRoom κ ν).play steps).listeners.length = arrivals steps := by
  induction steps using List.reverseRecOn with
  | nil => rfl
  | append_singleton steps s ih =>
      rw [play_concat, length_listeners_step, ih, arrivals, arrivals, List.countP_append]
      cases h : s.joined? <;> simp [h]

/-- **The callers who wait under a key are those who joined it since it was closed last.**  By
induction on the history from its end, since the last step decides which part of it counts. -/
theorem length_waiting_play (key : κ) (steps : List (Step κ ν)) :
    ((({} : WaitingRoom κ ν).play steps).table.waiting key).length = joinedSince key steps := by
  induction steps using List.reverseRecOn with
  | nil => rfl
  | append_singleton steps s ih =>
      rw [play_concat, waiting_step, joinedSince_concat, ← ih]
      by_cases hclosing : (s.closing? key).isSome
      · rw [if_pos hclosing, if_pos hclosing]
        rfl
      · rw [if_neg hclosing, if_neg hclosing]
        by_cases hj : s.joined? = some key
        · rw [if_pos hj, if_pos hj, List.length_append, List.length_singleton]
        · rw [if_neg hj, if_neg hj]
          rfl

/-- Who waits under another key notices nothing of a resolve.  Neither the callers of the other
entries nor what they hold is touched. -/
theorem Sound.resolve_of_ne (h : r.Sound) {key other : κ} (hne : other ≠ key) (value : ν) :
    (r.step (.resolve key value)).1.table.waiting other = r.table.waiting other ∧
      ∀ c ∈ r.table.waiting other,
        told c (r.step (.resolve key value)).1.sent = told c r.sent ∧
          (r.step (.resolve key value)).1.listeners[c]? = r.listeners[c]? := by
  have hopen : (Step.resolve key value : Step κ ν).closing? other = none := if_neg hne.symm
  refine ⟨?_, fun c hc => ?_⟩
  · rw [waiting_step, hopen]
    rfl
  · have hquiet : told c (r.sends (.resolve key value)) = [] := by
      rw [h.told_sends_of_mem hc, hopen]
      rfl
    have hlt : c < r.listeners.length := h.numbered c (h.mem_callers_iff.mpr ⟨other, hc⟩)
    refine ⟨?_, ?_⟩
    · rw [sent_step, told_append, hquiet, List.append_nil]
    · rw [getElem?_listeners_step r _ hlt, hquiet]
      exact Option.map_id'

/-- **Each caller is told once.**  However joins, resolves, drains and callers who stop listening
follow one another: a caller who joins opens the entry exactly if nobody has joined the key since it
was closed last; it is sent exactly one value, that of the first step to close its key after it has
joined, or none if no step does, and holds that value unless it has stopped listening.  A resolve
counts the callers who joined its key since it was closed last, those who listen no longer among
them, and leaves whoever waits under another key as they are. -/
theorem callers_told_once (before after : List (Step κ ν)) (key : κ) :
    let r := ({} : WaitingRoom κ ν).play before
    let c := arrivals before
    let t := ({} : WaitingRoom κ ν).play (before ++ .join key :: after)
    let answer := after.findSome? (Step.closing? key)
    (r.step (.join key)).2 =
        .admission (if joinedSince key before = 0 then .opened else .joined) ∧
      told c t.sent = answer.toList ∧
      t.listeners[c]? =
        some (if after.any (Step.forgets c) then .gone else answer.elim .waiting .arrived) ∧
      ∀ value, (r.step (.resolve key value)).2 = .count (joinedSince key before) ∧
        ∀ other ≠ key,
          (r.step (.resolve key value)).1.table.waiting other = r.table.waiting other ∧
          ∀ w ∈ r.table.waiting other,
            told w (r.step (.resolve key value)).1.sent = told w r.sent ∧
            (r.step (.resolve key value)).1.listeners[w]? = r.listeners[w]? := by
  intro r c t answer
  have hr : r.Sound := sound_empty.play before
  have hlength : r.listeners.length = c := length_listeners_play before
  have hcount : (r.table.waiting key).length = joinedSince key before :=
    length_waiting_play key before
  have hempty : r.table.waiting key = [] ↔ joinedSince key before = 0 := by
    rw [← hcount, List.length_eq_zero_iff]
  -- The caller that joins is the last one, waits under its key and has not been told anything.
  have hjoined : c ∈ (r.step (.join key)).1.table.waiting key := by
    rw [waiting_step, ← hlength]
    simp [Step.closing?, Step.joined?]
  have hwaiting : (r.step (.join key)).1.listeners[c]? = some .waiting := by
    show (r.listeners ++ [.waiting])[c]? = _
    rw [← hlength]
    exact List.getElem?_concat_length
  obtain ⟨htold, hheld⟩ := (hr.step (.join key)).play_of_mem hwaiting hjoined after
  have ht : t = (r.step (.join key)).1.play after := play_append _ _ _
  refine ⟨?_, ?_, ?_, fun value => ⟨?_, fun other hne => hr.resolve_of_ne hne value⟩⟩
  · show Result.admission (r.table.enter key _).2 = _
    rw [hr.table.admission]
    simp only [hempty]
  · have hnew : c ∉ r.sent.map Prod.fst := fun hmem =>
      Nat.lt_irrefl _ (hlength ▸ hr.reached c hmem)
    have hjoin : (r.step (.join key)).1.sent = r.sent := rfl
    rw [ht, htold, hjoin, told_eq_nil hnew, List.nil_append]
  · rw [ht, hheld]
    rfl
  · show Result.count (r.table.waiting key).length = _
    rw [hcount]

/-- One caller of `a` and one of `b` have been answered, and two of `a` and one of `b` have come
since, of whom the first has stopped listening. -/
def desertedBefore : List (Step String Nat) :=
  [.join "a", .join "b", .drain fun _ => 1, .join "a", .join "b", .join "a", .forget 2]

/-- `b` is answered, then `a`, and a later caller of `a` hears something else. -/
def desertedAfter : List (Step String Nat) :=
  [.resolve "b" 5, .resolve "a" 7, .join "a", .forget 4, .drain fun _ => 9]

theorem callers_told_once_deserted :
    let r := ({} : WaitingRoom String Nat).play desertedBefore
    let t := ({} : WaitingRoom String Nat).play (desertedBefore ++ .join "a" :: desertedAfter)
    (r.step (.join "a")).2 = .admission .joined ∧ told 5 t.sent = [7] ∧
      t.listeners[5]? = some (.arrived 7) ∧ (r.step (.resolve "a" 7)).2 = .count 2 ∧
      "b" ≠ "a" ∧ 3 ∈ r.table.waiting "b" ∧
      (r.step (.resolve "a" 7)).1.table.waiting "b" = r.table.waiting "b" ∧
      told 3 (r.step (.resolve "a" 7)).1.sent = told 3 r.sent ∧
      (r.step (.resolve "a" 7)).1.listeners[3]? = r.listeners[3]? := by
  have hother : "b" ≠ "a" := by decide
  have hwaits : 3 ∈ (({} : WaitingRoom String Nat).play desertedBefore).table.waiting "b" := by
    decide
  obtain ⟨hadmission, htold, hheld, hresolve⟩ := callers_told_once desertedBefore desertedAfter "a"
  obtain ⟨hcount, hothers⟩ := hresolve 7
  obtain ⟨hwaiting, hquiet⟩ := hothers "b" hother
  exact ⟨hadmission, htold, hheld, hcount, hother, hwaits, hwaiting, hquiet 3 hwaits⟩

end WaitingRoom

/-! ## Who rests on it

The dispatcher and the bridge client answer an entry by the same fan-out. -/

variable {ω : Type}

theorem Dispatcher.answerAll_eq_fanOut (d : Dispatcher ω) (key : Fingerprint) (outcome : Outcome) :
    d.answerAll key outcome =
      { d with pending := (d.pending.close key).1 }.note
        ((fanOut (d.pending.waiting key) outcome).map
          fun s : ω × Outcome => .answered s.1 s.2) := by
  rw [fanOut_eq_map, List.map_map]
  rfl

theorem Dispatcher.answers_eq_fanOutAll (outcome : Outcome)
    (entries : List (Fingerprint × List ω)) :
    answers outcome entries =
      (fanOutAll entries fun _ => outcome).map fun s => .answered s.1 s.2 := by
  simp only [answers, fanOutAll, fanOut_eq_map, List.map_flatMap, List.map_map]
  rfl

theorem BridgeClient.answerAll_eq_fanOut (c : BridgeClient ω) (key : Fingerprint)
    (outcome : Outcome) :
    c.answerAll key outcome =
      { c with pending := (c.pending.close key).1 }.note
        ((fanOut (c.pending.waiting key) outcome).map
          fun s : ω × Outcome => .answered s.1 s.2) := by
  rw [fanOut_eq_map, List.map_map]
  rfl

end AvatarPool
