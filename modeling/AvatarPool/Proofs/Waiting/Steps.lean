import AvatarPool.WaitingRoom
import AvatarPool.Proofs.Tables

/-! # Steps in a waiting room

What one step does, by what it shows: the callers waiting under each key, the values sent to each
caller, and what the far end of each caller holds.  Everything rests on one invariant: a caller
waits in at most one place (`WaitingRoom.Sound`).

Callers are known by the order in which they came, and a step is described from outside: by the key
it has somebody join (`Step.joined?`), the keys it closes and with which value (`Step.closing?`),
and who stops listening with it (`Step.forgets`).  Every lemma here says what one field is after a
step in these terms, for all the steps at once, so that runs need no cases on the steps. -/

namespace AvatarPool

variable {κ ω ν : Type}

/-! ## Fanning out -/

/-- The last caller gets no more and no less than the others. -/
theorem fanOut_eq_map (callers : List ω) (value : ν) :
    fanOut callers value = callers.map fun w => (w, value) := by
  unfold fanOut
  cases hlast : callers.getLast? with
  | none => rw [List.getLast?_eq_none_iff.mp hlast, List.map_nil]
  | some last =>
      have hwhole : callers.dropLast ++ [last] = callers := List.dropLast_append_getLast? last hlast
      calc (callers.dropLast.map fun w => (w, value)) ++ [(last, value)]
          = (callers.dropLast ++ [last]).map fun w => (w, value) := by simp
        _ = callers.map fun w => (w, value) := by rw [hwhole]

theorem map_fst_fanOut (callers : List ω) (value : ν) :
    (fanOut callers value).map Prod.fst = callers := by
  rw [fanOut_eq_map, List.map_map]
  exact List.map_id callers

theorem mem_fanOut {callers : List ω} {w : ω} (h : w ∈ callers) (value : ν) :
    (w, value) ∈ fanOut callers value := by
  rw [fanOut_eq_map]
  exact List.mem_map.mpr ⟨w, h, rfl⟩

/-- Telling the callers of all entries tells them in the order of the entries. -/
theorem map_fst_fanOutAll (entries : List (κ × List ω)) (value : κ → ν) :
    (fanOutAll entries value).map Prod.fst = entries.flatMap Prod.snd := by
  unfold fanOutAll
  rw [List.map_flatMap]
  simp only [map_fst_fanOut]

/-- Nothing arrives where nobody listens. -/
@[simp] theorem Listener.receive_gone : (Listener.gone : Listener ν).receive = fun _ => .gone := rfl

/-! ## Where callers wait -/

namespace Pending

variable [DecidableEq κ] {p : Pending κ ω}

/-- Nobody waits under a key exactly if it has no entry. -/
theorem WellFormed.waiting_eq_nil_iff (h : p.WellFormed) (k : κ) :
    p.waiting k = [] ↔ k ∉ p.keys := by
  constructor
  · intro hnil hk
    exact h.waited _ (exists_entry_of_mem_keys hk) hnil
  · exact waiting_eq_nil_of_notMem

/-- Whether a caller opens the entry or joins it can be told by whether anybody waits there. -/
theorem WellFormed.admission (h : p.WellFormed) (k : κ) (w : ω) :
    (p.enter k w).2 = if p.waiting k = [] then .opened else .joined := by
  by_cases hk : k ∈ p.keys
  · rw [enter_of_mem w hk, if_neg fun hnil => (h.waiting_eq_nil_iff k).mp hnil hk]
  · rw [enter_of_notMem w hk, if_pos (waiting_eq_nil_of_notMem hk)]

/-- Whose entry is closed waits nowhere else.  The callers of the entry and those left are parts of
one list without repetition. -/
theorem notMem_callers_close (hn : p.keys.Nodup) (hc : p.callers.Nodup) {k : κ} {w : ω}
    (h : w ∈ p.waiting k) : w ∉ (p.close k).1.callers := by
  have hparted := (callers_close_perm hn k).nodup_iff.mpr hc
  intro hw
  exact (List.nodup_append.mp hparted).2.2 w h w hw rfl

theorem nodup_waiting (hn : p.keys.Nodup) (hc : p.callers.Nodup) (k : κ) : (p.waiting k).Nodup :=
  (List.nodup_append.mp ((callers_close_perm hn k).nodup_iff.mpr hc)).1

/-- **A caller waits under one key.** -/
theorem eq_of_mem_waiting (hn : p.keys.Nodup) (hc : p.callers.Nodup) {k j : κ} {w : ω}
    (hk : w ∈ p.waiting k) (hj : w ∈ p.waiting j) : j = k := by
  by_contra hne
  -- If it waited under `j` as well, closing `k` would leave it there.
  have hleft : w ∈ (p.close k).1.waiting j := by
    rw [waiting_close, if_neg hne]
    exact hj
  have hn' : (p.close k).1.keys.Nodup := by
    rw [keys_close]
    exact hn.filter _
  exact notMem_callers_close hn hc hk ((mem_callers_iff hn').mpr ⟨j, hleft⟩)

end Pending

namespace WaitingRoom

/-! ## What callers are told -/

/-- What a caller is told by these sends, in order. -/
def told (caller : Nat) (sent : List (Nat × ν)) : List ν :=
  sent.filterMap fun s => if s.1 = caller then some s.2 else none

theorem told_append (caller : Nat) (sent sent' : List (Nat × ν)) :
    told caller (sent ++ sent') = told caller sent ++ told caller sent' :=
  List.filterMap_append

/-- Whom nothing is sent to is told nothing. -/
theorem told_eq_nil {caller : Nat} {sent : List (Nat × ν)} (h : caller ∉ sent.map Prod.fst) :
    told caller sent = [] := by
  refine List.filterMap_eq_nil_iff.mpr fun s hs => if_neg ?_
  intro heq
  exact h (List.mem_map.mpr ⟨s, hs, heq⟩)

/-- Where nobody is sent two values, a caller is told just the one that it is sent. -/
theorem told_eq_singleton {caller : Nat} {value : ν} {sent : List (Nat × ν)}
    (hn : (sent.map Prod.fst).Nodup) (h : (caller, value) ∈ sent) : told caller sent = [value] := by
  obtain ⟨before, after, rfl⟩ := List.append_of_mem h
  -- Nothing before and nothing behind the one send is meant for the caller.
  rw [List.map_append, List.map_cons, List.nodup_middle, List.nodup_cons, List.mem_append,
    not_or] at hn
  have hhere : told caller ((caller, value) :: after) = value :: told caller after :=
    List.filterMap_cons_some (if_pos rfl)
  rw [told_append, hhere, told_eq_nil hn.1.1, told_eq_nil hn.1.2, List.nil_append]

/-! ## Sends -/

variable [DecidableEq κ] {r : WaitingRoom κ ν}

/-- The key under which a step has a caller join. -/
def Step.joined? : Step κ ν → Option κ
  | .join key => some key
  | _ => none

/-- Whether a caller stops listening. -/
def Step.forgets (caller : Nat) : Step κ ν → Bool
  | .forget c => c == caller
  | _ => false

/-- The value with which a step closes the entry of a key.  A drain closes all of them, each with
the value for its key. -/
def Step.closing? (key : κ) : Step κ ν → Option ν
  | .resolve k value => if k = key then some value else none
  | .drain value => some (value key)
  | _ => none

/-- What a step sends. -/
def sends (r : WaitingRoom κ ν) : Step κ ν → List (Nat × ν)
  | .resolve key value => fanOut (r.table.waiting key) value
  | .drain value => fanOutAll r.table.entries value
  | _ => []

/-- The record of sends only grows. -/
theorem sent_step (r : WaitingRoom κ ν) (s : Step κ ν) :
    (r.step s).1.sent = r.sent ++ r.sends s := by
  cases s with
  | join | forget => exact (List.append_nil _).symm
  | resolve | drain => rfl

/-- **A sound room**: the table is well formed, each caller in it is one that came and waits in one
place only, and nothing has been sent to callers who are still to come.  The last two clauses let a
new caller start afresh: its number is in no entry yet, and nothing has been sent to it. -/
structure Sound (r : WaitingRoom κ ν) : Prop where
  table : r.table.WellFormed
  nodup : r.table.callers.Nodup
  numbered : ∀ c ∈ r.table.callers, c < r.listeners.length
  reached : ∀ c ∈ r.sent.map Prod.fst, c < r.listeners.length

omit [DecidableEq κ] in
/-- An empty room is sound. -/
theorem sound_empty : ({} : WaitingRoom κ ν).Sound where
  table := Pending.wellFormed_empty
  nodup := List.nodup_nil
  numbered := nofun
  reached := nofun

theorem Sound.mem_callers_iff (h : r.Sound) {c : Nat} :
    c ∈ r.table.callers ↔ ∃ key, c ∈ r.table.waiting key :=
  Pending.mem_callers_iff h.table.nodup

/-- A step sends values only to callers who wait, and to none of them twice. -/
theorem Sound.nodup_sends (h : r.Sound) (s : Step κ ν) :
    ((r.sends s).map Prod.fst).Nodup ∧ (r.sends s).map Prod.fst ⊆ r.table.callers := by
  cases s with
  | join | forget => exact ⟨List.nodup_nil, List.nil_subset _⟩
  | resolve key value =>
      rw [sends, map_fst_fanOut]
      refine ⟨Pending.nodup_waiting h.table.nodup h.nodup key, fun c hc => ?_⟩
      exact h.mem_callers_iff.mpr ⟨key, hc⟩
  | drain value =>
      rw [sends, map_fst_fanOutAll]
      exact ⟨h.nodup, List.Subset.refl _⟩

/-- Who does not wait is told nothing.  This holds whether it has never come, has been answered, or
is yet to come. -/
theorem Sound.told_sends_of_notMem (h : r.Sound) {c : Nat} (hc : c ∉ r.table.callers)
    (s : Step κ ν) : told c (r.sends s) = [] :=
  told_eq_nil fun hmem => hc ((h.nodup_sends s).2 hmem)

/-- **Who waits under a key is told the value with which the step closes it**, and nothing if it
does not.  The one difficult case is a resolve of another key, where it matters that a caller waits
in one place only. -/
theorem Sound.told_sends_of_mem (h : r.Sound) {c : Nat} {key : κ} (hc : c ∈ r.table.waiting key)
    (s : Step κ ν) : told c (r.sends s) = (s.closing? key).toList := by
  have hn := (h.nodup_sends s).1
  cases s with
  | join | forget => rfl
  | resolve k value =>
      by_cases hk : k = key
      · subst hk
        rw [told_eq_singleton hn (mem_fanOut hc value), Step.closing?, if_pos rfl]
        rfl
      · have hnot : c ∉ r.table.waiting k := fun hmem =>
          hk (Pending.eq_of_mem_waiting h.table.nodup h.nodup hc hmem)
        rw [told_eq_nil (by rwa [sends, map_fst_fanOut]), Step.closing?, if_neg hk]
        rfl
  | drain value =>
      have hentry := Pending.exists_entry_of_mem_keys (Pending.mem_keys_of_mem_waiting hc)
      have hsent : (c, value key) ∈ fanOutAll r.table.entries value :=
        List.mem_flatMap.mpr ⟨_, hentry, mem_fanOut hc _⟩
      exact told_eq_singleton hn hsent

/-! ## Entries -/

/-- Whose entry is closed waits no longer; who joins waits last.  This is the whole effect of a step
on the entries; stopping to listen is not part of it. -/
theorem waiting_step (r : WaitingRoom κ ν) (s : Step κ ν) (key : κ) :
    (r.step s).1.table.waiting key =
      if (s.closing? key).isSome then []
      else if s.joined? = some key then r.table.waiting key ++ [r.listeners.length]
      else r.table.waiting key := by
  cases s with
  | join k =>
      show (r.table.enter k _).1.waiting key = _
      rw [Pending.waiting_enter]
      by_cases hk : key = k
      · subst hk
        simp [Step.closing?, Step.joined?]
      · simp [Step.closing?, Step.joined?, hk, Ne.symm hk]
  | forget => rfl
  | resolve k value =>
      show (r.table.close k).1.waiting key = _
      rw [Pending.waiting_close]
      by_cases hk : key = k
      · simp [Step.closing?, hk]
      · simp [Step.closing?, Step.joined?, hk, Ne.symm hk]
  | drain value => rfl

/-! ## Listeners -/

/-- **Each value changes the far end for which it is meant**, and no other.  By induction on the
values: each of them is folded into the one far end that it is for. -/
theorem getElem?_foldl_deliver (listeners : List (Listener ν)) (values : List (Nat × ν)) (c : Nat) :
    (values.foldl deliver listeners)[c]? =
      listeners[c]?.map fun l => (told c values).foldl Listener.receive l := by
  induction values generalizing listeners with
  | nil => exact Option.map_id'.symm
  | cons s rest ih =>
      rw [List.foldl_cons, ih, deliver, List.getElem?_modify, Option.map_eq_map, Option.map_map]
      by_cases hs : s.1 = c
      · have hhere : told c (s :: rest) = s.2 :: told c rest :=
          List.filterMap_cons_some (if_pos hs)
        simp only [hhere, if_pos hs]
        rfl
      · have helse : told c (s :: rest) = told c rest := List.filterMap_cons_none (if_neg hs)
        simp only [helse, if_neg hs]
        rfl

/-- No value makes a caller come or go. -/
theorem length_foldl_deliver (listeners : List (Listener ν)) (values : List (Nat × ν)) :
    (values.foldl deliver listeners).length = listeners.length := by
  induction values generalizing listeners with
  | nil => rfl
  | cons s rest ih => rw [List.foldl_cons, ih, deliver, List.length_modify]

/-- One caller comes with each join. -/
theorem length_listeners_step (r : WaitingRoom κ ν) (s : Step κ ν) :
    (r.step s).1.listeners.length = r.listeners.length + s.joined?.toList.length := by
  cases s with
  | join key => exact List.length_append
  | forget c => exact List.length_set
  | resolve | drain => exact length_foldl_deliver _ _

/-- **What the far end of a caller holds after a step**: what it is told, unless it stops listening.
It is enough to look at the sends, as a far end changes by nothing else. -/
theorem getElem?_listeners_step (r : WaitingRoom κ ν) (s : Step κ ν) {c : Nat}
    (hc : c < r.listeners.length) :
    (r.step s).1.listeners[c]? = r.listeners[c]?.map fun l =>
      if s.forgets c then .gone else (told c (r.sends s)).foldl Listener.receive l := by
  cases s with
  | join key =>
      show (r.listeners ++ [.waiting])[c]? = _
      rw [List.getElem?_append_left hc]
      exact Option.map_id'.symm
  | forget c' =>
      show (r.listeners.set c' .gone)[c]? = _
      rw [List.getElem?_set, List.getElem?_eq_getElem hc]
      by_cases hcc : c' = c
      · subst hcc
        simp [Step.forgets, hc]
      · simp [Step.forgets, hcc, sends, told]
  | resolve | drain => exact getElem?_foldl_deliver _ _ c

/-! ## The invariant -/

/-- What a step sends goes to callers who have come.  Those it is sent to wait, and all who wait
have come. -/
theorem Sound.reached_step (h : r.Sound) (s : Step κ ν) :
    ∀ c ∈ (r.step s).1.sent.map Prod.fst, c < (r.step s).1.listeners.length := by
  intro c hc
  rw [sent_step, List.map_append] at hc
  have hcame : c < r.listeners.length := by
    rcases List.mem_append.mp hc with hold | hnew
    · exact h.reached c hold
    · exact h.numbered c ((h.nodup_sends s).2 hnew)
  have hgrows := length_listeners_step r s
  omega

/-- **A step keeps a room sound.**  By the cases of a step; a caller who joins takes a number that
has not been given out. -/
theorem Sound.step (h : r.Sound) (s : Step κ ν) : (r.step s).1.Sound := by
  have hlength := length_listeners_step r s
  have hreached := h.reached_step s
  cases s with
  | join key =>
      have hperm := Pending.callers_enter_perm h.table.nodup key r.listeners.length
      -- All numbers given out are smaller.
      have hnew : r.listeners.length ∉ r.table.callers := fun hmem =>
        Nat.lt_irrefl _ (h.numbered _ hmem)
      have hnodup := hperm.nodup_iff.mpr (List.nodup_cons.mpr ⟨hnew, h.nodup⟩)
      refine ⟨h.table.enter key _, hnodup, fun c hc => ?_, hreached⟩
      rw [hlength]
      rcases List.mem_cons.mp (hperm.mem_iff.mp hc) with rfl | hold
      · exact Nat.lt_succ_self _
      · exact Nat.lt_succ_of_lt (h.numbered c hold)
  | forget c' =>
      refine ⟨h.table, h.nodup, fun c hc => ?_, hreached⟩
      rw [hlength]
      exact h.numbered c hc
  | resolve key value =>
      have hperm := Pending.callers_close_perm h.table.nodup key
      have hnodup := (List.nodup_append.mp (hperm.nodup_iff.mpr h.nodup)).2.1
      refine ⟨h.table.close key, hnodup, fun c hc => ?_, hreached⟩
      rw [hlength]
      exact h.numbered c (hperm.mem_iff.mp (List.mem_append_right _ hc))
  | drain value => exact ⟨Pending.wellFormed_empty, List.nodup_nil, nofun, hreached⟩

/-- Who has come and does not wait any longer never waits again.  Only a caller with a new number
joins, and it is not that one. -/
theorem Sound.notMem_callers_step (h : r.Sound) {c : Nat} (hc : c < r.listeners.length)
    (hnot : c ∉ r.table.callers) (s : Step κ ν) : c ∉ (r.step s).1.table.callers := by
  intro hmem
  obtain ⟨key, hwaits⟩ := (h.step s).mem_callers_iff.mp hmem
  have hold : c ∉ r.table.waiting key := fun hw => hnot (h.mem_callers_iff.mpr ⟨key, hw⟩)
  rw [waiting_step] at hwaits
  split at hwaits
  · exact List.not_mem_nil hwaits
  · split at hwaits
    · rcases List.mem_append.mp hwaits with hw | hw
      · exact hold hw
      · exact Nat.ne_of_lt hc (List.mem_singleton.mp hw)
    · exact hold hwaits

/-- Whose entry is closed waits nowhere.  Its entry is gone, and it was in no other one. -/
theorem Sound.notMem_callers_of_closing (h : r.Sound) {c : Nat} {key : κ} {value : ν}
    (hc : c ∈ r.table.waiting key) {s : Step κ ν} (hs : s.closing? key = some value) :
    c ∉ (r.step s).1.table.callers := by
  cases s with
  | join | forget => cases hs
  | resolve k v =>
      have hk : k = key := by
        by_contra hne
        rw [Step.closing?, if_neg hne] at hs
        cases hs
      subst hk
      exact Pending.notMem_callers_close h.table.nodup h.nodup hc
  | drain => exact List.not_mem_nil

end WaitingRoom

end AvatarPool
