import AvatarPool.Pool.Slots
import Mathlib.Data.List.Perm.Basic

/-! # Where a task is

A pool notes the task it has handed to a worker until it takes the worker's report.  Meanwhile that
task is in the worker's box, under the worker's hands, or in a report nobody has read: `Slot.Fits`
lists these places, and `Carried` says so of every worker of a pool.  So a report is always about
the task noted for its worker, and an idle worker is open and has an empty box.

The invariant is about a worker together with its unread reports, since a task leaves its worker
before the pool has taken note.  Each constructor of `Slot.Fits` fixes the slot completely, so that
to know what is noted is to know what the worker is at.  In particular there is at most one unread
report of a worker, and of an idle one there is none.

The list lemmas at the start are about one entry of a list that is exchanged; they are stated for
any list, as slots, activities and reports are all treated so. -/

namespace AvatarPool

/-! ## Lists -/

theorem filterMap_singleton {α β : Type} (f : α → Option β) (a : α) :
    [a].filterMap f = (f a).toList := by
  cases h : f a <;> simp [h]

/-- An entry of a list and of the list with one more. -/
theorem getElem?_snoc_eq_some_iff {α : Type} {l : List α} {a b : α} {i : Nat} :
    (l ++ [a])[i]? = some b ↔ l[i]? = some b ∨ i = l.length ∧ b = a := by
  rcases Nat.lt_trichotomy i l.length with hlt | rfl | hgt
  · rw [List.getElem?_append_left hlt]
    exact ⟨.inl, fun h => h.resolve_right fun hlast => absurd hlast.1 (Nat.ne_of_lt hlt)⟩
  · simp [eq_comm]
  · have hlast : l.length + 1 ≤ i := hgt
    rw [List.getElem?_eq_none (by simpa using hlast), List.getElem?_eq_none (Nat.le_of_lt hgt)]
    simp [Nat.ne_of_gt hgt]

theorem filterMap_snoc {α β : Type} (f : α → Option β) (l : List α) (a : α) :
    (l ++ [a]).filterMap f = l.filterMap f ++ (f a).toList := by
  rw [List.filterMap_append, filterMap_singleton]

/-- Where there is an entry, changing it in place and setting it are the same. -/
theorem modify_eq_set_of_getElem? {α : Type} {l : List α} {k : Nat} {a : α} (h : l[k]? = some a)
    (f : α → α) : l.modify k f = l.set k (f a) := by
  refine List.ext_getElem? fun j => ?_
  rw [List.getElem?_modify, List.getElem?_set]
  by_cases hj : k = j
  · subst hj
    rw [h, if_pos rfl, if_pos (List.getElem?_eq_some_iff.mp h).1]
    simp
  · simp [hj]

/-- What an entry contributes is exchanged with the entry. -/
theorem filterMap_set_perm {α β : Type} {l : List α} {k : Nat} {a : α} (h : l[k]? = some a)
    (f : α → Option β) (b : α) :
    ((f a).toList ++ (l.set k b).filterMap f).Perm ((f b).toList ++ l.filterMap f) := by
  obtain ⟨hk, rfl⟩ := List.getElem?_eq_some_iff.mp h
  have hset : ((l.set k b).filterMap f).Perm ((f b).toList ++ (l.eraseIdx k).filterMap f) := by
    refine ((List.set_perm_cons_eraseIdx hk b).filterMap f).trans (.of_eq ?_)
    cases hb : f b <;> simp [hb]
  have hl : (l.filterMap f).Perm ((f l[k]).toList ++ (l.eraseIdx k).filterMap f) := by
    refine ((List.getElem_cons_eraseIdx_perm hk).filterMap f).symm.trans (.of_eq ?_)
    cases ha : f l[k] <;> simp [ha]
  -- Both lists are compared with the one that has no such entry.
  calc ((f l[k]).toList ++ (l.set k b).filterMap f).Perm
        ((f l[k]).toList ++ ((f b).toList ++ (l.eraseIdx k).filterMap f)) := hset.append_left _
    _ |>.Perm ((f b).toList ++ ((f l[k]).toList ++ (l.eraseIdx k).filterMap f)) := by
        rw [← List.append_assoc, ← List.append_assoc]
        exact List.perm_append_comm.append_right _
    _ |>.Perm ((f b).toList ++ l.filterMap f) := hl.symm.append_left _

/-! ## The places of a task -/

/-- Where the task of a slot is, given the unread reports of its worker. -/
inductive Slot.Fits : Slot → List WorkReport → Prop
  /-- There is none. -/
  | idle : Fits {} []
  /-- In the box of the worker. -/
  | boxed (task : Task) : Fits { held := some task, worker := { inbox := some (.render task) } } []
  /-- Under the worker's hands. -/
  | rendering (task : Task) :
      Fits { held := some task, worker := { activity := .rendering task } } []
  /-- In a report that nobody has read. -/
  | reported {task : Task} {c : WorkReport} (h : c.fingerprint = task.fingerprint) :
      Fits { held := some task } [c]

/-- The reports of one worker. -/
def reportsOf (reports : List WorkReport) (k : Nat) : List WorkReport :=
  reports.filter fun c => c.worker = k

/-- Every slot is as its worker's unread reports leave it, and every report is of a worker. -/
structure Carried (slots : List Slot) (reports : List WorkReport) : Prop where
  fits : ∀ (k : Nat) (s : Slot), slots[k]? = some s → s.Fits (reportsOf reports k)
  known : ∀ c ∈ reports, c.worker < slots.length

theorem reportsOf_append (as bs : List WorkReport) (k : Nat) :
    reportsOf (as ++ bs) k = reportsOf as k ++ reportsOf bs k :=
  List.filter_append _ _

theorem reportsOf_cons_self (c : WorkReport) (rest : List WorkReport) :
    reportsOf (c :: rest) c.worker = c :: reportsOf rest c.worker :=
  List.filter_cons_of_pos (by simp)

theorem reportsOf_cons_ne {c : WorkReport} {k : Nat} (h : c.worker ≠ k)
    (rest : List WorkReport) : reportsOf (c :: rest) k = reportsOf rest k :=
  List.filter_cons_of_neg (by simpa using h)

/-- An idle worker is as a fresh one. -/
theorem Slot.Fits.eq_idle {s : Slot} {rs : List WorkReport} (h : s.Fits rs)
    (hs : s.held = none) : s = {} ∧ rs = [] := by
  cases h with
  | idle => exact ⟨rfl, rfl⟩
  | boxed => cases hs
  | rendering => cases hs
  | reported => cases hs

/-- No idle worker has anything to do.  It is all that handing out needs, so it is carried alone
where reports are not at issue. -/
def Ready (slots : List Slot) : Prop := ∀ s ∈ slots, s.held = none → s = {}

/-- For the dispatcher this is what the invariant is good for. -/
theorem Carried.ready {slots : List Slot} {reports : List WorkReport} (h : Carried slots reports) :
    Ready slots := by
  intro s hs hidle
  obtain ⟨k, hk⟩ := List.mem_iff_getElem?.mp hs
  exact ((h.fits k s hk).eq_idle hidle).1

/-- A worker that gets a task is no idle one. -/
theorem Ready.set {slots : List Slot} (h : Ready slots) (k : Nat) {s : Slot}
    (hs : s.held ≠ none) : Ready (slots.set k s) := by
  intro t ht hidle
  rcases List.mem_or_eq_of_mem_set ht with hold | rfl
  · exact h t hold hidle
  · exact absurd hidle hs

/-! ## Handing over -/

namespace Pool

/-- The pool picks the first worker without a task, and of this one nothing else is to be done. -/
theorem getElem?_of_idle? {p : Pool} (h : Ready p.slots) {k : Nat} (hk : p.idle? = some k) :
    p.slots[k]? = some {} := by
  obtain ⟨hlt, hidle, -⟩ := List.findIdx?_eq_some_iff_getElem.mp hk
  have hget : p.slots[k]? = some p.slots[k] := List.getElem?_eq_getElem hlt
  rw [hget, h _ (List.getElem_mem hlt) (by simpa using hidle)]

/-- A task in the box of a worker. -/
def box (p : Pool) (k : Nat) (task : Task) : Pool :=
  ⟨p.slots.set k { held := some task, worker := { inbox := some (.render task) } }⟩

/-- Nothing hinders a task on its way to an idle worker. -/
theorem give_of_idle {p : Pool} {k : Nat} (hk : p.slots[k]? = some {}) (task : Task) :
    p.give k task = .ok (p.box k task) := by
  unfold give
  rw [hk]
  rfl

theorem held_box_perm {p : Pool} {k : Nat} (hk : p.slots[k]? = some {}) (task : Task) :
    (p.box k task).held.Perm (task :: p.held) :=
  filterMap_set_perm hk Slot.held _

/-- The pool after a report of worker `k`, whose task it had noted. -/
theorem free_of_held {p : Pool} {k : Nat} {task : Task}
    (hk : p.slots[k]? = some { held := some task }) : p.free k = ⟨p.slots.set k {}⟩ := by
  rw [free, modify_eq_set_of_getElem? hk]

theorem held_free_perm {p : Pool} {k : Nat} {task : Task}
    (hk : p.slots[k]? = some { held := some task }) : (task :: (p.free k).held).Perm p.held := by
  rw [free_of_held hk]
  exact filterMap_set_perm hk Slot.held {}

end Pool

/-! ## What keeps tasks in their places -/

namespace Carried

variable {slots : List Slot} {reports : List WorkReport} {k : Nat}

/-- At first all workers are idle, and nobody has reported. -/
theorem fresh (size : Nat) : Carried (List.replicate size {}) [] where
  fits := by
    intro k s hs
    rw [(List.mem_replicate.mp (List.mem_of_getElem? hs)).2]
    exact .idle
  known := by simp

/-- Changing one slot together with the reports of its worker alone.  The other workers see neither
the change nor the reports. -/
theorem set (h : Carried slots reports) {s : Slot} {reports' : List WorkReport}
    (hfits : s.Fits (reportsOf reports' k))
    (hothers : ∀ j, j ≠ k → reportsOf reports' j = reportsOf reports j)
    (hknown : ∀ c ∈ reports', c.worker < slots.length) : Carried (slots.set k s) reports' where
  fits := by
    intro j t ht
    rw [List.getElem?_set] at ht
    by_cases hj : k = j
    · subst hj
      split at ht
      · split at ht
        · cases ht; exact hfits
        · cases ht
      · exact absurd rfl ‹_›
    · rw [if_neg hj] at ht
      rw [hothers j (Ne.symm hj)]
      exact h.fits j t ht
  known := by simpa using hknown

/-- An idle worker gets a task. -/
theorem give (h : Carried slots reports) (hk : slots[k]? = some {}) (task : Task) :
    Carried (slots.set k { held := some task, worker := { inbox := some (.render task) } })
      reports := by
  have hnone : reportsOf reports k = [] := ((h.fits k _ hk).eq_idle rfl).2
  refine h.set ?_ (fun _ _ => rfl) h.known
  rw [hnone]
  exact .boxed task

/-- A worker takes the task in its box. -/
theorem take (h : Carried slots reports) {s : Slot} (hk : slots[k]? = some s) {w : Worker}
    (hw : s.worker.take = some w) :
    Carried (slots.set k { s with worker := w }) reports ∧ w.isOpen := by
  have hs := h.fits k s hk
  refine ⟨h.set ?_ (fun _ _ => rfl) h.known, ?_⟩
  -- With a message in the box only one of the places is possible.
  all_goals
    revert hs hw
    generalize reportsOf reports k = rs
    rintro hw (_ | _ | _ | _) <;> cases hw
  · exact .rendering _
  · rfl

/-- A worker ends its invocation and reports. -/
theorem finish (h : Carried slots reports) {s : Slot} (hk : slots[k]? = some s) {w : Worker}
    {c : WorkReport} {ending : Ending} (hw : s.worker.finish k ending = some (w, c)) :
    Carried (slots.set k { s with worker := w }) (reports ++ [c]) := by
  have hs := h.fits k s hk
  have hworker : c.worker = k := by
    unfold Worker.finish at hw
    split at hw <;> cases hw
    rfl
  -- Its own report is one more, and the only one, since it was rendering.
  refine h.set ?_ ?_ ?_
  · rw [reportsOf_append]
    have hc : reportsOf [c] k = [c] := by subst hworker; exact reportsOf_cons_self c []
    rw [hc]
    revert hs hw
    generalize reportsOf reports k = rs
    rintro hw (_ | _ | _ | _) <;> cases hw
    exact .reported rfl
  -- The others' reports are as before.
  · intro j hj
    rw [reportsOf_append, reportsOf_cons_ne (by rw [hworker]; exact hj.symm)]
    exact List.append_nil _
  · intro c' hc'
    rcases List.mem_append.mp hc' with hold | hnew
    · exact h.known c' hold
    · rw [List.mem_singleton.mp hnew, hworker]
      exact (List.getElem?_eq_some_iff.mp hk).1

/-- The first unread report is about the task noted for its worker.  The worker has put it there
itself, when it was through with that very task. -/
theorem head {c : WorkReport} {rest : List WorkReport} (h : Carried slots (c :: rest)) :
    ∃ task, slots[c.worker]? = some { held := some task } ∧
      c.fingerprint = task.fingerprint ∧ reportsOf rest c.worker = [] := by
  have hlt := h.known c List.mem_cons_self
  have hget : slots[c.worker]? = some slots[c.worker] := List.getElem?_eq_getElem hlt
  have hs := h.fits _ _ hget
  rw [reportsOf_cons_self] at hs
  generalize slots[c.worker] = s at hget hs
  generalize hrs : c :: reportsOf rest c.worker = rs at hs
  cases hs with
  | idle => cases hrs
  | boxed => cases hrs
  | rendering => cases hrs
  | @reported task c' hf =>
      obtain ⟨rfl, hrest⟩ := List.cons.inj hrs
      exact ⟨task, hget, hf, hrest⟩

/-- The worker of the first unread report is idle once the report is taken. -/
theorem free {c : WorkReport} {rest : List WorkReport} (h : Carried slots (c :: rest)) :
    Carried (slots.set c.worker {}) rest := by
  obtain ⟨task, -, -, hrest⟩ := h.head
  refine h.set ?_ ?_ fun c' hc' => h.known c' (List.mem_cons_of_mem _ hc')
  · rw [hrest]; exact .idle
  · intro j hj
    rw [reportsOf_cons_ne hj.symm]

end Carried

end AvatarPool
