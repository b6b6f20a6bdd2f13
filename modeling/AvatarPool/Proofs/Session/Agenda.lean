import AvatarPool.Session.Steps
import Mathlib.Data.List.Nodup

/-! # Who may take a turn

Waking somebody changes nothing of a session but its agenda: `Session.body` is all the rest.  Of the
turns on the agenda only those of the handlers matter to what a session answers, for a handler that
takes one turn too many would answer twice; `Orderly` says which handlers may be on it. -/

namespace AvatarPool.Session

variable {s t : Session} {P Q : Nat → Prop}

/-! ## What is not the agenda -/

/-- A session without the turns that wait to be taken. -/
def body (s : Session) : Session := { s with agenda := [], postponed := [] }

@[simp] theorem body_schedule (s : Session) (t : Turn) : (s.schedule t).body = s.body := by
  unfold schedule
  split <;> rfl

@[simp] theorem body_wake (s : Session) (t : Turn) : (s.wake t).body = s.body := by
  unfold wake
  split
  · rfl
  · exact body_schedule s t

/-- Putting several on the agenda changes nothing else either. -/
theorem body_foldl_schedule (ts : List Turn) (s : Session) :
    (ts.foldl schedule s).body = s.body := by
  induction ts generalizing s with
  | nil => rfl
  | cons t rest ih => exact (ih (s.schedule t)).trans (body_schedule s t)

theorem body_resume (s : Session) : s.resume.body = s.body := body_foldl_schedule _ _

/-! ## Who is woken when nothing more can come -/

/-- A listener is woken, or left alone. -/
theorem hushLink_eq (s : Session) (b : Nat) :
    s.hushLink b = s.wake (.listener b) ∨ s.hushLink b = s := by
  unfold hushLink
  split
  · split
    · exact .inl rfl
    · exact .inr rfl
  · exact .inr rfl

/-- A writer is woken, or left alone. -/
theorem hushWriter_eq (s : Session) (i : Nat) :
    s.hushWriter i = s.wake (.writer i) ∨ s.hushWriter i = s := by
  unfold hushWriter
  split
  · split
    · exact .inl rfl
    · exact .inr rfl
  · exact .inr rfl

/-- A lines host is woken, or left alone. -/
theorem hushLines_eq (s : Session) (i : Nat) :
    s.hushLines i = s.wake (.lines i) ∨ s.hushLines i = s := by
  unfold hushLines
  split
  · split
    · exact .inl rfl
    · exact .inr rfl
  · exact .inr rfl

/-! ## The turns of handlers -/

/-- Nobody is on the agenda twice, a handler only if `P` holds of it, and no handler has been put
off. -/
structure Orderly (P : Nat → Prop) (s : Session) : Prop where
  nodup : s.agenda.Nodup
  turns : ∀ h, .handler h ∈ s.agenda → P h
  postponed : ∀ h, .handler h ∉ s.postponed

namespace Orderly

theorem mono (h : Orderly P s) (hPQ : ∀ n, P n → Q n) : Orderly Q s :=
  ⟨h.nodup, fun n hn => hPQ n (h.turns n hn), h.postponed⟩

theorem of_body (h : Orderly P s) (ha : t.agenda = s.agenda) (hp : t.postponed = s.postponed) :
    Orderly P t := by
  obtain ⟨hnodup, hturns, hpostponed⟩ := h
  exact ⟨ha ▸ hnodup, ha ▸ hturns, hp ▸ hpostponed⟩

/-- Whoever is put on the agenda has to be allowed, if it is a handler. -/
theorem schedule (h : Orderly P s) {u : Turn} (hu : ∀ n, u = .handler n → P n) :
    Orderly P (s.schedule u) := by
  unfold Session.schedule
  split
  · exact h
  · rename_i hnew
    refine ⟨?_, fun n hn => ?_, h.postponed⟩
    · refine List.nodup_append.mpr ⟨h.nodup, List.nodup_singleton u, fun a ha b hb => ?_⟩
      rintro rfl
      exact hnew (List.contains_iff_mem.mpr (List.mem_singleton.mp hb ▸ ha))
    · rcases List.mem_append.mp hn with hold | hlast
      · exact h.turns n hold
      · exact hu n (List.mem_singleton.mp hlast).symm

/-- Waking is the same, but for those who are to wait until the next round. -/
theorem wake (h : Orderly P s) {u : Turn} (hu : ∀ n, u = .handler n → P n) :
    Orderly P (s.wake u) := by
  unfold Session.wake
  split
  · exact h
  · exact h.schedule hu

/-- Handlers do not put off their turns. -/
theorem postpone (h : Orderly P s) {u : Turn} (hu : ∀ n, u ≠ .handler n) :
    Orderly P (s.postpone u) := by
  refine ⟨h.nodup, h.turns, fun n hn => ?_⟩
  rcases List.mem_append.mp hn with hold | hlast
  · exact h.postponed n hold
  · exact hu n (List.mem_singleton.mp hlast).symm

/-- Several may be put on the agenda who are no handlers. -/
theorem foldl_schedule {ts : List Turn} (h : Orderly P s) (hts : ∀ n, .handler n ∉ ts) :
    Orderly P (ts.foldl Session.schedule s) := by
  induction ts generalizing s with
  | nil => exact h
  | cons u rest ih =>
      refine ih (h.schedule fun n hu => ?_) fun n hn => hts n (List.mem_cons_of_mem _ hn)
      exact absurd (hu ▸ List.mem_cons_self) (hts n)

/-- Whoever comes back is no handler, because handlers never put off their turns. -/
theorem resume (h : Orderly P s) : Orderly P s.resume := by
  have hcleared : Orderly P { s with postponed := [] } :=
    ⟨h.nodup, h.turns, fun _ => List.not_mem_nil⟩
  exact hcleared.foldl_schedule h.postponed

/-- Who has taken a turn is not on the agenda any more. -/
theorem erase (h : Orderly P s) (u : Turn) :
    Orderly (fun n => P n ∧ u ≠ .handler n) { s with agenda := s.agenda.erase u } where
  nodup := h.nodup.erase u
  turns n hn := by
    refine ⟨h.turns n (List.mem_of_mem_erase hn), ?_⟩
    rintro rfl
    exact h.nodup.not_mem_erase hn
  postponed := h.postponed

end Orderly

end AvatarPool.Session
