/-! # What a checked computation yields

A computation that may fail succeeds exactly if each of its steps does.

The readers of frames and of base64 are written in `do` notation over `Except`.  Their inversion
lemmas open one step at a time with the two equivalences below, so that no proof has to unfold the
monad or to follow a failure through the steps after it. -/

namespace AvatarPool

variable {ε α β : Type} {x : Except ε α} {b : β}

/-- A sequence of two steps succeeds exactly if the first one does and the second one does with its
result. -/
theorem bind_eq_ok {f : α → Except ε β} : (x >>= f) = .ok b ↔ ∃ a, x = .ok a ∧ f a = .ok b := by
  cases x with
  | error e => simp [bind, Except.bind]
  | ok a => simp [bind, Except.bind]

/-- A step whose result is only mapped succeeds exactly if the step does. -/
theorem map_eq_ok {f : α → β} : x.map f = .ok b ↔ ∃ a, x = .ok a ∧ f a = b := by
  cases x with
  | error e => simp [Except.map]
  | ok a => simp [Except.map]

end AvatarPool
