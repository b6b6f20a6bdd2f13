/-! # Waiting callers

Callers who ask for the same key wait together in one entry.  The first one opens the entry and has
to start the work; an entry is closed as a whole, so no caller can join work that is already
answered. -/

namespace AvatarPool

/-- How a caller came to wait. -/
inductive Admission where
  /-- There was no entry: the work has to be started. -/
  | opened
  /-- The work was already under way. -/
  | joined
  deriving DecidableEq, Repr

/-- Waiting callers by key, each entry in the order its callers came. -/
structure Pending (κ ω : Type) where
  entries : List (κ × List ω) := []
  deriving Repr, Inhabited

namespace Pending

variable {κ ω : Type} [DecidableEq κ]

/-- The callers waiting under a key. -/
def waiting (p : Pending κ ω) (key : κ) : List ω := (p.entries.lookup key).getD []

def keys (p : Pending κ ω) : List κ := p.entries.map Prod.fst

/-- Adds a caller under a key. -/
def enter (p : Pending κ ω) (key : κ) (w : ω) : Pending κ ω × Admission :=
  match p.entries.lookup key with
  | some _ =>
    (⟨p.entries.map fun e => if e.1 = key then (e.1, e.2 ++ [w]) else e⟩, .joined)
  | none => (⟨p.entries ++ [(key, [w])]⟩, .opened)

/-- Closes the entry of a key; its callers are to be answered. -/
def close (p : Pending κ ω) (key : κ) : Pending κ ω × List ω :=
  (⟨p.entries.filter fun e => e.1 ≠ key⟩, p.waiting key)

/-- Closes every entry. -/
def closeAll (p : Pending κ ω) : Pending κ ω × List (κ × List ω) := (⟨[]⟩, p.entries)

end Pending

end AvatarPool
