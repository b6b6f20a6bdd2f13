/-! # The result cache

Results are kept forever under their key.  The first value written under a key stays. -/

namespace AvatarPool

/-- Kept values, in the order they came. -/
structure Cache (κ ν : Type) where
  entries : List (κ × ν) := []
  deriving Repr, Inhabited

namespace Cache

variable {κ ν : Type} [DecidableEq κ]

def get? (c : Cache κ ν) (key : κ) : Option ν := c.entries.lookup key

/-- Keeps a value unless there is one already, and tells whether it was kept. -/
def insert (c : Cache κ ν) (key : κ) (value : ν) : Cache κ ν × Bool :=
  match c.get? key with
  | some _ => (c, false)
  | none => (⟨c.entries ++ [(key, value)]⟩, true)

def size (c : Cache κ ν) : Nat := c.entries.length

def keys (c : Cache κ ν) : List κ := c.entries.map Prod.fst

end Cache

end AvatarPool
