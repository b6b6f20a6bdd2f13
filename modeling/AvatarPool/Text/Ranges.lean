/-! # Tables of characters

A property of characters is a table of ranges of code points, in ascending order, searched by
halving. -/

namespace AvatarPool.Text

/-- Whether the code point lies in a range of the table, by halving the part between `low` and
`high` at most `steps` times. -/
def inRangesBetween (table : Array (Nat × Nat)) (n : Nat) : Nat → Nat → Nat → Bool
  | 0, _, _ => false
  | steps + 1, low, high =>
    if low < high then
      let mid := (low + high) / 2
      match table[mid]? with
      | some (first, last) =>
        if n < first then inRangesBetween table n steps low mid
        else if last < n then inRangesBetween table n steps (mid + 1) high
        else true
      | none => false
    else false

/-- Whether a character lies in a range of the table. -/
def inRanges (table : Array (Nat × Nat)) (c : Char) : Bool :=
  inRangesBetween table c.toNat table.size 0 table.size

end AvatarPool.Text
