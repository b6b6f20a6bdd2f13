import AvatarPool.Text.Decimal
import Mathlib.Data.List.Induction

/-! # Which texts are numbers

A number has many written forms: any number of zeros may stand in front of its digits, and a plus
sign before them.  `Text.number?` takes just these forms, for the numbers up to its limit, and no
other text.

The reader multiplies by ten and adds, and gives up as soon as the number passes the limit.
`Spells` says what such a row of digits means without any limit; it is carried along one digit at a
time, from the left (`spells_concat`), since a further digit at the end is what the reader sees.
That giving up early loses nothing is the last step of `digitsWithin_eq_some_iff`: a prefix is never
larger than the whole. -/

namespace AvatarPool.Text

/-- The digits of a number, with zeros in front.  So the number zero is written as one zero at
least. -/
def withZeros (zeros n : Nat) : List Char := List.replicate zeros '0' ++ (toString n).toList

/-- **The written forms of a number**: zeros may stand in front of it, and a plus sign before
them. -/
inductive Writes (n : Nat) : List Char → Prop
  | bare (zeros : Nat) : Writes n (withZeros zeros n)
  | plus (zeros : Nat) : Writes n ('+' :: withZeros zeros n)

theorem withZeros_eq (zeros n : Nat) :
    withZeros zeros n = List.replicate zeros '0' ++ Nat.toDigits 10 n :=
  congrArg _ Nat.toList_repr

theorem withZeros_ne_nil (zeros n : Nat) : withZeros zeros n ≠ [] := by
  rw [withZeros_eq]
  exact List.append_ne_nil_of_right_ne_nil _ Nat.toDigits_ne_nil

/-- Zeros and digits alike are digits. -/
theorem isDigit_of_mem_withZeros {zeros n : Nat} {c : Char} (h : c ∈ withZeros zeros n) :
    c.isDigit := by
  rw [withZeros_eq] at h
  rcases List.mem_append.mp h with hzero | hdigit
  · rw [(List.mem_replicate.mp hzero).2]
    rfl
  · exact Nat.isDigit_of_mem_toDigits (by decide) (by decide) hdigit

/-! ## Digits -/

theorem digit?_digitChar {d : Nat} (h : d < 10) : digit? (Nat.digitChar d) = some d := by
  have hall : ∀ d < 10, digit? (Nat.digitChar d) = some d := by decide
  exact hall d h

/-- A digit stands for one value, and is the digit of that value. -/
theorem digit?_eq_some_iff {c : Char} {d : Nat} :
    digit? c = some d ↔ d < 10 ∧ c = Nat.digitChar d := by
  constructor
  · intro h
    obtain ⟨⟨hlow, hhigh⟩, rfl⟩ := Option.ite_some_none_eq_some.mp h
    have hlow : '0'.toNat ≤ c.toNat := hlow
    have hhigh : c.toNat ≤ '9'.toNat := hhigh
    have hten : c.toNat - '0'.toNat < 10 := by
      have hspan : '9'.toNat = '0'.toNat + 9 := rfl
      omega
    have hcode : (Nat.digitChar (c.toNat - '0'.toNat)).toNat = c.toNat :=
      (Nat.toNat_digitChar_of_lt_ten hten).trans (Nat.add_sub_cancel' hlow)
    exact ⟨hten, Char.toNat_inj.mp hcode.symm⟩
  · rintro ⟨h, rfl⟩
    exact digit?_digitChar h

/-! ## Rows of digits -/

/-- What a row of digits says: nothing yet, or a number behind zeros. -/
def Spells (cs : List Char) (n : Nat) : Prop := cs = [] ∧ n = 0 ∨ ∃ zeros, cs = withZeros zeros n

/-- A further digit. -/
theorem spells_concat {cs : List Char} {c : Char} {n : Nat} :
    Spells (cs ++ [c]) n ↔ ∃ m d, Spells cs m ∧ digit? c = some d ∧ n = m * 10 + d := by
  constructor
  -- The row is not empty, so it is a number behind zeros, and its last digit is parted from it.
  · rintro (⟨hnil, -⟩ | ⟨zeros, heq⟩)
    · simp at hnil
    · rw [withZeros_eq] at heq
      rcases Nat.lt_or_ge n 10 with hn | hn
      · -- The number is this digit, behind zeros alone.
        rw [Nat.toDigits_of_lt_base hn] at heq
        obtain ⟨rfl, hc⟩ := List.append_inj' heq rfl
        obtain rfl := List.singleton_inj.mp hc
        refine ⟨0, n, ?_, digit?_digitChar hn, by omega⟩
        cases zeros with
        | zero => exact .inl ⟨rfl, rfl⟩
        | succ zeros => exact .inr ⟨zeros, List.replicate_succ'⟩
      · rw [Nat.toDigits_of_base_le (by decide) hn, ← List.append_assoc] at heq
        obtain ⟨rfl, hc⟩ := List.append_inj' heq rfl
        obtain rfl := List.singleton_inj.mp hc
        exact ⟨n / 10, n % 10, .inr ⟨zeros, (withZeros_eq _ _).symm⟩,
          digit?_digitChar (Nat.mod_lt n (by decide)), by omega⟩
  · rintro ⟨m, d, hm, hd, rfl⟩
    -- A digit behind nothing, behind zeros alone, or behind a number.
    obtain ⟨hten, rfl⟩ := digit?_eq_some_iff.mp hd
    rcases hm with ⟨rfl, rfl⟩ | ⟨zeros, rfl⟩
    · refine .inr ⟨0, ?_⟩
      rw [withZeros_eq, Nat.zero_mul, Nat.zero_add, Nat.toDigits_of_lt_base hten]
      rfl
    · rcases Nat.eq_zero_or_pos m with rfl | hpos
      · refine .inr ⟨zeros + 1, ?_⟩
        rw [withZeros_eq, withZeros_eq, Nat.zero_mul, Nat.zero_add, Nat.toDigits_of_lt_base hten,
          List.replicate_succ']
        rfl
      · have hdiv : (m * 10 + d) / 10 = m := by omega
        have hmod : (m * 10 + d) % 10 = d := by omega
        refine .inr ⟨zeros, ?_⟩
        rw [withZeros_eq, withZeros_eq,
          Nat.toDigits_of_base_le (by decide) (by omega : 10 ≤ m * 10 + d), hdiv, hmod,
          List.append_assoc]

/-- The reader goes from the left; seen from the right it reads all but the last digit first, and
the limit is checked at every digit. -/
theorem digitsWithin_concat (limit n : Nat) (cs : List Char) (c : Char) :
    digitsWithin limit n (cs ++ [c]) = (digitsWithin limit n cs).bind fun m =>
      (digit? c).bind fun d => if m * 10 + d ≤ limit then some (m * 10 + d) else none := by
  induction cs generalizing n with
  | nil =>
      simp only [List.nil_append, digitsWithin, Option.bind_some]
      cases digit? c <;> rfl
  | cons c' cs ih =>
      simp only [List.cons_append, digitsWithin]
      cases digit? c' with
      | none => rfl
      | some d =>
          dsimp only
          split
          · exact ih _
          · rfl

/-- A row of digits is read if its number is within the limit: what is read on the way is never
larger than the number itself. -/
theorem digitsWithin_eq_some_iff {limit n : Nat} {cs : List Char} :
    digitsWithin limit 0 cs = some n ↔ n ≤ limit ∧ Spells cs n := by
  -- From the right, as `spells_concat` goes.
  induction cs using List.reverseRecOn generalizing n with
  | nil =>
      constructor
      · intro h
        cases h
        exact ⟨Nat.zero_le _, .inl ⟨rfl, rfl⟩⟩
      · rintro ⟨-, ⟨-, rfl⟩ | ⟨zeros, heq⟩⟩
        · rfl
        · exact absurd heq.symm (withZeros_ne_nil zeros n)
  | append_singleton cs c ih =>
      rw [digitsWithin_concat, spells_concat]
      constructor
      · intro h
        obtain ⟨m, hm, h⟩ := Option.bind_eq_some_iff.mp h
        obtain ⟨d, hd, h⟩ := Option.bind_eq_some_iff.mp h
        obtain ⟨hle, rfl⟩ := Option.ite_some_none_eq_some.mp h
        exact ⟨hle, m, d, (ih.mp hm).2, hd, rfl⟩
      · rintro ⟨hle, m, d, hm, hd, rfl⟩
        -- What has been read before the last digit is smaller still, so it has passed the limit
        -- check too.
        rw [ih.mpr ⟨by omega, hm⟩, hd, Option.bind_some, Option.bind_some, if_pos hle]

/-! ## Numbers -/

/-- A plus sign is dropped from the front, and nothing else. -/
theorem eq_plus_or_dropPlus_eq (cs : List Char) : cs = '+' :: dropPlus cs ∨ dropPlus cs = cs := by
  unfold dropPlus
  split
  · exact .inl rfl
  · exact .inr rfl

theorem dropPlus_withZeros (zeros n : Nat) : dropPlus (withZeros zeros n) = withZeros zeros n := by
  refine (eq_plus_or_dropPlus_eq _).resolve_left fun hplus => ?_
  have hmem : '+' ∈ withZeros zeros n := hplus ▸ List.mem_cons_self
  exact absurd (isDigit_of_mem_withZeros hmem) (by decide)

/-- Without its sign a number is a row of digits, of which there is one at least. -/
theorem number?_eq (limit : Nat) (text : String) : number? limit text =
    if dropPlus text.toList = [] then none else digitsWithin limit 0 (dropPlus text.toList) := by
  unfold number?
  split
  · rename_i hnil
    rw [if_pos hnil]
  · rename_i hne
    rw [if_neg hne]

/-- **A text is read as a number exactly if it is one of its written forms**, and the number is
within the limit. -/
theorem number?_eq_some_iff {limit n : Nat} {text : String} :
    number? limit text = some n ↔ n ≤ limit ∧ Writes n text.toList := by
  rw [number?_eq]
  generalize text.toList = cs
  constructor
  · intro h
    obtain ⟨hsome, h⟩ := Option.ite_none_left_eq_some.mp h
    obtain ⟨hle, hspells⟩ := digitsWithin_eq_some_iff.mp h
    obtain ⟨zeros, hrow⟩ := hspells.resolve_left fun hnil => hsome hnil.1
    refine ⟨hle, ?_⟩
    rcases eq_plus_or_dropPlus_eq cs with hplus | hbare
    · rw [hplus, hrow]
      exact .plus zeros
    · rw [← hbare, hrow]
      exact .bare zeros
  · rintro ⟨hle, hwrites⟩
    -- Both forms are the same row once the sign is gone.
    obtain ⟨zeros, hrow⟩ : ∃ zeros, dropPlus cs = withZeros zeros n := by
      cases hwrites with
      | plus zeros => exact ⟨zeros, rfl⟩
      | bare zeros => exact ⟨zeros, dropPlus_withZeros zeros n⟩
    rw [hrow, if_neg (withZeros_ne_nil zeros n)]
    exact digitsWithin_eq_some_iff.mpr ⟨hle, .inr ⟨zeros, rfl⟩⟩

end AvatarPool.Text
