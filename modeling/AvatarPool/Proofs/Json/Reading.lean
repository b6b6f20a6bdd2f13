import AvatarPool.Json.Decode
import AvatarPool.Proofs.Checked
import AvatarPool.Proofs.Json.Printed
import AvatarPool.Proofs.Json.Skimming

/-! # Readers and the values they take

A reader of tokens is described by the values that it takes: it succeeds where such a value stands,
whatever follows it, and on nothing else.  From there on what is read is told in values, and the
tokens are not looked at again.

`Reads` is what makes the readers of frames composable: the statement quantifies over the tokens
that follow, so the reader of one member can be used inside that of an object without saying where
it ends.  Each reader that frames are built from gets one lemma of this form, and the readers of
requests and responses are put together from these. -/

namespace AvatarPool.Json

/-- **A reader takes the values that show its result**, and nothing else. -/
def Reads {α : Type} (read : List Token → Except DecodeError (α × List Token))
    (Shows : α → Value → Prop) : Prop :=
  ∀ (ts : List Token) (a : α) (rest : List Token),
    read ts = .ok (a, rest) ↔ ∃ v : Value, Shows a v ∧ ts = v.tokens ++ rest

/-- A whole text is read if nothing is left. -/
theorem whole_eq_ok_iff {α : Type} {read : List Token → Except DecodeError (α × List Token)}
    {text : String} {a : α} : whole read text = .ok a ↔ read (tokens text) = .ok (a, []) := by
  rw [whole, bind_eq_ok]
  constructor
  · rintro ⟨⟨a', rest⟩, hread, h⟩
    cases rest with
    | nil =>
        cases h
        exact hread
    | cons => cases h
  · exact fun h => ⟨_, h, rfl⟩

/-! ## Any value -/

/-- **What is passed over is a value**, and it is told whether that value is sound.  A skipped value
is sound if every string in it can be joined, every number is in range, and it is not nested too
deeply. -/
theorem skim_eq_some_iff {room : Nat} {ts rest : List Token} {b : Bool} :
    skim room ts = some (b, rest) ↔
      ∃ v : Value, v.isSound room 0 = b ∧ ts = v.tokens ++ rest := by
  constructor
  · intro h
    obtain ⟨v, rest', rfl⟩ := exists_tokens_of_skimFrom h
    rw [v.skim_tokens] at h
    cases h
    exact ⟨v, rfl, rfl⟩
  · rintro ⟨v, rfl, rfl⟩
    exact v.skim_tokens room rest

/-! ## Strings -/

/-- A value that is the string `s`, however it is escaped. -/
inductive Value.Spells : Value → String → Prop
  | text {ps : List Piece} {s : String} (h : joined? ps = some s) : Spells (.text ps) s

/-- A string is sound wherever it stands. -/
theorem Value.Spells.isSound {v : Value} {s : String} (h : v.Spells s) (room depth : Nat) :
    v.isSound room depth = true := by
  obtain ⟨hjoined⟩ := h
  rw [Value.isSound, hjoined]
  rfl

/-- A token is taken as a string if its pieces join to that string, so a lone surrogate is refused
here. -/
theorem asString_eq_ok_iff {expected : String} {t : Token} {s : String} :
    asString expected t = .ok s ↔ ∃ ps, t = .text ps ∧ joined? ps = some s := by
  constructor
  · intro h
    cases t with
    | text ps =>
        rw [asString] at h
        split at h
        · rename_i hjoined
          cases h
          exact ⟨ps, rfl, hjoined⟩
        · cases h
    | _ => cases h
  · rintro ⟨ps, rfl, hjoined⟩
    rw [asString, hjoined]

/-- The first token of a value is asked for a string. -/
theorem asString_firstToken_eq_ok_iff {expected : String} {v : Value} {s : String} :
    asString expected v.firstToken = .ok s ↔ v.Spells s := by
  rw [asString_eq_ok_iff]
  constructor
  · rintro ⟨ps, htoken, hjoined⟩
    cases v with
    | text ps' =>
        cases htoken
        exact .text hjoined
    | _ => cases htoken
  · rintro ⟨hjoined⟩
    exact ⟨_, rfl, hjoined⟩

/-- The reader of strings takes the values that are strings. -/
theorem reads_readString : Reads readString fun s v => v.Spells s := by
  intro ts s rest
  cases ts with
  | nil =>
      refine ⟨nofun, ?_⟩
      rintro ⟨_, ⟨_⟩, htokens⟩
      cases htokens
  | cons t ts =>
      rw [readString, map_eq_ok]
      constructor
      · rintro ⟨s', hs, heq⟩
        cases heq
        obtain ⟨ps, rfl, hjoined⟩ := asString_eq_ok_iff.mp hs
        exact ⟨_, .text hjoined, rfl⟩
      · rintro ⟨_, ⟨hjoined⟩, htokens⟩
        cases htokens
        exact ⟨s, asString_eq_ok_iff.mpr ⟨_, rfl, hjoined⟩, rfl⟩

/-! ## Variants -/

/-- A value that is one of several named values: its name, or an object of that one name with
`null`.  The second form is an allowance of the decoder, and is taken for every enumeration alike.
-/
inductive Variants.ShownBy {α : Type} (vs : Variants α) (a : α) : Value → Prop
  | name {ps : List Piece} {s : String} (h : joined? ps = some s) (ha : vs.ofName? s = some a) :
      ShownBy vs a (.text ps)
  | object {ps : List Piece} {s : String} (h : joined? ps = some s) (ha : vs.ofName? s = some a) :
      ShownBy vs a (.object [(ps, .null)])

theorem Variants.read_eq_ok_iff {α : Type} {vs : Variants α} {s : String} {a : α} :
    vs.read s = .ok a ↔ vs.ofName? s = some a := by
  rw [Variants.read]
  split <;> simp_all

/-- What both ways of writing a variant have in common. -/
theorem readName_eq_ok_iff {α β : Type} {vs : Variants α} {ps : List Piece}
    {f : α → Except DecodeError β} {b : β} :
    -- `bind_eq_ok` opens the steps one after the other.
    (do
        let name ← asString "variant identifier" (.text ps)
        let a ← vs.read name
        f a) = .ok b ↔
      ∃ s a, joined? ps = some s ∧ vs.ofName? s = some a ∧ f a = .ok b := by
  simp only [bind_eq_ok, Variants.read_eq_ok_iff, asString_eq_ok_iff]
  constructor
  · rintro ⟨s, ⟨_, heq, hjoined⟩, a, ha, hb⟩
    cases heq
    exact ⟨s, a, hjoined, ha, hb⟩
  · rintro ⟨s, a, hjoined, ha, hb⟩
    exact ⟨s, ⟨_, rfl, hjoined⟩, a, ha, hb⟩

/-- The reader of variants takes both forms, and no other object. -/
theorem reads_readVariant {α : Type} (vs : Variants α) :
    Reads (readVariant vs) fun a v => vs.ShownBy a v := by
  intro ts a rest
  constructor
  · intro h
    unfold readVariant at h
    split at h
    · cases h
    · split at h
      · obtain ⟨s, a', hjoined, ha, hclose⟩ := readName_eq_ok_iff.mp h
        split at hclose <;> cases hclose
        exact ⟨_, .object hjoined ha, rfl⟩
      · cases h
    · obtain ⟨s, a', hjoined, ha, heq⟩ := readName_eq_ok_iff.mp h
      cases heq
      exact ⟨_, .name hjoined ha, rfl⟩
    · cases h
  · rintro ⟨_, hjoined | hjoined, rfl⟩
    all_goals exact readName_eq_ok_iff.mpr ⟨_, a, hjoined, ‹_›, rfl⟩

/-! ## Natural numbers -/

/-- Digits are dropped only from a number that is too large, so if none has been then the number is
that of all of them. -/
theorem gather_of_dropped_eq_zero {ds : List Nat} {value taken : Nat}
    (h : (gather value taken ds).dropped = 0) (hvalue : value ≤ Significand.limit) :
    (gather value taken ds).value = ds.foldl (fun n d => n * 10 + d) value ∧
      ds.foldl (fun n d => n * 10 + d) value ≤ Significand.limit := by
  induction ds generalizing value taken with
  | nil => exact ⟨rfl, hvalue⟩
  | cons d ds ih =>
      rw [gather] at h ⊢
      split at h
      · rename_i hle
        rw [if_pos hle]
        exact ih h hle
      · cases h

/-- **The numbers that are natural**: digits alone, below `2 ^ 64`.  A point, an exponent or a minus
sign makes a number something else, even if its value is natural. -/
theorem value?_eq_natural_iff {n : Numeral} {k : Nat} :
    n.value? = some (.natural k) ↔
      ∃ ds, n = ⟨false, ds, [], none⟩ ∧ ofDigits ds = k ∧ k < UInt64.size := by
  have hsize : ∀ k, k ≤ Significand.limit ↔ k < UInt64.size := fun k => Nat.lt_succ_iff.symm
  constructor
  -- A plain numeral with nothing dropped is natural; every other kind of numeral leads to another
  -- kind of value.
  · intro h
    obtain ⟨negative, whole, fraction, exponent⟩ := n
    unfold Numeral.value? at h
    dsimp only at h
    split at h
    · rename_i hplain
      simp only [Bool.and_eq_true, List.isEmpty_iff, Option.isNone_iff_eq_none,
        beq_iff_eq] at hplain
      obtain ⟨⟨rfl, rfl⟩, hdropped⟩ := hplain
      obtain ⟨hvalue, hlimit⟩ := gather_of_dropped_eq_zero hdropped (Nat.zero_le _)
      cases negative with
      | false =>
          cases h
          exact ⟨whole, rfl, hvalue.symm, (hsize _).mp (hvalue ▸ hlimit)⟩
      | true =>
          rw [Bool.not_true, if_neg Bool.false_ne_true] at h
          split at h
          · cases h
          · obtain ⟨_, -, heq⟩ := Option.map_eq_some_iff.mp h
            cases heq
    · obtain ⟨_, -, heq⟩ := Option.map_eq_some_iff.mp h
      cases heq
  · rintro ⟨ds, rfl, rfl, hlt⟩
    have hgather := gather_eq ds 0 ((hsize _).mpr hlt)
    simp [Numeral.value?, hgather, ofDigits]

/-! ## Members -/

theorem afterColon_eq_ok_iff {ts rest : List Token} :
    afterColon ts = .ok rest ↔ ts = .colon :: rest := by
  unfold afterColon
  split <;> simp_all

theorem once_eq_ok_iff {α : Type} {name : String} {seen : Option α} :
    once name seen = .ok () ↔ seen = none := by
  cases seen <;> simp [once]

/-- A member that may come once: it has not come yet, and its value is one that the reader takes. -/
theorem readOnce_eq_ok_iff {α σ : Type} {name : String} {seen : Option α}
    {read : List Token → Except DecodeError (α × List Token)} {Shows : α → Value → Prop}
    {place : α → σ} {ts rest : List Token} {s : σ} (hread : Reads read Shows) :
    readOnce name seen read place ts = .ok (s, rest) ↔
      ∃ v : Value, (seen = none ∧ ∃ a, Shows a v ∧ place a = s) ∧
        ts = .colon :: (v.tokens ++ rest) := by
  constructor
  · intro h
    unfold readOnce at h
    split at h
    · cases h
    · rename_i hseen
      split at h
      · cases h
      · rename_i hcolon
        obtain ⟨⟨a, _⟩, ha, heq⟩ := map_eq_ok.mp h
        cases heq
        obtain ⟨v, hv, rfl⟩ := (hread _ _ _).mp ha
        exact ⟨v, ⟨once_eq_ok_iff.mp hseen, a, hv, rfl⟩, afterColon_eq_ok_iff.mp hcolon⟩
  · rintro ⟨v, ⟨rfl, a, hv, rfl⟩, rfl⟩
    show (read _).map _ = _
    rw [(hread _ _ _).mpr ⟨v, hv, rfl⟩]
    rfl

end AvatarPool.Json
