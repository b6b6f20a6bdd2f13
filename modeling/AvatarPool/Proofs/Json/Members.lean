import AvatarPool.Proofs.Json.Reading

/-! # Objects, member by member

A reader of objects takes one member after the other, and what it has read so far decides what it
may still take.  The members may come in any order: an object *holds* its known members if each of
their names comes exactly once, with a value that it should have, whatever the other members are
called.

The readers of requests and of responses differ in what they keep of a member and agree in how they
go from one to the next.  So the round is stated once here, over any state and any reading of a
single member, and both readers are shown to be loops of such rounds.  What a loop reads is then a
matter of its members alone: a caller proves what one member does, and `loop_eq_ok_iff` says what
the whole object does.

The order of the members is dealt with by `Awaits`.  It pairs what has been read of a known member
with what is still to come of it, so that the two cases, seen and ahead, are kept apart while the
members go by; it is the invariant of every proof about members in any order. -/

namespace AvatarPool.Json

/-! ## The loop over the members -/

/-- The tokens of an object after its opening brace. -/
def membersTokens : List Member → List Token
  | [] => [.closeBrace]
  | (key, v) :: ms => .text key :: .colon :: (v.tokens ++ Value.moreMembers ms)

/-- An empty object and one with members start alike, so that a reader need not know which it has.
-/
theorem Value.tokens_object (ms : List Member) :
    (Value.object ms).tokens = .openBrace :: membersTokens ms := by
  cases ms <;> rfl

/-- What follows a member that is not the last is a comma and an object's tokens once more; by this
the induction over the members can go on. -/
theorem moreMembers_cons (m : Member) (ms : List Member) :
    Value.moreMembers (m :: ms) = .comma :: membersTokens (m :: ms) := rfl

-- A loop with its round: `member` reads what stands after a name, `finish` makes a result of what
-- has been gathered, and `takes` says which values a member may have.
section Loop

variable {σ ρ : Type} {member : σ → String → List Token → Except DecodeError (σ × List Token)}
  {finish : σ → Except DecodeError ρ} {loop : σ → List Token → Except DecodeError (ρ × List Token)}
  {takes : σ → String → Value → σ → Prop} {s s' : σ} {ts rest : List Token} {r : ρ}

/-- One round of a loop over members: a name, its member, and then the next name or the end. -/
def memberRound (member : σ → String → List Token → Except DecodeError (σ × List Token))
    (finish : σ → Except DecodeError ρ)
    (loop : σ → List Token → Except DecodeError (ρ × List Token)) (s : σ) :
    List Token → Except DecodeError (ρ × List Token)
  | .text pieces :: rest =>
    match joined? pieces with
    | none => .error .malformed
    | some key =>
      match member s key rest with
      | .error e => .error e
      | .ok (s, .comma :: rest) => loop s rest
      | .ok (s, .closeBrace :: rest) => (finish s).map fun r => (r, rest)
      | .ok _ => .error .malformed
  | _ => .error .malformed

section Written

variable {key : String} {t : Token}

/-- A written member is read, and another one comes.  It is by these two lemmas that a writer's own
frames are read back: their names are not escaped, and each of their values is a single token. -/
theorem memberRound_comma (h : ∀ rest, member s key (.colon :: t :: rest) = .ok (s', rest)) :
    memberRound member finish loop s (textToken key :: .colon :: t :: .comma :: rest) =
      loop s' rest := by
  rw [textToken, memberRound, joined?_pieceOf]
  dsimp only
  rw [h]

/-- The last written member is read. -/
theorem memberRound_close (h : ∀ rest, member s key (.colon :: t :: rest) = .ok (s', rest)) :
    memberRound member finish loop s (textToken key :: .colon :: t :: .closeBrace :: rest) =
      (finish s').map fun r => (r, rest) := by
  rw [textToken, memberRound, joined?_pieceOf]
  dsimp only
  rw [h]

end Written

/-- Members taken one after the other, each under its name.  The states in between are not named by
the list, and each is what the member before it has left. -/
inductive Taken (takes : σ → String → Value → σ → Prop) : σ → List Member → σ → Prop
  | nil {s : σ} : Taken takes s [] s
  | cons {s s' s'' : σ} {key : List Piece} {name : String} {v : Value} {ms : List Member}
      (hname : joined? key = some name) (hv : takes s name v s') (h : Taken takes s' ms s'') :
      Taken takes s ((key, v) :: ms) s''

section

variable (hround : ∀ s ts, loop s ts = memberRound member finish loop s ts)
  (hmember : ∀ s name ts s' rest, member s name ts = .ok (s', rest) ↔
    ∃ v : Value, takes s name v s' ∧ ts = .colon :: (v.tokens ++ rest))

include hround hmember

/-- What a loop has read is an object's members, each of them taken.  The name is any spelling of a
text, with escapes or without, since the reader joins its pieces first; that a name has no text is
an error. -/
theorem exists_taken_of_loop (h : loop s ts = .ok (r, rest)) :
    ∃ ms s', ms ≠ [] ∧ Taken takes s ms s' ∧ finish s' = .ok r ∧ ts = membersTokens ms ++ rest := by
  -- A round takes a name and its member, so that fewer tokens are left for the next one.
  induction hn : ts.length using Nat.strongRecOn generalizing s ts with
  | ind n ih =>
      subst hn
      rw [hround] at h
      unfold memberRound at h
      split at h
      · split at h
        -- Not a name that stands for a text.
        · cases h
        · rename_i hname
          split at h
          · cases h
          -- A comma: the induction hypothesis gives the members after it, which are some, since a
          -- comma may not come before the brace.
          · rename_i hcomma
            obtain ⟨v, hv, rfl⟩ := (hmember _ _ _ _ _).mp hcomma
            obtain ⟨ms, s'', hne, htaken, hfinish, rfl⟩ :=
              ih _ (by simp only [List.length_cons, List.length_append]; omega) h rfl
            obtain ⟨m, ms, rfl⟩ := List.exists_cons_of_ne_nil hne
            exact ⟨_, s'', List.cons_ne_nil _ _, .cons hname hv htaken, hfinish,
              by simp [membersTokens, moreMembers_cons]⟩
          -- The closing brace: this member is the last one.
          · rename_i hclose
            obtain ⟨v, hv, rfl⟩ := (hmember _ _ _ _ _).mp hclose
            obtain ⟨r', hfinish, heq⟩ := map_eq_ok.mp h
            cases heq
            exact ⟨[(_, v)], _, List.cons_ne_nil _ _, .cons hname hv .nil, hfinish,
              by simp [membersTokens, Value.moreMembers]⟩
          · cases h
      · cases h

/-- Members that are taken one by one are read by a loop.  By induction on how the members are
taken; the last of them is told from the others by what is taken after it. -/
theorem loop_of_taken {ms : List Member} (htaken : Taken takes s ms s') (hne : ms ≠ [])
    (hfinish : finish s' = .ok r) : loop s (membersTokens ms ++ rest) = .ok (r, rest) := by
  induction htaken with
  | nil => exact absurd rfl hne
  | @cons s s₁ s' key name v ms hname hv h ih =>
      -- What may come after a member does not matter to it.
      have hread : ∀ rest, member s name (.colon :: (v.tokens ++ rest)) = .ok (s₁, rest) :=
        fun rest => (hmember _ _ _ _ _).mpr ⟨v, hv, rfl⟩
      rw [hround, membersTokens, List.cons_append, List.cons_append, List.append_assoc,
        memberRound, hname]
      dsimp only
      rw [hread]
      cases h with
      | nil => exact map_eq_ok.mpr ⟨r, hfinish, rfl⟩
      | cons => exact ih (List.cons_ne_nil _ _) hfinish

/-- **A loop that takes single members rightly takes an object's members rightly.**  The state at
the end is one that the members lead to and that makes a result; where a member may leave more than
one state behind, any of them will do. -/
theorem loop_eq_ok_iff : loop s ts = .ok (r, rest) ↔
    ∃ ms s', ms ≠ [] ∧ Taken takes s ms s' ∧ finish s' = .ok r ∧ ts = membersTokens ms ++ rest := by
  refine ⟨exists_taken_of_loop hround hmember, ?_⟩
  rintro ⟨ms, s', hne, htaken, hfinish, rfl⟩
  exact loop_of_taken hround hmember htaken hne hfinish

end

end Loop

/-! ## What an object holds -/

/-- The values of the members of one name, in their order.  A name that is written with escapes
counts like a plain one, and a member whose name stands for no text is under no name. -/
def valuesOf (name : String) (ms : List Member) : List Value :=
  ms.filterMap fun m => if joined? m.1 = some name then some m.2 else none

/-- **What an object holds**, in whatever order: each of the known members once, with a value that
it should have, and any further members of other names.  Every name is a text.  That the list of a
known name's values is a single one says both that it is there and that it is there only once. -/
structure Holds (known : List (String × (Value → Prop))) (further : Value → Prop)
    (ms : List Member) : Prop where
  named : ∀ m ∈ ms, ∃ name, joined? m.1 = some name
  own : ∀ k ∈ known, ∃ v, valuesOf k.1 ms = [v] ∧ k.2 v
  others : ∀ m ∈ ms, (∀ k ∈ known, joined? m.1 ≠ some k.1) → further m.2

section Holds

variable {known : List (String × (Value → Prop))} {further : Value → Prop} {ms : List Member}
  {m : Member} {name : String} {P : Value → Prop}

theorem mem_valuesOf (hm : m ∈ ms) (hname : joined? m.1 = some name) : m.2 ∈ valuesOf name ms :=
  List.mem_filterMap.mpr ⟨m, hm, if_pos hname⟩

/-- A member of a known name has a value that it should have. -/
theorem Holds.of_mem (h : Holds known further ms) (hk : (name, P) ∈ known) (hm : m ∈ ms)
    (hname : joined? m.1 = some name) : P m.2 := by
  obtain ⟨v, hvalues, hv⟩ := h.own _ hk
  have hmem := mem_valuesOf hm hname
  rw [hvalues, List.mem_singleton] at hmem
  exact hmem ▸ hv

/-- What is true of every value that a known member should have, and of every further one, is true
of all of them.  The readers need this where they ask the same of every value, known or not, as that
of responses does of soundness. -/
theorem Holds.forall_mem {Q : Value → Prop} (h : Holds known further ms)
    (hknown : ∀ k ∈ known, ∀ v, k.2 v → Q v) (hfurther : ∀ v, further v → Q v) :
    ∀ m ∈ ms, Q m.2 := by
  intro m hm
  -- Either the name is a known one, or the member is a further one.
  by_cases hown : ∃ k ∈ known, joined? m.1 = some k.1
  · obtain ⟨k, hk, hname⟩ := hown
    exact hknown k hk _ (h.of_mem hk hm hname)
  · exact hfurther _ (h.others m hm fun k hk hname => hown ⟨k, hk, hname⟩)

end Holds

/-! ## What is still to come

The lists of values shrink with the members that are left, so both constructors speak of the part of
the object ahead, and of no other. -/

/-- **What is known of one member while an object is read**: it has been seen, and comes no more, or
it is still ahead, once. -/
inductive Awaits {α : Type} (a : α) (P : Value → Prop) : Option α → List Value → Prop
  | seen : Awaits a P (some a) []
  | ahead {v : Value} (h : P v) : Awaits a P none [v]

section Awaits

variable {α : Type} {a : α} {P : Value → Prop} {o : Option α} {key : List Piece}
  {name name' : String} {v : Value} {ms : List Member}

/-- The member comes: it had not been seen, and is not to come again.  So a member that comes twice
is out of the question here: after the first time none is ahead. -/
theorem Awaits.here (h : Awaits a P o (valuesOf name ((key, v) :: ms)))
    (hname : joined? key = some name) :
    o = none ∧ P v ∧ Awaits a P (some a) (valuesOf name ms) := by
  rw [valuesOf, List.filterMap_cons_some (b := v) (by simp [hname])] at h
  generalize hvs : List.filterMap _ ms = vs at h
  cases h with
  | ahead hv => exact ⟨rfl, hv, by rw [valuesOf, hvs]; exact .seen⟩

/-- Another member comes.  What is known of one member is not touched by the others, which is why
their order does not matter. -/
theorem Awaits.elsewhere (h : Awaits a P o (valuesOf name ((key, v) :: ms)))
    (hname : joined? key = some name') (hne : name' ≠ name) : Awaits a P o (valuesOf name ms) := by
  rwa [valuesOf, List.filterMap_cons_none (by simp [hname, hne])] at h

/-- Before an object is read, each of its known members is ahead. -/
theorem Holds.awaits {known : List (String × (Value → Prop))} {further : Value → Prop}
    (h : Holds known further ms) (hk : (name, P) ∈ known) : Awaits a P none (valuesOf name ms) := by
  obtain ⟨v, hvalues, hv⟩ := h.own _ hk
  rw [hvalues]
  exact .ahead hv

/-- When no members are left, each known one has been seen. -/
theorem Awaits.of_nil (h : Awaits a P o (valuesOf name [])) : o = some a := by
  generalize hvs : valuesOf name [] = vs at h
  cases h with
  | seen => rfl
  | ahead => cases hvs

end Awaits

end AvatarPool.Json
