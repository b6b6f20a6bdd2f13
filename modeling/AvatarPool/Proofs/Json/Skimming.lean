import AvatarPool.Proofs.Json.Grammar

/-! # Values and what is passed over

Passing over a value takes exactly the tokens of a value: it goes over those of any value, however
deep, and where it comes to an end it has gone over those of one.  A value within the limits that
has no lone surrogates is found sound.

The skimmer does not recurse on values.  It goes from token to token with a cursor that holds the
open containers, and what it tells in the end is one flag.  Forwards, the induction is on the value
that is passed over, with the containers around it left open; a value that is over leaves the
skimmer where it would be after any other, which `resume` names.  Backwards it is on the number of
tokens, since the value is what is to be found.

The flag does not stop the skimmer: a value that is not sound is passed over to its end, so that
what follows it is the same.  It is kept as a conjunction, in the order in which the tokens come. -/

namespace AvatarPool.Json

/-! ## Single steps -/

/-- What is passed over after a value inside the given containers.  The outermost value ends the
run; inside a container it goes on with what may follow a value there. -/
def resume (room : Nat) (containers : List Container) (depth : Nat) (sound : Bool)
    (rest : List Token) : Option (Bool × List Token) :=
  match Cursor.after containers depth with
  | none => some (sound, rest)
  | some c => skimFrom room c sound rest

variable {room depth : Nat} {containers : List Container} {c c' : Cursor} {t : Token}
  {ts rest : List Token} {s : Bool} {r : Bool × List Token}

/-- A token that is a whole value by itself, or the end of a container, brings the skimmer to that
point. -/
theorem skimFrom_afterValue (h : c.step t = .afterValue containers depth) :
    skimFrom room c s (t :: rest) =
      resume room containers depth (s && t.isSound room c.depth) rest := by
  rw [skimFrom, h, Progress.afterValue, resume]
  cases Cursor.after containers depth <;> rfl

/-- Any other token moves the cursor.  Both lemmas keep the flag as it was and join the soundness of
this one token to it. -/
theorem skimFrom_inside (h : c.step t = .inside c') :
    skimFrom room c s (t :: rest) = skimFrom room c' (s && t.isSound room c.depth) rest := by
  rw [skimFrom, h]

/-- Over a token that is sound wherever it stands. -/
theorem skimFrom_quiet (h : c.step t = .inside c') (ht : t.isSound room c.depth = true) :
    skimFrom room c s (t :: rest) = skimFrom room c' s rest := by
  rw [skimFrom_inside h, ht, Bool.and_true]

/-- Where an array may end, any other token goes on like a value. -/
theorem skimFrom_elementOrEnd (h : t ≠ .closeBracket) :
    skimFrom room ⟨.elementOrEnd, containers, depth⟩ s (t :: rest) =
      skimFrom room ⟨.value, containers, depth⟩ s (t :: rest) := by
  cases t with
  | closeBracket => exact absurd rfl h
  | _ => rfl

namespace Value

mutual

/-- Whether a value met at the given depth is found sound.  A container is sound if there is room
for one more level and if all that stands in it is; a number if it has a value, and a text if its
surrogates are paired. -/
def isSound (room depth : Nat) : Value → Bool
  | .null | .truth _ => true
  | .number n => n.value?.isSome
  | .text ps => (joined? ps).isSome
  | .array vs => depth < room && elementsSound room (depth + 1) vs
  | .object ms => depth < room && membersSound room (depth + 1) ms

/-- The elements of an array that is already open. -/
def elementsSound (room depth : Nat) : List Value → Bool
  | [] => true
  | v :: vs => v.isSound room depth && elementsSound room depth vs

/-- The members of an object that is already open: the names must be texts as well. -/
def membersSound (room depth : Nat) : List (List Piece × Value) → Bool
  | [] => true
  | (key, v) :: ms => (joined? key).isSome && v.isSound room depth && membersSound room depth ms

end

mutual

/-- **A paired value within the limits is sound.**  The depth at which the value stands and its own
height must fit into the room together; the bound moves from one to the other at each container. -/
theorem isSound_of_isPaired (v : Value) {k depth : Nat} (hpaired : v.IsPaired) (hfits : v.Fits k)
    (hroom : depth + k ≤ room) : v.isSound room depth = true := by
  match v, hpaired, hfits with
  | .null, _, _ | .truth _, _, _ => rfl
  | .number _, _, .number h => exact h
  | .text _, .text h, _ => exact h
  | .array vs, .array hpaired, .array hfits =>
      have hdepth : depth < room := by omega
      have hvs : elementsSound room (depth + 1) vs = true :=
        elementsSound_of_isPaired vs hpaired hfits (by omega)
      simp [isSound, hdepth, hvs]
  | .object ms, .object hnames hpaired, .object hfits =>
      have hdepth : depth < room := by omega
      have hms : membersSound room (depth + 1) ms = true :=
        membersSound_of_isPaired ms hnames hpaired hfits (by omega)
      simp [isSound, hdepth, hms]

/-- The elements share a bound, one level further down. -/
theorem elementsSound_of_isPaired (vs : List Value) {k depth : Nat} (hpaired : ∀ v ∈ vs, v.IsPaired)
    (hfits : ∀ v ∈ vs, v.Fits k) (hroom : depth + 1 + k ≤ room) :
    elementsSound room (depth + 1) vs = true := by
  match vs with
  | [] => rfl
  | v :: vs =>
      obtain ⟨hv, hvs⟩ := List.forall_mem_cons.mp hpaired
      obtain ⟨hv', hvs'⟩ := List.forall_mem_cons.mp hfits
      simp [elementsSound, isSound_of_isPaired v hv hv' hroom,
        elementsSound_of_isPaired vs hvs hvs' hroom]

/-- As for elements, with the names. -/
theorem membersSound_of_isPaired (ms : List (List Piece × Value)) {k depth : Nat}
    (hnames : ∀ m ∈ ms, (joined? m.1).isSome) (hpaired : ∀ m ∈ ms, m.2.IsPaired)
    (hfits : ∀ m ∈ ms, m.2.Fits k) (hroom : depth + 1 + k ≤ room) :
    membersSound room (depth + 1) ms = true := by
  match ms with
  | [] => rfl
  | (key, v) :: ms =>
      obtain ⟨hkey, hkeys⟩ := List.forall_mem_cons.mp hnames
      obtain ⟨hv, hvs⟩ := List.forall_mem_cons.mp hpaired
      obtain ⟨hv', hvs'⟩ := List.forall_mem_cons.mp hfits
      simp [membersSound, hkey, isSound_of_isPaired v hv hv' hroom,
        membersSound_of_isPaired ms hkeys hvs hvs' hroom]

end

/-! ## Over a value -/

/-- Where an array may end, a value is passed over as anywhere else. -/
theorem skimFrom_elementOrEnd (v : Value) : skimFrom room ⟨.elementOrEnd, containers, depth⟩ s
      (v.tokens ++ rest) = skimFrom room ⟨.value, containers, depth⟩ s (v.tokens ++ rest) := by
  -- The two positions differ for a closing bracket only, with which no value starts.
  have hfirst : v.firstToken ≠ .closeBracket := by cases v <;> exact nofun
  obtain ⟨ts, htokens⟩ := v.exists_tokens_eq_cons
  rw [htokens, List.cons_append, Json.skimFrom_elementOrEnd hfirst]

mutual

/-- **The tokens of a value are passed over.**  It is proved together with the same for the elements
and the members that follow a first one, along the recursion by which a value's tokens are written.
The flag is carried along, since each part of a value adds to it. -/
theorem skimFrom_tokens (v : Value) (containers : List Container) (depth : Nat) (s : Bool)
    (rest : List Token) :
    skimFrom room ⟨.value, containers, depth⟩ s (v.tokens ++ rest) =
      resume room containers depth (s && v.isSound room depth) rest := by
  match v with
  -- Values of one token.
  | .null | .truth _ | .number _ | .text _ => exact skimFrom_afterValue rfl
  -- Empty containers take two tokens, of which the second is sound anywhere.
  | .array [] =>
      rw [isSound, elementsSound, Bool.and_true, ← Bool.and_true (s && _)]
      exact (skimFrom_inside rfl).trans (skimFrom_afterValue rfl)
  | .object [] =>
      rw [isSound, membersSound, Bool.and_true, ← Bool.and_true (s && _)]
      exact (skimFrom_inside rfl).trans (skimFrom_afterValue rfl)
  -- The first element stands where the array could still have ended; the others come after a comma.
  | .array (v :: vs) =>
      rw [tokens, List.cons_append, List.append_assoc, isSound, elementsSound, ← Bool.and_assoc,
        ← Bool.and_assoc]
      calc
        _ = skimFrom room ⟨.elementOrEnd, .array :: containers, depth + 1⟩
            (s && decide (depth < room)) (v.tokens ++ (moreElements vs ++ rest)) :=
          skimFrom_inside rfl
        _ = resume room (.array :: containers) (depth + 1)
            (s && decide (depth < room) && v.isSound room (depth + 1))
            (moreElements vs ++ rest) := by
          rw [v.skimFrom_elementOrEnd, v.skimFrom_tokens]
        _ = _ := skimFrom_moreElements vs containers depth _ rest
  -- Brace and name are two steps, and the colon is sound wherever it stands.
  | .object ((key, v) :: ms) =>
      rw [tokens, List.cons_append, List.cons_append, List.cons_append, List.append_assoc, isSound,
        membersSound, ← Bool.and_assoc, ← Bool.and_assoc, ← Bool.and_assoc]
      calc
        _ = skimFrom room ⟨.colon, .object :: containers, depth + 1⟩
            (s && decide (depth < room) && (joined? key).isSome)
            (.colon :: (v.tokens ++ (moreMembers ms ++ rest))) :=
          (skimFrom_inside rfl).trans (skimFrom_inside rfl)
        _ = resume room (.object :: containers) (depth + 1)
            (s && decide (depth < room) && (joined? key).isSome && v.isSound room (depth + 1))
            (moreMembers ms ++ rest) := by
          rw [skimFrom_quiet rfl rfl, ← v.skimFrom_tokens]
        _ = _ := skimFrom_moreMembers ms containers depth _ rest

/-- After an element: the end of the array, or a comma and one more. -/
theorem skimFrom_moreElements (vs : List Value) (containers : List Container) (depth : Nat)
    (s : Bool) (rest : List Token) :
    skimFrom room ⟨.more, .array :: containers, depth + 1⟩ s (moreElements vs ++ rest) =
      resume room containers depth (s && elementsSound room (depth + 1) vs) rest := by
  match vs with
  | [] => exact skimFrom_afterValue rfl
  | v :: vs =>
      rw [moreElements, List.cons_append, List.append_assoc, elementsSound, ← Bool.and_assoc]
      calc
        _ = resume room (.array :: containers) (depth + 1) (s && v.isSound room (depth + 1))
            (moreElements vs ++ rest) := by
          rw [skimFrom_quiet rfl rfl, ← v.skimFrom_tokens]
        _ = _ := skimFrom_moreElements vs containers depth _ rest

/-- After a member: the end of the object, or a comma, a name, a colon and one more. -/
theorem skimFrom_moreMembers (ms : List (List Piece × Value)) (containers : List Container)
    (depth : Nat) (s : Bool) (rest : List Token) :
    skimFrom room ⟨.more, .object :: containers, depth + 1⟩ s (moreMembers ms ++ rest) =
      resume room containers depth (s && membersSound room (depth + 1) ms) rest := by
  match ms with
  | [] => exact skimFrom_afterValue rfl
  | (key, v) :: ms =>
      rw [moreMembers, List.cons_append, List.cons_append, List.cons_append, List.append_assoc,
        membersSound, ← Bool.and_assoc, ← Bool.and_assoc]
      calc
        _ = skimFrom room ⟨.colon, .object :: containers, depth + 1⟩ (s && (joined? key).isSome)
            (.colon :: (v.tokens ++ (moreMembers ms ++ rest))) := by
          rw [skimFrom_quiet (t := .comma) rfl rfl]
          exact skimFrom_inside rfl
        _ = resume room (.object :: containers) (depth + 1)
            (s && (joined? key).isSome && v.isSound room (depth + 1)) (moreMembers ms ++ rest) := by
          rw [skimFrom_quiet rfl rfl, ← v.skimFrom_tokens]
        _ = _ := skimFrom_moreMembers ms containers depth _ rest

end

/-- **Passing over a value** leaves what follows it, and tells whether the value is sound.  No
container is open around it, so the run ends with it. -/
theorem skim_tokens (room : Nat) (v : Value) (rest : List Token) :
    skim room (v.tokens ++ rest) = some (v.isSound room 0, rest) := by
  rw [skim, Cursor.start, v.skimFrom_tokens, Bool.true_and]
  rfl

/-! ## Back to a value

The other direction: what the skimmer accepts.  It is not asked for the flag, since a value that is
not sound is a value all the same.  The three lemmas are mutual as above, but go down with the
tokens: that a value has been found shortens what is left, which each recursive call is told by
`hshorter`. -/

end Value

mutual

/-- **What has been passed over is a value.**  The patterns left out are those where the cursor has
no step, so that nothing is accepted. -/
theorem exists_tokens_of_skimFrom {ts : List Token} {containers : List Container} {depth : Nat}
    {s : Bool} (h : skimFrom room ⟨.value, containers, depth⟩ s ts = some r) :
    ∃ (v : Value) (rest : List Token), ts = v.tokens ++ rest := by
  match ts with
  | .null :: rest => exact ⟨.null, rest, rfl⟩
  | .truth b :: rest => exact ⟨.truth b, rest, rfl⟩
  | .number n :: rest => exact ⟨.number n, rest, rfl⟩
  | .text ps :: rest => exact ⟨.text ps, rest, rfl⟩
  | .openBracket :: t :: ts =>
      -- An array may end at once; otherwise its first element stands there like any value.
      by_cases ht : t = .closeBracket
      · exact ⟨.array [], ts, by rw [ht]; rfl⟩
      · rw [skimFrom_inside rfl, skimFrom_elementOrEnd ht] at h
        obtain ⟨v, rest, hrest⟩ := exists_tokens_of_skimFrom h
        -- What follows the value is known by the forward lemma, which turns the hypothesis into one
        -- about the rest.
        rw [hrest, v.skimFrom_tokens] at h
        have hshorter := congrArg List.length hrest
        obtain ⟨vs, rest', rfl⟩ := exists_moreElements_of_skimFrom h
        exact ⟨.array (v :: vs), rest', by rw [hrest, Value.tokens]; simp⟩
  | .openBrace :: .closeBrace :: ts => exact ⟨.object [], ts, rfl⟩
  | .openBrace :: .text key :: .colon :: ts =>
      rw [skimFrom_inside rfl, skimFrom_inside rfl, skimFrom_inside rfl] at h
      obtain ⟨v, rest, hrest⟩ := exists_tokens_of_skimFrom h
      rw [hrest, v.skimFrom_tokens] at h
      have hshorter := congrArg List.length hrest
      obtain ⟨ms, rest', rfl⟩ := exists_moreMembers_of_skimFrom h
      exact ⟨.object ((key, v) :: ms), rest', by rw [hrest, Value.tokens]; simp⟩
termination_by ts.length
decreasing_by all_goals (simp only [List.length_cons, List.length_append] at *; omega)

/-- After an element, up to the end of its array. -/
theorem exists_moreElements_of_skimFrom {ts : List Token} {containers : List Container}
    {depth : Nat} {s : Bool}
    (h : skimFrom room ⟨.more, .array :: containers, depth⟩ s ts = some r) :
    ∃ (vs : List Value) (rest : List Token), ts = Value.moreElements vs ++ rest := by
  match ts with
  | .closeBracket :: rest => exact ⟨[], rest, rfl⟩
  | .comma :: ts =>
      rw [skimFrom_inside rfl] at h
      obtain ⟨v, rest, hrest⟩ := exists_tokens_of_skimFrom h
      rw [hrest, v.skimFrom_tokens] at h
      have hshorter := congrArg List.length hrest
      obtain ⟨vs, rest', rfl⟩ := exists_moreElements_of_skimFrom h
      exact ⟨v :: vs, rest', by rw [hrest, Value.moreElements]; simp⟩
termination_by ts.length
decreasing_by all_goals (simp only [List.length_cons, List.length_append] at *; omega)

/-- After a member, up to the end of its object. -/
theorem exists_moreMembers_of_skimFrom {ts : List Token} {containers : List Container}
    {depth : Nat} {s : Bool}
    (h : skimFrom room ⟨.more, .object :: containers, depth⟩ s ts = some r) :
    ∃ (ms : List (List Piece × Value)) (rest : List Token), ts = Value.moreMembers ms ++ rest := by
  match ts with
  | .closeBrace :: rest => exact ⟨[], rest, rfl⟩
  | .comma :: .text key :: .colon :: ts =>
      rw [skimFrom_inside rfl, skimFrom_inside rfl, skimFrom_inside rfl] at h
      obtain ⟨v, rest, hrest⟩ := exists_tokens_of_skimFrom h
      rw [hrest, v.skimFrom_tokens] at h
      have hshorter := congrArg List.length hrest
      obtain ⟨ms, rest', rfl⟩ := exists_moreMembers_of_skimFrom h
      exact ⟨(key, v) :: ms, rest', by rw [hrest, Value.moreMembers]; simp⟩
termination_by ts.length
decreasing_by all_goals (simp only [List.length_cons, List.length_append] at *; omega)

end

end AvatarPool.Json
