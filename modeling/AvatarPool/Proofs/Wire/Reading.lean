import AvatarPool.Proofs.Json.Members
import AvatarPool.Proofs.Wire.RoundTrip

/-! # What the frame readers take

Each reader of a frame's parts takes the values that show what it yields, and the two readers of
objects take members one by one, a known one once and any other one as it is.

For each part `x` of a frame there are a relation `ShownBy`, or `Spells` for plain strings, which
says what a value must look like to show it, and a lemma that its reader yields exactly what the
value shows and leaves the tokens after it.  The two readers of objects are then loops over members,
of which `loop_eq_ok_iff` tells what they take; what is left to say is what one member does to what
has been gathered.

Requests and responses part in two ways.  A request keeps known members as they are read and passes
over any other, whatever it holds.  A response does not know its members before it knows its status;
it keeps the first token of each, and sorts them out at the end.  So the other members of a response
must be sound, where those of a request need not. -/

namespace AvatarPool

open Json

/-- One of two variants is known by its name.  Both kinds of requests and both statuses are such
pairs. -/
theorem ofTwoNames_eq_some_iff {α : Type} {s a b : String} {x y v : α} (hne : a ≠ b) :
    (if s = a then some x else if s = b then some y else none) = some v ↔
      s = a ∧ x = v ∨ s = b ∧ y = v := by
  by_cases ha : s = a
  · simp [ha, hne]
  · simp [ha]

/-! ## Ids -/

namespace RequestId

/-- A value that shows an id: a counter is written in digits and a text as a string.  The digits of
a counter may have zeros in front; a sign, a fraction or an exponent makes it another number. -/
inductive ShownBy : RequestId → Value → Prop
  | counter {n : UInt64} {ds : List Nat} (h : ofDigits ds = n.toNat) :
      ShownBy (.counter n) (.number ⟨false, ds, [], none⟩)
  | text {s : String} {ps : List Piece} (h : joined? ps = some s) : ShownBy (.text s) (.text ps)

/-- The first token is all that is read of an id, and it is the whole value, for no container shows
one. -/
theorem ofToken_eq_ok_iff {v : Value} {id : RequestId} :
    ofToken v.firstToken = .ok id ↔ id.ShownBy v := by
  -- Without the reason for an error, of which nothing is asked here.
  have hsome : ofToken v.firstToken = .ok id ↔ ofToken? v.firstToken = some id := by
    unfold ofToken
    split <;> simp_all
  rw [hsome]
  constructor
  · intro h
    unfold ofToken? at h
    split at h
    · rename_i n heq
      split at h
      · rename_i k hvalue
        cases h
        obtain ⟨ds, rfl, hdigits, hlt⟩ := value?_eq_natural_iff.mp hvalue
        -- Only a number's first token is a number, and likewise for texts.
        cases v with
        | number n =>
            cases heq
            exact .counter (hdigits.trans (UInt64.toNat_ofNat_of_lt' hlt).symm)
        | _ => cases heq
      · cases h
    · rename_i ps heq
      obtain ⟨s, hjoined, rfl⟩ := Option.map_eq_some_iff.mp h
      cases v with
      | text ps =>
          cases heq
          exact .text hjoined
      | _ => cases heq
    · cases h
  · rintro (hdigits | hjoined)
    · have hvalue := value?_eq_natural_iff.mpr ⟨_, rfl, hdigits, UInt64.toNat_lt _⟩
      simp [Value.firstToken, ofToken?, hvalue]
    · simp [Value.firstToken, ofToken?, hjoined]

/-- The value of an id has one token, so neither the room nor the depth matters to it. -/
theorem ShownBy.isSound {id : RequestId} {v : Value} (h : id.ShownBy v) (room depth : Nat) :
    v.isSound room depth = true := by
  cases h with
  | @counter n ds hdigits =>
      have hvalue := value?_eq_natural_iff.mpr ⟨ds, rfl, hdigits, n.toNat_lt⟩
      rw [Value.isSound, hvalue]
      rfl
  | text hjoined =>
      rw [Value.isSound, hjoined]
      rfl

/-- The reader skims over the value first and then looks at its first token.  What it has skimmed
over is a value, which must be the one that the token starts. -/
theorem reads_read (room : Nat) : Reads (read room) ShownBy := by
  intro ts id rest
  constructor
  · intro h
    unfold read at h
    split at h
    · cases h
    · rename_i t ts'
      split at h
      · rename_i hskim
        obtain ⟨v, -, hv⟩ := skim_eq_some_iff.mp hskim
        obtain ⟨id', hid, heq⟩ := map_eq_ok.mp h
        cases heq
        -- A value starts with one token, which is all that the id is read from.
        obtain ⟨more, htokens⟩ := v.exists_tokens_eq_cons
        rw [htokens] at hv
        cases hv
        exact ⟨v, ofToken_eq_ok_iff.mp hid, by rw [htokens]; rfl⟩
      · cases h
  · rintro ⟨v, hv, rfl⟩
    have hskim := v.skim_tokens room rest
    obtain ⟨more, htokens⟩ := v.exists_tokens_eq_cons
    rw [htokens, List.cons_append] at hskim ⊢
    rw [read, hskim, hv.isSound]
    dsimp only
    rw [ofToken_eq_ok_iff.mpr hv]
    rfl

end RequestId

/-! ## Requests -/

namespace Request

theorem ofName?_eq_some_iff {s : String} {kind : RequestKind} :
    RequestKind.variants.ofName? s = some kind ↔ s = kind.name := by
  refine (ofTwoNames_eq_some_iff (by decide)).trans ?_
  cases kind <;> simp [RequestKind.name]

/-- **What a request's fields take from a member**: a known one once, and any other one as it is.
The case split is that of the reader, so that the two can be compared branch by branch.  In the last
branch the value is passed over. -/
def Fields.Takes (f : Fields) (name : String) (v : Value) (f' : Fields) : Prop :=
  if name = "id" then f.id = none ∧ ∃ id : RequestId, id.ShownBy v ∧ { f with id := some id } = f'
  else if name = "category" then
    f.category = none ∧ ∃ s, v.Spells s ∧ { f with category := some s } = f'
  else if name = "type" then
    f.kind = none ∧ ∃ kind, RequestKind.variants.ShownBy kind v ∧ { f with kind := some kind } = f'
  else if name = "detail" then
    f.detail = none ∧ ∃ s, v.Spells s ∧ { f with detail := some s } = f'
  else f = f'

/-- One member of a request, behind its name. -/
theorem readMember_eq_ok_iff (f : Fields) (name : String) (ts : List Token) (f' : Fields)
    (rest : List Token) : readMember f name ts = .ok (f', rest) ↔
      ∃ v : Value, f.Takes name v f' ∧ ts = .colon :: (v.tokens ++ rest) := by
  unfold readMember Fields.Takes
  split
  · exact readOnce_eq_ok_iff (RequestId.reads_read idRoom)
  split
  · exact readOnce_eq_ok_iff reads_readString
  split
  · exact readOnce_eq_ok_iff (reads_readVariant _)
  split
  · exact readOnce_eq_ok_iff reads_readString
  -- The fifth branch passes over a value, so it is the skimmer's two directions that count.
  constructor
  · intro h
    split at h
    · cases h
    · rename_i hcolon
      split at h
      · rename_i hskim
        cases h
        obtain ⟨v, -, rfl⟩ := skim_eq_some_iff.mp hskim
        exact ⟨v, rfl, afterColon_eq_ok_iff.mp hcolon⟩
      · cases h
  · rintro ⟨v, rfl, rfl⟩
    rw [afterColon]
    dsimp only
    rw [v.skim_tokens]

/-- **A request is read from an object** exactly if its members are taken and leave none of the
known ones out.  An empty object leaves all of them out, which is why the members are some. -/
theorem read_object_eq_ok_iff {ts rest : List Token} {r : Request} :
    read (.openBrace :: ts) = .ok (r, rest) ↔
      ∃ ms f, ms ≠ [] ∧ Taken Fields.Takes {} ms f ∧ f.finish = .ok r ∧
        ts = membersTokens ms ++ rest := by
  rw [← loop_eq_ok_iff readMembers_eq_round readMember_eq_ok_iff]
  -- The reader looks at the token after the brace before it enters the loop; what it does at a
  -- closing brace the loop would do as well.
  cases ts with
  | nil => rfl
  | cons t ts =>
      cases t with
      | closeBrace =>
          have hend : readMembers {} (.closeBrace :: ts) = .error .malformed := by
            simp [readMembers]
          rw [hend]
          constructor <;> intro h <;> cases h
      | _ => rfl

end Request

/-! ## Responses -/

namespace Response

theorem ofName?_eq_some_iff {s : String} {status : Status} :
    Status.variants.ofName? s = some status ↔ s = status.name := by
  refine (ofTwoNames_eq_some_iff (by decide)).trans ?_
  cases status <;> simp [Status.name]

/-- A status is a string with one of two texts, and may be escaped like any other string. -/
theorem reads_readStatus : Reads readStatus fun status v => v.Spells status.name := by
  intro ts status rest
  cases ts with
  | nil =>
      refine ⟨nofun, ?_⟩
      rintro ⟨_, ⟨_⟩, htokens⟩
      cases htokens
  | cons t ts =>
      simp only [readStatus, bind_eq_ok, Variants.read_eq_ok_iff, ofName?_eq_some_iff]
      constructor
      · rintro ⟨s, hs, status', rfl, heq⟩
        cases heq
        obtain ⟨ps, rfl, hjoined⟩ := asString_eq_ok_iff.mp hs
        exact ⟨_, .text hjoined, rfl⟩
      · rintro ⟨_, ⟨hjoined⟩, htokens⟩
        cases htokens
        exact ⟨_, asString_eq_ok_iff.mpr ⟨_, rfl, hjoined⟩, status, rfl, rfl⟩

/-- What is kept of a value is its first token; it is kept only if the value is sound. -/
theorem reads_readContent :
    Reads readContent fun t v => v.firstToken = t ∧ v.isSound memberRoom 0 = true := by
  intro ts t rest
  constructor
  · intro h
    unfold readContent at h
    split at h
    · cases h
    · split at h
      -- The token that was kept and the value that was skimmed over start alike.
      · rename_i hskim
        cases h
        obtain ⟨v, hsound, hv⟩ := skim_eq_some_iff.mp hskim
        obtain ⟨more, htokens⟩ := v.exists_tokens_eq_cons
        refine ⟨v, ⟨?_, hsound⟩, hv⟩
        rw [htokens] at hv
        exact (List.head_eq_of_cons_eq hv).symm
      · cases h
  · rintro ⟨v, ⟨rfl, hsound⟩, rfl⟩
    have hskim := v.skim_tokens memberRoom rest
    obtain ⟨more, htokens⟩ := v.exists_tokens_eq_cons
    rw [hsound] at hskim
    rw [htokens, List.cons_append] at hskim ⊢
    rw [readContent, hskim]

/-- **What is gathered of a response from a member**: the status once, and the first token of any
other one. -/
def Gathered.Takes (g : Gathered) (name : String) (v : Value) (g' : Gathered) : Prop :=
  if name = "status" then
    g.status = none ∧
      ∃ status : Status, v.Spells status.name ∧ { g with status := some status } = g'
  else v.isSound memberRoom 0 = true ∧ { g with members := (name, v.firstToken) :: g.members } = g'

/-- One member of a response, behind its name. -/
theorem readMember_eq_ok_iff (g : Gathered) (name : String) (ts : List Token) (g' : Gathered)
    (rest : List Token) : readMember g name ts = .ok (g', rest) ↔
      ∃ v : Value, g.Takes name v g' ∧ ts = .colon :: (v.tokens ++ rest) := by
  unfold readMember Gathered.Takes
  split
  · exact readOnce_eq_ok_iff reads_readStatus
  -- Members other than the status are not looked up in what has been gathered, so that they never
  -- come twice here; this is left to the end.
  · rw [readOnce_eq_ok_iff reads_readContent]
    refine exists_congr fun v => and_congr_left fun _ => ⟨?_, ?_⟩
    · rintro ⟨-, _, ⟨rfl, hsound⟩, heq⟩
      exact ⟨hsound, heq⟩
    · rintro ⟨hsound, heq⟩
      exact ⟨rfl, _, ⟨rfl, hsound⟩, heq⟩

/-- **A response is read from an object** exactly if its members are taken and make an answer.  What
the members are gathered into decides about the answer in `finish`, which `foldlM_take` of the next
module sums up. -/
theorem read_object_eq_ok_iff {ts rest : List Token} {r : Response} :
    read (.openBrace :: ts) = .ok (r, rest) ↔
      ∃ ms g, ms ≠ [] ∧ Taken Gathered.Takes {} ms g ∧ g.finish = .ok r ∧
        ts = membersTokens ms ++ rest := by
  -- The loop itself makes no answer, so its members are those of `loop_eq_ok_iff` for a trivial
  -- end.
  have hloop : ∀ g, readMembers {} ts = .ok (g, rest) ↔ ∃ ms g', ms ≠ [] ∧
      Taken Gathered.Takes {} ms g' ∧ (.ok g' : Except DecodeError Gathered) = .ok g ∧
        ts = membersTokens ms ++ rest :=
    fun _ => loop_eq_ok_iff readMembers_eq_round readMember_eq_ok_iff
  -- What is read is then made an answer of, and by this last step alone it can fail.
  have hread : read (.openBrace :: ts) = .ok (r, rest) ↔
      ∃ g, readMembers {} ts = .ok (g, rest) ∧ g.finish = .ok r := by
    have hbind : (readMembers {} ts >>= fun p => p.1.finish.map fun r => (r, p.2)) =
        .ok (r, rest) ↔ ∃ g, readMembers {} ts = .ok (g, rest) ∧ g.finish = .ok r := by
      rw [bind_eq_ok]
      constructor
      · rintro ⟨⟨g, _⟩, hg, hmap⟩
        obtain ⟨_, hfinish, heq⟩ := map_eq_ok.mp hmap
        cases heq
        exact ⟨g, hg, hfinish⟩
      · rintro ⟨g, hg, hfinish⟩
        exact ⟨(g, rest), hg, map_eq_ok.mpr ⟨r, hfinish, rfl⟩⟩
    -- As for requests, an object without members is an error on either side.
    cases ts with
    | nil => exact hbind
    | cons t ts =>
        cases t with
        | closeBrace =>
            have hend : readMembers {} (.closeBrace :: ts) = .error .malformed := by
              simp [readMembers]
            rw [hend]
            constructor
            · intro h
              cases h
            · rintro ⟨_, h, -⟩
              cases h
        | _ => exact hbind
  constructor
  · intro h
    obtain ⟨g, hg, hfinish⟩ := hread.mp h
    obtain ⟨ms, _, hne, htaken, heq, hts⟩ := (hloop g).mp hg
    cases heq
    exact ⟨ms, g, hne, htaken, hfinish, hts⟩
  · rintro ⟨ms, g, hne, htaken, hfinish, hts⟩
    exact hread.mpr ⟨g, (hloop g).mpr ⟨ms, g, hne, htaken, rfl, hts⟩, hfinish⟩

end Response

end AvatarPool
