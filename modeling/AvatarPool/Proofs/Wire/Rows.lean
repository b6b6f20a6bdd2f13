import AvatarPool.Bridge.Client
import AvatarPool.Bridge.Host
import AvatarPool.Proofs.Json.Lexing
import AvatarPool.Proofs.Wire.Reading

/-! # Frames that are no objects

A frame should be an object, but a reader of records also takes a row: an array of the members'
values in their order, without their names.  Every text that is neither an object nor such a row is
refused, and it changes nothing.

The objects are those of the grammar, `IsObjectText`, and the rows are the arrays that have the
right values in the right order.  For both kinds of frames there are a lemma that what is read is an
object or a row, and one that rows are read.  The two together settle every other text, without a
look at what makes it fail. -/

namespace AvatarPool

open Json

/-! ## Rows of tokens -/

/-- No value starts like the end of an array.  The reader of rows looks for the end of the array
before each element, and so must be told that a value is not one. -/
theorem Json.Value.head?_tokens_ne (v : Value) (rest : List Token) :
    (v.tokens ++ rest).head? ≠ some .closeBracket := by
  obtain ⟨ts, htokens⟩ := v.exists_tokens_eq_cons
  rw [htokens]
  cases v <;> exact nofun

/-- What is read as an object has the tokens of one, and by these it is an object's text. -/
theorem Json.isObjectText_of_tokens {text : String} {ms : List Member}
    (h : tokens text = .openBrace :: membersTokens ms) : IsObjectText text :=
  ⟨ms, Value.isText_iff.mpr (h.trans (Value.tokens_object ms).symm)⟩

/-- A text of any other first token is none. -/
theorem Json.not_isObjectText {text : String} (h : (tokens text).head? ≠ some .openBrace) :
    ¬ IsObjectText text := by
  rintro ⟨ms, hms⟩
  rw [Value.isText_iff.mp hms, Value.tokens_object] at h
  exact h rfl

namespace Request

variable {ts ts' rest : List Token} {n : Nat} {r : Request} {text : String}

/-- The first element of a row stands right after the bracket. -/
theorem element_zero_eq_ok_iff :
    element 0 ts = .ok ts' ↔ ts.head? ≠ some .closeBracket ∧ ts = ts' := by
  cases ts with
  | nil => simp [element, nextElement, bind, Except.bind]
  | cons t ts => cases t <;> simp [element, nextElement, bind, Except.bind]

/-- Every other one stands behind a comma, which must not be followed by the end of the array. -/
theorem element_succ_eq_ok_iff :
    element (n + 1) ts = .ok ts' ↔ ts'.head? ≠ some .closeBracket ∧ ts = .comma :: ts' := by
  have hcomma : ∀ ts, element (n + 1) (.comma :: ts) = .ok ts' ↔
      ts'.head? ≠ some .closeBracket ∧ ts = ts' := by
    intro ts
    cases ts with
    | nil => simp [element, nextElement, bind, Except.bind]; grind
    | cons t ts => cases t <;> simp [element, nextElement, bind, Except.bind] <;> grind
  cases ts with
  | nil => simp [element, nextElement, bind, Except.bind]
  | cons t ts =>
      cases t with
      | comma => simpa using hcomma ts
      | _ => simp [element, nextElement, bind, Except.bind]

/-- **A request as a row**: its four values in an array.  The kind may be given in any of the forms
in which the reader takes a variant. -/
def IsRow (r : Request) (text : String) : Prop :=
  ∃ id category kind detail : Value, (Value.array [id, category, kind, detail]).IsText text ∧
    r.id.ShownBy id ∧ category.Spells r.category ∧ RequestKind.variants.ShownBy r.kind kind ∧
    detail.Spells r.detail

/-- All four readers are run in turn; each has the value that it shows, and the array is what is
made up of them. -/
theorem readElements_eq_ok_iff : readElements ts = .ok (r, rest) ↔
    ∃ id category kind detail : Value, (r.id.ShownBy id ∧ category.Spells r.category ∧
      RequestKind.variants.ShownBy r.kind kind ∧ detail.Spells r.detail) ∧
      .openBracket :: ts = (Value.array [id, category, kind, detail]).tokens ++ rest := by
  simp only [readElements, bind_eq_ok, element_zero_eq_ok_iff, element_succ_eq_ok_iff]
  constructor
  -- From what was read to the values, one reader after the other.
  · rintro ⟨_, ⟨-, rfl⟩, ⟨id, _⟩, hid, _, ⟨-, rfl⟩, ⟨category, _⟩, hcategory, _, ⟨-, rfl⟩,
      ⟨kind, _⟩, hkind, _, ⟨-, rfl⟩, ⟨detail, _⟩, hdetail, hclose⟩
    obtain ⟨v₀, hv₀, rfl⟩ := (RequestId.reads_read idRoom _ _ _).mp hid
    obtain ⟨v₁, hv₁, rfl⟩ := (reads_readString _ _ _).mp hcategory
    obtain ⟨v₂, hv₂, rfl⟩ := (reads_readVariant _ _ _ _).mp hkind
    obtain ⟨v₃, hv₃, rfl⟩ := (reads_readString _ _ _).mp hdetail
    dsimp only at hclose
    -- The bracket must close after the fourth value.
    split at hclose
    · cases hclose
      refine ⟨v₀, v₁, v₂, v₃, ⟨hv₀, hv₁, hv₂, hv₃⟩, ?_⟩
      simp [Value.tokens, Value.moreElements]
    · cases hclose
  -- From the values to what is read, in the same order.
  · rintro ⟨v₀, v₁, v₂, v₃, ⟨hv₀, hv₁, hv₂, hv₃⟩, hts⟩
    simp only [Value.tokens, Value.moreElements, List.cons_append, List.append_assoc,
      List.nil_append, List.cons.injEq, true_and] at hts
    subst hts
    exact ⟨_, ⟨v₀.head?_tokens_ne _, rfl⟩, _,
      (RequestId.reads_read idRoom _ _ _).mpr ⟨v₀, hv₀, rfl⟩,
      _, ⟨v₁.head?_tokens_ne _, rfl⟩, _, (reads_readString _ _ _).mpr ⟨v₁, hv₁, rfl⟩,
      _, ⟨v₂.head?_tokens_ne _, rfl⟩, _, (reads_readVariant _ _ _ _).mpr ⟨v₂, hv₂, rfl⟩,
      _, ⟨v₃.head?_tokens_ne _, rfl⟩, _, (reads_readString _ _ _).mpr ⟨v₃, hv₃, rfl⟩, rfl⟩

/-- A row is read.  Its text has the tokens of the array, which are read. -/
theorem ofFrame_of_isRow (h : r.IsRow text) : ofFrame text = .ok r := by
  obtain ⟨_, _, _, _, htext, hshown⟩ := h
  rw [ofFrame, whole_eq_ok_iff, Value.isText_iff.mp htext]
  exact readElements_eq_ok_iff.mpr ⟨_, _, _, _, hshown, (List.append_nil _).symm⟩

/-- **What is read as a request** is an object or a row.  The first token tells which of the readers
is used, and each of them takes only what it should. -/
theorem isObjectText_or_isRow (h : ofFrame text = .ok r) : IsObjectText text ∨ r.IsRow text := by
  rw [ofFrame, whole_eq_ok_iff] at h
  generalize htokens : tokens text = ts at h
  cases ts with
  | nil => cases h
  | cons t ts =>
      cases t with
      | openBrace =>
          obtain ⟨ms, _, -, -, -, rfl⟩ := read_object_eq_ok_iff.mp h
          rw [List.append_nil] at htokens
          exact .inl (isObjectText_of_tokens htokens)
      | openBracket =>
          obtain ⟨_, _, _, _, hshown, hts⟩ := readElements_eq_ok_iff.mp h
          rw [List.append_nil] at hts
          exact .inr ⟨_, _, _, _, Value.isText_iff.mpr (htokens.trans hts), hshown⟩
      | _ => cases h

end Request

namespace Response

variable {ts rest : List Token} {r : Response} {text : String}

/-- **A response as a row**: its status and its two values in an array.  The status comes first, in
contrast to a response as an object, where it may come anywhere. -/
def IsRow (r : Response) (text : String) : Prop :=
  ∃ (status : Status) (id : RequestId) (body : String) (v₀ v₁ v₂ : Value),
    (Value.array [v₀, v₁, v₂]).IsText text ∧ r = status.answer id body ∧ v₀.Spells status.name ∧
      id.ShownBy v₁ ∧ v₂.Spells body

/-- What follows an element that is not the last is a comma and one more. -/
theorem moreElements_cons (v : Value) (vs : List Value) :
    Value.moreElements (v :: vs) = .comma :: (v.tokens ++ Value.moreElements vs) := rfl

/-- The elements after the status are sound values, of which the first tokens are kept.  With the
comma before them they are the rest of an array. -/
theorem readElements_eq_ok_iff {heads : List Token} : readElements ts = .ok (heads, rest) ↔
    ∃ vs : List Value, vs ≠ [] ∧ vs.map Value.firstToken = heads ∧
      (∀ v ∈ vs, v.isSound memberRoom 0 = true) ∧ .comma :: ts = Value.moreElements vs ++ rest := by
  constructor
  · intro h
    -- By the recursion of the reader: a comma after an element calls for another one.
    fun_induction readElements ts generalizing heads rest with
    | case1 => cases h
    | case2 ts t after hread ih =>
        obtain ⟨⟨heads', rest'⟩, hmore, heq⟩ := map_eq_ok.mp h
        cases heq
        obtain ⟨vs, hne, rfl, hsound, hvs⟩ := ih hmore
        obtain ⟨v, ⟨rfl, hv⟩, rfl⟩ := (reads_readContent _ _ _).mp hread
        refine ⟨v :: vs, List.cons_ne_nil _ _, rfl, List.forall_mem_cons.mpr ⟨hv, hsound⟩, ?_⟩
        rw [moreElements_cons, hvs]
        simp
    | case3 ts t after hread =>
        cases h
        obtain ⟨v, ⟨rfl, hv⟩, rfl⟩ := (reads_readContent _ _ _).mp hread
        exact ⟨[v], List.cons_ne_nil _ _, rfl, by simpa using hv, by simp [Value.moreElements]⟩
    | case4 => cases h
  -- By induction on the values, the last of which is told by what follows it.
  · rintro ⟨vs, hne, rfl, hsound, hts⟩
    induction vs generalizing ts with
    | nil => exact absurd rfl hne
    | cons v vs ih =>
        obtain ⟨hv, hsound⟩ := List.forall_mem_cons.mp hsound
        rw [moreElements_cons, List.cons_append, List.append_assoc, List.cons.injEq] at hts
        have hread := (reads_readContent ts v.firstToken _).mpr ⟨v, ⟨rfl, hv⟩, hts.2⟩
        rw [readElements]
        cases vs with
        | nil =>
            split <;> rename_i h <;> rw [hread] at h <;> cases h
            · rfl
            · rename_i hother
              exact absurd rfl (hother _ _)
        | cons v' vs =>
            have hmore := ih (List.cons_ne_nil _ _) hsound rfl
            split <;> rename_i h <;> rw [hread] at h <;> cases h
            · exact map_eq_ok.mpr ⟨_, hmore, rfl⟩
            · rename_i hother _
              exact absurd rfl (hother _ _)

/-- An answer is made of two tokens, an id and a text, and of nothing less or more. -/
theorem ofElements_eq_ok_iff {status : Status} {heads : List Token} :
    ofElements status heads = .ok r ↔ ∃ t u id body, heads = [t, u] ∧
      RequestId.ofToken t = .ok id ∧ asString "a string" u = .ok body ∧
        r = status.answer id body := by
  constructor
  · intro h
    match heads with
    | [] => cases h
    | [t] =>
      obtain ⟨id, hid, h⟩ := bind_eq_ok.mp h
      cases h
    | t :: u :: more =>
      obtain ⟨id, hid, h⟩ := bind_eq_ok.mp h
      obtain ⟨body, hbody, h⟩ := bind_eq_ok.mp h
      cases more with
      | nil =>
          cases h
          exact ⟨t, u, id, body, rfl, hid, hbody, rfl⟩
      | cons => cases h
  · rintro ⟨t, u, id, body, rfl, hid, hbody, rfl⟩
    exact bind_eq_ok.mpr ⟨id, hid, bind_eq_ok.mpr ⟨body, hbody, rfl⟩⟩

/-- The status is read at once, and the elements behind it are gathered first and looked at then. -/
theorem readArray_eq_ok_iff : readArray ts = .ok (r, rest) ↔
    ∃ (status : Status) (id : RequestId) (body : String) (v₀ v₁ v₂ : Value),
      (r = status.answer id body ∧ v₀.Spells status.name ∧ id.ShownBy v₁ ∧ v₂.Spells body) ∧
        .openBracket :: ts = (Value.array [v₀, v₁, v₂]).tokens ++ rest := by
  constructor
  · intro h
    unfold readArray at h
    split at h
    · cases h
    · obtain ⟨⟨status, ts'⟩, hstatus, hrest⟩ := bind_eq_ok.mp h
      obtain ⟨v₀, hv₀, rfl⟩ := (reads_readStatus _ _ _).mp hstatus
      dsimp only at hrest
      split at hrest
      · obtain ⟨_, hnone, -⟩ := map_eq_ok.mp hrest
        cases hnone
      · obtain ⟨⟨heads, rest'⟩, hmore, hmake⟩ := bind_eq_ok.mp hrest
        obtain ⟨_, hanswer, heq⟩ := map_eq_ok.mp hmake
        cases heq
        -- Two tokens make an answer, so two values were gathered.
        obtain ⟨t, u, id, body, rfl, hid, hbody, rfl⟩ := ofElements_eq_ok_iff.mp hanswer
        obtain ⟨vs, -, hheads, -, hvs⟩ := readElements_eq_ok_iff.mp hmore
        obtain ⟨v₁, _, rfl, rfl, htail⟩ := List.map_eq_cons_iff.mp hheads
        obtain ⟨v₂, _, rfl, rfl, hnil⟩ := List.map_eq_cons_iff.mp htail
        cases List.map_eq_nil_iff.mp hnil
        refine ⟨status, id, body, v₀, v₁, v₂, ⟨rfl, hv₀, RequestId.ofToken_eq_ok_iff.mp hid,
          asString_firstToken_eq_ok_iff.mp hbody⟩, ?_⟩
        simp [Value.tokens, hvs]
      · cases hrest
  · rintro ⟨status, id, body, v₀, v₁, v₂, ⟨rfl, hv₀, hv₁, hv₂⟩, hts⟩
    -- The row starts with a string, and so not with its end.
    obtain ⟨hjoined⟩ := hv₀
    cases hts
    have hmore : readElements (v₁.tokens ++ Value.moreElements [v₂] ++ rest) =
        .ok ([v₁, v₂].map Value.firstToken, rest) :=
      readElements_eq_ok_iff.mpr ⟨[v₁, v₂], List.cons_ne_nil _ _, rfl,
        by simp [hv₁.isSound, hv₂.isSound], rfl⟩
    exact bind_eq_ok.mpr ⟨_, (reads_readStatus _ _ _).mpr ⟨_, .text hjoined, rfl⟩,
      bind_eq_ok.mpr ⟨_, hmore, map_eq_ok.mpr ⟨_, ofElements_eq_ok_iff.mpr ⟨_, _, id, body, rfl,
        RequestId.ofToken_eq_ok_iff.mpr hv₁, asString_firstToken_eq_ok_iff.mpr hv₂, rfl⟩, rfl⟩⟩⟩

/-- A row is read.  As for requests. -/
theorem ofFrame_of_isRow (h : r.IsRow text) : ofFrame text = .ok r := by
  obtain ⟨status, id, body, v₀, v₁, v₂, htext, hshown⟩ := h
  rw [ofFrame, whole_eq_ok_iff, Value.isText_iff.mp htext]
  exact readArray_eq_ok_iff.mpr ⟨status, id, body, v₀, v₁, v₂, hshown, (List.append_nil _).symm⟩

/-- **What is read as a response** is an object or a row.  As for requests, by the first token. -/
theorem isObjectText_or_isRow (h : ofFrame text = .ok r) : IsObjectText text ∨ r.IsRow text := by
  rw [ofFrame, whole_eq_ok_iff] at h
  generalize htokens : tokens text = ts at h
  cases ts with
  | nil => cases h
  | cons t ts =>
      cases t with
      | openBrace =>
          obtain ⟨ms, _, -, -, -, rfl⟩ := read_object_eq_ok_iff.mp h
          rw [List.append_nil] at htokens
          exact .inl (isObjectText_of_tokens htokens)
      | openBracket =>
          obtain ⟨status, id, body, v₀, v₁, v₂, hshown, hts⟩ := readArray_eq_ok_iff.mp h
          rw [List.append_nil] at hts
          exact .inr ⟨status, id, body, v₀, v₁, v₂, Value.isText_iff.mpr (htokens.trans hts),
            hshown⟩
      | _ => cases h

end Response

/-! ## Both ends of a bridge

With the readers settled, what the two ends of a bridge do with a frame follows from whether it is
read: a host works only on what it has read, and a client settles a request only by a response that
it has read. -/

/-- **What becomes of a frame that is no object.**  It is read as a request or as a response exactly
if it is a row of one.  Any other gets no reply from a host, and changes nothing in a client but
that subscribers are told of it.  The last clause says of the client that its state is that before
the frame but for the warning. -/
theorem frames_that_are_no_objects {text : String} (h : ¬ IsObjectText text) :
    (∀ r, Request.ofFrame text = .ok r ↔ r.IsRow text) ∧
    (∀ r, Response.ofFrame text = .ok r ↔ r.IsRow text) ∧
    ((∀ r : Request, ¬ r.IsRow text) →
      (∃ why, Request.ofFrame text = .error why) ∧ BridgeHost.readFrame text = .ignore) ∧
    ((∀ r : Response, ¬ r.IsRow text) → ∃ why, Response.ofFrame text = .error why ∧
      ∀ (ω : Type) (c : BridgeClient ω), c.takeFrame text =
        c.warn ("undecodable response frame: " ++ (Failure.protocol why.message).message)) := by
  -- What is not an object is read only as a row.
  have hrequest : ∀ r, Request.ofFrame text = .ok r ↔ r.IsRow text := fun r =>
    ⟨fun hr => (Request.isObjectText_or_isRow hr).resolve_left h, Request.ofFrame_of_isRow⟩
  have hresponse : ∀ r, Response.ofFrame text = .ok r ↔ r.IsRow text := fun r =>
    ⟨fun hr => (Response.isObjectText_or_isRow hr).resolve_left h, Response.ofFrame_of_isRow⟩
  refine ⟨hrequest, hresponse, fun hno => ?_, fun hno => ?_⟩
  · cases hframe : Request.ofFrame text with
    | error why => exact ⟨⟨why, rfl⟩, by rw [BridgeHost.readFrame, hframe]⟩
    | ok r => exact absurd ((hrequest r).mp hframe) (hno r)
  · cases hframe : Response.ofFrame text with
    | error why => exact ⟨why, rfl, fun ω c => by rw [BridgeClient.takeFrame, hframe]⟩
    | ok r => exact absurd ((hresponse r).mp hframe) (hno r)

/-- A word that is neither an object nor an array is such a text, for which the conclusions hold. -/
theorem frames_that_are_no_objects_null : ¬ IsObjectText "null" ∧
    BridgeHost.readFrame "null" = .ignore ∧ ∃ why, Response.ofFrame "null" = .error why ∧
      ∀ (ω : Type) (c : BridgeClient ω), c.takeFrame "null" =
        c.warn ("undecodable response frame: " ++ (Failure.protocol why.message).message) := by
  -- The first token is enough to tell that it is neither.
  have hhead : (tokens "null").head? = some .null := by decide +kernel
  have hobject : ¬ IsObjectText "null" := not_isObjectText (by rw [hhead]; exact nofun)
  have harray : ∀ vs, ¬ (Value.array vs).IsText "null" := by
    intro vs hvs
    rw [Value.isText_iff.mp hvs] at hhead
    cases vs <;> cases hhead
  obtain ⟨-, -, hrequest, hresponse⟩ := frames_that_are_no_objects hobject
  refine ⟨hobject, (hrequest ?_).2, hresponse ?_⟩
  · rintro r ⟨_, _, _, _, htext, -⟩
    exact harray _ htext
  · rintro r ⟨_, _, _, _, _, _, htext, -⟩
    exact harray _ htext

/-- A request as a row. -/
def requestRow : String := "[1,\"roboidentities\",\"roboname\",\"x\"]"

/-- A response as a row. -/
def responseRow : String := "[\"resolved\",1,\"x\"]"

/-- **Rows are taken for objects.**  A host does the work of a request that is written as a row, and
a client settles a request by a response that is.  The documents of the format speak of objects
alone, so this is more than they allow. -/
theorem rows_are_taken_for_objects :
    ¬ IsObjectText requestRow ∧
      Request.ofFrame requestRow = .ok ⟨.counter 1, "roboidentities", .roboname, "x"⟩ ∧
      BridgeHost.readFrame requestRow = .work (.counter 1) (.name "x") ∧
      ¬ IsObjectText responseRow ∧
      Response.ofFrame responseRow = .ok (.resolved (.counter 1) "x") ∧
      ∃ c : BridgeClient Unit, (c.takeFrame responseRow).outstanding ≠ c.outstanding := by
  have hrequest : Request.ofFrame requestRow =
      .ok ⟨.counter 1, "roboidentities", .roboname, "x"⟩ :=
    Request.ofFrame_of_isRow ⟨.number ⟨false, [1], [], none⟩, .text (plain "roboidentities"),
      .text (plain "roboname"), .text (plain "x"), Value.isText_iff.mpr (by decide +kernel),
      .counter rfl, .text rfl, .name rfl rfl, .text rfl⟩
  have hresponse : Response.ofFrame responseRow = .ok (.resolved (.counter 1) "x") :=
    Response.ofFrame_of_isRow ⟨.resolved, .counter 1, "x", .text (plain "resolved"),
      .number ⟨false, [1], [], none⟩, .text (plain "x"), Value.isText_iff.mpr (by decide +kernel),
      rfl, .text rfl, .counter rfl, .text rfl⟩
  refine ⟨not_isObjectText (by decide +kernel), hrequest, ?_, not_isObjectText (by decide +kernel),
    hresponse, ⟨.counter, 1, {}, {}, [(.counter 1, .name "x")], false, []⟩, ?_⟩
  · rw [BridgeHost.readFrame, hrequest]
    rfl
  · rw [BridgeClient.takeFrame, hresponse]
    exact nofun

end AvatarPool
