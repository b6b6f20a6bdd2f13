import AvatarPool.Proofs.Json.Members
import AvatarPool.Text.Blank
import AvatarPool.Wire.Response

/-! # Frames read back

Every frame that is written is read as what it was written from, and it takes one line.

A frame that is written has its members in one order and its strings in one spelling.  It is
therefore read by evaluation: its tokens are known from `Json.Printed`, and each member is read by a
lemma of its own, which the loop over the members then uses in turn.  No induction is needed here
but for the tokens themselves.

The module also has what else is known of written frames: that they hold no control characters, so
that each takes one line, that none of them is blank, and that different responses are written
differently. -/

namespace AvatarPool

open Json

/-! ## Ids -/

namespace RequestId

/-- The token that a written id is read as. -/
def token : RequestId → Token
  | counter n => numberToken n.toNat
  | text s => textToken s

/-- So what is written for an id is one token, whatever comes before or after it. -/
theorem spells_json (id : RequestId) : Spells id.json id.token := by
  cases id with
  | counter n => exact spells_number n.toNat
  | text s => exact spells_quote s

theorem isShown_json (id : RequestId) : IsShown id.json := by
  cases id with
  | counter n => exact isShown_number n.toNat
  | text s => exact isShown_quote s

/-- The token gives the id back.  A counter has a value because it is less than two to the
sixty-fourth. -/
@[simp] theorem ofToken_token (id : RequestId) : ofToken id.token = .ok id := by
  cases id with
  | counter n =>
      simp [ofToken, ofToken?, token, numberToken, value?_digits n.toNat_lt]
  | text s => simp [ofToken, ofToken?, token, textToken, joined?_pieceOf]

/-- A written id is passed over as one sound value. -/
@[simp] theorem skim_token (room : Nat) (id : RequestId) (rest : List Token) :
    skim room (id.token :: rest) = some (true, rest) := by
  cases id with
  | counter n => simp [skim, skimFrom, token, numberToken, Cursor.step, Cursor.start,
      Cursor.stepValue, Progress.afterValue, Cursor.after, Token.isSound, value?_digits n.toNat_lt]
  | text s => simp [skim, skimFrom, token, textToken, Cursor.step, Cursor.start,
      Cursor.stepValue, Progress.afterValue, Cursor.after, Token.isSound, joined?_pieceOf]

/-- The two steps of the reader, skimming and looking, both succeed on a written id. -/
@[simp] theorem read_token (room : Nat) (id : RequestId) (rest : List Token) :
    read room (id.token :: rest) = .ok (id, rest) := by
  rw [read]
  simp [Except.map]

/-- **Ids that are written alike are equal**, and so of one kind.  They are read back, in front of a
closing brace, where a number is known to end; what is read from equal texts is equal. -/
theorem json_injective {id id' : RequestId} (h : id.json = id'.json) : id = id' := by
  have hspelled : ∀ id : RequestId, tokensOnto [] (id.json.toList ++ ['}']) =
      tokensOnto [id.token] ['}'] := fun id => id.spells_json [] '}' [] (.inr rfl)
  have hread : ∀ id : RequestId, read 0 (tokensOnto [] (id.json.toList ++ ['}'])) =
      .ok (id, [.closeBrace]) := by
    intro id
    rw [hspelled, tokensOnto_of_scanToken (by decide) rfl, tokensOnto]
    exact read_token 0 id [.closeBrace]
  have hboth := (hread id).symm.trans (h ▸ hread id')
  exact congrArg Prod.fst (Except.ok.inj hboth)

end RequestId

/-! ## Requests -/

/-- Strings are single tokens, of which the text is given back by joining their pieces. -/
@[simp] theorem readString_textToken (s : String) (rest : List Token) :
    readString (textToken s :: rest) = .ok (s, rest) := by
  simp [readString, asString, textToken, joined?_pieceOf, Except.map]

namespace Request

@[simp] theorem readVariant_name (kind : RequestKind) (rest : List Token) :
    readVariant RequestKind.variants (textToken kind.name :: rest) = .ok (kind, rest) := by
  simp [readVariant, asString, textToken, joined?_pieceOf]
  cases kind <;> rfl

/-- The loop of the model is written out; it is a round of the general loop, so the lemmas about
members apply to it. -/
theorem readMembers_eq_round (f : Fields) (ts : List Token) :
    readMembers f ts = memberRound readMember Fields.finish readMembers f ts := by
  -- Token by token both sides are the same; they differ in how a result is handed on.
  rw [readMembers.eq_def, memberRound.eq_def]
  cases ts with
  | nil => rfl
  | cons t rest =>
      cases t with
      | text pieces =>
          dsimp only
          cases hname : joined? pieces with
          | none => rfl
          | some key =>
              dsimp only
              split <;> simp_all [Except.map]
      | _ => rfl

/-- A member of the right name and its separator. -/
theorem readMembers_comma {f f' : Fields} {key : String} {t : Token} {rest : List Token}
    (h : ∀ rest, readMember f key (.colon :: t :: rest) = .ok (f', rest)) :
    readMembers f (textToken key :: .colon :: t :: .comma :: rest) = readMembers f' rest :=
  (readMembers_eq_round f _).trans (memberRound_comma h)

/-- The last member. -/
theorem readMembers_close {f f' : Fields} {key : String} {t : Token} {rest : List Token}
    (h : ∀ rest, readMember f key (.colon :: t :: rest) = .ok (f', rest)) :
    readMembers f (textToken key :: .colon :: t :: .closeBrace :: rest) =
      f'.finish.map fun r => (r, rest) :=
  (readMembers_eq_round f _).trans (memberRound_close h)

/-- The tokens of a written request: four members, each with its name and one token for its value.
-/
theorem tokens_frame (r : Request) :
    tokens r.frame = .openBrace :: memberTokens [("id", r.id.token),
      ("category", textToken r.category), ("type", textToken r.kind.name),
      ("detail", textToken r.detail)] :=
  tokens_object [("id", r.id.json, r.id.token), ("category", quote r.category, textToken r.category),
    ("type", quote r.kind.name, textToken r.kind.name),
    ("detail", quote r.detail, textToken r.detail)] (by
      simp [r.id.spells_json, spells_quote])

/-- **A written request is read back.**  The four members are read one by one.  What has been
gathered before each of them is written out, so that the steps fit together. -/
theorem ofFrame_frame (r : Request) : ofFrame r.frame = .ok r := by
  -- Each value is behind its colon and in front of whatever comes next.
  have hid : ∀ rest, readMember {} "id" (.colon :: r.id.token :: rest) =
      .ok ({ id := some r.id }, rest) := by
    simp [readMember, readOnce, once, afterColon, Except.map]
  have hcategory : ∀ rest, readMember { id := some r.id } "category"
      (.colon :: textToken r.category :: rest) =
        .ok ({ id := some r.id, category := some r.category }, rest) := by
    simp [readMember, readOnce, once, afterColon, Except.map]
  have hkind : ∀ rest, readMember { id := some r.id, category := some r.category } "type"
      (.colon :: textToken r.kind.name :: rest) =
        .ok (⟨some r.id, some r.category, some r.kind, none⟩, rest) := by
    simp [readMember, readOnce, once, afterColon, Except.map]
  have hdetail : ∀ rest, readMember ⟨some r.id, some r.category, some r.kind, none⟩ "detail"
      (.colon :: textToken r.detail :: rest) =
        .ok (⟨some r.id, some r.category, some r.kind, some r.detail⟩, rest) := by
    simp [readMember, readOnce, once, afterColon, Except.map]
  have hread : read (tokens r.frame) = .ok (r, []) := by
    rw [tokens_frame]
    unfold memberTokens memberTokens memberTokens memberTokens
    show readMembers {} (textToken "id" :: _) = _
    rw [readMembers_comma hid, readMembers_comma hcategory, readMembers_comma hkind,
      readMembers_close hdetail]
    rfl
  rw [ofFrame, whole, hread]
  rfl

/-- Names and values are shown, and so is what they are put together from. -/
theorem isShown_frame (r : Request) : IsShown r.frame :=
  isShown_object (by simp [r.id.isShown_json, isShown_quote])

/-- A blank character starts no token. -/
theorem scanToken_of_isBlankChar {c : Char} (h : Text.isBlankChar c) (rest : List Char) :
    scanToken c rest = none := by
  -- A digit is no blank character, as none of the ranges of blanks reaches into theirs.
  have hdigit : ¬ isDigit c := by
    intro hdigit
    simp only [isDigit, Bool.and_eq_true, decide_eq_true_eq] at hdigit
    have hlow : 0x30 ≤ c.toNat := hdigit.1
    have hhigh : c.toNat ≤ 0x39 := hdigit.2
    simp only [Text.isBlankChar, Text.blankRanges, List.any_eq_true, decide_eq_true_eq] at h
    obtain ⟨r, hr, hle⟩ := h
    simp only [List.mem_cons, List.not_mem_nil, or_false] at hr
    rcases hr with rfl | rfl | rfl | rfl | rfl | rfl | rfl | rfl | rfl | rfl <;> omega
  -- The other characters that start a token are single ones, and none of them is blank.
  unfold scanToken
  split
  case h_12 => exact if_neg hdigit
  all_goals exact absurd h (by decide)

/-- **A blank line is no request.**  A blank character is either one that is skipped between tokens
or one that starts none, so that nothing but a fault can come of it. -/
theorem ofFrame_of_isBlank {text : String} (h : Text.isBlank text) :
    ∃ why, ofFrame text = .error why := by
  -- By induction on the characters: the tokens are none, or one that is wrong.
  have htokens : ∀ cs : List Char, (∀ c ∈ cs, Text.isBlankChar c) →
      tokensOnto [] cs = [] ∨ tokensOnto [] cs = [.wrong] := by
    intro cs hcs
    induction cs with
    | nil => exact .inl (by rw [tokensOnto]; rfl)
    | cons c cs ih =>
        rw [tokensOnto]
        split
        · exact ih fun d hd => hcs d (List.mem_cons_of_mem _ hd)
        · right
          split
          · rename_i hscan
            rw [scanToken_of_isBlankChar (hcs c List.mem_cons_self)] at hscan
            cases hscan
          · rfl
  have hall : ∀ c ∈ text.toList, Text.isBlankChar c := List.all_eq_true.mp h
  rcases htokens _ hall with heq | heq <;> exact ⟨_, by rw [ofFrame, whole, tokens, heq]; rfl⟩

end Request

/-! ## Responses -/

namespace Response

/-- As for requests, with nothing left to be done at the end of the loop. -/
theorem readMembers_eq_round (g : Gathered) (ts : List Token) :
    readMembers g ts = memberRound readMember Except.ok readMembers g ts := by
  rw [readMembers.eq_def, memberRound.eq_def]
  cases ts with
  | nil => rfl
  | cons t rest =>
      cases t with
      | text pieces =>
          dsimp only
          cases hname : joined? pieces with
          | none => rfl
          | some key =>
              dsimp only
              split <;> simp_all [Except.map]
      | _ => rfl

theorem readMembers_comma {g g' : Gathered} {key : String} {t : Token} {rest : List Token}
    (h : ∀ rest, readMember g key (.colon :: t :: rest) = .ok (g', rest)) :
    readMembers g (textToken key :: .colon :: t :: .comma :: rest) = readMembers g' rest :=
  (readMembers_eq_round g _).trans (memberRound_comma h)

theorem readMembers_close {g g' : Gathered} {key : String} {t : Token} {rest : List Token}
    (h : ∀ rest, readMember g key (.colon :: t :: rest) = .ok (g', rest)) :
    readMembers g (textToken key :: .colon :: t :: .closeBrace :: rest) = .ok (g', rest) :=
  (readMembers_eq_round g _).trans (memberRound_close h)

/-- How a status is written. -/
def Status.name : Status → String
  | resolved => "resolved"
  | rejected => "rejected"

/-- Both kinds of responses are written in the same way, but for the status and the name of the
member that has the text. -/
theorem frame_answer (status : Status) (id : RequestId) (text : String) :
    (status.answer id text).frame = object [("status", quote status.name), ("id", id.json),
      (status.textMember, quote text)] := by
  cases status <;> rfl

/-- So what is shown for a status, an id and a text holds for every response. -/
theorem exists_answer (r : Response) : ∃ (status : Status) (id : RequestId) (text : String),
    r = status.answer id text := by
  cases r with
  | resolved id detail => exact ⟨.resolved, id, detail, rfl⟩
  | rejected id reason => exact ⟨.rejected, id, reason, rfl⟩

/-- The tokens of a written response: three members, the status first. -/
theorem tokens_frame (status : Status) (id : RequestId) (text : String) :
    tokens (status.answer id text).frame = .openBrace :: memberTokens
      [("status", textToken status.name), ("id", id.token), (status.textMember, textToken text)] := by
  rw [frame_answer]
  exact tokens_object [("status", quote status.name, textToken status.name),
    ("id", id.json, id.token), (status.textMember, quote text, textToken text)] (by
      simp [id.spells_json, spells_quote])

theorem readContent_id (id : RequestId) (rest : List Token) :
    readContent (id.token :: rest) = .ok (id.token, rest) := by
  simp [readContent]

/-- A text is kept like an id, since the reader does not yet know which of them it has. -/
theorem readContent_text (s : String) (rest : List Token) :
    readContent (textToken s :: rest) = .ok (textToken s, rest) :=
  readContent_id (.text s) rest

/-- **A written response is read back.**  The status comes first and is read as such; the other two
members are kept by their tokens, and sorted out at the end. -/
theorem ofFrame_frame (r : Response) : ofFrame r.frame = .ok r := by
  obtain ⟨status, id, text, rfl⟩ := r.exists_answer
  have hstatus : ∀ rest, readMember {} "status" (.colon :: textToken status.name :: rest) =
      .ok ({ status := some status }, rest) := by
    intro rest
    have hread : readStatus (textToken status.name :: rest) = .ok (status, rest) := by
      simp [readStatus, asString, textToken, joined?_pieceOf]
      cases status <;> rfl
    simp [readMember, readOnce, once, afterColon, hread, Except.map]
  have hid : ∀ rest, readMember { status := some status } "id" (.colon :: id.token :: rest) =
      .ok ({ status := some status, members := [("id", id.token)] }, rest) := by
    simp [readMember, readOnce, once, afterColon, readContent_id, Except.map]
  -- The name of the text's member depends on the status, but it is never that of the status itself.
  have htext : ∀ rest, readMember { status := some status, members := [("id", id.token)] }
      status.textMember (.colon :: textToken text :: rest) =
        .ok (⟨some status, [(status.textMember, textToken text), ("id", id.token)]⟩, rest) := by
    have hother : status.textMember ≠ "status" := by cases status <;> decide
    simp [readMember, hother, readOnce, once, afterColon, readContent_text, Except.map]
  -- Neither is it that of the id, so the two members that are kept are told apart.
  have hfinish : Gathered.finish ⟨some status, [(status.textMember, textToken text),
      ("id", id.token)]⟩ = .ok (status.answer id text) := by
    have hother : status.textMember ≠ "id" := by cases status <;> decide
    have hstring : asString "a string" (textToken text) = .ok text := by
      simp [asString, textToken, joined?_pieceOf]
    simp [Gathered.finish, Parts.take, hother, once, hstring]
    rfl
  have hread : read (tokens (status.answer id text).frame) = .ok (status.answer id text, []) := by
    rw [tokens_frame]
    unfold memberTokens memberTokens memberTokens
    show (readMembers {} (textToken "status" :: _)).bind (fun p => p.1.finish.map fun r => (r, p.2)) = _
    rw [readMembers_comma hstatus, readMembers_comma hid, readMembers_close htext]
    show (Gathered.finish _).map _ = _
    rw [hfinish]
    rfl
  rw [ofFrame, whole, hread]
  rfl

/-- Responses that are written alike are equal, because they are read back. -/
theorem frame_injective {r r' : Response} (h : r.frame = r'.frame) : r = r' :=
  Except.ok.inj (ofFrame_frame r ▸ h ▸ ofFrame_frame r')

theorem isShown_frame (r : Response) : IsShown r.frame := by
  obtain ⟨status, id, text, rfl⟩ := r.exists_answer
  rw [frame_answer]
  exact isShown_object (by simp [id.isShown_json, isShown_quote])

end Response

/-! ## The whole format -/

/-- **Every frame is read as what it was written from**, requests and responses alike, whatever
their ids and texts hold.  A counter and the text of its digits are not written alike, and each
comes back as what it was. -/
theorem frames_round_trip :
    (∀ r : Request, Request.ofFrame r.frame = .ok r) ∧
      (∀ r : Response, Response.ofFrame r.frame = .ok r) ∧
      ∀ (n : UInt64) (s : String),
        (RequestId.counter n).json ≠ (RequestId.text s).json ∧
        (∀ (category : String) (kind : RequestKind) (detail : String),
          (Request.ofFrame (Request.mk (.counter n) category kind detail).frame).map Request.id =
              .ok (.counter n) ∧
            (Request.ofFrame (Request.mk (.text s) category kind detail).frame).map Request.id =
              .ok (.text s)) ∧
        ∀ (status : Response.Status) (text : String),
          (Response.ofFrame (status.answer (.counter n) text).frame).map Response.id =
              .ok (.counter n) ∧
            (Response.ofFrame (status.answer (.text s) text).frame).map Response.id =
              .ok (.text s) := by
  refine ⟨Request.ofFrame_frame, Response.ofFrame_frame, fun n s => ⟨fun halike => ?_,
    fun category kind detail => ?_, fun status text => ?_⟩⟩
  -- If both were written alike, they would be one id, of one kind.
  · cases RequestId.json_injective halike
  · rw [Request.ofFrame_frame, Request.ofFrame_frame]
    exact ⟨rfl, rfl⟩
  · rw [Response.ofFrame_frame, Response.ofFrame_frame]
    cases status <;> exact ⟨rfl, rfl⟩

end AvatarPool
