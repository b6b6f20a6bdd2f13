import AvatarPool.Proofs.Json.Lexing
import AvatarPool.Proofs.Wire.Reading

/-! # Frames by foreign hands

A host or a client in another language may write the members of a frame in any order, lay them out
as it likes, escape what it likes and add members of its own.  Whatever it writes is read as the
same request or response.  While the members are read, each known one is either ahead or has been
seen; this is kept by every member, and at the end all of them have been seen.

For requests one pass is enough, and its invariant is `Fields.Awaits`: each of the four fields is
empty with its member ahead, or filled with its member gone by.  For responses there are two passes.
The first keeps the status and the tokens of all other members, the second looks for the id and the
text among these, once it is known which member has the text.  The same `Awaits` carries both. -/

namespace AvatarPool

open Json

/-! ## Requests -/

namespace Request

/-- The members that a request must have, and the values that they should have. -/
def members (r : Request) : List (String × (Value → Prop)) :=
  [("id", r.id.ShownBy), ("category", fun v => v.Spells r.category),
    ("type", fun v => v.Spells r.kind.name), ("detail", fun v => v.Spells r.detail)]

/-- **What has been read of a request and what is to come** make the request.  At the start each of
the four is ahead, at the end none is, and so all fields are filled. -/
structure Fields.Awaits (r : Request) (f : Fields) (ms : List Member) : Prop where
  id : Json.Awaits r.id r.id.ShownBy f.id (valuesOf "id" ms)
  category : Json.Awaits r.category (fun v => v.Spells r.category) f.category
    (valuesOf "category" ms)
  kind : Json.Awaits r.kind (fun v => v.Spells r.kind.name) f.kind (valuesOf "type" ms)
  detail : Json.Awaits r.detail (fun v => v.Spells r.detail) f.detail (valuesOf "detail" ms)

variable {r : Request} {f : Fields} {key : List Piece} {name : String} {v : Value}
  {ms : List Member}

/-- The reader may take other forms of a variant as well; that a string names it is one of them. -/
theorem shownBy_of_spells {kind : RequestKind} (h : v.Spells kind.name) :
    RequestKind.variants.ShownBy kind v := by
  obtain ⟨hjoined⟩ := h
  exact .name hjoined (ofName?_eq_some_iff.mpr rfl)

/-- One member.  The name decides which field is filled, and leaves the other three awaiting theirs.
A name that is none of the four leaves all of them. -/
theorem Fields.Awaits.take (h : f.Awaits r ((key, v) :: ms)) (hname : joined? key = some name) :
    ∃ f', f.Takes name v f' ∧ f'.Awaits r ms := by
  unfold Fields.Takes
  split
  -- Branch by branch, as the reader has them: the member that came is there, and the others are
  -- still elsewhere.
  · rename_i hid
    subst hid
    obtain ⟨hnew, hv, hid⟩ := h.id.here hname
    exact ⟨_, ⟨hnew, _, hv, rfl⟩, hid, h.category.elsewhere hname (by decide),
      h.kind.elsewhere hname (by decide), h.detail.elsewhere hname (by decide)⟩
  rename_i hid
  split
  · rename_i hcategory
    subst hcategory
    obtain ⟨hnew, hv, hcategory⟩ := h.category.here hname
    exact ⟨_, ⟨hnew, _, hv, rfl⟩, h.id.elsewhere hname hid, hcategory,
      h.kind.elsewhere hname (by decide), h.detail.elsewhere hname (by decide)⟩
  rename_i hcategory
  split
  · rename_i hkind
    subst hkind
    obtain ⟨hnew, hv, hkind⟩ := h.kind.here hname
    exact ⟨_, ⟨hnew, _, shownBy_of_spells hv, rfl⟩, h.id.elsewhere hname hid,
      h.category.elsewhere hname hcategory, hkind, h.detail.elsewhere hname (by decide)⟩
  rename_i hkind
  split
  · rename_i hdetail
    subst hdetail
    obtain ⟨hnew, hv, hdetail⟩ := h.detail.here hname
    exact ⟨_, ⟨hnew, _, hv, rfl⟩, h.id.elsewhere hname hid, h.category.elsewhere hname hcategory,
      h.kind.elsewhere hname hkind, hdetail⟩
  · rename_i hdetail
    exact ⟨f, rfl, h.id.elsewhere hname hid, h.category.elsewhere hname hcategory,
      h.kind.elsewhere hname hkind, h.detail.elsewhere hname hdetail⟩

/-- All members.  By induction on the members, each of which is taken in one step; that they have
names is used here, for a member without one could not be taken. -/
theorem Fields.Awaits.taken (h : f.Awaits r ms)
    (hnamed : ∀ m ∈ ms, ∃ name, joined? m.1 = some name) :
    ∃ f', Taken Fields.Takes f ms f' ∧ f'.Awaits r [] := by
  induction ms generalizing f with
  | nil => exact ⟨f, .nil, h⟩
  | cons m ms ih =>
      obtain ⟨⟨name, hname⟩, hrest⟩ := List.forall_mem_cons.mp hnamed
      obtain ⟨f', htakes, h'⟩ := h.take hname
      obtain ⟨f'', htaken, h''⟩ := ih h' hrest
      exact ⟨f'', .cons hname htakes htaken, h''⟩

/-- With no members left every field is filled, so the request is complete. -/
theorem Fields.Awaits.finish (h : f.Awaits r []) : f.finish = .ok r := by
  rw [Fields.finish, h.id.of_nil, h.category.of_nil, h.kind.of_nil, h.detail.of_nil]

/-- **A request is read from any object that holds its members.**  Further members may have any
values, and nothing is asked of them. -/
theorem read_tokens_of_holds {further : Value → Prop} (h : Holds r.members further ms) :
    read (Value.object ms).tokens = .ok (r, []) := by
  have hstart : Fields.Awaits r {} ms :=
    ⟨h.awaits (by simp [members]), h.awaits (by simp [members]), h.awaits (by simp [members]),
      h.awaits (by simp [members])⟩
  -- An object without members has no id.
  have hne : ms ≠ [] := by
    rintro rfl
    cases hstart.id.of_nil
  obtain ⟨f, htaken, hend⟩ := hstart.taken h.named
  rw [Value.tokens_object, read_object_eq_ok_iff]
  exact ⟨ms, f, hne, htaken, hend.finish, (List.append_nil _).symm⟩

end Request

/-! ## Responses -/

namespace Response

/-- The members that a response must have, and the values that they should have.  The text is in a
member that is named after the status. -/
def members : Response → List (String × (Value → Prop))
  | resolved id detail => [("status", fun v => v.Spells "resolved"), ("id", id.ShownBy),
      ("detail", fun v => v.Spells detail)]
  | rejected id reason => [("status", fun v => v.Spells "rejected"), ("id", id.ShownBy),
      ("reason", fun v => v.Spells reason)]

theorem members_answer (status : Status) (id : RequestId) (text : String) :
    (status.answer id text).members = [("status", fun v => v.Spells status.name),
      ("id", id.ShownBy), (status.textMember, fun v => v.Spells text)] := by
  cases status <;> rfl

/-- What is kept of a member until the end: its name and its first token, unless it is the
status. -/
def kept? (m : Member) : Option (String × Token) :=
  match joined? m.1 with
  | some name => if name = "status" then none else some (name, m.2.firstToken)
  | none => none

variable {status : Status} {id : RequestId} {text : String} {g : Gathered} {p : Parts}
  {key : List Piece} {name : String} {v : Value} {ms : List Member}

/-- **The members are gathered**: the status wherever it stands, and the others as they come. -/
theorem taken_gathered (hnamed : ∀ m ∈ ms, ∃ name, joined? m.1 = some name)
    (hsound : ∀ m ∈ ms, m.2.isSound memberRoom 0 = true)
    (hstatus : Awaits status (fun v => v.Spells status.name) g.status (valuesOf "status" ms)) :
    Taken Gathered.Takes g ms ⟨some status, (ms.filterMap kept?).reverse ++ g.members⟩ := by
  -- The result is stated with the members before it in front, hence the reversal: they are gathered
  -- last first.
  -- Members on both sides of the status are kept, so this is shown for any that were before.
  induction ms generalizing g with
  | nil =>
      obtain ⟨_, _⟩ := g
      cases hstatus.of_nil
      exact .nil
  | cons m ms ih =>
      obtain ⟨key, v⟩ := m
      obtain ⟨⟨name, hname⟩, hnamed⟩ := List.forall_mem_cons.mp hnamed
      obtain ⟨hv, hsound⟩ := List.forall_mem_cons.mp hsound
      dsimp only at hname hv
      by_cases heq : name = "status"
      · subst heq
        -- The status itself is not among what is kept.
        obtain ⟨hnew, hspells, hstatus⟩ := hstatus.here hname
        have hkept : kept? (key, v) = none := by simp [kept?, hname]
        rw [List.filterMap_cons_none hkept]
        have htakes : g.Takes "status" v { g with status := some status } :=
          ⟨hnew, status, hspells, rfl⟩
        exact .cons hname htakes (ih hnamed hsound hstatus)
      -- Any other member is kept, with the status still ahead or gone by.
      · have hkept : kept? (key, v) = some (name, v.firstToken) := by simp [kept?, hname, heq]
        have htakes : g.Takes name v { g with members := (name, v.firstToken) :: g.members } := by
          rw [Gathered.Takes, if_neg heq]
          exact ⟨hv, rfl⟩
        have hrest := ih (g := { g with members := (name, v.firstToken) :: g.members }) hnamed
          hsound (hstatus.elsewhere hname heq)
        rw [List.filterMap_cons_some hkept, List.reverse_cons, List.append_assoc]
        exact .cons hname htakes hrest

theorem textMember_ne (status : Status) :
    status.textMember ≠ "id" ∧ status.textMember ≠ "status" := by
  cases status <;> decide

/-- **What was kept is sorted out**: the id and the text are found among the members, and the others
are let go.  What is in the other members is not looked at any more. -/
theorem foldlM_take (hnamed : ∀ m ∈ ms, ∃ name, joined? m.1 = some name)
    (hid : Awaits id id.ShownBy p.id (valuesOf "id" ms))
    (htext : Awaits text (fun v => v.Spells text) p.text (valuesOf status.textMember ms)) :
    (ms.filterMap kept?).foldlM (Parts.take status) p = .ok ⟨some id, some text⟩ := by
  -- The invariant of the first pass serves once more: each part is ahead or has been found.
  induction ms generalizing p with
  | nil =>
      obtain ⟨_, _⟩ := p
      cases hid.of_nil
      cases htext.of_nil
      rfl
  | cons m ms ih =>
      obtain ⟨key, v⟩ := m
      obtain ⟨⟨name, hname⟩, hnamed⟩ := List.forall_mem_cons.mp hnamed
      dsimp only at hname
      obtain ⟨htextid, htextstatus⟩ := textMember_ne status
      by_cases hisStatus : name = "status"
      -- The status is not among what was kept.
      · subst hisStatus
        have hkept : kept? (key, v) = none := by simp [kept?, hname]
        rw [List.filterMap_cons_none hkept]
        exact ih hnamed (hid.elsewhere hname (by decide)) (htext.elsewhere hname htextstatus.symm)
      have hkept : kept? (key, v) = some (name, v.firstToken) := by simp [kept?, hname, hisStatus]
      rw [List.filterMap_cons_some hkept, List.foldlM_cons, bind_eq_ok]
      -- The id is here.
      by_cases hisId : name = "id"
      · subst hisId
        obtain ⟨hnew, hv, hid⟩ := hid.here hname
        refine ⟨{ p with id := some id }, ?_,
          ih hnamed hid (htext.elsewhere hname htextid.symm)⟩
        simp [Parts.take, hnew, once, RequestId.ofToken_eq_ok_iff.mpr hv, bind, Except.bind]
      -- The text is here.
      by_cases hisText : name = status.textMember
      · subst hisText
        obtain ⟨hnew, hv, htext⟩ := htext.here hname
        refine ⟨{ p with text := some text }, ?_,
          ih hnamed (hid.elsewhere hname htextid) htext⟩
        simp [Parts.take, htextid, hnew, once, asString_firstToken_eq_ok_iff.mpr hv, bind,
          Except.bind]
      -- Neither of them: nothing changes.
      · refine ⟨p, ?_, ih hnamed (hid.elsewhere hname hisId) (htext.elsewhere hname hisText)⟩
        rw [Parts.take, if_neg hisId, if_neg hisText]

/-- **A response is read from any object that holds its members**, if the others are paired and
within the limits.  Every value must be sound, also those of the known members; theirs are, because
they show an id or spell a text, and the others' are by what is asked of them. -/
theorem read_tokens_of_holds {r : Response}
    (h : Holds r.members (fun v => v.IsPaired ∧ v.Fits memberRoom) ms) :
    read (Value.object ms).tokens = .ok (r, []) := by
  obtain ⟨status, id, text, rfl⟩ := r.exists_answer
  rw [members_answer] at h
  have hstatus := h.awaits (a := status) List.mem_cons_self
  have hid := h.awaits (a := id) (List.mem_cons_of_mem _ List.mem_cons_self)
  have htext := h.awaits (a := text)
    (List.mem_cons_of_mem _ (List.mem_cons_of_mem _ List.mem_cons_self))
  have hne : ms ≠ [] := by
    rintro rfl
    cases hid.of_nil
  -- The known members' values are single tokens.
  have hsound : ∀ m ∈ ms, m.2.isSound memberRoom 0 = true := by
    refine h.forall_mem (Q := fun v => v.isSound memberRoom 0 = true) ?_ ?_
    · simp only [List.forall_mem_cons]
      exact ⟨fun v hv => hv.isSound _ _, fun v hv => hv.isSound _ _, fun v hv => hv.isSound _ _,
        nofun⟩
    · exact fun v hv => v.isSound_of_isPaired hv.1 hv.2 (by omega)
  -- The second pass starts with nothing found, so that both the id and the text are ahead.
  have hfold := foldlM_take (p := {}) h.named hid htext
  rw [Value.tokens_object, read_object_eq_ok_iff]
  refine ⟨ms, _, hne, taken_gathered (g := {}) h.named hsound hstatus, ?_, (List.append_nil _).symm⟩
  rw [Gathered.finish, List.append_nil, List.reverse_reverse]
  exact bind_eq_ok.mpr ⟨_, hfold, rfl⟩

end Response

/-! ## Texts -/

/-- **However a frame is written, it is read as what it says.**  In a text that is a JSON object,
with any blanks between its tokens and its strings escaped in any way, the members may come in any
order and others may stand between them: if each known member is there once, a request is read as
that request, and a response as that response, wherever its status stands.  The other members of a
request may hold anything, and those of a response any paired value within the limits on nesting and
numbers; every name is a text. -/
theorem frames_decode_however_written :
    (∀ (r : Request) (ms : List Member) (text : String), (Value.object ms).IsText text →
      Holds r.members (fun _ => True) ms → Request.ofFrame text = .ok r) ∧
    ∀ (r : Response) (ms : List Member) (text : String), (Value.object ms).IsText text →
      Holds r.members (fun v => v.IsPaired ∧ v.Fits Response.memberRoom) ms →
        Response.ofFrame text = .ok r := by
  constructor
  -- A text is read by its tokens, which are those of the object.
  · intro r ms text htext hholds
    rw [Request.ofFrame, whole_eq_ok_iff, Value.isText_iff.mp htext]
    exact Request.read_tokens_of_holds hholds
  · intro r ms text htext hholds
    rw [Response.ofFrame, whole_eq_ok_iff, Value.isText_iff.mp htext]
    exact Response.read_tokens_of_holds hholds

/-- A request with blanks, an escaped name, and a value that no response could hold. -/
def foreignRequest : String :=
  "\x7b \"type\":\"roboname\", \"note\":[\"\\ud800\", 1e999],\n\t\"d\\u0065tail\" : \"x\"," ++
    "\"category\":\"c\",\"id\":\"u\" \x7d"

/-- The members of that request, in the order in which they are written. -/
def foreignRequestMembers : List Member :=
  [(plain "type", .text (plain "roboname")),
    (plain "note", .array [.text [.unit 0xD800], .number ⟨false, [1], [], some (true, [9, 9, 9])⟩]),
    (.plain 'd' :: .unit 0x65 :: plain "tail", .text (plain "x")),
    (plain "category", .text (plain "c")), (plain "id", .text (plain "u"))]

/-- A response with its status at the end. -/
def foreignResponse : String :=
  "\x7b\"more\" : [\x7b\"x\":null\x7d , -1.5e3 ],\r\n\"detail\":\"hi\",\"id\" : 7, " ++
    "\"st\\u0061tus\":\"resolved\"\x7d"

/-- The members of that response: a nested one that is not needed, and the three that are. -/
def foreignResponseMembers : List Member :=
  [(plain "more", .array [.object [(plain "x", .null)],
      .number ⟨true, [1], [5], some (true, [3])⟩]),
    (plain "detail", .text (plain "hi")), (plain "id", .number ⟨false, [7], [], none⟩),
    (.plain 's' :: .plain 't' :: .unit 0x61 :: plain "tus", .text (plain "resolved"))]

/-- Each of the four known members is there once, and the note is a further one. -/
theorem holds_foreignRequestMembers : Holds (Request.mk (.text "u") "c" .roboname "x").members
    (fun _ => True) foreignRequestMembers where
  named := by
    simp only [foreignRequestMembers, List.forall_mem_cons]
    exact ⟨⟨_, rfl⟩, ⟨_, rfl⟩, ⟨_, rfl⟩, ⟨_, rfl⟩, ⟨_, rfl⟩, nofun⟩
  own := by
    simp only [Request.members, List.forall_mem_cons]
    exact ⟨⟨_, rfl, .text rfl⟩, ⟨_, rfl, .text rfl⟩, ⟨_, rfl, .text rfl⟩, ⟨_, rfl, .text rfl⟩,
      nofun⟩
  others _ _ _ := trivial

/-- The one further member is paired and fits, and the others are known by their names. -/
theorem holds_foreignResponseMembers : Holds (Response.resolved (.counter 7) "hi").members
    (fun v => v.IsPaired ∧ v.Fits Response.memberRoom) foreignResponseMembers where
  named := by
    simp only [foreignResponseMembers, List.forall_mem_cons]
    exact ⟨⟨_, rfl⟩, ⟨_, rfl⟩, ⟨_, rfl⟩, ⟨_, rfl⟩, nofun⟩
  own := by
    simp only [Response.members, List.forall_mem_cons]
    exact ⟨⟨_, rfl, .text rfl⟩, ⟨_, rfl, .counter rfl⟩, ⟨_, rfl, .text rfl⟩, nofun⟩
  others := by
    simp only [foreignResponseMembers, List.forall_mem_cons]
    refine ⟨fun _ => ⟨?_, ?_⟩, fun h => ?_, fun h => ?_, fun h => ?_, nofun⟩
    · refine .array ?_
      simp only [List.forall_mem_cons]
      exact ⟨.object (by simp; decide) (by simp; exact .null), .number _, nofun⟩
    · show Value.Fits 126 _
      refine .array ?_
      simp only [List.forall_mem_cons]
      exact ⟨.object (by simp; exact .null), .number (by decide +kernel), nofun⟩
    · exact absurd rfl (h _ (.tail _ (.tail _ (.head _))))
    · exact absurd rfl (h _ (.tail _ (.head _)))
    · exact absurd rfl (h _ (.head _))

theorem frames_decode_however_written_foreign :
    Request.ofFrame foreignRequest = .ok ⟨.text "u", "c", .roboname, "x"⟩ ∧
      Response.ofFrame foreignResponse = .ok (.resolved (.counter 7) "hi") :=
  ⟨frames_decode_however_written.1 _ _ _ (Value.isText_iff.mpr (by decide +kernel))
      holds_foreignRequestMembers,
    frames_decode_however_written.2 _ _ _ (Value.isText_iff.mpr (by decide +kernel))
      holds_foreignResponseMembers⟩

/-! ## Surrogates without a partner -/

/-- A response with a further member whose string holds a lone surrogate. -/
def loneInValue : String :=
  "\x7b\"id\":1,\"status\":\"resolved\",\"detail\":\"x\",\"extra\":\"\\ud800\"\x7d"

/-- A request with a further member whose name holds a lone surrogate. -/
def loneInName : String :=
  "\x7b\"id\":1,\"category\":\"c\",\"type\":\"roboname\",\"detail\":\"x\",\"\\ud800\":null\x7d"

/-- The members of that response, the last of them with the lone surrogate as its value. -/
def loneInValueMembers : List Member :=
  [(plain "id", .number ⟨false, [1], [], none⟩), (plain "status", .text (plain "resolved")),
    (plain "detail", .text (plain "x")), (plain "extra", .text [.unit 0xD800])]

/-- The members of a plain request. -/
def bareMembers : List Member :=
  [(plain "id", .number ⟨false, [1], [], none⟩), (plain "category", .text (plain "c")),
    (plain "type", .text (plain "roboname")), (plain "detail", .text (plain "x"))]

/-- **A lone surrogate spoils a frame**, also where nobody asks for it: in any string of a response,
and in any name.  It is written as the grammar has it, but no text holds it. -/
theorem lone_surrogates_are_refused :
    ((Value.object loneInValueMembers).IsText loneInValue ∧
      Holds (Response.resolved (.counter 1) "x").members (fun v => v.Fits Response.memberRoom)
        loneInValueMembers ∧
      Response.ofFrame loneInValue = .error .malformed) ∧
    (Value.object (bareMembers ++ [([.unit 0xD800], .null)])).IsText loneInName ∧
      Holds (Request.mk (.counter 1) "c" .roboname "x").members (fun _ => True) bareMembers ∧
      Request.ofFrame loneInName = .error .malformed := by
  -- That reading fails, and with which error, is evaluated.
  have hresponse : (match Response.ofFrame loneInValue with
      | .error why => decide (why = .malformed)
      | .ok _ => false) = true := by
    decide +kernel
  have hrequest : (match Request.ofFrame loneInName with
      | .error why => decide (why = .malformed)
      | .ok _ => false) = true := by
    decide +kernel
  refine ⟨⟨Value.isText_iff.mpr (by decide +kernel), ⟨?_, ?_, ?_⟩, ?_⟩,
    Value.isText_iff.mpr (by decide +kernel), ⟨?_, ?_, fun _ _ _ => trivial⟩, ?_⟩
  -- The response holds its members in every respect but the pairing of surrogates.
  · simp only [loneInValueMembers, List.forall_mem_cons]
    exact ⟨⟨_, rfl⟩, ⟨_, rfl⟩, ⟨_, rfl⟩, ⟨_, rfl⟩, nofun⟩
  · simp only [Response.members, List.forall_mem_cons]
    exact ⟨⟨_, rfl, .text rfl⟩, ⟨_, rfl, .counter rfl⟩, ⟨_, rfl, .text rfl⟩, nofun⟩
  · simp only [loneInValueMembers, List.forall_mem_cons]
    exact ⟨fun _ => .number (by decide), fun _ => .text _, fun _ => .text _, fun _ => .text _,
      nofun⟩
  · split at hresponse
    · rename_i hframe
      rw [hframe, of_decide_eq_true hresponse]
    · cases hresponse
  -- The request holds its members without the one that has no name.
  · simp only [bareMembers, List.forall_mem_cons]
    exact ⟨⟨_, rfl⟩, ⟨_, rfl⟩, ⟨_, rfl⟩, ⟨_, rfl⟩, nofun⟩
  · simp only [Request.members, List.forall_mem_cons]
    exact ⟨⟨_, rfl, .counter rfl⟩, ⟨_, rfl, .text rfl⟩, ⟨_, rfl, .text rfl⟩, ⟨_, rfl, .text rfl⟩,
      nofun⟩
  · split at hrequest
    · rename_i hframe
      rw [hframe, of_decide_eq_true hrequest]
    · cases hrequest

end AvatarPool
