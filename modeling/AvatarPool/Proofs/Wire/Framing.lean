import AvatarPool.Host.Writer
import AvatarPool.Proofs.Text.Lines
import AvatarPool.Proofs.Wire.RoundTrip
import AvatarPool.Session.Hosts

/-! # One frame a line

A frame holds no control character, so a line feed can only be the end of one: no text that a frame
carries makes a line of its own.  What a writer puts out is therefore read back frame by frame, and
what a lines host reads are just the requests that were sent to it.

Three things come together.  Frames are shown, so that their UTF-8 has no byte of a line feed or a
carriage return, and a reader of lines finds each of them as it was.  The writer puts out whole
frames with their line feeds until its output fails, and at that point at most one frame lacks its
line feed.  The lines host, at the end of its input, gives each line to a handler unless it is
blank, and no frame is. -/

namespace AvatarPool

/-! ## Lines of frames -/

namespace Lines

variable {line : String} {rest : List UInt8}

/-- No byte of a control character stands in a text without one.  In UTF-8 the bytes below 0x80
stand for themselves only, so a control character's byte cannot come from another character. -/
theorem notMem_utf8_of_isShown (h : Json.IsShown line) {c : Char} (hc : c.toNat < 0x20) :
    UInt8.ofNat c.toNat ∉ Text.utf8 line := by
  intro hmem
  obtain ⟨d, hd, hbyte⟩ := List.mem_flatMap.mp hmem
  refine notMem_utf8EncodeChar (c := d) (d := c) (by omega) (fun heq => ?_) hbyte
  exact absurd (h d hd) (heq ▸ Nat.not_le.mpr hc)

/-- A text without control characters is a line as it stands.  Neither the feed that ends a line nor
the carriage return that would be dropped before it stands in such a text. -/
theorem allFrom_isShown (h : Json.IsShown line) (rest : List UInt8) :
    allFrom [] (Text.utf8 line ++ feed :: rest) = Text.utf8 line :: allFrom [] rest := by
  have hfeed : feed ∉ Text.utf8 line := notMem_utf8_of_isShown (c := '\n') h (by decide)
  have hreturn : 13 ∉ Text.utf8 line := notMem_utf8_of_isShown (c := '\r') h (by decide)
  rw [allFrom_append hfeed, List.append_nil, allFrom, if_pos rfl, List.reverse_reverse,
    dropReturn_of_notMem hreturn]

/-- The last line may lack its line feed.  It must not be empty, since nothing behind the last line
feed is no line. -/
theorem allFrom_isShown_last (h : Json.IsShown line) (hne : line ≠ "") :
    allFrom [] (Text.utf8 line) = [Text.utf8 line] := by
  have hfeed : feed ∉ Text.utf8 line := notMem_utf8_of_isShown (c := '\n') h (by decide)
  have hbytes : Text.utf8 line ≠ [] := fun hnil =>
    hne (String.toList_eq_nil_iff.mp (encode_eq_nil.mp hnil))
  have hall : allFrom [] (Text.utf8 line ++ []) = allFrom ((Text.utf8 line).reverse ++ []) [] :=
    allFrom_append hfeed []
  rw [List.append_nil, List.append_nil, allFrom, if_neg (by simpa using hbytes),
    List.reverse_reverse] at hall
  exact hall

/-- **Lines put together are taken apart again**, whether the last one has its line feed or not.  By
induction on the frames.  With the last line feed left out, the last frame is a case of its own. -/
theorem allFrom_joined {frames : List String} (h : ∀ f ∈ frames, Json.IsShown f ∧ f ≠ "") :
    allFrom [] (Text.utf8 (String.intercalate "\n" frames)) = frames.map Text.utf8 ∧
      allFrom [] (Text.utf8 (String.join (frames.map (· ++ "\n")))) = frames.map Text.utf8 := by
  -- A line feed between two texts is one byte between theirs.
  have hfeed : ∀ s t : String, Text.utf8 (s ++ "\n" ++ t) = Text.utf8 s ++ feed :: Text.utf8 t := by
    intro s t
    simp [Text.utf8, String.toList_append, feed]
    rfl
  induction frames with
  | nil => exact ⟨rfl, rfl⟩
  | cons f frames ih =>
      obtain ⟨⟨hshown, hne⟩, hrest⟩ := List.forall_mem_cons.mp h
      obtain ⟨hopen, hclosed⟩ := ih hrest
      constructor
      · cases frames with
        | nil => rw [String.intercalate_singleton, allFrom_isShown_last hshown hne]; rfl
        | cons g frames =>
            rw [String.intercalate_cons_cons, hfeed, allFrom_isShown hshown, hopen]
            rfl
      · rw [List.map_cons, String.join_cons, hfeed, allFrom_isShown hshown, hclosed, List.map_cons]

end Lines

/-! ## The writer -/

namespace Writer

variable {w w' : Writer} {n : Nat}

/-- A write that succeeds counts the bytes, and leaves the limit as it is. -/
theorem of_write_eq_some (h : w.write n = some w') :
    w'.limit = w.limit ∧ w'.written = w.written + n := by
  unfold write at h
  split at h
  · obtain ⟨-, rfl⟩ := Option.ite_some_none_eq_some.mp h
    exact ⟨rfl, rfl⟩
  · cases h
    exact ⟨rfl, rfl⟩

theorem write_ne_none (h : w.limit = none) (n : Nat) : w.write n ≠ none := by
  unfold write
  rw [h]
  exact nofun

/-- The bytes that frames put out: each frame and its line feed, as far as the output accepts them.
A frame and its line feed are two writes, between which the output may fail; then the frame is out
without its line feed. -/
def bytesFrom (w : Writer) : List String → List UInt8
  | [] => []
  | frame :: rest =>
    match w.write (Text.utf8 frame).length with
    | none => []
    | some w =>
      match w.write 1 with
      | none => Text.utf8 frame
      | some w => Text.utf8 frame ++ Lines.feed :: w.bytesFrom rest

/-- As many bytes are put out as are counted.  By induction on the frames, along the same two
writes. -/
theorem written_writeFrom (w : Writer) (done frames : List String) :
    (w.writeFrom done frames).1.written = w.written + (w.bytesFrom frames).length := by
  induction frames generalizing w done with
  | nil => rfl
  | cons f frames ih =>
      rw [writeFrom, bytesFrom]
      cases hw : w.write (Text.utf8 f).length with
      | none => rfl
      | some w₁ =>
          have hfirst := (of_write_eq_some hw).2
          dsimp only
          cases hw₁ : w₁.write 1 with
          | none => exact hfirst
          | some w₂ =>
              have hsecond := (of_write_eq_some hw₁).2
              dsimp only
              rw [ih, List.length_append, List.length_cons]
              omega

/-- **The lines of what a writer puts out** are the frames that it writes: those handed to it first,
and all of them unless the output fails.  The frames that were done before are given along, since
the writer keeps them in reverse.  What is put out is read as lines by the lemmas above; a frame
that lacks its line feed is the last one, and is read as a line all the same. -/
theorem lines_bytesFrom (w : Writer) (done : List String) {frames : List String}
    (h : ∀ f ∈ frames, Json.IsShown f ∧ f ≠ "") :
    ∃ sent, sent <+: frames ∧ (w.writeFrom done frames).2 = done.reverse ++ sent ∧
      Lines.allFrom [] (w.bytesFrom frames) = sent.map Text.utf8 ∧
      (w.limit = none → sent = frames) := by
  induction frames generalizing w done with
  | nil => exact ⟨[], List.prefix_rfl, (List.append_nil _).symm, rfl, fun _ => rfl⟩
  | cons f frames ih =>
      obtain ⟨⟨hshown, hne⟩, hrest⟩ := List.forall_mem_cons.mp h
      rw [writeFrom, bytesFrom]
      cases hw : w.write (Text.utf8 f).length with
      -- The frame itself does not go out any more.
      | none =>
          exact ⟨[], List.nil_prefix, (List.append_nil _).symm, rfl,
            fun hlimit => absurd hw (write_ne_none hlimit _)⟩
      | some w₁ =>
          have hlimit₁ := (of_write_eq_some hw).1
          dsimp only
          cases hw₁ : w₁.write 1 with
          -- It goes out without its line feed, which no reader minds.
          | none =>
              exact ⟨[f], ⟨frames, rfl⟩, List.reverse_cons, Lines.allFrom_isShown_last hshown hne,
                fun hlimit => absurd hw₁ (write_ne_none (hlimit₁.trans hlimit) _)⟩
          -- It goes out as a whole, and the induction hypothesis tells of those after it.
          | some w₂ =>
              have hlimit₂ := (of_write_eq_some hw₁).1.trans hlimit₁
              obtain ⟨sent, hsent, hwritten, hlines, hall⟩ := ih w₂ (f :: done) hrest
              refine ⟨f :: sent, List.cons_prefix_cons.mpr ⟨rfl, hsent⟩, ?_, ?_, fun hlimit => ?_⟩
              · rw [hwritten, List.reverse_cons, List.append_assoc]
                rfl
              · rw [Lines.allFrom_isShown hshown, hlines]
                rfl
              · rw [hall (hlimit₂.trans hlimit)]

end Writer

/-! ## The lines host -/

namespace Session

/-- **What a lines host makes of its input**: each line that is not blank goes to a handler of its
own, in order; then it waits for more bytes, or for its answers if the input has ended, or it ends
itself at a line that cannot be read.  The host takes one line after the other; by `Lines.drain`
these are all the lines that its bytes hold. -/
theorem readLines_eq_drain (s : Session) (i : Nat) (l : LinesHost) (bytes : List UInt8) :
    s.readLines i l bytes =
      let heard := ((Lines.drain l.atEnd bytes).1.filter fun line => !Text.isBlank line).foldl
        (fun s line => s.addHandler (.lines i) line) s
      match (Lines.drain l.atEnd bytes).2 with
      | none => heard.endLines i l.call (some (.fault .invalidData))
      | some kept =>
        let noted := heard.modifyLines i fun l => { l with input := kept }
        if l.atEnd then noted.answerLines i else noted := by
  fun_induction Session.readLines s i l bytes with
  -- No further line, and the input is still open.
  | case1 s bytes hnext =>
      have hmeets : Lines.Meets l.atEnd bytes [] (Lines.next l.atEnd bytes) :=
        Lines.meets_next bytes fun _ => rfl
      rw [hnext] at hmeets
      cases hmeets with
      | partialLine hopen =>
          rw [Lines.drain_eq, hnext]
          exact (if_neg hopen).symm
  -- No further line, and the input is at its end.
  | case2 s bytes hnext =>
      have hmeets : Lines.Meets l.atEnd bytes [] (Lines.next l.atEnd bytes) :=
        Lines.meets_next bytes fun _ => rfl
      rw [hnext] at hmeets
      cases hmeets with
      | ended hcomplete =>
          rw [Lines.drain_eq, hnext]
          exact (if_pos hcomplete).symm
  -- A line that is not UTF-8: the host ends with it, and what it heard before stays.
  | case3 s bytes hnext =>
      rw [Lines.drain_eq, hnext]
      rfl
  -- A blank line is passed over.
  | case4 s bytes text rest hnext hblank ih =>
      rw [ih, Lines.drain_eq _ bytes, hnext]
      simp [hblank]
  -- Any other line has a handler of its own.
  | case5 s bytes text rest hnext hblank ih =>
      rw [ih, Lines.drain_eq _ bytes, hnext]
      simp [hblank]

/-- At the end of a text each of its lines has a handler, unless one of them is blank.  With the
input at its end nothing is kept back: the last line counts also without a line feed. -/
theorem readLines_text {l : LinesHost} {bytes : List UInt8} {lines : List String}
    (hbytes : Lines.allFrom [] bytes = lines.map Text.utf8) (hend : l.atEnd)
    (hlines : ∀ line ∈ lines, ¬ Text.isBlank line) (s : Session) (i : Nat) :
    s.readLines i l bytes = ((lines.foldl (fun s line => s.addHandler (.lines i) line) s).modifyLines
      i fun l => { l with input := [] }).answerLines i := by
  have hnone : Lines.allFrom [] (bytes ++ []) = lines.map Text.utf8 := by
    rw [List.append_nil]
    exact hbytes
  obtain ⟨found, ahead, kept, hdrain, rfl, -, hdone⟩ :=
    Lines.drain_text l.atEnd hnone fun _ => rfl
  obtain ⟨rfl, rfl⟩ := hdone hend
  have hall : (found.filter fun line => !Text.isBlank line) = found := by
    refine List.filter_eq_self.mpr fun line hline => ?_
    simpa using hlines line (List.mem_append_left _ hline)
  rw [readLines_eq_drain, hdrain, List.append_nil]
  dsimp only
  rw [hall, if_pos hend]

end Session

/-! ## The format on the wire -/

/-- A blank line is read as no request, so no frame is one. -/
theorem Request.not_isBlank_frame (r : Request) : ¬ Text.isBlank r.frame := by
  intro hblank
  obtain ⟨why, herror⟩ := ofFrame_of_isBlank hblank
  rw [ofFrame_frame] at herror
  cases herror

theorem Request.frame_ne_empty (r : Request) : r.frame ≠ "" := Json.object_ne_empty _

theorem Response.frame_ne_empty (r : Response) : r.frame ≠ "" := by
  cases r <;> exact Json.object_ne_empty _

/-- **Framing is unambiguous.**  The bytes that a writer puts out for some responses are read, in
whatever pieces they come, as the frames of the responses that it has written, which are all of them
unless the output fails, and each frame as its response.  The frames of some requests, joined by
line feeds with or without a last one, are read as just these lines: none of them is blank, each is
read as its request, and a lines host gives each of them to a handler of its own.  It does not
matter what the ids and the texts hold.  The two halves are not the same: a writer may fail, and so
its frames are a part of what it was given, where a text of requests is there as a whole. -/
theorem framing_unambiguous :
    (∀ (w : Writer) (rs : List Response) (pieces : List (List UInt8)),
      pieces.flatten = w.bytesFrom (rs.map Response.frame) →
        ∃ sent, sent <+: rs ∧ (w.limit = none → sent = rs) ∧
          (w.writeFrom [] (rs.map Response.frame)).2 = sent.map Response.frame ∧
          (w.writeFrom [] (rs.map Response.frame)).1.written = w.written + pieces.flatten.length ∧
          Lines.readAll [] pieces = some (sent.map Response.frame) ∧
          (sent.map Response.frame).map Response.ofFrame = sent.map .ok) ∧
    ∀ (rs : List Request) (text : String),
      text = String.intercalate "\n" (rs.map Request.frame) ∨
          text = String.join ((rs.map Request.frame).map (· ++ "\n")) →
        (∀ pieces, pieces.flatten = Text.utf8 text →
          Lines.readAll [] pieces = some (rs.map Request.frame)) ∧
        ((rs.map Request.frame).filter fun line => !Text.isBlank line) = rs.map Request.frame ∧
        (rs.map Request.frame).map Request.ofFrame = rs.map .ok ∧
        ∀ (s : Session) (i : Nat) (l : Session.LinesHost), l.atEnd →
          s.readLines i l (Text.utf8 text) =
            (((rs.map Request.frame).foldl (fun s line => s.addHandler (.lines i) line) s).modifyLines
              i fun l => { l with input := [] }).answerLines i := by
  constructor
  -- Responses: the frames that went out are those of the first responses, as a prefix of a mapped
  -- list is the mapped prefix.
  · intro w rs pieces hpieces
    have hshown : ∀ f ∈ rs.map Response.frame, Json.IsShown f ∧ f ≠ "" :=
      List.forall_mem_map.mpr fun r _ => ⟨r.isShown_frame, r.frame_ne_empty⟩
    obtain ⟨frames, hprefix, hwritten, hlines, hall⟩ := w.lines_bytesFrom [] hshown
    rw [List.prefix_iff_eq_take, ← List.map_take] at hprefix
    obtain ⟨sent, hsent, rfl⟩ : ∃ sent, sent <+: rs ∧ frames = sent.map Response.frame :=
      ⟨_, List.take_prefix _ _, hprefix⟩
    refine ⟨sent, hsent, fun hlimit => ?_, hwritten, ?_, Lines.readAll_text (hpieces ▸ hlines), ?_⟩
    · exact hsent.eq_of_length (by simpa using congrArg List.length (hall hlimit))
    · rw [w.written_writeFrom, hpieces]
    · rw [List.map_map]
      exact List.map_congr_left fun r _ => r.ofFrame_frame
  -- Requests: either way of joining gives the same lines, and the rest does not depend on it.
  · intro rs text htext
    have hshown : ∀ f ∈ rs.map Request.frame, Json.IsShown f ∧ f ≠ "" :=
      List.forall_mem_map.mpr fun r _ => ⟨r.isShown_frame, r.frame_ne_empty⟩
    obtain ⟨hopen, hclosed⟩ := Lines.allFrom_joined hshown
    have hlines : Lines.allFrom [] (Text.utf8 text) = (rs.map Request.frame).map Text.utf8 := by
      rcases htext with rfl | rfl
      · exact hopen
      · exact hclosed
    have hblank : ∀ line ∈ rs.map Request.frame, ¬ Text.isBlank line :=
      List.forall_mem_map.mpr fun r _ => r.not_isBlank_frame
    refine ⟨fun pieces hpieces => Lines.readAll_text (hpieces ▸ hlines), ?_, ?_, ?_⟩
    · exact List.filter_eq_self.mpr fun line hline => by simpa using hblank line hline
    · rw [List.map_map]
      exact List.map_congr_left fun r _ => r.ofFrame_frame
    · exact fun s i l hend => Session.readLines_text hlines hend hblank s i

/-- Responses with line feeds, carriage returns and quotes in ids and texts.  The second does not
get out as a whole. -/
def brokenResponses : List Response :=
  [.resolved (.text "a\nb") "\r", .rejected (.counter 1) "\"no\"\r\n"]

/-- Requests with line feeds, carriage returns and quotes in ids and texts. -/
def brokenRequests : List Request :=
  [⟨.text "\r\n", "", .roboname, "\n"⟩, ⟨.counter 2, "\"", .robohash, "\r;1"⟩]

/-- The output fails after the first response, and its bytes come one by one; the requests come in
one piece.  The statement is used in both halves, with a frame that was cut off in between. -/
theorem framing_unambiguous_breaks :
    Lines.readAll [] ((({ limit := some 60 } : Writer).bytesFrom
        (brokenResponses.map Response.frame)).map fun b => [b]) =
      some [(Response.resolved (.text "a\nb") "\r").frame] ∧
    Lines.readAll [] [Text.utf8 (String.intercalate "\n" (brokenRequests.map Request.frame))] =
      some (brokenRequests.map Request.frame) := by
  have hwritten : (({ limit := some 60 } : Writer).writeFrom []
      (brokenResponses.map Response.frame)).2 = [(Response.resolved (.text "a\nb") "\r").frame] := by
    decide +kernel
  obtain ⟨hresponses, hrequests⟩ := framing_unambiguous
  obtain ⟨sent, -, -, hsent, -, hread, -⟩ :=
    hresponses { limit := some 60 } brokenResponses _ (List.flatMap_singleton' _)
  obtain ⟨hpieces, -⟩ := hrequests brokenRequests _ (.inl rfl)
  exact ⟨hsent.symm.trans hwritten ▸ hread, hpieces _ (List.append_nil _)⟩

end AvatarPool
