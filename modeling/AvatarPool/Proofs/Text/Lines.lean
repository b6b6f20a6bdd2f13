import AvatarPool.Host.Lines
import AvatarPool.Proofs.Text.Utf8

/-! # The lines of a text

`Text.lines` cuts a text into lines, and a reader of its bytes finds just these lines, however the
bytes come in pieces: a line feed is one byte, and no other character holds that byte.

There are two cutters: `Text.linesFrom` works on characters and says what lines are, and `allFrom`
works on bytes and never decodes anything.  That they agree is `allFrom_encode`, which rests on the
shape of UTF-8 alone: the bytes 10 and 13 stand for themselves and for nothing else.

A reader sees the bytes only as they come.  So what it finds is stated about the bytes at hand
together with those that have not come yet, and `complete` says whether there are none; `meets_next`
does this for any bytes and `finds_next` for those of a text, and reading on is an induction over
these. -/

namespace AvatarPool

namespace Text

/-- A line in reverse, put forwards and without a carriage return at its end.  Only one carriage
return is dropped, the one right before the line feed. -/
def unreturned : List Char → List Char
  | '\r' :: before => before.reverse
  | line => line.reverse

/-- The lines of a text after `line`, the line so far in reverse.  At the end of the text an empty
line is no line, so a text that ends with a line feed has no further one. -/
def linesFrom (line : List Char) : List Char → List String
  | [] => if line.isEmpty then [] else [String.ofList line.reverse]
  | c :: rest =>
    if c = '\n' then String.ofList (unreturned line) :: linesFrom [] rest
    else linesFrom (c :: line) rest

/-- **The lines of a text**: each ends at a line feed, before which one carriage return is dropped,
and the last one may lack its line feed. -/
def lines (text : String) : List String := linesFrom [] text.toList

example : lines "a\r\n\nb" = ["a", "", "b"] := by decide

end Text

namespace Lines

/-- The lines of a byte stream after `done`, the line so far in reverse.  The same on bytes, where
the last line keeps its carriage return. -/
def allFrom (done : List UInt8) : List UInt8 → List (List UInt8)
  | [] => if done.isEmpty then [] else [done.reverse]
  | b :: rest =>
    if b = feed then dropReturn done.reverse :: allFrom [] rest else allFrom (b :: done) rest

variable {done bytes line rest more : List UInt8} {cs : List Char} {complete : Bool}

/-! ## Bytes and characters -/

/-- The byte of an ASCII character stands in no other one. -/
theorem notMem_utf8EncodeChar {c d : Char} (hd : d.toNat < 128) (hne : c ≠ d) :
    UInt8.ofNat d.toNat ∉ String.utf8EncodeChar c := by
  intro hmem
  have hnat : (UInt8.ofNat d.toNat).toNat = d.toNat := by
    rw [UInt8.toNat_ofNat']
    omega
  obtain ⟨-, heq⟩ := Text.utf8EncodeChar_of_mem hmem (by omega)
  exact hne (Char.toNat_inj.mp (heq.trans hnat))

/-- Bytes without a line feed only make the line longer. -/
theorem allFrom_append (h : feed ∉ bytes) (more : List UInt8) :
    allFrom done (bytes ++ more) = allFrom (bytes.reverse ++ done) more := by
  induction bytes generalizing done with
  | nil => rfl
  | cons b rest ih =>
      have hb : b ≠ feed := fun heq => h (heq ▸ List.mem_cons_self)
      rw [List.cons_append, allFrom, if_neg hb, ih fun hmem => h (List.mem_cons_of_mem _ hmem),
        List.reverse_cons, List.append_assoc, List.singleton_append]

/-- A line that ends in something else is left as it is. -/
theorem dropReturn_of_last {b : UInt8} (hb : b ≠ 13) (line : List UInt8) :
    dropReturn (line ++ [b]) = line ++ [b] := by
  unfold dropReturn
  split
  · rename_i heq
    rw [List.reverse_append, List.reverse_singleton, List.singleton_append] at heq
    exact absurd (List.head_eq_of_cons_eq heq) hb
  · rfl

/-- A line without any carriage return is left as it is. -/
theorem dropReturn_of_notMem {bytes : List UInt8} (h : 13 ∉ bytes) : dropReturn bytes = bytes := by
  unfold dropReturn
  split
  · rename_i heq
    exact absurd (List.mem_reverse.mp (heq ▸ List.mem_cons_self)) h
  · rfl

/-- A carriage return is one byte, and no other character ends with that byte. -/
theorem dropReturn_encode (line : List Char) :
    dropReturn (Text.encode line.reverse) = Text.encode (Text.unreturned line) := by
  cases line with
  | nil => rfl
  | cons c before =>
      rw [List.reverse_cons, Text.encode_append]
      by_cases hc : c = '\r'
      · subst hc
        have hreturn : Text.encode ['\r'] = [13] := by decide
        rw [hreturn, dropReturn, List.reverse_append, List.reverse_singleton,
          List.singleton_append]
        exact List.reverse_reverse _
      · have hkept : Text.unreturned (c :: before) = (c :: before).reverse := by
          unfold Text.unreturned
          split
          · rename_i heq
            exact absurd (List.head_eq_of_cons_eq heq) hc
          · rfl
        -- The last byte of a character that is no carriage return is not 13 either.
        obtain ⟨bs, b, hbs⟩ : ∃ bs b, Text.encode [c] = bs ++ [b] := by
          refine ⟨_, _, (List.dropLast_concat_getLast (?_ : Text.encode [c] ≠ [])).symm⟩
          rw [Text.encode_cons, Text.encode_nil, List.append_nil]
          exact String.utf8EncodeChar_ne_nil
        have hb : b ≠ 13 := by
          rintro rfl
          refine notMem_utf8EncodeChar (d := '\r') (by decide) hc ?_
          have hmem : (13 : UInt8) ∈ Text.encode [c] := by simp [hbs]
          rwa [Text.encode_cons, Text.encode_nil, List.append_nil] at hmem
        rw [hkept, List.reverse_cons, Text.encode_append, hbs, ← List.append_assoc,
          dropReturn_of_last hb]

theorem encode_eq_nil {cs : List Char} : Text.encode cs = [] ↔ cs = [] := by
  cases cs with
  | nil => simp
  | cons c cs => simp [String.utf8EncodeChar_ne_nil]

/-- The bytes of a text are cut where its characters are. -/
theorem allFrom_encode (line cs : List Char) :
    allFrom (Text.encode line.reverse).reverse (Text.encode cs) =
      (Text.linesFrom line cs).map Text.utf8 := by
  -- By induction on the characters, with the line so far; its bytes are those that `allFrom` has
  -- collected.
  induction cs generalizing line with
  | nil =>
      cases line with
      | nil => rfl
      | cons c line =>
          have hne : (Text.encode (c :: line).reverse).reverse ≠ [] := by simp [encode_eq_nil]
          rw [Text.encode_nil, allFrom, Text.linesFrom, if_neg (by simpa using hne),
            List.isEmpty_cons, if_neg Bool.false_ne_true, List.reverse_reverse, List.map_singleton,
            Text.utf8_ofList]
  | cons c cs ih =>
      rw [Text.linesFrom]
      split
      · rename_i hc
        subst hc
        have hfeed : Text.encode ('\n' :: cs) = feed :: Text.encode cs := rfl
        rw [hfeed, allFrom, if_pos rfl, List.reverse_reverse, dropReturn_encode, List.map_cons,
          Text.utf8_ofList]
        exact congrArg _ (ih [])
      · rename_i hc
        rw [Text.encode_cons, allFrom_append (notMem_utf8EncodeChar (d := '\n') (by decide) hc),
          ← ih, ← List.reverse_append, List.reverse_cons, Text.encode_append, Text.encode_cons,
          Text.encode_nil, List.append_nil]

/-- **The lines of the bytes of a text are the lines of the text.** -/
theorem allFrom_utf8 (text : String) :
    allFrom [] (Text.utf8 text) = (Text.lines text).map Text.utf8 := allFrom_encode [] text.toList

/-! ## A reader -/

/-- A line that has been found in the bytes at hand is the first one of the stream, whatever comes
later. -/
theorem allFrom_of_scan (h : scan done bytes = (line, some rest)) (more : List UInt8) :
    allFrom done (bytes ++ more) = dropReturn line :: allFrom [] (rest ++ more) := by
  induction bytes generalizing done with
  | nil => cases h
  | cons b bs ih =>
      rw [List.cons_append, allFrom]
      rw [scan] at h
      split at h
      · rename_i hb
        cases h
        rw [if_pos hb]
      · rename_i hb
        rw [if_neg hb]
        exact ih h

/-- If no line feed has been found then the bytes at hand are the beginning of one line, or nothing
at all. -/
theorem allFrom_of_scan_none (h : scan done bytes = (line, none)) :
    allFrom done bytes = if line.isEmpty then [] else [line] := by
  induction bytes generalizing done with
  | nil =>
      cases h
      simp [allFrom]
  | cons b bs ih =>
      rw [allFrom]
      rw [scan] at h
      split at h
      · cases h
      · rename_i hb
        rw [if_neg hb]
        exact ih h

/-- What a reader can find of a byte stream, some bytes of which have not come yet. -/
inductive Meets (complete : Bool) (bytes unread : List UInt8) : Next → Prop
  | line {text : String} {rest : List UInt8}
      (h : allFrom [] (bytes ++ unread) = Text.utf8 text :: allFrom [] (rest ++ unread)) :
      Meets complete bytes unread (.line text rest)
  | invalid {bad : List UInt8} {rest : List (List UInt8)}
      (h : allFrom [] (bytes ++ unread) = bad :: rest) (hbad : Text.ofUtf8? bad = none) :
      Meets complete bytes unread .invalid
  | partialLine (hopen : ¬ complete) : Meets complete bytes unread .partialLine
  | ended (hcomplete : complete) (h : allFrom [] (bytes ++ unread) = []) :
      Meets complete bytes unread .ended

/-- **A reader finds the next line of the stream**, whether it is a text or not, or waits for more, or
has read all. -/
theorem meets_next (bytes : List UInt8) {unread : List UInt8} (hc : complete → unread = []) :
    Meets complete bytes unread (next complete bytes) := by
  -- A line that has been cut is either a text or not one; what follows it does not matter.
  have hline : ∀ {line rest : List UInt8},
      allFrom [] (bytes ++ unread) = line :: allFrom [] (rest ++ unread) →
        Meets complete bytes unread (ofBytes line rest) := by
    intro line rest hls
    unfold ofBytes
    split
    · rename_i text htext
      exact .line (by rw [Text.utf8_of_ofUtf8? htext, hls])
    · rename_i hbad
      exact .invalid hls hbad
  unfold next
  split
  · rename_i line rest hs
    exact hline (allFrom_of_scan hs unread)
  · rename_i line hs
    split
    · rename_i hopen
      exact .partialLine (by simpa using hopen)
    -- The stream is complete, so the bytes at hand are all that there is.
    · rename_i hcomplete
      have hcomplete : complete = true := by simpa using hcomplete
      obtain rfl := hc hcomplete
      have hall := allFrom_of_scan_none hs
      split
      · rename_i hempty
        rw [if_pos hempty] at hall
        exact .ended hcomplete (by rw [List.append_nil, hall])
      · rename_i hempty
        rw [if_neg hempty] at hall
        exact hline (by rw [List.append_nil, hall]; rfl)

/-- What a reader can find of a text whose lines `ls` are still ahead, some of them in bytes that
have not come yet. -/
inductive Finds (complete : Bool) (unread : List UInt8) (ls : List String) : Next → Prop
  | line {text : String} {rest : List UInt8} {ls' : List String} (heq : ls = text :: ls')
      (hrest : allFrom [] (rest ++ unread) = ls'.map Text.utf8) :
      Finds complete unread ls (.line text rest)
  | partialLine (hopen : ¬ complete) : Finds complete unread ls .partialLine
  | ended (hcomplete : complete) (heq : ls = []) : Finds complete unread ls .ended

/-- **A reader finds the next line of the text**, or waits for more of it, or has read it all. -/
theorem finds_next {unread : List UInt8} {ls : List String}
    (h : allFrom [] (bytes ++ unread) = ls.map Text.utf8) (hc : complete → unread = []) :
    Finds complete unread ls (next complete bytes) := by
  have hmeets := meets_next bytes hc
  generalize next complete bytes = found at hmeets
  cases hmeets with
  | line hls =>
      obtain ⟨text, ls', rfl, htext, hrest⟩ := List.map_eq_cons_iff.mp (h.symm.trans hls)
      obtain rfl := Text.utf8_injective htext
      exact .line rfl hrest.symm
  | invalid hls hbad =>
      -- Every line of a text is valid.
      obtain ⟨text, ls', rfl, rfl, -⟩ := List.map_eq_cons_iff.mp (h.symm.trans hls)
      rw [Text.ofUtf8?_utf8] at hbad
      cases hbad
  | partialLine hopen => exact .partialLine hopen
  | ended hcomplete hls => exact .ended hcomplete (List.map_eq_nil_iff.mp (h.symm.trans hls))

/-! ## Reading on -/

/-- The lines that the bytes at hand hold, and the bytes kept of a line that is not complete yet;
nothing is kept where a line is not valid UTF-8.  It is defined along `next`, which the host calls
as well, so that the host is seen to read just these lines. -/
def drain (complete : Bool) (bytes : List UInt8) : List String × Option (List UInt8) :=
  match _h : next complete bytes with
  | .line text rest => (text :: (drain complete rest).1, (drain complete rest).2)
  | .invalid => ([], none)
  | .partialLine => ([], some bytes)
  | .ended => ([], some [])
termination_by bytes.length
decreasing_by all_goals exact next_length _h

/-- One line at a time.  The recursion is on the number of bytes left; this equation hides that. -/
theorem drain_eq (complete : Bool) (bytes : List UInt8) :
    drain complete bytes =
      match next complete bytes with
      | .line text rest => (text :: (drain complete rest).1, (drain complete rest).2)
      | .invalid => ([], none)
      | .partialLine => ([], some bytes)
      | .ended => ([], some []) := by
  rw [drain]
  split <;> rename_i hnext <;> rw [hnext]

/-- **The lines of a stream** that comes in pieces and then ends, unless one of them is not valid
UTF-8.  Used to say that any way of cutting the input in pieces leads to the same lines. -/
def readAll (kept : List UInt8) : List (List UInt8) → Option (List String)
  | [] =>
    match drain true kept with
    | (found, some _) => some found
    | (_, none) => none
  | piece :: pieces =>
    match drain false (kept ++ piece) with
    | (found, some kept) => (readAll kept pieces).map (found ++ ·)
    | (_, none) => none

/-- Reading on finds lines of the text, and keeps what belongs to the lines ahead: nothing at the
end of the stream.  The lines found and those ahead are the lines of the text. -/
theorem drain_text (complete : Bool) {unread : List UInt8} {ls : List String}
    (h : allFrom [] (bytes ++ unread) = ls.map Text.utf8) (hc : complete → unread = []) :
    ∃ found ahead kept, drain complete bytes = (found, some kept) ∧ ls = found ++ ahead ∧
      allFrom [] (kept ++ unread) = ahead.map Text.utf8 ∧ (complete → ahead = [] ∧ kept = []) := by
  have hfinds := finds_next h hc
  -- Each step of the recursion finds one line more, and the text without it is ahead.
  fun_induction drain complete bytes generalizing ls with
  | case1 bytes text rest hnext ih =>
      rw [hnext] at hfinds
      cases hfinds with
      | line heq hrest =>
          obtain ⟨found, ahead, kept, hdrain, rfl, hkept, hdone⟩ := ih hrest (finds_next hrest hc)
          exact ⟨text :: found, ahead, kept, by rw [hdrain], heq, hkept, hdone⟩
  | case2 bytes hnext =>
      rw [hnext] at hfinds
      cases hfinds
  | case3 bytes hnext =>
      rw [hnext] at hfinds
      cases hfinds with
      | partialLine hopen => exact ⟨[], ls, bytes, rfl, rfl, h, fun hcomplete => absurd hcomplete hopen⟩
  | case4 bytes hnext =>
      rw [hnext] at hfinds
      cases hfinds with
      | ended hcomplete heq =>
          obtain rfl := hc hcomplete
          exact ⟨[], ls, [], rfl, rfl, by rw [heq]; rfl, fun _ => ⟨heq, rfl⟩⟩

/-- **A stream is read line by line**, in whatever pieces it comes. -/
theorem readAll_text {kept : List UInt8} {pieces : List (List UInt8)} {ls : List String}
    (h : allFrom [] (kept ++ pieces.flatten) = ls.map Text.utf8) : readAll kept pieces = some ls := by
  -- What is kept at the end of a piece goes in front of the next one.
  induction pieces generalizing kept ls with
  | nil =>
      obtain ⟨found, ahead, rest, hdrain, rfl, -, hdone⟩ := drain_text true h fun _ => rfl
      rw [readAll, hdrain, (hdone rfl).1, List.append_nil]
  | cons piece pieces ih =>
      rw [List.flatten_cons, ← List.append_assoc] at h
      obtain ⟨found, ahead, rest, hdrain, rfl, hrest, -⟩ := drain_text false h nofun
      rw [readAll, hdrain]
      exact congrArg (Option.map (found ++ ·)) (ih hrest)

end Lines

end AvatarPool
