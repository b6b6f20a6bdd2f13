import AvatarPool.Text.Utf8

/-! # Text as bytes

Every text is read back from its bytes, and the bytes below 128 of a text are its ASCII characters:
no byte of any other character is one of them.

The library validates bytes as UTF-8 and has lemmas for `ByteArray`; the program reads lines as
lists of bytes.  The first part goes back and forth between the two, and the last lemma is the
reason why a line can be cut at a line feed before it is decoded: a byte that looks like one is one.
-/

namespace AvatarPool.Text

/-- The bytes of characters. -/
def encode (cs : List Char) : List UInt8 := cs.flatMap String.utf8EncodeChar

/-- Taking a text apart into characters and encoding each gives its bytes. -/
theorem utf8_ofList (cs : List Char) : utf8 (String.ofList cs) = encode cs := by
  rw [utf8, String.toList_ofList, encode]

@[simp] theorem encode_nil : encode [] = [] := rfl

@[simp] theorem encode_cons (c : Char) (cs : List Char) :
    encode (c :: cs) = String.utf8EncodeChar c ++ encode cs := rfl

/-- Bytes of texts put together are the bytes put together, so a frame can be read off the middle of
the input. -/
theorem encode_append (cs cs' : List Char) : encode (cs ++ cs') = encode cs ++ encode cs' :=
  List.flatMap_append

/-- The bytes of a text, put together. -/
theorem toByteArray_utf8 (text : String) : ByteArray.mk (utf8 text).toArray = text.toByteArray := by
  rw [← String.utf8Encode_toList]
  exact ByteArray.ext (List.data_toByteArray).symm

/-- **A text is read back from its bytes.** -/
theorem ofUtf8?_utf8 (text : String) : ofUtf8? (utf8 text) = some text := by
  rw [ofUtf8?, toByteArray_utf8, String.fromUTF8?, dif_pos text.isValidUTF8]
  rfl

/-- Different texts have different bytes. -/
theorem utf8_injective {text text' : String} (h : utf8 text = utf8 text') : text = text' := by
  have hread := ofUtf8?_utf8 text
  rw [h, ofUtf8?_utf8] at hread
  exact (Option.some.inj hread).symm

/-- The text of valid bytes has just these bytes.  The converse of `ofUtf8?_utf8`: nothing is
normalised when bytes are read. -/
theorem utf8_of_ofUtf8? {bytes : List UInt8} {text : String} (h : ofUtf8? bytes = some text) :
    utf8 text = bytes := by
  unfold ofUtf8? String.fromUTF8? at h
  split at h
  · cases h
    have hbytes := congrArg (fun b : ByteArray => b.data.toList) (toByteArray_utf8
      (String.fromUTF8 (ByteArray.mk bytes.toArray) ‹_›))
    exact hbytes
  · cases h

/-- A byte below 128 stands only for the character of that number. -/
theorem utf8EncodeChar_of_mem {c : Char} {b : UInt8} (hmem : b ∈ String.utf8EncodeChar c)
    (hb : b.toNat < 128) : String.utf8EncodeChar c = [b] ∧ c.toNat = b.toNat := by
  have hnat : c.toNat = c.val.toNat := rfl
  revert hmem
  fun_cases String.utf8EncodeChar c with
  | case1 v hv =>
      intro hmem
      obtain rfl := List.mem_singleton.mp hmem
      refine ⟨rfl, ?_⟩
      rw [UInt8.toNat_ofNat', hnat]
      exact (Nat.mod_eq_of_lt (Nat.lt_of_le_of_lt hv (by decide))).symm
  -- Every byte of the longer forms is at least 128.
  | case2 | case3 | case4 =>
      intro hmem
      simp only [List.mem_cons, List.not_mem_nil, or_false] at hmem
      rcases hmem with rfl | rfl | rfl | rfl <;> rw [UInt8.toNat_ofNat'] at hb <;> omega

end AvatarPool.Text
