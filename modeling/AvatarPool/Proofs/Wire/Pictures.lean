import AvatarPool.Proofs.Text.Canonical
import AvatarPool.Proofs.Wire.Payload

/-! # Pictures are known by their bytes

A picture that has been received keeps the text of its payload as it came, where one that has been
painted writes it.  Both texts are the standard one of the bytes, since no other payload is taken;
so the way by which a picture came about cannot be told from it.

Two pictures are compared by all that they hold, the bytes and the address.  That the bytes alone
decide is due to the strictness of the decoder, `Base64.decode_eq_ok_iff`: had it taken any other
text for some bytes, the same picture could have come about with two addresses. -/

namespace AvatarPool.Image

/-- The two ways by which pictures come about: from their bytes, and from a payload. -/
inductive Built : Image → Prop
  | painted (png : List UInt8) : Built (ofPng png)
  | received {payload : String} {image : Image} (h : ofBase64 payload = .ok image) : Built image

/-- A payload is taken exactly if it is that of the picture that it gives, and of one that has been
painted.  The first part says what was read, and the second that there was no other way to write it.
-/
theorem ofBase64_eq_ok_iff {payload : String} {image : Image} :
    ofBase64 payload = .ok image ↔ image = ofPng image.png ∧ payload = image.base64 := by
  constructor
  · intro h
    unfold ofBase64 at h
    split at h
    · rename_i png hdecode
      cases h
      obtain rfl := Base64.decode_eq_ok_iff.mp hdecode
      exact ⟨rfl, (base64_ofPng png).symm⟩
    · cases h
  · rintro ⟨himage, rfl⟩
    rw [himage]
    exact ofBase64_base64 image.png

/-- A payload that is not taken is a fault of the protocol.  It is the decoder's reason that is
given; that there is one is enough here. -/
theorem exists_reason_of_ofBase64_eq_error {payload : String} {failure : Failure}
    (h : ofBase64 payload = .error failure) : ∃ reason, failure = .protocol reason := by
  unfold ofBase64 at h
  split at h
  · cases h
  · cases h
    exact ⟨_, rfl⟩

theorem Built.eq_ofPng {image : Image} (h : Built image) : image = ofPng image.png := by
  cases h with
  | painted png => rfl
  | received h => exact (ofBase64_eq_ok_iff.mp h).1

/-- **Payloads are canonical both ways.**  The payload of a picture gives that picture; a payload
that is taken is the standard text of the bytes of its picture, whose address holds it; pictures,
however they came about, are the same exactly if their bytes are; and the payloads that are rejected
are those that are the standard text of no bytes. -/
theorem payloads_canonical :
    (∀ png, ofBase64 (ofPng png).base64 = .ok (ofPng png)) ∧
    (∀ payload image, ofBase64 payload = .ok image →
      image = ofPng image.png ∧ image.dataUri = uriHead ++ Base64.standard image.png ∧
        payload = image.base64) ∧
    (∀ i j, Built i → Built j → (i = j ↔ i.png = j.png)) ∧
    ∀ payload, (∃ reason, ofBase64 payload = .error (.protocol reason)) ↔
      ∀ png, payload ≠ Base64.standard png := by
  -- The first clause is the round trip of `Wire.Payload`.
  refine ⟨ofBase64_base64, ?_, ?_, ?_⟩
  · intro payload image h
    obtain ⟨himage, hpayload⟩ := ofBase64_eq_ok_iff.mp h
    have huri : (ofPng image.png).dataUri = uriHead ++ Base64.standard image.png := by
      rw [← Base64.encode_eq_standard]
      rfl
    exact ⟨himage, (congrArg dataUri himage).trans huri, hpayload⟩
  · intro i j hi hj
    constructor
    · exact congrArg png
    · intro hpng
      rw [hi.eq_ofPng, hj.eq_ofPng, hpng]
  -- A payload that is refused is no standard text, since every standard text is taken; and one that
  -- is not refused is the standard text of its picture's bytes.
  · intro payload
    constructor
    · rintro ⟨reason, h⟩ png rfl
      rw [← Base64.encode_eq_standard, ← base64_ofPng, ofBase64_base64] at h
      cases h
    · intro hnone
      cases h : ofBase64 payload with
      | error failure =>
          obtain ⟨reason, rfl⟩ := exists_reason_of_ofBase64_eq_error h
          exact ⟨reason, rfl⟩
      | ok image =>
          obtain ⟨himage, hpayload⟩ := ofBase64_eq_ok_iff.mp h
          rw [himage, base64_ofPng, Base64.encode_eq_standard] at hpayload
          exact (hnone image.png hpayload).elim

end AvatarPool.Image
