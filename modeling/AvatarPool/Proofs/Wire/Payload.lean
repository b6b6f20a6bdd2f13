import AvatarPool.Bridge.Host
import AvatarPool.Proofs.Text.Base64
import AvatarPool.Proofs.Wire.RoundTrip

/-! # Jobs and pictures cross the wire

A request describes its job so that the host finds the same one, whatever its seed holds, and the
payload of a picture is the picture again at the other end.

These are the two halves of an exchange, for any host and any client: what is asked arrives as it
was asked, and what is painted arrives as it was painted.  The proofs about whole bridges use
`BridgeHost.readFrame_ofJob` and `Image.ofBase64_base64` and do not look at the texts any more. -/

namespace AvatarPool

namespace Request

/-- A text is cut at a semicolon that no other one follows. -/
theorem cutAtLast_append (text : String) {rest : String} (h : ';' ∉ rest.toList) :
    cutAtLast (text ++ ";" ++ rest) = some (text, rest) := by
  have hlist : (text ++ ";" ++ rest).toList.reverse =
      rest.toList.reverse ++ ';' :: text.toList.reverse := by
    simp [String.toList_append]
  have hall : ∀ c ∈ rest.toList.reverse, (c != ';') = true := by
    intro c hc
    refine bne_iff_ne.mpr ?_
    rintro rfl
    exact h (List.mem_reverse.mp hc)
  -- The search from the end goes over the whole of the rest and stops at the semicolon.
  unfold cutAtLast
  dsimp only
  rw [hlist, List.dropWhile_append_of_pos hall, List.takeWhile_append_of_pos hall]
  simp

/-- The request for a job carries its id. -/
theorem id_ofJob (id : RequestId) (job : Job) : (ofJob id job).id = id := by
  cases job <;> rfl

/-- **The request for a job describes that job.**  A name's seed is the whole detail.  For a picture
the edge length is written behind the seed, where the last semicolon is the one before it. -/
theorem job_ofJob (id : RequestId) (job : Job) : (ofJob id job).job = .ok job := by
  cases job with
  | name seed => rfl
  | image seed size =>
      -- The digits of an edge length hold no semicolon.
      have hcut : cutAtLast (seed ++ ";" ++ toString size.pixels) =
          some (seed, toString size.pixels) :=
        cutAtLast_append seed (by cases size <;> decide)
      -- They are read as that length, and the size is on offer for it.
      have hsize : (Text.number? pixelLimit (toString size.pixels)).bind Size.ofPixels? =
          some size := by
        cases size <;> decide
      unfold Request.job ofJob
      dsimp only
      rw [hcut]
      dsimp only
      rw [hsize]
      rfl

end Request

/-- A host reads the job of a request from its frame. -/
theorem BridgeHost.readFrame_ofJob (id : RequestId) (job : Job) :
    readFrame (Request.ofJob id job).frame = .work id job := by
  rw [readFrame, Request.ofFrame_frame]
  dsimp only
  rw [readRequest, Request.job_ofJob, Request.id_ofJob]

/-- The payload of a picture is the text of its bytes.  The address is cut behind its head, so that
the payload is what was put there. -/
theorem Image.base64_ofPng (png : List UInt8) : (ofPng png).base64 = Base64.encode png := by
  rw [base64, ofPng, String.toList_append, ← String.length_toList, List.drop_left,
    String.ofList_toList]

/-- **A picture is the same at the other end.**  It is not only the bytes that come back: the
picture that is received has the same address as the one that was painted. -/
theorem Image.ofBase64_base64 (png : List UInt8) :
    ofBase64 (ofPng png).base64 = .ok (ofPng png) := by
  rw [ofBase64, base64_ofPng, Base64.decode_encode]
  rfl

end AvatarPool
