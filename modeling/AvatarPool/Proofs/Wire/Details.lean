import AvatarPool.Proofs.Text.Decimal
import AvatarPool.Proofs.Wire.Payload
import Mathlib.Data.List.TakeWhile

/-! # Which requests describe a job

The grammar of requests: what their category and kind say, and what their detail has to look like
for that kind.  `Request.job` finds the job of a request that follows it and rejects every other
one; so a request describes at most one job, and says which.

The grammar, `Request.Describes`, says it by how a detail is put together: from a seed, a semicolon
and a number.  The model takes it apart instead, from its end.  That the two agree is the matter of
this module.  It goes by the two parts of the work: where the detail is cut, which is at its last
semicolon, and which texts are read as an edge length, for which the numbers of `Text.Decimal` are
used. -/

namespace AvatarPool

/-- A size is on offer for its own edge length alone. -/
theorem Size.ofPixels?_eq_some_iff {n : Nat} {size : Size} :
    ofPixels? n = some size ↔ n = size.pixels := by
  constructor
  · intro h
    unfold ofPixels? at h
    split at h <;> cases h <;> rfl
  · rintro rfl
    exact ofPixels?_pixels size

namespace Request

/-- **What a request describes**: a name by its seed, or a picture by its seed and, behind the last
semicolon, its edge length.  The seed may hold semicolons itself; the number behind the last one
cannot. -/
inductive Describes (r : Request) : Job → Prop
  | name (hc : r.category = serviceCategory) (hk : r.kind = .roboname) :
    Describes r (.name r.detail)
  | image {seed px : String} {size : Size} (hc : r.category = serviceCategory)
      (hk : r.kind = .robohash) (hd : r.detail = seed ++ ";" ++ px)
      (hfree : ';' ∉ px.toList) (hpx : Text.Writes size.pixels px.toList) :
      Describes r (.image seed size)

/-! ## The last semicolon -/

/-- A text is cut where a semicolon stands that no other one follows.  The model looks at the text
from its end: what comes before the first semicolon there is what comes after the last one. -/
theorem cutAtLast_eq_some_iff {text seed px : String} :
    cutAtLast text = some (seed, px) ↔ text = seed ++ ";" ++ px ∧ ';' ∉ px.toList := by
  constructor
  · intro h
    unfold cutAtLast at h
    dsimp only at h
    -- The reversed text is split at its first semicolon.
    generalize hcs : text.toList.reverse = cs at h
    have htext : text.toList = cs.reverse := by rw [← hcs, List.reverse_reverse]
    have hsplit := List.takeWhile_append_dropWhile (p := (· != ';')) (l := cs)
    split at h
    · cases h
    · rename_i c before hdrop
      cases h
      -- What the rest starts with is the character that stopped the search.
      obtain rfl : c = ';' := by
        have hhead := List.head?_dropWhile_not (· != ';') cs
        rw [hdrop] at hhead
        simpa using hhead
      rw [hdrop] at hsplit
      constructor
      · apply String.toList_inj.mp
        rw [htext, ← congrArg List.reverse hsplit]
        simp
      -- No semicolon is among the characters before it.
      · intro hmem
        rw [String.toList_ofList, List.mem_reverse] at hmem
        have hne := List.mem_takeWhile_imp hmem
        simp at hne
  · rintro ⟨rfl, hfree⟩
    exact cutAtLast_append seed hfree

/-! ## The edge length -/

/-- A size is read from any written form of its edge length, and from nothing else.  The limit on
numbers is above both sizes, so that it shuts out none of them. -/
theorem size_eq_some_iff {px : String} {size : Size} :
    (Text.number? pixelLimit px).bind Size.ofPixels? = some size ↔
      Text.Writes size.pixels px.toList := by
  have hlimit : size.pixels ≤ pixelLimit := by cases size <;> decide
  rw [Option.bind_eq_some_iff]
  simp only [Size.ofPixels?_eq_some_iff, exists_eq_right, Text.number?_eq_some_iff]
  exact and_iff_right hlimit

/-! ## Jobs -/

/-- **A job is found exactly if the request describes it.**  Both directions follow the branches of
the model: its category, its kind, where the detail is cut, and the size. -/
theorem job_eq_ok_iff {r : Request} {job : Job} : r.job = .ok job ↔ r.Describes job := by
  constructor
  · intro h
    unfold Request.job at h
    split at h
    · cases h
    · rename_i hcategory
      have hcategory : r.category = serviceCategory := by simpa using hcategory
      split at h
      · rename_i hkind
        cases h
        exact .name hcategory hkind
      · rename_i hkind
        split at h
        · cases h
        · rename_i seed px hcut
          split at h
          · rename_i size hsize
            cases h
            obtain ⟨hdetail, hfree⟩ := cutAtLast_eq_some_iff.mp hcut
            exact .image hcategory hkind hdetail hfree (size_eq_some_iff.mp hsize)
          · cases h
  -- Conversely, each condition of the grammar is the one that is tested.
  · intro h
    unfold Request.job
    cases h with
    | name hcategory hkind => rw [if_neg (not_not_intro hcategory), hkind]
    | image hcategory hkind hdetail hfree hpx =>
        rw [if_neg (not_not_intro hcategory), hkind]
        dsimp only
        rw [cutAtLast_eq_some_iff.mpr ⟨hdetail, hfree⟩]
        dsimp only
        rw [size_eq_some_iff.mpr hpx]

/-- A request is refused for one reason only: it is no valid request.  The reason tells what was
wrong with it; which failure it is does not depend on that. -/
theorem exists_reason_of_job_eq_error {r : Request} {why : Failure} (h : r.job = .error why) :
    ∃ reason, why = .invalidRequest reason := by
  unfold Request.job at h
  split at h
  · cases h
    exact ⟨_, rfl⟩
  · split at h
    · cases h
    · split at h
      · cases h
        exact ⟨_, rfl⟩
      · split at h
        · cases h
        · cases h
          exact ⟨_, rfl⟩

/-- **Details describe jobs.**  The request for a job describes that job, whatever its id and
whatever stands in its seed.  A request has a job exactly if it describes one: it is of this
service's category, and either asks for a name, for which the whole detail is the seed, or for a
picture, for which the detail is the seed, a semicolon and the edge length of a size, written with
zeros and a plus sign in front or without.  Every other request is invalid. -/
theorem details_describe_jobs :
    (∀ (id : RequestId) (job : Job), (ofJob id job).job = .ok job) ∧
      ∀ r : Request, (∀ job, r.job = .ok job ↔ r.Describes job) ∧
        ((∃ reason, r.job = .error (.invalidRequest reason)) ↔ ∀ job, ¬ r.Describes job) := by
  refine ⟨job_ofJob, fun r => ⟨fun job => job_eq_ok_iff, ?_⟩⟩
  constructor
  -- What is described has a job, so that it is not refused.
  · rintro ⟨reason, herror⟩ job hdescribes
    rw [job_eq_ok_iff.mpr hdescribes] at herror
    cases herror
  -- What is not described has none, so that it is refused.
  · intro hnone
    cases hjob : r.job with
    | ok job => exact absurd (job_eq_ok_iff.mp hjob) (hnone job)
    | error why =>
        obtain ⟨reason, rfl⟩ := exists_reason_of_job_eq_error hjob
        exact ⟨reason, rfl⟩

end Request

end AvatarPool
