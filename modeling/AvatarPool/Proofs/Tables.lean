import AvatarPool.Cache
import AvatarPool.Pending
import Mathlib.Data.List.Nodup
import Mathlib.Data.List.Perm.Basic

/-! # The two tables

The table of waiting callers and the cache keep their entries in lists.  Here they are described by
what they show: the keys, the callers of a key, the value of a key.  Later proofs use these
descriptions and never the lists.

Two facts carry everything else.  Both tables keep at most one entry for a key, so that looking up
and membership agree (`lookup_of_mem`); and both change by the same three list operations, namely
filtering a key out, mapping over the entry of a key, and appending an entry.  What the operations
do to keys is stated as an equation between lists, because the order of entries shows in what is
answered; what they do to callers only up to a permutation, because callers of one entry move
together and nobody sees the order of entries there. -/

namespace AvatarPool

/-! ## Lists of keyed entries -/

section Keyed

variable {κ ν : Type} [DecidableEq κ]

/-- The first entry decides if its key is the one looked up.  Stated with `if` so that the proofs
below can split on the key. -/
theorem lookup_cons_ite (k j : κ) (v : ν) (l : List (κ × ν)) :
    ((k, v) :: l).lookup j = if j = k then some v else l.lookup j := by
  by_cases h : j = k
  · simp [h]
  · rw [List.lookup_cons, beq_false_of_ne h, if_neg h]

/-- A key that cannot be looked up stands in no entry, whether or not keys repeat. -/
theorem lookup_eq_none_iff_notMem (l : List (κ × ν)) (k : κ) :
    l.lookup k = none ↔ k ∉ l.map Prod.fst := by
  rw [List.lookup_eq_none_iff, List.mem_map]
  constructor
  · rintro h ⟨e, he, rfl⟩
    simpa using h e he
  · intro h e he
    have hne : k ≠ e.1 := fun hk => h ⟨e, he, hk.symm⟩
    simpa using hne

theorem mem_of_lookup {l : List (κ × ν)} {k : κ} {v : ν} (h : l.lookup k = some v) :
    (k, v) ∈ l := by
  obtain ⟨l₁, l₂, rfl, -⟩ := List.lookup_eq_some_iff.mp h
  simp

/-- Where keys do not repeat, an entry is what its key is looked up to. -/
theorem lookup_of_mem {l : List (κ × ν)} {k : κ} {v : ν} (hn : (l.map Prod.fst).Nodup)
    (h : (k, v) ∈ l) : l.lookup k = some v := by
  obtain ⟨l₁, l₂, rfl⟩ := List.append_of_mem h
  rw [List.map_append, List.map_cons, List.nodup_middle, List.nodup_cons, List.mem_append,
    not_or] at hn
  -- No entry before this one has the key, so the look-up walks past all of them.
  rw [List.lookup_append, (lookup_eq_none_iff_notMem l₁ k).mpr hn.1.1, lookup_cons_ite, if_pos rfl]
  rfl

theorem filter_ne_of_notMem {l : List (κ × ν)} {k : κ} (h : k ∉ l.map Prod.fst) :
    (l.filter fun e => e.1 ≠ k) = l := by
  rw [List.filter_eq_self]
  intro e he
  have hne : e.1 ≠ k := fun hk => h (List.mem_map.mpr ⟨e, he, hk⟩)
  simpa using hne

/-- The entry of a key beside the other entries. -/
theorem perm_cons_filter_ne {l : List (κ × ν)} (hn : (l.map Prod.fst).Nodup) {k : κ} {v : ν}
    (h : l.lookup k = some v) : l.Perm ((k, v) :: l.filter fun e => e.1 ≠ k) := by
  obtain ⟨l₁, l₂, rfl⟩ := List.append_of_mem (mem_of_lookup h)
  rw [List.map_append, List.map_cons, List.nodup_middle, List.nodup_cons, List.mem_append,
    not_or] at hn
  rw [List.filter_append, List.filter_cons_of_neg (by simp), filter_ne_of_notMem hn.1.1,
    filter_ne_of_notMem hn.1.2]
  exact List.perm_middle

/-- Without the entries of a key nothing is looked up under it, and everything else as before. -/
theorem lookup_filter_ne (l : List (κ × ν)) (k j : κ) :
    (l.filter fun e => e.1 ≠ k).lookup j = if j = k then none else l.lookup j := by
  induction l with
  | nil => simp
  -- By induction on the entries: an entry of `k` is dropped, and any other one stays and may be the
  -- one that `j` finds.
  | cons e rest ih =>
      obtain ⟨i, v⟩ := e
      by_cases hik : i = k
      · subst hik
        rw [List.filter_cons_of_neg (by simp), ih, lookup_cons_ite]
        by_cases hj : j = i <;> simp [hj]
      · rw [List.filter_cons_of_pos (by simpa using hik), lookup_cons_ite, lookup_cons_ite, ih]
        by_cases hj : j = i
        · subst hj; simp [hik]
        · simp [hj]

theorem keys_filter_ne (l : List (κ × ν)) (k : κ) :
    (l.filter fun e => e.1 ≠ k).map Prod.fst = (l.map Prod.fst).filter fun j => j ≠ k := by
  rw [List.filter_map]
  rfl

end Keyed

/-! ## Waiting callers -/

namespace Pending

variable {κ ω : Type} [DecidableEq κ] {p : Pending κ ω}

/-- Every caller that waits, entry by entry. -/
def callers (p : Pending κ ω) : List ω := p.entries.flatMap Prod.snd

/-- No key has two entries, and every entry has a caller.  Both parts are kept by every operation:
an entry is opened with its first caller, and closed as a whole, so that none is ever left without
callers. -/
structure WellFormed (p : Pending κ ω) : Prop where
  nodup : p.keys.Nodup
  waited : ∀ e ∈ p.entries, e.2 ≠ []

omit [DecidableEq κ] in
theorem wellFormed_empty : ({} : Pending κ ω).WellFormed where
  nodup := List.nodup_nil
  waited := by simp

theorem lookup_eq_none_iff (p : Pending κ ω) (k : κ) : p.entries.lookup k = none ↔ k ∉ p.keys :=
  lookup_eq_none_iff_notMem _ _

theorem waiting_eq_nil_of_notMem {k : κ} (h : k ∉ p.keys) : p.waiting k = [] := by
  rw [waiting, (lookup_eq_none_iff p k).mpr h]
  rfl

theorem waiting_of_mem_entries (hn : p.keys.Nodup) {k : κ} {ws : List ω}
    (h : (k, ws) ∈ p.entries) : p.waiting k = ws := by
  rw [waiting, lookup_of_mem hn h]
  rfl

theorem exists_entry_of_mem_keys {k : κ} (h : k ∈ p.keys) : (k, p.waiting k) ∈ p.entries := by
  cases hl : p.entries.lookup k with
  | none => exact absurd h ((lookup_eq_none_iff p k).mp hl)
  | some ws => rw [waiting, hl]; exact mem_of_lookup hl

theorem mem_keys_of_mem_waiting {k : κ} {w : ω} (h : w ∈ p.waiting k) : k ∈ p.keys := by
  by_contra hk
  rw [waiting_eq_nil_of_notMem hk] at h
  exact List.not_mem_nil h

/-- The callers of the whole table are those of its keys, since no key hides a second entry. -/
theorem mem_callers_iff (hn : p.keys.Nodup) {w : ω} : w ∈ p.callers ↔ ∃ k, w ∈ p.waiting k := by
  constructor
  · intro h
    obtain ⟨⟨k, ws⟩, hmem, hw⟩ := List.mem_flatMap.mp h
    exact ⟨k, by rwa [waiting_of_mem_entries hn hmem]⟩
  · rintro ⟨k, hw⟩
    have hentry := exists_entry_of_mem_keys (mem_keys_of_mem_waiting hw)
    exact List.mem_flatMap.mpr ⟨_, hentry, hw⟩

/-! ### Entering -/

/-- A caller who asks for what is waited for already joins at the end of the entry. -/
theorem enter_of_mem {k : κ} (w : ω) (h : k ∈ p.keys) :
    p.enter k w =
      (⟨p.entries.map fun e => if e.1 = k then (e.1, e.2 ++ [w]) else e⟩, .joined) := by
  unfold enter
  split
  · rfl
  · rename_i hl
    exact absurd h ((lookup_eq_none_iff p k).mp hl)

/-- A caller who is the first to ask opens an entry at the end of the table. -/
theorem enter_of_notMem {k : κ} (w : ω) (h : k ∉ p.keys) :
    p.enter k w = (⟨p.entries ++ [(k, [w])]⟩, .opened) := by
  unfold enter
  rw [(lookup_eq_none_iff p k).mpr h]

/-- Entering adds a key only if it is new, and leaves the order of the others. -/
theorem keys_enter (p : Pending κ ω) (k : κ) (w : ω) :
    (p.enter k w).1.keys = if k ∈ p.keys then p.keys else p.keys ++ [k] := by
  by_cases h : k ∈ p.keys
  · rw [if_pos h, enter_of_mem w h, keys, List.map_map]
    refine List.map_congr_left fun e _ => ?_
    by_cases he : e.1 = k <;> simp [he]
  · rw [if_neg h, enter_of_notMem w h, keys, List.map_append]
    rfl

/-- Appending a caller to the entries of a key that has none changes nothing. -/
theorem map_add_of_notMem {l : List (κ × List ω)} {k : κ} (w : ω) (h : k ∉ l.map Prod.fst) :
    (l.map fun e => if e.1 = k then (e.1, e.2 ++ [w]) else e) = l := by
  refine (List.map_congr_left fun e he => ?_).trans (List.map_id l)
  have hne : e.1 ≠ k := fun hk => h (List.mem_map.mpr ⟨e, he, hk⟩)
  rw [if_neg hne]
  rfl

/-- Entering puts the caller behind those who wait under his key, and touches nobody else. -/
theorem waiting_enter (p : Pending κ ω) (k j : κ) (w : ω) :
    (p.enter k w).1.waiting j = if j = k then p.waiting k ++ [w] else p.waiting j := by
  by_cases h : k ∈ p.keys
  -- `simp` cannot look up in the mapped list, as the mapping tests keys itself; so this is an
  -- induction on the entries.
  · have hmap : ∀ l : List (κ × List ω),
        (l.map fun e => if e.1 = k then (e.1, e.2 ++ [w]) else e).lookup j
          = (l.lookup j).map fun ws => if j = k then ws ++ [w] else ws := by
      intro l
      induction l with
      | nil => rfl
      | cons e rest ih =>
          obtain ⟨i, ws⟩ := e
          rw [List.map_cons]
          by_cases hji : j = i
          · subst hji
            by_cases hjk : j = k <;> simp [hjk]
          · have hfst : (if i = k then (i, ws ++ [w]) else (i, ws)).1 = i := by split <;> rfl
            rw [← Prod.eta (if i = k then (i, ws ++ [w]) else (i, ws)), hfst, lookup_cons_ite,
              lookup_cons_ite, if_neg hji, if_neg hji, ih]
    rw [enter_of_mem w h, waiting, hmap]
    by_cases hj : j = k
    · subst hj
      obtain ⟨ws, hws⟩ := Option.ne_none_iff_exists'.mp
        (mt (lookup_eq_none_iff p j).mp (not_not.mpr h))
      simp [waiting, hws]
    · simp [waiting, hj]
  · rw [enter_of_notMem w h, waiting, List.lookup_append, lookup_cons_ite]
    by_cases hj : j = k
    · subst hj
      simp [waiting, (lookup_eq_none_iff p j).mpr h]
    · simp [waiting, hj]

/-- No key gets a second entry: a caller whose key is there does not open one. -/
theorem nodup_keys_enter (hn : p.keys.Nodup) (k : κ) (w : ω) : (p.enter k w).1.keys.Nodup := by
  rw [keys_enter]
  split
  · exact hn
  · rename_i hk
    rw [← List.concat_eq_append]
    exact hn.concat hk

/-- A caller enters a well-formed table and leaves it so. -/
theorem WellFormed.enter (h : p.WellFormed) (k : κ) (w : ω) : (p.enter k w).1.WellFormed where
  nodup := nodup_keys_enter h.nodup k w
  waited := by
    intro e he
    by_cases hk : k ∈ p.keys
    · rw [enter_of_mem w hk] at he
      obtain ⟨e', he', rfl⟩ := List.mem_map.mp he
      split
      · simp
      · exact h.waited e' he'
    · rw [enter_of_notMem w hk] at he
      rcases List.mem_append.mp he with hold | hnew
      · exact h.waited e hold
      · rw [List.mem_singleton.mp hnew]; simp

/-! ### Closing -/

theorem keys_close (p : Pending κ ω) (k : κ) :
    (p.close k).1.keys = p.keys.filter fun j => j ≠ k :=
  keys_filter_ne _ _

theorem mem_keys_close {k j : κ} : j ∈ (p.close k).1.keys ↔ j ∈ p.keys ∧ j ≠ k := by
  rw [keys_close]
  simp

/-- Keys that match others match them still without one of them. -/
theorem keys_close_perm (hn : p.keys.Nodup) {k : κ} {ks : List κ} (h : (k :: ks).Perm p.keys) :
    ks.Perm (p.close k).1.keys := by
  -- After `k` the two lists have the same keys other than `k`, and `ks` has no `k` to begin with.
  have hnotMem : k ∉ ks := (List.nodup_cons.mp (h.nodup_iff.mpr hn)).1
  have hfilter := h.filter fun j => j ≠ k
  rw [List.filter_cons_of_neg (by simp)] at hfilter
  rw [keys_close]
  refine List.Perm.trans (.of_eq ?_) hfilter
  refine (List.filter_eq_self.mpr fun j hj => ?_).symm
  have hne : j ≠ k := fun heq => hnotMem (heq ▸ hj)
  simpa using hne

/-- Closing takes the callers of one key and touches no others. -/
theorem waiting_close (p : Pending κ ω) (k j : κ) :
    (p.close k).1.waiting j = if j = k then [] else p.waiting j := by
  unfold close waiting
  rw [lookup_filter_ne]
  by_cases hj : j = k <;> simp [hj]

/-- Closing an entry parts its callers from the others. -/
theorem callers_close_perm (hn : p.keys.Nodup) (k : κ) :
    (p.waiting k ++ (p.close k).1.callers).Perm p.callers := by
  by_cases h : k ∈ p.keys
  -- The entry of `k` stands first in a permutation of the table, and the filter drops just that
  -- entry.
  · have hentries := perm_cons_filter_ne hn (lookup_of_mem hn (exists_entry_of_mem_keys h))
    exact (hentries.flatMap_right Prod.snd).symm
  · rw [waiting_eq_nil_of_notMem h, List.nil_append]
    unfold close callers
    rw [filter_ne_of_notMem h]

/-- Closing takes away what entering at the same key has done. -/
theorem close_enter (p : Pending κ ω) (k : κ) (w : ω) :
    ((p.enter k w).1.close k).1 = (p.close k).1 := by
  by_cases h : k ∈ p.keys
  · have hkey : ∀ e : κ × List ω, (if e.1 = k then (e.1, e.2 ++ [w]) else e).1 = e.1 := by
      intro e
      split <;> rfl
    have hout : k ∉ (p.entries.filter fun e => e.1 ≠ k).map Prod.fst := by
      rw [keys_filter_ne]
      simp
    rw [enter_of_mem w h]
    unfold close
    simp only [List.filter_map, Function.comp_def, hkey, map_add_of_notMem w hout]
  · rw [enter_of_notMem w h]
    unfold close
    simp

/-- Entering adds just the caller that enters. -/
theorem callers_enter_perm (hn : p.keys.Nodup) (k : κ) (w : ω) :
    (p.enter k w).1.callers.Perm (w :: p.callers) := by
  -- The entry of `k` is parted from the others before and after, and the others are the same.
  have hn' : (p.enter k w).1.keys.Nodup := nodup_keys_enter hn k w
  have hparted := callers_close_perm hn' k
  rw [close_enter, waiting_enter, if_pos rfl, List.append_assoc, List.singleton_append] at hparted
  exact hparted.symm.trans (List.perm_middle.trans ((callers_close_perm hn k).cons w))

/-- Closing keeps a table well formed. -/
theorem WellFormed.close (h : p.WellFormed) (k : κ) : (p.close k).1.WellFormed where
  nodup := by
    rw [keys_close]
    exact h.nodup.filter _
  waited := fun e he => h.waited e (List.mem_of_mem_filter he)

end Pending

/-! ## Kept values -/

namespace Cache

variable {κ ν : Type} [DecidableEq κ]

/-- A value is kept at its first insertion; a later one under the same key does not replace it.
This is what makes a cached result permanent. -/
theorem get?_insert (c : Cache κ ν) (k j : κ) (v : ν) :
    (c.insert k v).1.get? j = if j = k then some ((c.get? k).getD v) else c.get? j := by
  unfold insert
  cases hk : c.get? k with
  | some u =>
      by_cases hj : j = k
      · simp [hj, hk]
      · simp [hj]
  | none =>
      have hget : ∀ i, (⟨c.entries ++ [(k, v)]⟩ : Cache κ ν).get? i
          = (c.get? i).or (if i = k then some v else none) := by
        intro i
        unfold get?
        rw [List.lookup_append, lookup_cons_ite]
        rfl
      rw [hget]
      by_cases hj : j = k
      · subst hj; simp [hk]
      · simp [hj]

/-- What is kept has been kept before, or is kept now.  Used to show that a cache never holds
anything but what has been put into it. -/
theorem get?_or_eq_of_insert {c : Cache κ ν} {k j : κ} {u v : ν}
    (h : (c.insert k v).1.get? j = some u) : c.get? j = some u ∨ j = k ∧ u = v := by
  rw [get?_insert] at h
  split at h
  · rename_i hj
    subst hj
    cases hk : c.get? j with
    | some old =>
        rw [hk] at h
        exact .inl h
    | none =>
        rw [hk] at h
        exact .inr ⟨rfl, (Option.some.inj h).symm⟩
  · exact .inl h

theorem get?_eq_none_iff (c : Cache κ ν) (k : κ) : c.get? k = none ↔ k ∉ c.keys :=
  lookup_eq_none_iff_notMem _ _

/-- The keys of a cache grow by one at a first insertion and never change otherwise. -/
theorem keys_insert (c : Cache κ ν) (k : κ) (v : ν) :
    (c.insert k v).1.keys = if k ∈ c.keys then c.keys else c.keys ++ [k] := by
  unfold insert
  split
  · rename_i hk
    rw [if_pos (by_contra fun h => by simp [(get?_eq_none_iff c k).mpr h] at hk)]
  · rename_i hk
    rw [if_neg ((get?_eq_none_iff c k).mp hk), keys, List.map_append]
    rfl

/-- A kept value stays. -/
theorem get?_insert_of_some {c : Cache κ ν} {j : κ} {u : ν} (h : c.get? j = some u) (k : κ)
    (v : ν) : (c.insert k v).1.get? j = some u := by
  rw [get?_insert]
  by_cases hj : j = k
  · subst hj; simp [h]
  · simpa [hj] using h

end Cache

end AvatarPool
