/-!
# Entries by key

A list of keyed entries keeps the order in which its keys were first put.  Putting a key that is
there already replaces its value where it stands.
-/

namespace MusicAlgebra.Keyed

variable {κ ν : Type} [DecidableEq κ]

/-- Replace the value of a key, or add the key at the end. -/
def put (key : κ) (value : ν) : List (κ × ν) → List (κ × ν)
  | [] => [(key, value)]
  | (other, old) :: rest =>
    if other = key then (key, value) :: rest else (other, old) :: put key value rest

/-- Remove a key. -/
def erase (key : κ) (entries : List (κ × ν)) : List (κ × ν) :=
  entries.filter fun entry => entry.1 ≠ key

/-- The value of a key. -/
def find? (key : κ) : List (κ × ν) → Option ν
  | [] => none
  | (other, value) :: rest => if other = key then some value else find? key rest

@[simp] theorem find?_put_self (key : κ) (value : ν) (entries : List (κ × ν)) :
    find? key (put key value entries) = some value := by
  induction entries with
  | nil => simp [put, find?]
  | cons entry rest ih =>
    obtain ⟨other, old⟩ := entry
    by_cases same : other = key
    · simp [put, find?, same]
    · simp [put, find?, same, ih]

theorem find?_put_of_ne {key other : κ} (different : other ≠ key) (value : ν)
    (entries : List (κ × ν)) : find? other (put key value entries) = find? other entries := by
  induction entries with
  | nil => simp [put, find?, different.symm]
  | cons entry rest ih =>
    obtain ⟨present, old⟩ := entry
    by_cases same : present = key
    · subst same
      simp [put, find?, different.symm]
    · by_cases found : present = other
      · subst found
        simp [put, find?, same]
      · simp [put, find?, same, found, ih]

@[simp] theorem find?_erase_self (key : κ) (entries : List (κ × ν)) :
    find? key (erase key entries) = none := by
  induction entries with
  | nil => rfl
  | cons entry rest ih =>
    obtain ⟨other, value⟩ := entry
    by_cases same : other = key
    · simpa [erase, same] using ih
    · simpa [erase, find?, same] using ih

theorem find?_erase_of_ne {key other : κ} (different : other ≠ key) (entries : List (κ × ν)) :
    find? other (erase key entries) = find? other entries := by
  induction entries with
  | nil => rfl
  | cons entry rest ih =>
    obtain ⟨present, value⟩ := entry
    by_cases same : present = key
    · subst same
      simpa [erase, find?, different.symm] using ih
    · by_cases found : present = other
      · subst found
        simp [erase, find?, same]
      · simpa [erase, find?, same, found] using ih

/-! ## Entries with different keys -/

theorem mem_put {key : κ} {value : ν} {entry : κ × ν} {entries : List (κ × ν)}
    (member : entry ∈ put key value entries) : entry = (key, value) ∨ entry ∈ entries := by
  induction entries with
  | nil =>
    left
    exact List.mem_singleton.1 member
  | cons first rest ih =>
    obtain ⟨other, old⟩ := first
    unfold put at member
    split at member
    · rcases List.mem_cons.1 member with found | found
      · exact .inl found
      · exact .inr (List.mem_cons_of_mem _ found)
    · rcases List.mem_cons.1 member with found | found
      · exact .inr (found ▸ List.mem_cons_self)
      · exact (ih found).imp_right (List.mem_cons_of_mem _)

theorem nodup_keys_put {entries : List (κ × ν)} (distinct : (entries.map Prod.fst).Nodup)
    (key : κ) (value : ν) : ((put key value entries).map Prod.fst).Nodup := by
  induction entries with
  | nil => exact List.pairwise_singleton _ key
  | cons first rest ih =>
    obtain ⟨other, old⟩ := first
    obtain ⟨new, distinct⟩ := List.nodup_cons.1 distinct
    unfold put
    split
    · rename_i same
      subst same
      exact List.nodup_cons.2 ⟨new, distinct⟩
    · rename_i different
      refine List.nodup_cons.2 ⟨?_, ih distinct⟩
      intro member
      obtain ⟨entry, entryMem, equal⟩ := List.mem_map.1 member
      rcases mem_put entryMem with rfl | entryMem
      · exact different equal.symm
      · exact new (List.mem_map.2 ⟨entry, entryMem, equal⟩)

theorem nodup_keys_erase {entries : List (κ × ν)} (distinct : (entries.map Prod.fst).Nodup)
    (key : κ) : ((erase key entries).map Prod.fst).Nodup :=
  List.Pairwise.sublist (List.filter_sublist.map Prod.fst) distinct

theorem find?_eq_none {key : κ} {entries : List (κ × ν)} (absent : key ∉ entries.map Prod.fst) :
    find? key entries = none := by
  induction entries with
  | nil => rfl
  | cons first rest ih =>
    obtain ⟨other, value⟩ := first
    have different : other ≠ key := by
      rintro rfl
      exact absent List.mem_cons_self
    rw [find?, if_neg different]
    exact ih fun member => absent (List.mem_cons_of_mem _ member)

end MusicAlgebra.Keyed
