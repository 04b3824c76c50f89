import HostBridge.Dictionary

/-!
# Keys of dictionaries

What a key has after an insertion, and the listing of keys: it is strictly increasing and holds the
keys that have a value.
-/

namespace HostBridge

namespace Dictionary

variable {α : Type}

theorem get?_insert (key other : String) (value : α) (entries : Dictionary α) :
    (entries.insert key value).get? other =
      if key = other then some value else entries.get? other := by
  induction entries with
  | nil => simp [insert, get?]
  | cons entry entries induction =>
      rw [insert]
      split
      case isTrue same =>
        subst same
        by_cases here : entry.1 = other <;> simp [get?, here]
      case isFalse different =>
        rw [get?, get?, induction]
        by_cases here : entry.1 = other
        · have apart : key ≠ other := fun same => different (here.trans same.symm)
          simp [here, apart]
        · simp [here]

theorem isSome_get? (entries : Dictionary α) (key : String) :
    (entries.get? key).isSome = true ↔ key ∈ entries.map (·.1) := by
  induction entries with
  | nil => simp [get?]
  | cons entry entries induction =>
      rw [get?, List.map_cons, List.mem_cons]
      by_cases here : entry.1 = key
      · simp [here]
      · simp only [here, if_false, Ne.symm here, false_or]
        exact induction

theorem mem_keys_insert (key other : String) (value : α) (entries : Dictionary α) :
    other ∈ (entries.insert key value).map (·.1) ↔ key = other ∨ other ∈ entries.map (·.1) := by
  rw [← isSome_get?, ← isSome_get?, get?_insert]
  by_cases same : key = other <;> simp [same]

theorem nodup_keys_insert {entries : Dictionary α} (distinct : (entries.map (·.1)).Nodup)
    (key : String) (value : α) : ((entries.insert key value).map (·.1)).Nodup := by
  induction entries with
  | nil => simp [insert]
  | cons entry entries induction =>
      rw [insert]
      split
      case isTrue same => simpa [← same] using distinct
      case isFalse different =>
        obtain ⟨fresh, distinct⟩ := List.nodup_cons.mp distinct
        refine List.nodup_cons.mpr ⟨?_, induction distinct⟩
        rw [mem_keys_insert]
        exact not_or.mpr ⟨Ne.symm different, fresh⟩

/-- A new key is added at the end. -/
theorem insert_eq_append {entries : Dictionary α} {key : String}
    (fresh : key ∉ entries.map (·.1)) (value : α) :
    entries.insert key value = entries ++ [(key, value)] := by
  induction entries with
  | nil => rfl
  | cons entry entries induction =>
      rw [List.map_cons, List.mem_cons, not_or] at fresh
      rw [insert, if_neg (Ne.symm fresh.1), induction fresh.2, List.cons_append]

theorem get?_of_mem {entries : Dictionary α} (distinct : (entries.map (·.1)).Nodup)
    {key : String} {value : α} (member : (key, value) ∈ entries) :
    entries.get? key = some value := by
  induction entries with
  | nil => cases member
  | cons entry entries induction =>
      obtain ⟨fresh, distinct⟩ := List.nodup_cons.mp distinct
      rw [get?]
      rcases List.mem_cons.mp member with rfl | later
      · exact if_pos rfl
      · have different : entry.1 ≠ key :=
          (ne_of_mem_of_not_mem (List.mem_map_of_mem later) fresh).symm
        rw [if_neg different]
        exact induction distinct later

theorem mem_of_get? {entries : Dictionary α} {key : String} {value : α}
    (found : entries.get? key = some value) : (key, value) ∈ entries := by
  induction entries with
  | nil => cases found
  | cons entry entries induction =>
      rw [get?] at found
      split at found
      case isTrue here =>
        cases found
        exact here ▸ List.mem_cons_self
      case isFalse => exact List.mem_cons_of_mem _ (induction found)

theorem mem_sortedKeys (entries : Dictionary α) (key : String) :
    key ∈ entries.sortedKeys ↔ (entries.get? key).isSome = true := by
  rw [sortedKeys, List.mem_mergeSort, isSome_get?]

theorem pairwise_sortedKeys {entries : Dictionary α} (distinct : (entries.map (·.1)).Nodup) :
    entries.sortedKeys.Pairwise (· < ·) := by
  have ordered : entries.sortedKeys.Pairwise fun left right => decide (left ≤ right) = true := by
    apply List.pairwise_mergeSort
    · intro first second third
      simpa using String.le_trans
    · intro first second
      simpa using String.le_total first second
  have different : entries.sortedKeys.Pairwise (· ≠ ·) :=
    (List.mergeSort_perm ..).nodup_iff.mpr distinct
  refine (ordered.and different).imp ?_
  rintro left right ⟨below, apart⟩
  exact Std.lt_of_le_of_ne (of_decide_eq_true below) apart

end Dictionary

end HostBridge
