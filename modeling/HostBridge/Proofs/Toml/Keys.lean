import HostBridge.Toml.Document
import Mathlib.Data.List.Nodup

/-!
# The keys of a document

A document never has two entries of one key: what a line defines is new, or it replaces the value of
a key in place, or it takes a key away and puts it back at the end.
-/

namespace HostBridge

namespace Toml

namespace Entries

variable {entries result : Entries} {key : String} {value : Value}

/-- No key has two entries. -/
def Distinct (entries : Entries) : Prop := (entries.map Prod.fst).Nodup

theorem lookup_eq_none_iff : entries.lookup key = none ↔ key ∉ entries.map Prod.fst := by
  simp only [List.lookup_eq_none_iff, bne_iff_ne, List.mem_map, not_exists, not_and]
  exact forall₂_congr fun _ _ => ne_comm

theorem not_mem_keys_iff : key ∉ entries.map Prod.fst ↔ ∀ value, (key, value) ∉ entries := by
  simp

theorem Distinct.concat (distinct : entries.Distinct) (absent : key ∉ entries.map Prod.fst)
    (value : Value) : Distinct (entries ++ [(key, value)]) := by
  rw [Distinct, List.map_append]
  exact List.Nodup.append distinct (List.nodup_singleton key)
    (List.disjoint_singleton.mpr absent)

theorem Distinct.replace (distinct : entries.Distinct) (key : String) (value : Value) :
    (entries.replace key value).Distinct := by
  have same : (entries.replace key value).map Prod.fst = entries.map Prod.fst := by
    rw [Entries.replace, List.map_map]
    refine List.map_congr_left fun entry _ => ?_
    simp only [Function.comp_apply]
    split
    case isTrue matched => exact (beq_iff_eq.mp matched).symm
    case isFalse => rfl
  rwa [Distinct, same]

theorem Distinct.erase_concat (distinct : entries.Distinct) (key : String) (value : Value) :
    Distinct (entries.erase key ++ [(key, value)]) := by
  apply Distinct.concat
  · exact distinct.sublist (List.filter_sublist.map Prod.fst)
  · intro mem
    obtain ⟨entry, entry_mem, same⟩ := List.mem_map.mp mem
    exact bne_iff_ne.mp (List.mem_filter.mp entry_mem).2 same

theorem Distinct.lookup_eq_some_iff (distinct : entries.Distinct) :
    entries.lookup key = some value ↔ (key, value) ∈ entries := by
  induction entries with
  | nil => exact ⟨nofun, nofun⟩
  | cons entry entries induction =>
      obtain ⟨name, other⟩ := entry
      obtain ⟨absent, rest⟩ := List.nodup_cons.mp distinct
      rw [List.lookup_cons, List.mem_cons, ← induction rest, Prod.mk.injEq]
      by_cases same : key = name
      · subst same
        rw [beq_self_eq_true, lookup_eq_none_iff.mpr absent]
        simp [eq_comm]
      · rw [beq_eq_false_iff_ne.mpr same]
        simp [same]

theorem Distinct.value_eq {other : Value} (distinct : entries.Distinct)
    (mem : (key, value) ∈ entries) (other_mem : (key, other) ∈ entries) : value = other := by
  have found := distinct.lookup_eq_some_iff.mpr mem
  have other_found := distinct.lookup_eq_some_iff.mpr other_mem
  exact Option.some.inj (found.symm.trans other_found)

/-- A change of a table that keeps its keys distinct. -/
def Keeps (change : Origin → Entries → Option Entries) : Prop :=
  ∀ origin entries result, change origin entries = some result → entries.Distinct → result.Distinct

/-- Only the table at the end of the path gets new keys, and so does the first one on the way that
is missing. -/
theorem Distinct.alter {dotted : Bool} {path : List String}
    {change : Origin → Entries → Option Entries} {origin : Origin} (keeps : Keeps change)
    (distinct : entries.Distinct)
    (altered : alter dotted path change origin entries = some result) : result.Distinct := by
  unfold Entries.alter at altered
  split at altered
  · exact keeps _ _ _ altered distinct
  · dsimp only at altered
    split at altered
    case h_1 absent =>
      obtain ⟨inner, -, same⟩ := Option.bind_eq_some_iff.mp altered
      cases same
      exact distinct.concat (lookup_eq_none_iff.mp absent) _
    case h_2 =>
      split at altered
      · obtain ⟨inner, -, same⟩ := Option.bind_eq_some_iff.mp altered
        cases same
        exact distinct.replace ..
      · cases altered
    case h_3 =>
      split at altered
      · cases altered
      · obtain ⟨inner, -, same⟩ := Option.bind_eq_some_iff.mp altered
        cases same
        exact distinct.replace ..
    case h_4 => cases altered

theorem Distinct.define {path : List String} (distinct : entries.Distinct)
    (defined : entries.define path key value = some result) : result.Distinct := by
  refine distinct.alter ?_ defined
  intro origin inner grown changed inner_distinct
  dsimp only at changed
  split at changed
  · cases changed
  · split at changed
    case isTrue => cases changed
    case isFalse absent =>
      cases changed
      have undefined := Option.not_isSome_iff_eq_none.mp absent
      exact inner_distinct.concat (lookup_eq_none_iff.mp undefined) _

end Entries

namespace Document

open Entries

variable {entries result : Entries} {lines : List Line} {path : List String} {key : String}
  {body : Entries → Option Entries}

theorem distinct_fill (distinct : entries.Distinct) (filled : fill lines entries = some result) :
    result.Distinct := by
  induction lines generalizing entries with
  | nil =>
      cases filled
      exact distinct
  | cons line lines induction =>
      cases line with
      | entry path key value =>
          obtain ⟨grown, defined, rest⟩ := Option.bind_eq_some_iff.mp filled
          exact induction (distinct.define defined) rest
      | table | element =>
          cases filled
          exact distinct

theorem distinct_openTable (distinct : entries.Distinct)
    (opened : openTable path key body entries = some result) : result.Distinct := by
  refine distinct.alter ?_ opened
  intro origin inner grown changed inner_distinct
  dsimp only at changed
  split at changed
  case h_1 absent =>
    obtain ⟨held, -, same⟩ := Option.bind_eq_some_iff.mp changed
    cases same
    exact inner_distinct.concat (lookup_eq_none_iff.mp absent) _
  case h_2 =>
    obtain ⟨held, -, same⟩ := Option.bind_eq_some_iff.mp changed
    cases same
    exact inner_distinct.erase_concat ..
  case h_3 => cases changed

theorem distinct_openElement (distinct : entries.Distinct)
    (opened : openElement path key body entries = some result) : result.Distinct := by
  refine distinct.alter ?_ opened
  intro origin inner grown changed inner_distinct
  dsimp only at changed
  split at changed
  case h_1 absent =>
    obtain ⟨held, -, same⟩ := Option.bind_eq_some_iff.mp changed
    cases same
    exact inner_distinct.concat (lookup_eq_none_iff.mp absent) _
  case h_2 =>
    obtain ⟨held, -, same⟩ := Option.bind_eq_some_iff.mp changed
    cases same
    exact inner_distinct.replace ..
  case h_3 => cases changed

theorem distinct_addHeaders (distinct : entries.Distinct)
    (added : addHeaders lines entries = some result) : result.Distinct := by
  induction lines generalizing entries with
  | nil =>
      cases added
      exact distinct
  | cons line lines induction =>
      cases line with
      | entry => exact induction distinct added
      | table path key =>
          obtain ⟨grown, opened, rest⟩ := Option.bind_eq_some_iff.mp added
          exact induction (distinct_openTable distinct opened) rest
      | element path key =>
          obtain ⟨grown, opened, rest⟩ := Option.bind_eq_some_iff.mp added
          exact induction (distinct_openElement distinct opened) rest

/-- The entries of a document have different keys. -/
theorem distinct_of_read? {text : String} (read : read? text = some entries) :
    entries.Distinct := by
  obtain ⟨lines, -, made⟩ := Option.bind_eq_some_iff.mp read
  obtain ⟨top, filled, added⟩ := Option.bind_eq_some_iff.mp made
  have nothing : Distinct [] := List.nodup_nil
  exact distinct_addHeaders (distinct_fill nothing filled) added

end Document

end Toml

end HostBridge
