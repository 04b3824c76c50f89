import HostBridge.Proofs.Layout.Naming
import HostBridge.Proofs.Text.ByteOrder
import Mathlib.Data.Finset.Card
import Mathlib.Data.List.Sort

/-!
# Tables by their writes

A layout table is what was written to it: the last registration of a member and of a size counts,
and a record is known once a registration names it. All answers follow from these last writes, also
the listings, since a listing in strict order is determined by what it lists.
-/

namespace HostBridge

namespace LayoutTable

/-- One registration in a table. -/
inductive Write where
  /-- A member. -/
  | member (record name : String) (place : Member)
  /-- The size of a record. -/
  | size (record : String) (bytes : UInt32)
deriving DecidableEq, Repr

namespace Write

/-- The record that a registration names. -/
def record : Write → String
  | .member record _ _ => record
  | .size record _ => record

/-- The record and the name of a member that is registered. -/
def member? : Write → Option (String × String)
  | .member record name _ => some (record, name)
  | .size _ _ => none

/-- The place that a registration gives to a member. -/
def placeOf (record name : String) : Write → Option Member
  | .member record' name' place => if record' = record ∧ name' = name then some place else none
  | .size _ _ => none

/-- The size that a registration gives to a record. -/
def sizeOf (record : String) : Write → Option UInt32
  | .member _ _ _ => none
  | .size record' bytes => if record' = record then some bytes else none

/-- The table after a registration. -/
def apply (table : LayoutTable) : Write → LayoutTable
  | .member record name place => table.register record name place
  | .size record bytes => table.registerSize record bytes

end Write

/-- The table after registrations in a table that knew nothing. -/
def ofWrites (writes : List Write) : LayoutTable := writes.foldl Write.apply .empty

/-- The place that the last registration of a member gives to it. -/
def lastPlace? (writes : List Write) (record name : String) : Option Member :=
  writes.reverse.findSome? (Write.placeOf record name)

/-- The size that the last registration of a record's size gives to it. -/
def lastSize? (writes : List Write) (record : String) : Option UInt32 :=
  writes.reverse.findSome? (Write.sizeOf record)

/-- Some registration names the record. -/
def Names (writes : List Write) (record : String) : Prop := record ∈ writes.map Write.record

variable {table : LayoutTable} {writes : List Write} {record name : String}

/-! ## One more write -/

theorem ofWrites_append_singleton (writes : List Write) (write : Write) :
    ofWrites (writes ++ [write]) = write.apply (ofWrites writes) := by
  rw [ofWrites, List.foldl_append]
  rfl

theorem lastPlace?_append_singleton (writes : List Write) (write : Write)
    (record name : String) :
    lastPlace? (writes ++ [write]) record name =
      (write.placeOf record name).or (lastPlace? writes record name) := by
  rw [lastPlace?, List.reverse_append, List.reverse_singleton, List.singleton_append,
    List.findSome?_cons]
  cases write.placeOf record name <;> rfl

theorem lastSize?_append_singleton (writes : List Write) (write : Write) (record : String) :
    lastSize? (writes ++ [write]) record =
      (write.sizeOf record).or (lastSize? writes record) := by
  rw [lastSize?, List.reverse_append, List.reverse_singleton, List.singleton_append,
    List.findSome?_cons]
  cases write.sizeOf record <;> rfl

theorem member?_apply (write : Write) (table : LayoutTable) (record name : String) :
    (write.apply table).member? record name =
      (write.placeOf record name).or (table.member? record name) := by
  cases write with
  | member record' name' place =>
      rw [Write.apply, member?_register, Write.placeOf]
      split <;> rfl
  | size record' bytes =>
      rw [Write.apply, member?, registerSize, Dictionary.get?_insert, member?, Write.placeOf]
      by_cases same : record' = record
      · subst same
        cases table.records.get? record' <;> simp [Dictionary.get?]
      · simp [same]

theorem sizeOf?_apply (write : Write) (table : LayoutTable) (record : String) :
    (write.apply table).sizeOf? record = (write.sizeOf record).or (table.sizeOf? record) := by
  cases write with
  | member => rfl
  | size record' bytes =>
      rw [Write.apply, sizeOf?, registerSize, Dictionary.get?_insert, Write.sizeOf]
      split <;> rfl

theorem knows_apply (write : Write) (table : LayoutTable) (record : String) :
    (write.apply table).Knows record ↔ write.record = record ∨ table.Knows record := by
  cases write with
  | member record' name' place => exact knows_register record' name' place table
  | size record' bytes => exact knows_registerSize record' bytes table

/-! ## All writes -/

theorem member?_ofWrites (writes : List Write) (record name : String) :
    (ofWrites writes).member? record name = lastPlace? writes record name := by
  induction writes using List.reverseRecOn with
  | nil => rfl
  | append_singleton writes write induction =>
      rw [ofWrites_append_singleton, lastPlace?_append_singleton, member?_apply, induction]

theorem sizeOf?_ofWrites (writes : List Write) (record : String) :
    (ofWrites writes).sizeOf? record = lastSize? writes record := by
  induction writes using List.reverseRecOn with
  | nil => rfl
  | append_singleton writes write induction =>
      rw [ofWrites_append_singleton, lastSize?_append_singleton, sizeOf?_apply, induction]

theorem names_append_singleton (writes : List Write) (write : Write) (record : String) :
    Names (writes ++ [write]) record ↔ write.record = record ∨ Names writes record := by
  rw [Names, List.map_append, List.mem_append, or_comm, List.map_singleton, List.mem_singleton,
    eq_comm]
  rfl

theorem knows_ofWrites (writes : List Write) (record : String) :
    (ofWrites writes).Knows record ↔ Names writes record := by
  induction writes using List.reverseRecOn with
  | nil => exact iff_of_false nofun nofun
  | append_singleton writes write induction =>
      rw [ofWrites_append_singleton, knows_apply, names_append_singleton, induction]

/-- A record is named by its last writes: that of its size, or that of one of its members. -/
theorem names_iff (writes : List Write) (record : String) :
    Names writes record ↔
      (lastSize? writes record).isSome = true ∨
        ∃ name, (lastPlace? writes record name).isSome = true := by
  induction writes using List.reverseRecOn with
  | nil => simp [Names, lastSize?, lastPlace?]
  | append_singleton writes write induction =>
      have own : write.record = record ↔ (write.sizeOf record).isSome = true ∨
          ∃ name, (write.placeOf record name).isSome = true := by
        cases write <;> simp [Write.sizeOf, Write.placeOf, Write.record]
      simp only [names_append_singleton, own, induction, lastSize?_append_singleton,
        lastPlace?_append_singleton, Option.isSome_or, Bool.or_eq_true, exists_or]
      exact or_or_or_comm ..

/-! ## Keys -/

/-- No record is in the table twice, and no record has a member twice. -/
structure Keyed (table : LayoutTable) : Prop where
  records : (table.records.map (·.1)).Nodup
  members : ∀ record members, table.records.get? record = some members →
    (members.map (·.1)).Nodup

namespace Keyed

/-- The members of a record that may be unknown. -/
theorem getD (keyed : table.Keyed) (record : String) :
    (((table.records.get? record).getD []).map (·.1)).Nodup := by
  cases found : table.records.get? record with
  | none => exact .nil
  | some members => exact keyed.members record members found

/-- Giving a record members with distinct names. -/
theorem insert (keyed : table.Keyed) {members : Dictionary Member}
    (distinct : (members.map (·.1)).Nodup) (record : String) (sizes : Dictionary UInt32) :
    Keyed { records := table.records.insert record members, sizes } where
  records := Dictionary.nodup_keys_insert keyed.records record members
  members other found listed := by
    dsimp only at listed
    rw [Dictionary.get?_insert] at listed
    split at listed
    · cases listed
      exact distinct
    · exact keyed.members other found listed

theorem apply (keyed : table.Keyed) (write : Write) : (write.apply table).Keyed := by
  cases write with
  | member record name place =>
      exact keyed.insert (Dictionary.nodup_keys_insert (keyed.getD record) name place) record _
  | size record bytes => exact keyed.insert (keyed.getD record) record _

theorem ofWrites (writes : List Write) : (ofWrites writes).Keyed := by
  induction writes using List.reverseRecOn with
  | nil => exact ⟨.nil, nofun⟩
  | append_singleton writes write induction =>
      rw [ofWrites_append_singleton]
      exact induction.apply write

end Keyed

/-! ## Listings -/

theorem mem_of_membersOf (keyed : table.Keyed) {members : Dictionary Member}
    (found : table.records.get? record = some members) {member : Member} :
    (name, member) ∈ members ↔ table.member? record name = some member := by
  rw [member?, found, Option.bind_some]
  exact ⟨Dictionary.get?_of_mem (keyed.members record members found), Dictionary.mem_of_get?⟩

/-- The members of a known record are listed in strict order, each with its place. -/
theorem exists_fields (keyed : table.Keyed) (known : table.Knows record) :
    ∃ listing, table.fields record = .ok listing ∧ listing.Pairwise Precedes ∧
      ∀ name member, (name, member) ∈ listing ↔ table.member? record name = some member := by
  obtain ⟨members, found⟩ := Option.isSome_iff_exists.mp known
  refine ⟨members.mergeSort listedBefore, ?_,
    pairwise_precedes (keyed.members record members found), ?_⟩
  · rw [fields, membersOf, found]
    rfl
  · intro name member
    rw [List.mem_mergeSort]
    exact mem_of_membersOf keyed found

theorem fields_of_not_knows (unknown : ¬table.Knows record) :
    table.fields record = .error (.unknownRecord record) := by
  rw [Knows, Option.not_isSome_iff_eq_none] at unknown
  rw [fields, membersOf, unknown]
  rfl

/-- Records and names of all members. -/
def memberNames (table : LayoutTable) : List (String × String) :=
  table.records.flatMap fun entry => entry.2.map fun member => (entry.1, member.1)

theorem length_memberNames (table : LayoutTable) :
    table.memberNames.length = table.memberCount := by
  rw [memberNames, memberCount, List.length_flatMap, List.length_flatMap]
  simp only [List.length_map]

theorem mem_memberNames (keyed : table.Keyed) :
    (record, name) ∈ table.memberNames ↔ (table.member? record name).isSome = true := by
  rw [memberNames, List.mem_flatMap]
  constructor
  · rintro ⟨⟨record', members⟩, entry_mem, listed⟩
    obtain ⟨member, member_mem, same⟩ := List.mem_map.mp listed
    obtain ⟨rfl, rfl⟩ := Prod.mk.inj same
    have found := Dictionary.get?_of_mem keyed.records entry_mem
    rw [(mem_of_membersOf keyed found).mp member_mem]
    rfl
  · intro some_member
    obtain ⟨member, is_member⟩ := Option.isSome_iff_exists.mp some_member
    rw [member?, Option.bind_eq_some_iff] at is_member
    obtain ⟨members, found, listed⟩ := is_member
    exact ⟨(record, members), Dictionary.mem_of_get? found,
      List.mem_map.mpr ⟨(name, member), Dictionary.mem_of_get? listed, rfl⟩⟩

theorem nodup_memberNames (keyed : table.Keyed) : table.memberNames.Nodup := by
  rw [memberNames, List.nodup_flatMap]
  constructor
  · rintro ⟨record, members⟩ entry_mem
    have distinct := keyed.members record members (Dictionary.get?_of_mem keyed.records entry_mem)
    have names := distinct.map (Prod.mk_right_injective record)
    rwa [List.map_map] at names
  · refine (List.pairwise_map.mp keyed.records).imp ?_
    intro left right different pair first second
    obtain ⟨member, -, rfl⟩ := List.mem_map.mp first
    obtain ⟨other, -, same⟩ := List.mem_map.mp second
    exact different (Prod.mk.inj same).1.symm

theorem isSome_lastPlace? (writes : List Write) (record name : String) :
    (lastPlace? writes record name).isSome = true ↔
      (record, name) ∈ writes.filterMap Write.member? := by
  rw [lastPlace?, List.findSome?_isSome_iff, List.mem_filterMap]
  simp only [List.mem_reverse]
  refine exists_congr fun write => and_congr_right fun _ => ?_
  cases write <;> simp [Write.placeOf, Write.member?]

/-- The members are counted by the pairs that were registered. -/
theorem memberCount_ofWrites (writes : List Write) :
    (ofWrites writes).memberCount = (writes.filterMap Write.member?).toFinset.card := by
  have keyed := Keyed.ofWrites writes
  rw [← length_memberNames, ← List.toFinset_card_of_nodup (nodup_memberNames keyed)]
  congr 1
  ext ⟨record, name⟩
  rw [List.mem_toFinset, List.mem_toFinset, mem_memberNames keyed, member?_ofWrites,
    isSome_lastPlace?]

/-! ## Determined answers -/

/-- A listing in strict order is determined by what it lists. -/
theorem listing_unique {α : Type} {before : α → α → Prop}
    (asymmetric : ∀ left right, before left right → ¬before right left)
    {listing listing' : List α} (ordered : listing.Pairwise before)
    (ordered' : listing'.Pairwise before) (same : ∀ entry, entry ∈ listing ↔ entry ∈ listing') :
    listing = listing' := by
  have distinct {entries : List α} (sorted : entries.Pairwise before) : entries.Nodup :=
    sorted.imp fun {left right} first equal => by
      subst equal
      exact asymmetric left left first first
  have perm := (List.perm_ext_iff_of_nodup (distinct ordered) (distinct ordered')).mpr same
  exact perm.eq_of_pairwise (fun left right _ _ first second =>
    (asymmetric left right first second).elim) ordered ordered'

theorem precedes_asymm (left right : String × Member) (first : Precedes left right) :
    ¬Precedes right left := by
  intro second
  rcases first with lower | ⟨same, named⟩
  · rcases second with lower' | ⟨same', -⟩
    · exact UInt32.lt_asymm lower lower'
    · exact UInt32.lt_irrefl _ (same' ▸ lower)
  · rcases second with lower' | ⟨-, named'⟩
    · exact UInt32.lt_irrefl _ (same ▸ lower')
    · exact String.lt_asymm named named'

theorem mem_recordNames (writes : List Write) (record : String) :
    record ∈ (ofWrites writes).recordNames ↔ Names writes record := by
  rw [recordNames, Dictionary.mem_sortedKeys]
  exact knows_ofWrites writes record

theorem pairwise_recordNames (keyed : table.Keyed) :
    table.recordNames.Pairwise fun left right => Text.bytes left < Text.bytes right :=
  (Dictionary.pairwise_sortedKeys keyed.records).imp fun {left right} =>
    (Text.lt_iff_bytes_lt left right).mp

theorem isEmpty_eq (table : LayoutTable) : table.isEmpty = table.recordNames.isEmpty := by
  have length_eq : table.recordNames.length = table.records.length := by
    rw [recordNames, Dictionary.sortedKeys, List.length_mergeSort, List.length_map]
  rw [isEmpty, Bool.eq_iff_iff, List.isEmpty_iff_length_eq_zero, List.isEmpty_iff_length_eq_zero,
    length_eq]

/-- Two tables give the same answer to every question. -/
structure SameAnswers (table other : LayoutTable) : Prop where
  lookup : table.lookup = other.lookup
  has : table.has = other.has
  offsetOf : table.offsetOf = other.offsetOf
  sizeOf? : table.sizeOf? = other.sizeOf?
  memberCount : table.memberCount = other.memberCount
  recordNames : table.recordNames = other.recordNames
  fields : table.fields = other.fields
  isEmpty : table.isEmpty = other.isEmpty

/-- The last writes determine every answer. -/
theorem sameAnswers_of_last {writes others : List Write}
    (places : ∀ record name, lastPlace? writes record name = lastPlace? others record name)
    (sizes : ∀ record, lastSize? writes record = lastSize? others record) :
    SameAnswers (ofWrites writes) (ofWrites others) := by
  have keyed := Keyed.ofWrites writes
  have keyed' := Keyed.ofWrites others
  have names (record : String) : Names writes record ↔ Names others record := by
    rw [names_iff, names_iff, sizes]
    simp only [places]
  have known (record : String) :
      (ofWrites writes).Knows record ↔ (ofWrites others).Knows record := by
    rw [knows_ofWrites, knows_ofWrites, names]
  have lookup : (ofWrites writes).lookup = (ofWrites others).lookup := by
    funext record name
    exact lookup_congr (known record) (by rw [member?_ofWrites, member?_ofWrites, places])
  have recordNames : (ofWrites writes).recordNames = (ofWrites others).recordNames :=
    listing_unique (fun _ _ => List.lt_asymm) (pairwise_recordNames keyed)
      (pairwise_recordNames keyed') fun record => by
        rw [mem_recordNames, mem_recordNames, names]
  refine ⟨lookup, ?_, ?_, ?_, ?_, recordNames, ?_, ?_⟩
  · funext record name
    rw [Bool.eq_iff_iff, has_eq_true, has_eq_true, member?_ofWrites, member?_ofWrites, places]
  · funext record name
    rw [offsetOf, offsetOf, lookup]
  · funext record
    rw [sizeOf?_ofWrites, sizeOf?_ofWrites, sizes]
  · rw [memberCount_ofWrites, memberCount_ofWrites]
    congr 1
    ext ⟨record, name⟩
    rw [List.mem_toFinset, List.mem_toFinset, ← isSome_lastPlace?, ← isSome_lastPlace?, places]
  · funext record
    by_cases here : (ofWrites writes).Knows record
    · obtain ⟨listing, listed, ordered, mem⟩ := exists_fields keyed here
      obtain ⟨listing', listed', ordered', mem'⟩ := exists_fields keyed' ((known record).mp here)
      rw [listed, listed', listing_unique precedes_asymm ordered ordered']
      rintro ⟨name, member⟩
      rw [mem, mem', member?_ofWrites, member?_ofWrites, places]
    · rw [fields_of_not_knows here, fields_of_not_knows (mt (known record).mpr here)]
  · rw [isEmpty_eq, isEmpty_eq, recordNames]

/-- A table answers by the last writes to it: a member is found at the place that was registered
last, records are known by any registration, sizes are the last ones, pairs count once, and listings
are in strict order. Whatever ends in the same last writes gives the same answers. -/
theorem answers_of_writes (writes : List Write) :
    let table := ofWrites writes
    (∀ record name,
      (∀ member, lastPlace? writes record name = some member →
        table.lookup record name = .ok member) ∧
      (lastPlace? writes record name = none → Names writes record →
        table.lookup record name = .error (.unknownMember record name)) ∧
      (¬Names writes record → table.lookup record name = .error (.unknownRecord record)) ∧
      (table.has record name = true ↔ ∃ member, table.lookup record name = .ok member) ∧
      table.offsetOf record name = (table.lookup record name).map (·.offset)) ∧
    (∀ record, table.sizeOf? record = lastSize? writes record) ∧
    table.memberCount = (writes.filterMap Write.member?).toFinset.card ∧
    (table.recordNames.Pairwise fun left right => Text.bytes left < Text.bytes right) ∧
    (∀ record, record ∈ table.recordNames ↔ Names writes record) ∧
    (∀ record, Names writes record →
      ∃ listing, table.fields record = .ok listing ∧ listing.Pairwise Precedes ∧
        ∀ name member, (name, member) ∈ listing ↔ lastPlace? writes record name = some member) ∧
    (∀ record, ¬Names writes record → table.fields record = .error (.unknownRecord record)) ∧
    ∀ others,
      (∀ record name, lastPlace? writes record name = lastPlace? others record name) →
      (∀ record, lastSize? writes record = lastSize? others record) →
        SameAnswers table (ofWrites others) := by
  intro table
  have keyed := Keyed.ofWrites writes
  have known := knows_ofWrites writes
  have place := member?_ofWrites writes
  refine ⟨fun record name => ⟨?_, ?_, ?_, ?_, rfl⟩, sizeOf?_ofWrites writes,
    memberCount_ofWrites writes, pairwise_recordNames keyed, mem_recordNames writes, ?_, ?_,
    fun others => sameAnswers_of_last⟩
  · intro member last
    exact lookup_eq_ok.mpr ((place record name).trans last)
  · intro missing named
    exact lookup_eq_unknownMember.mpr ⟨(known record).mpr named, (place record name).trans missing⟩
  · intro unnamed
    exact lookup_eq_unknownRecord.mpr (mt (known record).mp unnamed)
  · rw [has_eq_true, Option.isSome_iff_exists]
    exact exists_congr fun member => lookup_eq_ok.symm
  · intro record named
    obtain ⟨listing, listed, ordered, mem⟩ := exists_fields keyed ((known record).mpr named)
    exact ⟨listing, listed, ordered, fun name member => (mem name member).trans (by rw [place])⟩
  · intro record unnamed
    exact fields_of_not_knows (mt (known record).mp unnamed)

/-- A record of which a member is moved in front of another one, and one of which only the size is
registered. The name of the second one comes after that of the first by its bytes. -/
def Write.sample : List Write :=
  [.member "Box" "value" { offset := 8, type := .pointer },
    .size "\u00c9tui" 3,
    .member "Box" "flags" { offset := 4, type := .uint32 },
    .size "Box" 12,
    .member "Box" "value" { offset := 0, type := .int32 },
    .size "Box" 8]

theorem answers_of_writes_sample :
    let table := ofWrites Write.sample
    table.lookup "Box" "value" = .ok { offset := 0, type := .int32 } ∧
      table.lookup "\u00c9tui" "lid" = .error (.unknownMember "\u00c9tui" "lid") ∧
      table.lookup "Crate" "lid" = .error (.unknownRecord "Crate") ∧
      table.memberCount = 2 ∧ table.sizeOf? "Box" = some 8 ∧
      SameAnswers table (ofWrites
        [.size "\u00c9tui" 3, .member "Box" "value" { offset := 0, type := .int32 },
          .size "Box" 8, .member "Box" "flags" { offset := 4, type := .uint32 }]) := by
  obtain ⟨found, sized, counted, -, -, -, -, same⟩ := answers_of_writes Write.sample
  refine ⟨(found "Box" "value").1 _ (by decide), (found "\u00c9tui" "lid").2.1 (by decide) ?_,
    (found "Crate" "lid").2.2.1 ?_, counted.trans (by decide +kernel),
    (sized "Box").trans (by decide), same _ ?_ ?_⟩
  · rw [Names]
    decide
  · rw [Names]
    decide
  · intro record name
    simp only [lastPlace?, Write.sample, List.reverse_cons, List.reverse_nil, List.nil_append,
      List.cons_append, List.findSome?_cons, List.findSome?_nil, Write.placeOf]
    grind
  · intro record
    simp only [lastSize?, Write.sample, List.reverse_cons, List.reverse_nil, List.nil_append,
      List.cons_append, List.findSome?_cons, List.findSome?_nil, Write.sizeOf]
    grind

end LayoutTable

end HostBridge
