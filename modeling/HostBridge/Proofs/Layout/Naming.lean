import HostBridge.Proofs.Layout.Declaration
import HostBridge.Proofs.Layout.Resolution
import HostBridge.Proofs.Layout.Table
import Mathlib.Data.List.Nodup

/-!
# The names of members

A member is called by the labels on the way to it, with dots between them. Where every level of a
record has distinct labels without dots, a name can be read back as a way, and no two members have
the same name. Registering the members of such a record one after the other then keeps them all.
-/

namespace HostBridge

namespace Slot

/-! ## Labels -/

mutual

/-- The labels that a slot brings to the level that it stands in: its name, or those of its slots if
it is a struct without a name. -/
def labels (config : BuildConfig) : Slot → List String
  | .field name _ | .array name _ _ | .union name _ => [name]
  | .embed name slots => if name.isEmpty then labelsOf config slots else [name]
  | .optional feature slot => if config.has feature then labels config slot else []

/-- The labels of slots that stand beside each other. -/
def labelsOf (config : BuildConfig) : List Slot → List String
  | [] => []
  | slot :: slots => labels config slot ++ labelsOf config slots

end

mutual

/-- The levels inside a slot, each with its labels. -/
def levels (config : BuildConfig) : Slot → List (List String)
  | .field _ _ | .array _ _ _ => []
  | .embed name slots =>
      if name.isEmpty then levelsOf config slots
      else labelsOf config slots :: levelsOf config slots
  | .union _ variants => labelsOf config variants :: levelsOf config variants
  | .optional feature slot => if config.has feature then levels config slot else []

/-- The levels inside slots that stand beside each other. -/
def levelsOf (config : BuildConfig) : List Slot → List (List String)
  | [] => []
  | slot :: slots => levels config slot ++ levelsOf config slots

end

mutual

/-- The ways to the members of a slot, label by label. -/
def paths (config : BuildConfig) : Slot → List (List String)
  | .field name _ | .array name _ _ => [[name]]
  | .embed name slots =>
      if name.isEmpty then pathsOf config slots else (pathsOf config slots).map (name :: ·)
  | .union name variants => (pathsOf config variants).map (name :: ·)
  | .optional feature slot => if config.has feature then paths config slot else []

/-- The ways to the members of slots that stand beside each other. -/
def pathsOf (config : BuildConfig) : List Slot → List (List String)
  | [] => []
  | slot :: slots => paths config slot ++ pathsOf config slots

end

variable {config : BuildConfig} {slot : Slot} {slots : List Slot} {path : List String}

theorem mem_pathsOf :
    path ∈ pathsOf config slots ↔ ∃ slot ∈ slots, path ∈ slot.paths config := by
  induction slots with
  | nil => simp [pathsOf]
  | cons slot slots induction => simp [pathsOf, induction]

theorem mem_labelsOf {label : String} :
    label ∈ labelsOf config slots ↔ ∃ slot ∈ slots, label ∈ slot.labels config := by
  induction slots with
  | nil => simp [labelsOf]
  | cons slot slots induction => simp [labelsOf, induction]

theorem mem_levelsOf {level : List String} :
    level ∈ levelsOf config slots ↔ ∃ slot ∈ slots, level ∈ slot.levels config := by
  induction slots with
  | nil => simp [levelsOf]
  | cons slot slots induction => simp [levelsOf, induction]

/-- The way to a member starts with a label of the level that the slot stands in. -/
theorem exists_label_of_mem_paths (mem : path ∈ slot.paths config) :
    ∃ label ∈ slot.labels config, ∃ rest, path = label :: rest := by
  induction slot with
  | field name type | array name type length =>
      rw [paths, List.mem_singleton] at mem
      exact ⟨name, List.mem_singleton_self _, [], mem⟩
  | embed name slots induction =>
      rw [paths] at mem
      rw [labels]
      split at mem
      case isTrue unnamed =>
        rw [if_pos unnamed]
        obtain ⟨slot, slot_mem, inner⟩ := mem_pathsOf.mp mem
        obtain ⟨label, label_mem, found⟩ := induction slot slot_mem inner
        exact ⟨label, mem_labelsOf.mpr ⟨slot, slot_mem, label_mem⟩, found⟩
      case isFalse named =>
        rw [if_neg named]
        obtain ⟨rest, -, rfl⟩ := List.mem_map.mp mem
        exact ⟨name, List.mem_singleton_self _, rest, rfl⟩
  | union name variants =>
      rw [paths] at mem
      obtain ⟨rest, -, rfl⟩ := List.mem_map.mp mem
      exact ⟨name, List.mem_singleton_self _, rest, rfl⟩
  | optional feature slot induction =>
      rw [paths] at mem
      rw [labels]
      split at mem
      case isTrue present =>
        rw [if_pos present]
        exact induction mem
      case isFalse => cases mem

/-- Every label on the way to a member stands in some level. -/
theorem mem_level_of_mem_pathsOf {label : String}
    (each : ∀ slot ∈ slots, ∀ path ∈ slot.paths config, label ∈ path →
      label ∈ slot.labels config ∨ ∃ level ∈ slot.levels config, label ∈ level)
    (mem : path ∈ pathsOf config slots) (on_way : label ∈ path) :
    label ∈ labelsOf config slots ∨ ∃ level ∈ levelsOf config slots, label ∈ level := by
  obtain ⟨slot, slot_mem, inner⟩ := mem_pathsOf.mp mem
  rcases each slot slot_mem path inner on_way with here | ⟨level, level_mem, there⟩
  · exact .inl (mem_labelsOf.mpr ⟨slot, slot_mem, here⟩)
  · exact .inr ⟨level, mem_levelsOf.mpr ⟨slot, slot_mem, level_mem⟩, there⟩

/-- The same, where the slots have a name around them. -/
theorem mem_level_below {label name : String}
    (each : ∀ slot ∈ slots, ∀ path ∈ slot.paths config, label ∈ path →
      label ∈ slot.labels config ∨ ∃ level ∈ slot.levels config, label ∈ level)
    (mem : path ∈ (pathsOf config slots).map (name :: ·)) (on_way : label ∈ path) :
    label ∈ [name] ∨ ∃ level ∈ labelsOf config slots :: levelsOf config slots, label ∈ level := by
  obtain ⟨rest, rest_mem, rfl⟩ := List.mem_map.mp mem
  rcases List.mem_cons.mp on_way with rfl | below
  · exact .inl (List.mem_singleton_self _)
  · refine .inr ?_
    rcases mem_level_of_mem_pathsOf each rest_mem below with here | ⟨level, level_mem, there⟩
    · exact ⟨_, List.mem_cons_self, here⟩
    · exact ⟨level, List.mem_cons_of_mem _ level_mem, there⟩

theorem mem_level_of_mem_paths {label : String} (slot : Slot) :
    ∀ path ∈ slot.paths config, label ∈ path →
      label ∈ slot.labels config ∨ ∃ level ∈ slot.levels config, label ∈ level := by
  induction slot with
  | field name type | array name type length =>
      intro path mem on_way
      rw [paths, List.mem_singleton] at mem
      subst mem
      exact .inl on_way
  | embed name slots induction =>
      intro path mem on_way
      by_cases unnamed : name.isEmpty = true
      · simp only [paths, labels, levels, unnamed, if_true] at mem ⊢
        exact mem_level_of_mem_pathsOf induction mem on_way
      · simp only [paths, labels, levels, unnamed] at mem ⊢
        exact mem_level_below induction mem on_way
  | union name variants induction =>
      intro path mem on_way
      exact mem_level_below induction mem on_way
  | optional feature slot induction =>
      by_cases present : config.has feature = true
      · simpa only [paths, labels, levels, present, if_true] using induction
      · simp [paths, present]

/-- The ways to members in different slots part at the first label. -/
theorem nodup_pathsOf
    (each : ∀ slot ∈ slots, (slot.labels config).Nodup →
      (∀ level ∈ slot.levels config, level.Nodup) → (slot.paths config).Nodup)
    (own : (labelsOf config slots).Nodup)
    (inner : ∀ level ∈ levelsOf config slots, level.Nodup) : (pathsOf config slots).Nodup := by
  induction slots with
  | nil => exact .nil
  | cons slot slots induction =>
      rw [labelsOf, List.nodup_append'] at own
      obtain ⟨here, later, apart⟩ := own
      rw [levelsOf, List.forall_mem_append] at inner
      rw [pathsOf, List.nodup_append']
      refine ⟨each slot List.mem_cons_self here inner.1,
        induction (fun slot mem => each slot (List.mem_cons_of_mem _ mem)) later inner.2, ?_⟩
      intro path first second
      obtain ⟨label, label_mem, rest, rfl⟩ := exists_label_of_mem_paths first
      obtain ⟨other, other_mem, second⟩ := mem_pathsOf.mp second
      obtain ⟨label', label_mem', rest', same⟩ := exists_label_of_mem_paths second
      obtain ⟨rfl, -⟩ := List.cons.inj same
      exact apart label_mem (mem_labelsOf.mpr ⟨other, other_mem, label_mem'⟩)

/-- Where every level has distinct labels, every member has a way of its own. -/
theorem nodup_paths (slot : Slot) (own : (slot.labels config).Nodup)
    (inner : ∀ level ∈ slot.levels config, level.Nodup) : (slot.paths config).Nodup := by
  have below {name : String} {slots : List Slot} (distinct : (pathsOf config slots).Nodup) :
      ((pathsOf config slots).map (name :: ·)).Nodup :=
    distinct.map fun _ _ => List.tail_eq_of_cons_eq
  induction slot with
  | field | array => exact List.nodup_singleton _
  | embed name slots induction =>
      by_cases unnamed : name.isEmpty = true
      · simp only [paths, labels, levels, unnamed, if_true] at own inner ⊢
        exact nodup_pathsOf induction own inner
      · simp only [paths, levels, unnamed] at inner ⊢
        obtain ⟨level, inner⟩ := List.forall_mem_cons.mp inner
        exact below (nodup_pathsOf induction level inner)
  | union name variants induction =>
      obtain ⟨level, inner⟩ := List.forall_mem_cons.mp inner
      exact below (nodup_pathsOf induction level inner)
  | optional feature slot induction =>
      by_cases present : config.has feature = true
      · simp only [paths, labels, levels, present, if_true] at own inner ⊢
        exact induction own inner
      · simp [paths, present]

/-! ## Names -/

theorem names_declarationsFrom {outer : String} {branch : Nat → Branch} {index : Nat}
    (each : ∀ slot ∈ slots, ∀ outer, (slot.declarations config outer).map (·.name) =
      (slot.paths config).map (·.foldl Layout.join outer)) :
    (declarationsFrom config outer branch index slots).map (·.name) =
      (pathsOf config slots).map (·.foldl Layout.join outer) := by
  induction slots generalizing index with
  | nil => rfl
  | cons slot slots induction =>
      rw [declarationsFrom, pathsOf, List.map_append, List.map_append, List.map_map,
        induction fun slot mem => each slot (List.mem_cons_of_mem _ mem)]
      exact congrArg (· ++ _) (each slot List.mem_cons_self outer)

/-- The name of a member joins the labels on the way to it. -/
theorem names_declarations (slot : Slot) (outer : String) :
    (slot.declarations config outer).map (·.name) =
      (slot.paths config).map (·.foldl Layout.join outer) := by
  induction slot generalizing outer with
  | field | array => rfl
  | embed name slots induction =>
      rw [declarations, Layout.scope, paths]
      by_cases unnamed : name.isEmpty = true
      · rw [if_pos unnamed, if_pos unnamed]
        exact names_declarationsFrom induction
      · rw [if_neg unnamed, if_neg unnamed, List.map_map]
        exact names_declarationsFrom induction
  | union name variants induction =>
      rw [declarations, paths, List.map_map]
      exact names_declarationsFrom induction
  | optional feature slot induction =>
      rw [declarations, paths]
      split
      · exact induction outer
      · rfl

end Slot

namespace Layout

/-- A label that can be told from its neighbours in a dotted name. -/
def Plain (label : String) : Prop := label ≠ "" ∧ '.' ∉ label.toList

instance : DecidablePred Plain := fun _ => inferInstanceAs (Decidable (_ ∧ _))

theorem toList_foldl_join {outer : String} (named : outer ≠ "") (path : List String) :
    (path.foldl join outer).toList = ['.'].intercalate ((outer :: path).map String.toList) := by
  induction path generalizing outer with
  | nil => simp
  | cons label path induction =>
      have joined : join outer label = outer ++ "." ++ label := by simp [join, named]
      have longer : outer ++ "." ++ label ≠ "" := by simp [named]
      rw [List.foldl_cons, joined, induction longer]
      cases path <;> simp

/-- A name can be read back: it is split at its dots. -/
theorem splitOn_foldl_join {path : List String} (plain : ∀ label ∈ path, Plain label)
    (way : path ≠ []) : (path.foldl join "").toList.splitOn '.' = path.map String.toList := by
  cases path with
  | nil => exact (way rfl).elim
  | cons label path =>
      have first : join "" label = label := rfl
      rw [List.foldl_cons, first, toList_foldl_join (plain label List.mem_cons_self).1]
      refine List.splitOn_intercalate '.' (fun letters mem => ?_) (List.cons_ne_nil _ _)
      obtain ⟨other, other_mem, rfl⟩ := List.mem_map.mp mem
      exact (plain other other_mem).2

theorem foldl_join_injective {first second : List String}
    (first_plain : ∀ label ∈ first, Plain label) (second_plain : ∀ label ∈ second, Plain label)
    (first_way : first ≠ []) (second_way : second ≠ [])
    (same : first.foldl join "" = second.foldl join "") : first = second := by
  have letters : first.map String.toList = second.map String.toList := by
    rw [← splitOn_foldl_join first_plain first_way, same,
      splitOn_foldl_join second_plain second_way]
  exact List.map_injective_iff.mpr (fun _ _ => String.toList_inj.mp) letters

end Layout

namespace Record

/-- The levels of a record, each with its labels. -/
def levels (config : BuildConfig) (record : Record) : List (List String) :=
  Slot.labelsOf config record.slots :: Slot.levelsOf config record.slots

/-- At every level of the record, the labels are distinct and plain. -/
def WellLabelled (config : BuildConfig) (record : Record) : Prop :=
  ∀ level ∈ record.levels config, level.Nodup ∧ ∀ label ∈ level, Layout.Plain label

instance (config : BuildConfig) (record : Record) : Decidable (record.WellLabelled config) :=
  inferInstanceAs (Decidable (∀ level ∈ _, _))

variable {config : BuildConfig} {record : Record}

theorem names_placements (cut : Nat → Nat) (config : BuildConfig) (record : Record) :
    (record.placements cut config).map (·.name) =
      (record.slot.paths config).map (·.foldl Layout.join "") := by
  have titles := Layout.map_title_place cut config "" 0 record.slot
  rw [place_slot] at titles
  have names := congrArg (List.map Prod.fst) titles
  rw [List.map_map, List.map_map] at names
  exact names.trans (record.slot.names_declarations "")

/-- No two members of a well labelled record have the same name. -/
theorem WellLabelled.nodup_names (labelled : record.WellLabelled config) (cut : Nat → Nat) :
    ((record.placements cut config).map (·.name)).Nodup := by
  obtain ⟨outermost, inner⟩ := List.forall_mem_cons.mp labelled
  have distinct := record.slot.nodup_paths outermost.1 fun level mem => (inner level mem).1
  have plain (path) (mem : path ∈ record.slot.paths config) :
      ∀ label ∈ path, Layout.Plain label := by
    intro label on_way
    rcases record.slot.mem_level_of_mem_paths path mem on_way with here | ⟨level, level_mem, there⟩
    · exact outermost.2 label here
    · exact (inner level level_mem).2 label there
  have way (path) (mem : path ∈ record.slot.paths config) : path ≠ [] := by
    obtain ⟨label, -, rest, rfl⟩ := Slot.exists_label_of_mem_paths mem
    exact List.cons_ne_nil _ _
  rw [names_placements]
  refine distinct.map_on fun first first_mem second second_mem same => ?_
  exact Layout.foldl_join_injective (plain first first_mem) (plain second second_mem)
    (way first first_mem) (way second second_mem) same

end Record

/-! ## Registration -/

namespace LayoutTable

/-- A member is listed before another one: its offset is lower, or its name is where they have the
same offset. -/
def Precedes (left right : String × Member) : Prop :=
  left.2.offset < right.2.offset ∨ left.2.offset = right.2.offset ∧ left.1 < right.1

theorem listedBefore_iff {left right : String × Member} :
    listedBefore left right = true ↔
      left.2.offset < right.2.offset ∨ left.2.offset = right.2.offset ∧ left.1 ≤ right.1 := by
  rw [listedBefore]
  split
  case isTrue same => simp [same]
  case isFalse different => simp [different]

theorem listedBefore_trans (first second third : String × Member)
    (begins : listedBefore first second = true) (goesOn : listedBefore second third = true) :
    listedBefore first third = true := by
  rw [listedBefore_iff] at *
  rcases begins with lower | ⟨same, named⟩
  · rcases goesOn with lower' | ⟨same', -⟩
    · exact .inl (UInt32.lt_trans lower lower')
    · exact .inl (same' ▸ lower)
  · rcases goesOn with lower' | ⟨same', named'⟩
    · exact .inl (same ▸ lower')
    · exact .inr ⟨same.trans same', String.le_trans named named'⟩

theorem listedBefore_total (left right : String × Member) :
    (listedBefore left right || listedBefore right left) = true := by
  rw [Bool.or_eq_true, listedBefore_iff, listedBefore_iff]
  by_cases same : left.2.offset = right.2.offset
  · rcases String.le_total left.1 right.1 with named | named
    · exact .inl (.inr ⟨same, named⟩)
    · exact .inr (.inr ⟨same.symm, named⟩)
  · rcases UInt32.lt_or_lt_of_ne same with lower | higher
    · exact .inl (.inl lower)
    · exact .inr (.inl higher)

/-- A listing has the members in order, each once. -/
theorem pairwise_precedes {members : List (String × Member)}
    (distinct : (members.map (·.1)).Nodup) :
    (members.mergeSort listedBefore).Pairwise Precedes := by
  have ordered : (members.mergeSort listedBefore).Pairwise (listedBefore · · = true) :=
    List.pairwise_mergeSort listedBefore_trans listedBefore_total members
  have apart : (members.mergeSort listedBefore).Pairwise (·.1 ≠ ·.1) := by
    have perm := (List.mergeSort_perm members listedBefore).map (·.1)
    exact List.pairwise_map.mp (perm.nodup_iff.mpr distinct)
  refine (ordered.and apart).imp ?_
  rintro left right ⟨before, different⟩
  rcases listedBefore_iff.mp before with lower | ⟨same, named⟩
  · exact .inl lower
  · exact .inr ⟨same, Std.lt_of_le_of_ne named different⟩

theorem has_eq_true {table : LayoutTable} {record name : String} :
    table.has record name = true ↔ (table.member? record name).isSome = true := by
  rw [has, member?]
  cases table.records.get? record <;> rfl

end LayoutTable

namespace Builtin

open LayoutTable

variable {record : String} {members earlier : List (String × Member)} {table : LayoutTable}

/-- Members with new names are added to those of their record. -/
theorem records_registerMembers_of_known (known : table.records = [(record, earlier)])
    (distinct : ((earlier ++ members).map (·.1)).Nodup) :
    (registerMembers record members table).records = [(record, earlier ++ members)] := by
  induction members generalizing table earlier with
  | nil => simpa [registerMembers] using known
  | cons entry members induction =>
      have fresh : entry.1 ∉ earlier.map (·.1) := by
        rw [List.map_append, List.map_cons] at distinct
        intro listed
        exact (List.nodup_append'.mp distinct).2.2 listed List.mem_cons_self
      have registered : (table.register record entry.1 entry.2).records =
          [(record, earlier ++ [entry])] := by
        simp [register, known, Dictionary.get?, Dictionary.insert,
          Dictionary.insert_eq_append fresh]
      rw [List.append_cons] at distinct ⊢
      exact induction registered distinct

/-- A table that was empty then has the members as they were given. -/
theorem records_registerMembers (some_member : members ≠ [])
    (distinct : (members.map (·.1)).Nodup) :
    (registerMembers record members .empty).records = [(record, members)] := by
  cases members with
  | nil => exact (some_member rfl).elim
  | cons entry members =>
      have first : (LayoutTable.empty.register record entry.1 entry.2).records =
        [(record, [entry])] := rfl
      exact records_registerMembers_of_known first distinct

section Distinct

variable (distinct : (members.map (·.1)).Nodup)
include distinct

theorem member?_registerMembers (other name : String) :
    (registerMembers record members .empty).member? other name =
      if record = other then Dictionary.get? name members else none := by
  by_cases nothing : members = []
  · subst nothing
    simp [registerMembers, LayoutTable.empty, member?, Dictionary.get?]
  · rw [member?, records_registerMembers nothing distinct]
    by_cases same : record = other <;> simp [Dictionary.get?, same]

theorem lookup_registerMembers {name : String} {member : Member}
    (listed : (name, member) ∈ members) :
    (registerMembers record members .empty).lookup record name = .ok member := by
  rw [lookup_eq_ok, member?_registerMembers distinct, if_pos rfl]
  exact Dictionary.get?_of_mem distinct listed

theorem has_registerMembers (other name : String) :
    (registerMembers record members .empty).has other name = true ↔
      other = record ∧ name ∈ members.map (·.1) := by
  rw [has_eq_true, member?_registerMembers distinct]
  by_cases same : record = other
  · simp only [same, if_true, true_and]
    exact Dictionary.isSome_get? members name
  · simp [same, Ne.symm same]

theorem memberCount_registerMembers :
    (registerMembers record members .empty).memberCount = members.length := by
  by_cases nothing : members = []
  · subst nothing
    rfl
  · rw [memberCount, records_registerMembers nothing distinct]
    simp

theorem fields_registerMembers (some_member : members ≠ []) :
    (registerMembers record members .empty).fields record =
      .ok (members.mergeSort listedBefore) := by
  rw [fields, membersOf, records_registerMembers some_member distinct, Dictionary.get?, if_pos rfl]
  rfl

end Distinct

end Builtin

namespace Record

/-- Registering the members of a well labelled record in an empty table loses nothing: they have
distinct names, each is found as it was computed, nothing else is, they are counted once, and they
are listed by offset and then by name. A record without members is still unknown to the table. -/
theorem registered_whole (config : BuildConfig) (record : Record)
    (present : record.present config = true) (labelled : record.WellLabelled config) :
    ∃ layout, record.compute config = some layout ∧ (layout.members.map (·.1)).Nodup ∧
      let table := Builtin.registerMembers record.name layout.members .empty
      (∀ name member, (name, member) ∈ layout.members →
        table.lookup record.name name = .ok member) ∧
      (∀ other name, table.has other name = true ↔
        other = record.name ∧ name ∈ layout.members.map (·.1)) ∧
      table.memberCount = layout.members.length ∧
      if layout.members = [] then
        table.fields record.name = .error (.unknownRecord record.name)
      else
        ∃ listing, table.fields record.name = .ok listing ∧ listing.Perm layout.members ∧
          listing.Pairwise LayoutTable.Precedes := by
  have names := labelled.nodup_names Layout.word
  rw [compute, if_pos present]
  refine ⟨_, rfl, ?_⟩
  generalize members_eq : (record.placements Layout.word config).map (fun placement =>
    (placement.name, ({ offset := .ofNat placement.offset, type := placement.type } : Member))) =
      members
  have distinct : (members.map (·.1)).Nodup := by
    rw [← members_eq, List.map_map]
    exact names
  refine ⟨distinct, fun name member => Builtin.lookup_registerMembers distinct,
    Builtin.has_registerMembers distinct, Builtin.memberCount_registerMembers distinct, ?_⟩
  split
  case isTrue nothing =>
    rw [nothing]
    rfl
  case isFalse some_member =>
    exact ⟨_, Builtin.fields_registerMembers distinct some_member, List.mergeSort_perm _ _,
      LayoutTable.pairwise_precedes distinct⟩

/-- A record with nested structs, of which one has no name, a union, and a slot that not every build
has. -/
def compound : Record :=
  { name := "Compound"
    slots :=
      [.field "flags" .uint8,
        .embed "" [.field "klass" .value, .embed "inner" [.field "flags" .uint32]],
        .union "as"
          [.field "flags" .int64, .embed "" [.field "left" .int8, .field "right" .int32]],
        .optional .hashTable (.field "klass" .pointer),
        .array "tail" .uint8 (.fixed 3)] }

theorem members_compound :
    (compound.compute sparse).map (·.members) = some
      [("flags", { offset := 0, type := .uint8 }), ("klass", { offset := 4, type := .value }),
        ("inner.flags", { offset := 8, type := .uint32 }),
        ("as.flags", { offset := 12, type := .int64 }),
        ("as.left", { offset := 12, type := .int8 }),
        ("as.right", { offset := 16, type := .int32 }),
        ("tail", { offset := 20, type := .uint8 })] := by
  decide +kernel

/-- Its seven members are found by their dotted names and are listed; a label alone is no name. -/
theorem registered_whole_compound :
    compound.present sparse = true ∧ compound.WellLabelled sparse ∧
      ∃ layout, compound.compute sparse = some layout ∧
        let table := Builtin.registerMembers compound.name layout.members .empty
        table.lookup compound.name "as.right" = .ok { offset := 16, type := .int32 } ∧
          ¬table.has compound.name "right" = true ∧ table.memberCount = 7 ∧
          ∃ listing, table.fields compound.name = .ok listing ∧ listing.Perm layout.members ∧
            listing.Pairwise LayoutTable.Precedes := by
  have present : compound.present sparse = true := by decide
  have labelled : compound.WellLabelled sparse := by decide +kernel
  obtain ⟨layout, computed, -, found, only, counted, listed⟩ :=
    registered_whole sparse compound present labelled
  have members_eq := members_compound
  rw [computed, Option.map_some, Option.some.injEq] at members_eq
  rw [if_neg (by simp [members_eq])] at listed
  refine ⟨present, labelled, layout, computed, found _ _ ?_, ?_, ?_, listed⟩
  · rw [members_eq]
    decide
  · rw [only, members_eq]
    decide
  · rw [counted, members_eq]
    rfl

/-- A record without members. -/
def vacant : Record := { name := "Vacant", slots := [] }

/-- The record without members is well labelled, and none of its members is lost; still it cannot be
listed. -/
theorem vacant_unlisted :
    ∃ layout, vacant.compute sparse = some layout ∧ vacant.WellLabelled sparse ∧
      layout.members = [] ∧
      (Builtin.registerMembers vacant.name layout.members .empty).fields vacant.name =
        .error (.unknownRecord vacant.name) :=
  ⟨_, rfl, by decide +kernel, rfl, rfl⟩

end Record

end HostBridge
