import HostBridge.Proofs.Layout.Placement

/-!
# Members as they are declared

A member is declared somewhere in the tree of slots, and the layout gives it an offset. The sizes of
slots and the offsets of members are computed apart from each other; here they are put together. All
elements of a member lie within the record, at a multiple of the member's alignment, and members in
different slots of one struct follow each other as they were declared.
-/

namespace HostBridge

/-- A step from a slot to one inside it, by the place of that one among its siblings. -/
inductive Branch where
  /-- To a slot of a struct. -/
  | struct (index : Nat)
  /-- To a variant of a union. -/
  | union (index : Nat)
deriving DecidableEq

/-- A member as it is declared. -/
structure Declaration where
  /-- The way to the member from the outermost slot. -/
  path : List Branch
  /-- The dotted name. -/
  name : String
  /-- The native type. -/
  type : NativeType
  /-- The number of elements; one, unless the member is an array. -/
  count : Nat
deriving DecidableEq

namespace Declaration

/-- Bytes of all elements. -/
def bytes (width : Width) (declaration : Declaration) : Nat :=
  declaration.type.size width * declaration.count

/-- The member, seen from one slot further out. -/
def inside (branch : Branch) (declaration : Declaration) : Declaration :=
  { declaration with path := branch :: declaration.path }

/-- The smallest slot around two members is a struct, and the first member is declared first: where
the ways to them part, they lead to an earlier and a later slot of a struct. -/
def Precedes (first second : Declaration) : Prop :=
  ∃ common i j here there, i < j ∧ first.path = common ++ .struct i :: here ∧
    second.path = common ++ .struct j :: there

end Declaration

namespace Slot

mutual

/-- The members of a slot that a build has, in order; `outer` is the name around the slot. -/
def declarations (config : BuildConfig) (outer : String) : Slot → List Declaration
  | .field name type => [{ path := [], name := Layout.join outer name, type, count := 1 }]
  | .array name type length =>
      [{ path := []
         name := Layout.join outer name
         type
         count := Layout.elementCount Layout.exact config.width type length }]
  | .embed name slots => declarationsFrom config (Layout.scope outer name) .struct 0 slots
  | .union name variants => declarationsFrom config (Layout.join outer name) .union 0 variants
  | .optional feature slot => if config.has feature then declarations config outer slot else []

/-- The members of slots that stand beside each other, from a place among their siblings on. -/
def declarationsFrom (config : BuildConfig) (outer : String) (branch : Nat → Branch)
    (index : Nat) : List Slot → List Declaration
  | [] => []
  | slot :: slots =>
      (declarations config outer slot).map (·.inside (branch index))
        ++ declarationsFrom config outer branch (index + 1) slots

end

end Slot

/-- The members of a record that a build has, in order. -/
def Record.declarations (config : BuildConfig) (record : Record) : List Declaration :=
  record.slot.declarations config ""

/-! ## The order of declaration -/

namespace Declaration

variable {first second : Declaration} {branch branch' : Branch}

theorem precedes_inside :
    (first.inside branch).Precedes (second.inside branch') ↔
      branch = branch' ∧ first.Precedes second ∨
        ∃ i j, i < j ∧ branch = .struct i ∧ branch' = .struct j := by
  constructor
  · rintro ⟨common, i, j, here, there, less, first_path, second_path⟩
    cases common with
    | nil =>
        rw [List.nil_append, inside, List.cons.injEq] at first_path second_path
        exact .inr ⟨i, j, less, first_path.1, second_path.1⟩
    | cons step common =>
        rw [List.cons_append, inside, List.cons.injEq] at first_path second_path
        exact .inl ⟨first_path.1.trans second_path.1.symm,
          common, i, j, here, there, less, first_path.2, second_path.2⟩
  · rintro (⟨rfl, common, i, j, here, there, less, first_path, second_path⟩ |
      ⟨i, j, less, rfl, rfl⟩)
    · exact ⟨branch :: common, i, j, here, there, less, congrArg _ first_path,
        congrArg _ second_path⟩
    · exact ⟨[], i, j, first.path, second.path, less, rfl, rfl⟩

end Declaration

namespace Slot

variable {config : BuildConfig} {outer : String} {branch : Nat → Branch} {index : Nat}
  {slot : Slot} {slots : List Slot} {declaration : Declaration}

theorem exists_inside_of_mem
    (mem : declaration ∈ declarationsFrom config outer branch index slots) :
    ∃ place, index ≤ place ∧ ∃ slot ∈ slots, ∃ inner ∈ slot.declarations config outer,
      declaration = inner.inside (branch place) := by
  induction slots generalizing index with
  | nil => cases mem
  | cons slot slots induction =>
      rw [declarationsFrom, List.mem_append] at mem
      rcases mem with here | later
      · obtain ⟨inner, inner_mem, rfl⟩ := List.mem_map.mp here
        exact ⟨index, Nat.le_refl _, slot, List.mem_cons_self, inner, inner_mem, rfl⟩
      · obtain ⟨place, above, slot, slot_mem, found⟩ := induction later
        exact ⟨place, Nat.le_of_succ_le above, slot, List.mem_cons_of_mem _ slot_mem, found⟩

theorem inside_mem_declarationsFrom {place : Nat} (slot_at : slots[place]? = some slot)
    (mem : declaration ∈ slot.declarations config outer) :
    declaration.inside (branch (index + place)) ∈
      declarationsFrom config outer branch index slots := by
  induction slots generalizing index place with
  | nil => cases slot_at
  | cons head slots induction =>
      rw [declarationsFrom, List.mem_append]
      cases place with
      | zero =>
          rw [List.getElem?_cons_zero, Option.some.injEq] at slot_at
          subst slot_at
          exact .inl (List.mem_map_of_mem mem)
      | succ place =>
          rw [List.getElem?_cons_succ] at slot_at
          rw [Nat.add_comm place, ← Nat.add_assoc]
          exact .inr (induction slot_at)

end Slot

theorem NativeType.align_isPowerOfTwo (width : Width) (type : NativeType) :
    (type.align width).isPowerOfTwo := by
  cases width <;> cases type <;> decide

/-- What a declaration says of its member that a placement says too. -/
def Declaration.title (declaration : Declaration) : String × NativeType :=
  (declaration.name, declaration.type)

/-- What a placement says of its member that a declaration says too. -/
def Placement.title (placement : Placement) : String × NativeType :=
  (placement.name, placement.type)

namespace Layout

variable {cut : Nat → Nat} {config : BuildConfig} {slot : Slot} {slots : List Slot}
  {outer : String} {offset base index : Nat} {before extent : Extent} {placement : Placement}
  {entry first second : Declaration × Placement}

/-! ## Every member is placed once -/

/-- An absent slot has no members. -/
theorem declarations_eq_nil (absent : measure cut config slot = none) (outer : String) :
    slot.declarations config outer = [] := by
  induction slot with
  | field | array | embed | union =>
      rw [measure] at absent
      cases absent
  | optional feature slot induction =>
      rw [measure] at absent
      rw [Slot.declarations]
      split
      case isTrue present =>
        rw [if_pos present] at absent
        exact induction absent
      case isFalse => rfl

theorem map_title_inside (branch : Branch) (declarations : List Declaration) :
    (declarations.map (·.inside branch)).map Declaration.title =
      declarations.map Declaration.title := by
  rw [List.map_map]
  rfl

theorem map_title_placeStruct {cursor : Nat}
    (each : ∀ slot ∈ slots, ∀ outer offset,
      (place cut config outer offset slot).map Placement.title =
        (slot.declarations config outer).map Declaration.title) :
    (placeStruct cut config outer base cursor slots).map Placement.title =
      (Slot.declarationsFrom config outer .struct index slots).map Declaration.title := by
  induction slots generalizing cursor index with
  | nil => rfl
  | cons slot slots induction =>
      have rest := fun slot mem => each slot (List.mem_cons_of_mem _ mem)
      rw [Slot.declarationsFrom, placeStruct, List.map_append, map_title_inside]
      cases measured : measure cut config slot with
      | none =>
          rw [declarations_eq_nil measured]
          exact induction rest
      | some extent =>
          simp only [List.map_append]
          rw [each slot List.mem_cons_self, induction rest]

/-- The placements of a slot are those of its members, in order. -/
theorem map_title_place (cut : Nat → Nat) (config : BuildConfig) (outer : String) (offset : Nat)
    (slot : Slot) :
    (place cut config outer offset slot).map Placement.title =
      (slot.declarations config outer).map Declaration.title := by
  induction slot generalizing outer offset with
  | field | array => rfl
  | embed name slots induction =>
      rw [place_embed, Slot.declarations]
      exact map_title_placeStruct induction
  | union name variants induction =>
      rw [place, Slot.declarations]
      generalize 0 = index
      induction variants generalizing index with
      | nil => rfl
      | cons slot slots rest =>
          rw [placeUnion, Slot.declarationsFrom, List.map_append, List.map_append,
            map_title_inside, induction slot List.mem_cons_self,
            rest fun slot mem => induction slot (List.mem_cons_of_mem _ mem)]
  | optional feature slot induction =>
      rw [place, Slot.declarations]
      split
      · exact induction outer offset
      · rfl

theorem length_place (cut : Nat → Nat) (config : BuildConfig) (outer : String) (offset : Nat)
    (slot : Slot) :
    (place cut config outer offset slot).length = (slot.declarations config outer).length := by
  simpa using congrArg List.length (map_title_place cut config outer offset slot)

theorem place_eq_nil (absent : measure cut config slot = none) (outer : String) (offset : Nat) :
    place cut config outer offset slot = [] := by
  have titles := map_title_place cut config outer offset slot
  rw [declarations_eq_nil absent, List.map_nil] at titles
  exact List.map_eq_nil_iff.mp titles

/-! ## Members with their places -/

/-- The members of a slot at an offset, with their places. -/
def located (config : BuildConfig) (outer : String) (offset : Nat) (slot : Slot) :
    List (Declaration × Placement) :=
  (slot.declarations config outer).zip (place exact config outer offset slot)

/-- The members of slots one behind the other, after those of extent `before`. -/
def locatedStruct (config : BuildConfig) (outer : String) (base index : Nat) (before : Extent)
    (slots : List Slot) : List (Declaration × Placement) :=
  (Slot.declarationsFrom config outer .struct index slots).zip
    (placeStruct exact config outer base before.size slots)

/-- The members of slots at one offset. -/
def locatedUnion (config : BuildConfig) (outer : String) (offset index : Nat)
    (slots : List Slot) : List (Declaration × Placement) :=
  (Slot.declarationsFrom config outer .union index slots).zip
    (placeUnion exact config outer offset slots)

/-- An entry of a slot, seen from one slot further out. -/
def further (branch : Branch) (entry : Declaration × Placement) : Declaration × Placement :=
  (entry.1.inside branch, entry.2)

theorem located_embed (config : BuildConfig) (outer name : String) (offset : Nat)
    (slots : List Slot) :
    located config outer offset (.embed name slots) =
      locatedStruct config (scope outer name) offset 0 nothing slots := by
  rw [located, place_embed, Slot.declarations]
  rfl

theorem located_union (config : BuildConfig) (outer name : String) (offset : Nat)
    (variants : List Slot) :
    located config outer offset (.union name variants) =
      locatedUnion config (join outer name) offset 0 variants := by
  rw [located, place, Slot.declarations]
  rfl

theorem locatedStruct_cons_none (absent : measure exact config slot = none) :
    locatedStruct config outer base index before (slot :: slots) =
      locatedStruct config outer base (index + 1) before slots := by
  simp only [locatedStruct, Slot.declarationsFrom, placeStruct, absent,
    declarations_eq_nil absent, List.map_nil, List.nil_append]

theorem locatedStruct_cons_some (measured : measure exact config slot = some extent) :
    locatedStruct config outer base index before (slot :: slots) =
      (located config outer (base + alignUp exact before.size extent.align) slot).map
          (further (.struct index))
        ++ locatedStruct config outer base (index + 1) (append exact before extent) slots := by
  simp only [locatedStruct, Slot.declarationsFrom, placeStruct, measured]
  rw [List.zip_append (by rw [List.length_map, length_place]), List.zip_map_left]
  rfl

theorem locatedUnion_cons (config : BuildConfig) (outer : String) (offset index : Nat)
    (slot : Slot) (slots : List Slot) :
    locatedUnion config outer offset index (slot :: slots) =
      (located config outer offset slot).map (further (.union index))
        ++ locatedUnion config outer offset (index + 1) slots := by
  simp only [locatedUnion, Slot.declarationsFrom, placeUnion]
  rw [List.zip_append (by rw [List.length_map, length_place]), List.zip_map_left]
  rfl

theorem exists_further_of_mem_struct
    (mem : entry ∈ locatedStruct config outer base index before slots) :
    ∃ place inner, index ≤ place ∧ entry = further (.struct place) inner := by
  obtain ⟨place, above, -, -, inner, -, declared⟩ :=
    Slot.exists_inside_of_mem (List.of_mem_zip mem).1
  exact ⟨place, (inner, entry.2), above, Prod.ext declared rfl⟩

theorem exists_further_of_mem_union (mem : entry ∈ locatedUnion config outer offset index slots) :
    ∃ place inner, index ≤ place ∧ entry = further (.union place) inner := by
  obtain ⟨place, above, -, -, inner, -, declared⟩ :=
    Slot.exists_inside_of_mem (List.of_mem_zip mem).1
  exact ⟨place, (inner, entry.2), above, Prod.ext declared rfl⟩

/-! ## All elements lie within the slot -/

/-- The members of a slot lie within its space with all their elements, wherever it is placed. -/
def Contains (config : BuildConfig) (slot : Slot) : Prop :=
  ∀ outer offset extent, measure exact config slot = some extent →
    ∀ entry ∈ located config outer offset slot,
      offset ≤ entry.2.offset ∧
        entry.2.offset + entry.1.bytes config.width ≤ offset + extent.size

theorem locatedStruct_within (each : ∀ slot ∈ slots, Contains config slot)
    (mem : entry ∈ locatedStruct config outer base index before slots) :
    base + before.size ≤ entry.2.offset ∧
      entry.2.offset + entry.1.bytes config.width ≤
        base + (measureStruct exact config before slots).size := by
  induction slots generalizing index before with
  | nil => cases mem
  | cons slot slots induction =>
      have rest := fun slot mem => each slot (List.mem_cons_of_mem _ mem)
      cases measured : measure exact config slot with
      | none =>
          rw [locatedStruct_cons_none measured] at mem
          simp only [measureStruct, measured]
          exact induction rest mem
      | some extent =>
          rw [locatedStruct_cons_some measured, List.mem_append] at mem
          simp only [measureStruct, measured]
          have start := le_alignUp (align_pos_of_measure measured) before.size
          have grown := size_append before extent
          rcases mem with here | later
          · obtain ⟨inner, inner_mem, rfl⟩ := List.mem_map.mp here
            have within := each slot List.mem_cons_self _ _ _ measured inner inner_mem
            have total := size_le_measureStruct config (append exact before extent) slots
            simp only [further, Declaration.bytes, Declaration.inside] at within ⊢
            omega
          · have within := induction rest later
            omega

theorem locatedUnion_within (each : ∀ slot ∈ slots, Contains config slot)
    (mem : entry ∈ locatedUnion config outer offset index slots) (before : Extent) :
    offset ≤ entry.2.offset ∧
      entry.2.offset + entry.1.bytes config.width ≤
        offset + (measureUnion exact config before slots).size := by
  induction slots generalizing index before with
  | nil => cases mem
  | cons slot slots induction =>
      have rest := fun slot mem => each slot (List.mem_cons_of_mem _ mem)
      rw [locatedUnion_cons, List.mem_append] at mem
      rcases mem with here | later
      · obtain ⟨inner, inner_mem, rfl⟩ := List.mem_map.mp here
        cases measured : measure exact config slot with
        | none =>
            rw [located, declarations_eq_nil measured] at inner_mem
            cases inner_mem
        | some extent =>
            have within := each slot List.mem_cons_self _ _ _ measured inner inner_mem
            have room : extent.size ≤ (measureUnion exact config before (slot :: slots)).size :=
              variant_size_le_measureUnion before List.mem_cons_self measured
            simp only [further, Declaration.bytes, Declaration.inside] at within ⊢
            omega
      · rw [measureUnion]
        split
        · exact induction rest later _
        · exact induction rest later _

theorem contains (config : BuildConfig) (slot : Slot) : Contains config slot := by
  induction slot with
  | field name type =>
      intro outer offset extent measured entry mem
      rw [measure, Option.some.injEq] at measured
      obtain rfl := List.mem_singleton.mp mem
      subst measured
      simp [Declaration.bytes]
  | array name type length =>
      intro outer offset extent measured entry mem
      rw [measure, Option.some.injEq] at measured
      obtain rfl := List.mem_singleton.mp mem
      subst measured
      simp [Declaration.bytes, exact]
  | embed name slots induction =>
      intro outer offset extent measured entry mem
      rw [measure, Option.some.injEq] at measured
      rw [located_embed] at mem
      subst measured
      have within := locatedStruct_within induction mem
      have padded := size_le_pad (align_le_measureStruct exact config nothing slots)
      omega
  | union name variants induction =>
      intro outer offset extent measured entry mem
      rw [measure, Option.some.injEq] at measured
      rw [located_union] at mem
      subst measured
      have within := locatedUnion_within induction mem nothing
      have padded := size_le_pad (align_le_measureUnion exact config nothing variants)
      omega
  | optional feature slot induction =>
      intro outer offset extent measured entry mem
      rw [measure] at measured
      rw [located, place, Slot.declarations] at mem
      split at measured
      case isTrue present =>
        rw [if_pos present, if_pos present] at mem
        exact induction outer offset extent measured entry mem
      case isFalse => cases measured

/-! ## Members follow each other as declared -/

/-- Where one member precedes another, it ends before the other one begins. -/
def Ordered (width : Width) (entries : List (Declaration × Placement)) : Prop :=
  ∀ first ∈ entries, ∀ second ∈ entries, first.1.Precedes second.1 →
    first.2.offset + first.1.bytes width ≤ second.2.offset

theorem ordered_map_further {width : Width} {entries : List (Declaration × Placement)}
    (ordered : Ordered width entries) (branch : Branch) :
    Ordered width (entries.map (further branch)) := by
  intro first first_mem second second_mem precedes
  obtain ⟨left, left_mem, rfl⟩ := List.mem_map.mp first_mem
  obtain ⟨right, right_mem, rfl⟩ := List.mem_map.mp second_mem
  rcases Declaration.precedes_inside.mp precedes with ⟨-, inner⟩ | ⟨i, j, less, rfl, same⟩
  · exact ordered left left_mem right right_mem inner
  · cases same
    exact (Nat.lt_irrefl _ less).elim

theorem ordered_append {width : Width} {front back : List (Declaration × Placement)}
    (front_ordered : Ordered width front) (back_ordered : Ordered width back)
    (across : ∀ first ∈ front, ∀ second ∈ back, first.1.Precedes second.1 →
      first.2.offset + first.1.bytes width ≤ second.2.offset)
    (never : ∀ first ∈ back, ∀ second ∈ front, ¬first.1.Precedes second.1) :
    Ordered width (front ++ back) := by
  intro first first_mem second second_mem precedes
  rcases List.mem_append.mp first_mem with first_front | first_back <;>
    rcases List.mem_append.mp second_mem with second_front | second_back
  · exact front_ordered first first_front second second_front precedes
  · exact across first first_front second second_back precedes
  · exact (never first first_back second second_front precedes).elim
  · exact back_ordered first first_back second second_back precedes

theorem ordered_nil (width : Width) : Ordered width [] := by
  intro first mem
  cases mem

theorem ordered_locatedStruct
    (each : ∀ slot ∈ slots, ∀ outer offset,
      Ordered config.width (located config outer offset slot)) :
    Ordered config.width (locatedStruct config outer base index before slots) := by
  induction slots generalizing index before with
  | nil => exact ordered_nil _
  | cons slot slots induction =>
      have rest := fun slot mem => each slot (List.mem_cons_of_mem _ mem)
      cases measured : measure exact config slot with
      | none =>
          rw [locatedStruct_cons_none measured]
          exact induction rest
      | some extent =>
          rw [locatedStruct_cons_some measured]
          apply ordered_append (ordered_map_further (each slot List.mem_cons_self _ _) _)
            (induction rest)
          · -- what comes later lies behind the space of this slot
            intro first first_mem second second_mem _
            obtain ⟨left, left_mem, rfl⟩ := List.mem_map.mp first_mem
            have inside := contains config slot _ _ _ measured left left_mem
            have behind := locatedStruct_within (fun slot _ => contains config slot) second_mem
            have grown := size_append before extent
            simp only [further, Declaration.bytes, Declaration.inside] at inside ⊢
            omega
          · intro first first_mem second second_mem precedes
            obtain ⟨place, first, above, rfl⟩ := exists_further_of_mem_struct first_mem
            obtain ⟨second, second_mem, rfl⟩ := List.mem_map.mp second_mem
            rcases Declaration.precedes_inside.mp precedes with
              ⟨same, -⟩ | ⟨i, j, less, first_eq, second_eq⟩
            · cases same
              omega
            · cases first_eq
              cases second_eq
              omega

theorem ordered_locatedUnion
    (each : ∀ slot ∈ slots, ∀ outer offset,
      Ordered config.width (located config outer offset slot)) :
    Ordered config.width (locatedUnion config outer offset index slots) := by
  induction slots generalizing index with
  | nil => exact ordered_nil _
  | cons slot slots induction =>
      have rest := fun slot mem => each slot (List.mem_cons_of_mem _ mem)
      -- members of different variants do not precede each other
      have apart : ∀ {i j : Nat} {first second : Declaration × Placement}, i ≠ j →
          ¬(further (.union i) first).1.Precedes (further (.union j) second).1 := by
        intro i j first second different precedes
        rcases Declaration.precedes_inside.mp precedes with ⟨same, -⟩ | ⟨_, _, _, wrong, _⟩
        · cases same
          exact different rfl
        · cases wrong
      rw [locatedUnion_cons]
      apply ordered_append (ordered_map_further (each slot List.mem_cons_self _ _) _)
        (induction rest)
      · intro first first_mem second second_mem precedes
        obtain ⟨first, -, rfl⟩ := List.mem_map.mp first_mem
        obtain ⟨place, second, above, rfl⟩ := exists_further_of_mem_union second_mem
        exact (apart (by omega) precedes).elim
      · intro first first_mem second second_mem
        obtain ⟨place, first, above, rfl⟩ := exists_further_of_mem_union first_mem
        obtain ⟨second, -, rfl⟩ := List.mem_map.mp second_mem
        exact apart (by omega)

theorem ordered_located (config : BuildConfig) (outer : String) (offset : Nat) (slot : Slot) :
    Ordered config.width (located config outer offset slot) := by
  induction slot generalizing outer offset with
  | field | array =>
      intro first first_mem second second_mem precedes
      obtain rfl := List.mem_singleton.mp first_mem
      obtain ⟨common, i, j, here, there, less, path_eq, -⟩ := precedes
      simp at path_eq
  | embed name slots induction =>
      rw [located_embed]
      exact ordered_locatedStruct induction
  | union name variants induction =>
      rw [located_union]
      exact ordered_locatedUnion induction
  | optional feature slot induction =>
      rw [located, place, Slot.declarations]
      split
      · exact induction outer offset
      · exact ordered_nil _

/-! ## Members are aligned -/

theorem dvd_of_isPowerOfTwo {small large : Nat} (small_power : small.isPowerOfTwo)
    (large_power : large.isPowerOfTwo) (le : small ≤ large) : small ∣ large := by
  obtain ⟨i, rfl⟩ := small_power
  obtain ⟨j, rfl⟩ := large_power
  exact Nat.pow_dvd_pow 2 ((Nat.pow_le_pow_iff_right (by decide)).mp le)

/-- Extents are put together to one whose alignment is a multiple of each of theirs. -/
theorem align_foldl {combine : Extent → Extent → Extent}
    (align_eq : ∀ before next, (combine before next).align = max before.align next.align)
    (before : Extent) (extents : List Extent) (start : before.align.isPowerOfTwo)
    (powers : ∀ extent ∈ extents, extent.align.isPowerOfTwo) :
    (extents.foldl combine before).align.isPowerOfTwo ∧
      before.align ∣ (extents.foldl combine before).align ∧
      ∀ extent ∈ extents, extent.align ∣ (extents.foldl combine before).align := by
  induction extents generalizing before with
  | nil => exact ⟨start, Nat.dvd_refl _, nofun⟩
  | cons next extents induction =>
      have next_power := powers next List.mem_cons_self
      have power : (combine before next).align.isPowerOfTwo := by
        rw [align_eq]
        rcases Nat.le_total before.align next.align with le | le
        · rwa [Nat.max_eq_right le]
        · rwa [Nat.max_eq_left le]
      have before_dvd : before.align ∣ (combine before next).align := by
        apply dvd_of_isPowerOfTwo start power
        rw [align_eq]
        exact Nat.le_max_left ..
      have next_dvd : next.align ∣ (combine before next).align := by
        apply dvd_of_isPowerOfTwo next_power power
        rw [align_eq]
        exact Nat.le_max_right ..
      obtain ⟨total, grown, each⟩ := induction (combine before next) power
        fun extent mem => powers extent (List.mem_cons_of_mem _ mem)
      refine ⟨total, Nat.dvd_trans before_dvd grown, ?_⟩
      intro extent mem
      rcases List.mem_cons.mp mem with rfl | later
      · exact Nat.dvd_trans next_dvd grown
      · exact each extent later

theorem powers_of_each
    (each : ∀ slot ∈ slots, ∀ extent, measure cut config slot = some extent →
      extent.align.isPowerOfTwo) :
    ∀ extent ∈ slots.filterMap (measure cut config), extent.align.isPowerOfTwo := by
  intro extent mem
  obtain ⟨slot, slot_mem, measured⟩ := List.mem_filterMap.mp mem
  exact each slot slot_mem extent measured

theorem nothing_isPowerOfTwo : nothing.align.isPowerOfTwo := by decide

theorem align_isPowerOfTwo (measured : measure cut config slot = some extent) :
    extent.align.isPowerOfTwo := by
  induction slot generalizing extent with
  | field | array =>
      rw [measure, Option.some.injEq] at measured
      subst measured
      exact NativeType.align_isPowerOfTwo ..
  | embed name slots induction =>
      rw [measure, Option.some.injEq, measureStruct_eq_foldl] at measured
      subst measured
      exact (align_foldl (fun _ _ => rfl) nothing _ nothing_isPowerOfTwo
        (powers_of_each fun slot mem _ => induction slot mem)).1
  | union name variants induction =>
      rw [measure, Option.some.injEq, measureUnion_eq_foldl] at measured
      subst measured
      exact (align_foldl (fun _ _ => rfl) nothing _ nothing_isPowerOfTwo
        (powers_of_each fun slot mem _ => induction slot mem)).1
  | optional feature slot induction =>
      rw [measure] at measured
      split at measured
      · exact induction measured
      · cases measured

theorem align_dvd_measureStruct (mem : slot ∈ slots)
    (measured : measure cut config slot = some extent) :
    extent.align ∣ (measureStruct cut config nothing slots).align := by
  rw [measureStruct_eq_foldl]
  exact (align_foldl (fun _ _ => rfl) nothing _ nothing_isPowerOfTwo
    (powers_of_each fun _ _ _ => align_isPowerOfTwo)).2.2 extent
      (List.mem_filterMap.mpr ⟨slot, mem, measured⟩)

theorem align_dvd_measureUnion (mem : slot ∈ slots)
    (measured : measure cut config slot = some extent) :
    extent.align ∣ (measureUnion cut config nothing slots).align := by
  rw [measureUnion_eq_foldl]
  exact (align_foldl (fun _ _ => rfl) nothing _ nothing_isPowerOfTwo
    (powers_of_each fun _ _ _ => align_isPowerOfTwo)).2.2 extent
      (List.mem_filterMap.mpr ⟨slot, mem, measured⟩)

theorem dvd_alignUp (number align : Nat) : align ∣ alignUp exact number align :=
  Nat.dvd_mul_left ..

/-- The members of a slot at an aligned offset are aligned, and none of them more than the slot. -/
def Aligns (config : BuildConfig) (slot : Slot) : Prop :=
  ∀ outer offset extent, measure exact config slot = some extent → extent.align ∣ offset →
    ∀ placement ∈ place exact config outer offset slot,
      placement.type.align config.width ∣ extent.align ∧
        placement.type.align config.width ∣ placement.offset

theorem aligns_placeStruct {align cursor : Nat} (each : ∀ slot ∈ slots, Aligns config slot)
    (common : ∀ slot ∈ slots, ∀ extent, measure exact config slot = some extent →
      extent.align ∣ align)
    (aligned : align ∣ base) (mem : placement ∈ placeStruct exact config outer base cursor slots) :
    placement.type.align config.width ∣ align ∧
      placement.type.align config.width ∣ placement.offset := by
  induction slots generalizing cursor with
  | nil => cases mem
  | cons slot slots induction =>
      have each_rest := fun slot mem => each slot (List.mem_cons_of_mem _ mem)
      have common_rest := fun slot mem => common slot (List.mem_cons_of_mem _ mem)
      rw [placeStruct] at mem
      cases measured : measure exact config slot with
      | none =>
          rw [measured] at mem
          exact induction each_rest common_rest mem
      | some extent =>
          rw [measured, List.mem_append] at mem
          rcases mem with here | later
          · have divides := common slot List.mem_cons_self extent measured
            have start : extent.align ∣ base + alignUp exact cursor extent.align :=
              Nat.dvd_add (Nat.dvd_trans divides aligned) (dvd_alignUp ..)
            have found := each slot List.mem_cons_self _ _ _ measured start placement here
            exact ⟨Nat.dvd_trans found.1 divides, found.2⟩
          · exact induction each_rest common_rest later

theorem aligns (config : BuildConfig) (slot : Slot) : Aligns config slot := by
  induction slot with
  | field | array =>
      intro outer offset extent measured aligned placement mem
      rw [measure, Option.some.injEq] at measured
      rw [place, List.mem_singleton] at mem
      subst measured mem
      exact ⟨Nat.dvd_refl _, aligned⟩
  | embed name slots induction =>
      intro outer offset extent measured aligned placement mem
      rw [measure, Option.some.injEq] at measured
      rw [place_embed] at mem
      subst measured
      exact aligns_placeStruct induction (fun _ mem _ => align_dvd_measureStruct mem) aligned mem
  | union name variants induction =>
      intro outer offset extent measured aligned placement mem
      rw [measure, Option.some.injEq] at measured
      rw [place, mem_placeUnion] at mem
      subst measured
      obtain ⟨slot, variant, mem⟩ := mem
      cases measured : measure exact config slot with
      | none =>
          rw [place_eq_nil measured] at mem
          cases mem
      | some extent =>
          have divides := align_dvd_measureUnion variant measured
          have found := induction slot variant _ _ _ measured (Nat.dvd_trans divides aligned)
            placement mem
          exact ⟨Nat.dvd_trans found.1 divides, found.2⟩
  | optional feature slot induction =>
      intro outer offset extent measured aligned placement mem
      rw [measure] at measured
      rw [place] at mem
      split at measured
      case isTrue present =>
        rw [if_pos present] at mem
        exact induction outer offset extent measured aligned placement mem
      case isFalse => cases measured

end Layout

/-! ## Records -/

/-- A layout has a place for every member that is declared, by the rules of C. -/
structure RecordLayout.Realizes (config : BuildConfig) (declared : List Declaration)
    (layout : RecordLayout) : Prop where
  /-- The members are those that are declared, in this order. -/
  members : layout.members.map (fun entry => (entry.1, entry.2.type)) =
    declared.map Declaration.title
  /-- The offset of every member is a multiple of its alignment. -/
  aligned : ∀ declaration name member,
    (declaration, name, member) ∈ declared.zip layout.members →
      member.type.align config.width ∣ member.offset.toNat
  /-- Every member ends within the record, with all its elements. -/
  within : ∀ declaration name member,
    (declaration, name, member) ∈ declared.zip layout.members →
      member.offset.toNat + declaration.bytes config.width ≤ layout.size.toNat
  /-- The size is a multiple of the alignment of every member. -/
  padded : ∀ declaration name member,
    (declaration, name, member) ∈ declared.zip layout.members →
      member.type.align config.width ∣ layout.size.toNat
  /-- Of two members in different slots of a struct, the one that is declared first ends before the
  other one begins. -/
  ordered : ∀ first firstName firstMember second secondName secondMember,
    (first, firstName, firstMember) ∈ declared.zip layout.members →
      (second, secondName, secondMember) ∈ declared.zip layout.members →
        first.Precedes second →
          firstMember.offset.toNat + first.bytes config.width ≤ secondMember.offset.toNat

namespace Record

variable {config : BuildConfig} {record : Record}

/-- The members of a record, with their places in unbounded numbers. -/
def located (config : BuildConfig) (record : Record) : List (Declaration × Placement) :=
  Layout.located config "" 0 record.slot

theorem located_within {entry : Declaration × Placement} (mem : entry ∈ record.located config) :
    entry.2.offset + entry.1.bytes config.width ≤ (record.extent Layout.exact config).size := by
  have within := Layout.contains config record.slot _ _ _ (measure_slot ..) entry mem
  omega

theorem located_aligned {entry : Declaration × Placement} (mem : entry ∈ record.located config) :
    entry.2.type.align config.width ∣ (record.extent Layout.exact config).align ∧
      entry.2.type.align config.width ∣ entry.2.offset :=
  Layout.aligns config record.slot _ _ _ (measure_slot ..) (Nat.dvd_zero _) entry.2
    (List.of_mem_zip mem).2

theorem align_dvd_size (config : BuildConfig) (record : Record) :
    (record.extent Layout.exact config).align ∣ (record.extent Layout.exact config).size :=
  Layout.dvd_alignUp ..

section Words

variable (small : (record.extent Layout.exact config).size < UInt32.size)
include small

theorem exists_located {declaration : Declaration} {name : String} {member : Member}
    (mem : (declaration, name, member) ∈
      (record.declarations config).zip (record.exactLayout config).members) :
    ∃ placement, (declaration, placement) ∈ record.located config ∧
      member.offset.toNat = placement.offset ∧ member.type = placement.type := by
  rw [exactLayout, List.zip_map_right, ← place_slot] at mem
  obtain ⟨⟨declaration, placement⟩, placed, same⟩ := List.mem_map.mp mem
  cases same
  have fits : placement.offset < UInt32.size :=
    Nat.lt_of_le_of_lt (Nat.le_of_add_right_le (located_within placed)) small
  refine ⟨placement, placed, ?_, rfl⟩
  rw [UInt32.toNat_ofNat', Nat.mod_eq_of_lt fits]

theorem exactLayout_realizes :
    (record.exactLayout config).Realizes config (record.declarations config) := by
  have size_eq := toNat_exactLayout_size small
  constructor
  · have titles := Layout.map_title_place Layout.exact config "" 0 record.slot
    rw [place_slot] at titles
    rw [exactLayout, List.map_map]
    exact titles
  · intro declaration name member mem
    obtain ⟨placement, placed, offset_eq, type_eq⟩ := exists_located small mem
    rw [offset_eq, type_eq]
    exact (located_aligned placed).2
  · intro declaration name member mem
    obtain ⟨placement, placed, offset_eq, -⟩ := exists_located small mem
    rw [offset_eq, size_eq]
    exact located_within placed
  · intro declaration name member mem
    obtain ⟨placement, placed, -, type_eq⟩ := exists_located small mem
    rw [type_eq, size_eq]
    exact Nat.dvd_trans (located_aligned placed).1 (align_dvd_size config record)
  · intro first _ _ second _ _ first_mem second_mem precedes
    obtain ⟨left, left_mem, left_eq, -⟩ := exists_located small first_mem
    obtain ⟨right, right_mem, right_eq, -⟩ := exists_located small second_mem
    rw [left_eq, right_eq]
    exact Layout.ordered_located config "" 0 record.slot _ left_mem _ right_mem precedes

/-- A record that a build has and whose size fits in a word is laid out as it is declared: its
members are aligned, lie within the record with all their elements, and follow each other. -/
theorem compute_realizes (present : record.present config = true) :
    ∃ layout, record.compute config = some layout ∧
      layout.size.toNat = (record.extent Layout.exact config).size ∧
      layout.Realizes config (record.declarations config) :=
  ⟨record.exactLayout config, compute_eq_exactLayout small present, toNat_exactLayout_size small,
    exactLayout_realizes small⟩

end Words

/-- A record with two members of one name, an array of pairs of words and an empty one. -/
def uneven : Record :=
  { name := "Uneven"
    slots :=
      [.field "tag" .uint8,
        .union "as"
          [.embed "pair" [.field "left" .int8, .array "right" .float64 (.words 5)],
            .array "raw" .uint8 (.fixed 0)],
        .optional .classSuper (.field "super" .value),
        .array "tag" .int32 (.fixed 3)] }

/-- A build with 32-bit pointers and no optional members. -/
def bare : BuildConfig := { abi := .callFrame, width := .bits32, has := fun _ => false }

theorem compute_realizes_uneven :
    (uneven.extent Layout.exact bare).size < UInt32.size ∧ uneven.present bare = true ∧
      ∃ layout : RecordLayout, uneven.compute bare = some layout ∧
        layout.members =
          [("tag", { offset := 0, type := .uint8 }),
            ("as.pair.left", { offset := 4, type := .int8 }),
            ("as.pair.right", { offset := 8, type := .float64 }),
            ("as.raw", { offset := 4, type := .uint8 }),
            ("tag", { offset := 24, type := .int32 })] ∧
        layout.Realizes bare (uneven.declarations bare) ∧
        ∃ first ∈ uneven.declarations bare, ∃ second ∈ uneven.declarations bare,
          first.Precedes second ∧ first.bytes .bits32 = 16 := by
  have small : (uneven.extent Layout.exact bare).size < UInt32.size := by decide +kernel
  have present : uneven.present bare = true := rfl
  obtain ⟨layout, computed, -, realizes⟩ := compute_realizes small present
  refine ⟨small, present, layout, computed, ?_, realizes, ?_⟩
  · have members : (uneven.compute bare).map (·.members) = some
        [("tag", { offset := 0, type := .uint8 }),
          ("as.pair.left", { offset := 4, type := .int8 }),
          ("as.pair.right", { offset := 8, type := .float64 }),
          ("as.raw", { offset := 4, type := .uint8 }),
          ("tag", { offset := 24, type := .int32 })] := by decide +kernel
    rw [computed] at members
    exact Option.some.inj members
  · refine ⟨⟨[.struct 1, .union 0, .struct 1], "as.pair.right", .float64, 2⟩, by decide +kernel,
      ⟨[.struct 3], "tag", .int32, 3⟩, by decide +kernel, ?_, rfl⟩
    exact ⟨[], 1, 3, [.union 0, .struct 1], [], by decide, rfl, rfl⟩

end Record

end HostBridge
