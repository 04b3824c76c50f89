import HostBridge.Proofs.Layout.Naming

/-!
# Embedded records

The slots of a struct are placed with a cursor that starts at zero wherever the struct stands, so a
struct looks the same inside another record as on its own: its members are moved by the place of the
struct, and its name is put in front of theirs. The slots that follow a struct have no influence on
it. A union without a name is the exception, since its members are called differently once there is
a name around them.
-/

namespace HostBridge

namespace Slot

mutual

/-- The names of the unions in a slot, at every depth. -/
def unionNames : Slot → List String
  | .field _ _ | .array _ _ _ => []
  | .embed _ slots => unionNamesOf slots
  | .union name variants => name :: unionNamesOf variants
  | .optional _ slot => unionNames slot

/-- The names of the unions in some slots. -/
def unionNamesOf : List Slot → List String
  | [] => []
  | slot :: slots => unionNames slot ++ unionNamesOf slots

end

theorem mem_unionNamesOf {name : String} {slots : List Slot} :
    name ∈ unionNamesOf slots ↔ ∃ slot ∈ slots, name ∈ slot.unionNames := by
  induction slots with
  | nil => simp [unionNamesOf]
  | cons slot slots induction => simp [unionNamesOf, induction]

end Slot

/-- A member inside the member called `outer`, counted from `base` bytes further down. -/
def Placement.moved (cut : Nat → Nat) (outer : String) (base : Nat) (placement : Placement) :
    Placement where
  name := Layout.join outer placement.name
  offset := cut (base + placement.offset)
  type := placement.type

namespace Layout

variable {cut : Nat → Nat} {config : BuildConfig} {slots : List Slot} {outer inner name : String}
  {base : Nat}

/-! ## Names -/

theorem join_of_ne_empty (named : outer ≠ "") (name : String) :
    join outer name = outer ++ "." ++ name := by
  rw [join, if_neg (mt String.isEmpty_iff.mp named)]

theorem join_ne_empty (named : name ≠ "") (outer : String) : join outer name ≠ "" := by
  rw [join]
  split
  · exact named
  · simp [named]

theorem scope_of_ne_empty (named : name ≠ "") (outer : String) :
    scope outer name = join outer name := by
  rw [scope, if_neg (mt String.isEmpty_iff.mp named)]

theorem join_scope (outer inner name : String) :
    join (scope outer inner) name = join outer (join inner name) := by
  by_cases inner_named : inner = ""
  · subst inner_named
    rfl
  · rw [scope_of_ne_empty inner_named, join_of_ne_empty (join_ne_empty inner_named outer),
      join_of_ne_empty inner_named]
    by_cases outer_named : outer = ""
    · subst outer_named
      rfl
    · simp only [join_of_ne_empty outer_named, String.append_assoc]

theorem scope_scope (outer inner name : String) :
    scope (scope outer inner) name = scope outer (scope inner name) := by
  by_cases named : name = ""
  · subst named
    rfl
  · rw [scope_of_ne_empty named, scope_of_ne_empty named,
      scope_of_ne_empty (join_ne_empty named inner), join_scope]

/-! ## Moved members -/

/-- In both kinds of numbers, a sum can be cut in parts. -/
theorem cut_add_cut (listed : cut ∈ [exact, word]) (left right : Nat) :
    cut (left + cut right) = cut (left + right) := by
  rw [List.mem_cons, List.mem_singleton] at listed
  obtain rfl | rfl := listed
  · rfl
  · exact Nat.add_mod_mod ..

/-- Two cursors that run through the same slots, one of them `base` bytes further down. -/
theorem placeStruct_moved {origin target : Nat} (cursor : Nat)
    (tied : ∀ start, cut (target + start) = cut (base + (origin + start)))
    (each : ∀ slot ∈ slots, ∀ offset,
      place cut config (scope outer inner) (cut (base + offset)) slot =
        (place cut config inner (cut offset) slot).map (Placement.moved cut outer base)) :
    placeStruct cut config (scope outer inner) target cursor slots =
      (placeStruct cut config inner origin cursor slots).map (Placement.moved cut outer base) := by
  induction slots generalizing cursor with
  | nil => rfl
  | cons slot slots induction =>
      have rest := fun cursor =>
        induction cursor fun slot mem => each slot (List.mem_cons_of_mem _ mem)
      rw [placeStruct, placeStruct]
      cases measure cut config slot with
      | none => exact rest cursor
      | some extent =>
          simp only [List.map_append]
          rw [tied, each slot List.mem_cons_self, rest]

theorem place_moved (listed : cut ∈ [exact, word]) (slot : Slot) (named : "" ∉ slot.unionNames)
    (inner : String) (offset : Nat) :
    place cut config (scope outer inner) (cut (base + offset)) slot =
      (place cut config inner (cut offset) slot).map (Placement.moved cut outer base) := by
  have sum := cut_add_cut listed
  induction slot generalizing inner offset with
  | field | array =>
      simp only [place, List.map_singleton, Placement.moved, join_scope, sum]
  | embed name slots induction =>
      rw [place_embed, place_embed, scope_scope]
      apply placeStruct_moved
      · intro start
        calc cut (cut (base + offset) + start)
          _ = cut (base + start + offset) := by
            rw [Nat.add_comm, sum, Nat.add_comm start, Nat.add_right_comm]
          _ = cut (base + (cut offset + start)) := by
            rw [← sum, Nat.add_assoc, Nat.add_comm start]
      · intro slot mem
        exact induction slot mem
          (fun unnamed => named (Slot.mem_unionNamesOf.mpr ⟨slot, mem, unnamed⟩)) _
  | union name variants induction =>
      rw [Slot.unionNames, List.mem_cons, not_or] at named
      obtain ⟨own, named⟩ := named
      have around : join (scope outer inner) name = scope outer (join inner name) := by
        rw [join_scope, scope_of_ne_empty (join_ne_empty (Ne.symm own) inner)]
      rw [place, place, placeUnion_eq_flatMap, placeUnion_eq_flatMap, around, List.map_flatMap]
      apply List.flatMap_congr
      intro slot mem
      exact induction slot mem
        (fun unnamed => named (Slot.mem_unionNamesOf.mpr ⟨slot, mem, unnamed⟩)) _ _
  | optional feature slot induction =>
      rw [place, place]
      split
      · exact induction named inner offset
      · rfl

/-- A struct inside another record has the members that it has on its own. -/
theorem placeStruct_embedded (listed : cut ∈ [exact, word]) (config : BuildConfig)
    (named : "" ∉ Slot.unionNamesOf slots) (outer : String) (base : Nat) :
    placeStruct cut config outer base 0 slots =
      (placeStruct cut config "" 0 0 slots).map (Placement.moved cut outer base) := by
  have each (slot : Slot) (mem : slot ∈ slots) (offset : Nat) :
      place cut config (scope outer "") (cut (base + offset)) slot =
        (place cut config "" (cut offset) slot).map (Placement.moved cut outer base) :=
    place_moved listed slot
      (fun unnamed => named (Slot.mem_unionNamesOf.mpr ⟨slot, mem, unnamed⟩)) "" offset
  exact placeStruct_moved 0 (fun start => by rw [Nat.zero_add]) each

/-- The slots behind others are placed from the end of these on. -/
theorem placeStruct_append (cut : Nat → Nat) (config : BuildConfig) (outer : String) (base : Nat)
    (before : Extent) (slots more : List Slot) :
    placeStruct cut config outer base before.size (slots ++ more) =
      placeStruct cut config outer base before.size slots ++
        placeStruct cut config outer base (measureStruct cut config before slots).size more := by
  induction slots generalizing before with
  | nil => rfl
  | cons slot slots induction =>
      rw [List.cons_append, placeStruct, placeStruct, measureStruct]
      cases measure cut config slot with
      | none => exact induction before
      | some extent =>
          rw [List.append_assoc]
          exact congrArg (_ ++ ·) (induction (append cut before extent))

/-- A struct among other slots is placed in one piece. -/
theorem exists_placeStruct_embed (listed : cut ∈ [exact, word]) (config : BuildConfig)
    (named : "" ∉ Slot.unionNamesOf slots) (before : List Slot) (name : String)
    (after : List Slot) :
    ∃ base rest, placeStruct cut config "" 0 0 (before ++ .embed name slots :: after) =
      placeStruct cut config "" 0 0 before
        ++ (placeStruct cut config "" 0 0 slots).map (Placement.moved cut name base) ++ rest := by
  have outermost : scope "" name = name := by
    by_cases unnamed : name = ""
    · subst unnamed
      rfl
    · exact scope_of_ne_empty unnamed ""
  have placed := placeStruct_append cut config "" 0 nothing before (.embed name slots :: after)
  simp only [placeStruct, measure, place_embed, outermost,
    placeStruct_embedded listed config named name] at placed
  rw [← List.append_assoc] at placed
  exact ⟨_, _, placed⟩

end Layout

/-! ## Records -/

/-- A member with its name, as a layout lists it. -/
def Placement.entry (placement : Placement) : String × Member :=
  (placement.name, { offset := .ofNat placement.offset, type := placement.type })

/-- A listed member inside the member called `outer`, at an offset that is counted from `base`. -/
def RecordLayout.moved (outer : String) (base : UInt32) (entry : String × Member) :
    String × Member :=
  (Layout.join outer entry.1, { entry.2 with offset := base + entry.2.offset })

theorem Placement.entry_moved (outer : String) (base : Nat) (placement : Placement) :
    (placement.moved Layout.word outer base).entry =
      RecordLayout.moved outer (.ofNat base) placement.entry := by
  have offset_eq : UInt32.ofNat (Layout.word (base + placement.offset)) =
      .ofNat base + .ofNat placement.offset := by
    apply UInt32.toNat_inj.mp
    simp [Layout.word]
  simp only [entry, moved, RecordLayout.moved, offset_eq]

namespace Record

variable {config : BuildConfig} {record inner : Record} {layout innerLayout : RecordLayout}
  {before after more : List Slot} {name : String}

theorem members_of_compute (computed : record.compute config = some layout) :
    layout.members =
      (Layout.placeStruct Layout.word config "" 0 0 record.slots).map Placement.entry := by
  rw [compute, if_pos (present_of_compute computed), Option.some.injEq] at computed
  rw [← computed]
  rfl

/-- A record that starts with the slots of another one has the members of the other one first. -/
theorem members_prefix (inner_computed : inner.compute config = some innerLayout)
    (computed : record.compute config = some layout) (split : record.slots = inner.slots ++ more) :
    innerLayout.members <+: layout.members := by
  rw [members_of_compute inner_computed, members_of_compute computed, split]
  have placed := Layout.placeStruct_append Layout.word config "" 0 Layout.nothing inner.slots more
  exact .map _ ⟨_, placed.symm⟩

/-- A record with a struct in it has the members of the struct in one piece, moved to its place. -/
theorem members_embedded (named : "" ∉ Slot.unionNamesOf inner.slots)
    (inner_computed : inner.compute config = some innerLayout)
    (computed : record.compute config = some layout)
    (split : record.slots = before ++ .embed name inner.slots :: after) :
    ∃ base front back,
      layout.members = front ++ innerLayout.members.map (RecordLayout.moved name base) ++ back := by
  have words : Layout.word ∈ [Layout.exact, Layout.word] := by simp
  obtain ⟨base, rest, placed⟩ :=
    Layout.exists_placeStruct_embed words config named before name after
  have moved : (Placement.entry ∘ Placement.moved Layout.word name base) =
      RecordLayout.moved name (.ofNat base) ∘ Placement.entry :=
    funext (Placement.entry_moved name base)
  rw [members_of_compute computed, split, placed, members_of_compute inner_computed,
    List.map_append, List.map_append, List.map_map, moved, ← List.map_map]
  exact ⟨_, _, _, rfl⟩

/-- Slots whose unions have names keep their layout wherever they stand. Placed under a name, the
members are those of the slots on their own, counted from the place of the slots and with the name
in front of theirs; and whatever slots follow, the members in front of them stay. A record that is
embedded in another one, or that another one starts with, is therefore found in it unchanged. -/
theorem layout_relative (config : BuildConfig) (slots : List Slot)
    (named : "" ∉ Slot.unionNamesOf slots) :
    (∀ cut ∈ [Layout.exact, Layout.word], ∀ outer, outer ≠ "" → ∀ base,
      Layout.placeStruct cut config outer base 0 slots =
        (Layout.placeStruct cut config "" 0 0 slots).map fun placement =>
          { name := outer ++ "." ++ placement.name
            offset := cut (base + placement.offset)
            type := placement.type }) ∧
    (∀ cut more, Layout.placeStruct cut config "" 0 0 slots <+:
      Layout.placeStruct cut config "" 0 0 (slots ++ more)) ∧
    ∀ (inner : Record) innerLayout,
      inner.slots = slots → inner.compute config = some innerLayout →
      ∀ (record : Record) layout, record.compute config = some layout →
        (∀ more, record.slots = slots ++ more → innerLayout.members <+: layout.members) ∧
        ∀ before name after, record.slots = before ++ .embed name slots :: after →
          ∃ base front back, layout.members =
            front ++ innerLayout.members.map (RecordLayout.moved name base) ++ back := by
  refine ⟨?_, ?_, ?_⟩
  · intro cut listed outer outer_named base
    rw [Layout.placeStruct_embedded listed config named]
    apply List.map_congr_left
    intro placement _
    rw [Placement.moved, Layout.join_of_ne_empty outer_named]
  · intro cut more
    exact ⟨_, (Layout.placeStruct_append cut config "" 0 Layout.nothing slots more).symm⟩
  · rintro inner innerLayout rfl inner_computed record layout computed
    exact ⟨fun more => members_prefix inner_computed computed,
      fun before name after => members_embedded named inner_computed computed⟩

/-- A record that holds the compound record behind a byte. -/
def surrounding : Record :=
  { name := "Surrounding"
    slots := [.field "head" .uint8, .embed "part" compound.slots, .field "last" .uint8] }

/-- The compound record is found in it, and four bytes further down when it is placed there. -/
theorem layout_relative_compound :
    "" ∉ Slot.unionNamesOf compound.slots ∧
      ((Layout.placeStruct Layout.word sparse "part" 4 0 compound.slots).map fun placement =>
        (placement.name, placement.offset)) =
          [("part.flags", 4), ("part.klass", 8), ("part.inner.flags", 12), ("part.as.flags", 16),
            ("part.as.left", 16), ("part.as.right", 20), ("part.tail", 24)] ∧
      ∃ layout innerLayout base front back, surrounding.compute sparse = some layout ∧
        compound.compute sparse = some innerLayout ∧
        layout.members =
          front ++ innerLayout.members.map (RecordLayout.moved "part" base) ++ back := by
  have named : "" ∉ Slot.unionNamesOf compound.slots := by decide
  obtain ⟨placed, -, found⟩ := layout_relative sparse compound.slots named
  refine ⟨named, ?_, ?_⟩
  · rw [placed Layout.word (by simp) "part" (by decide) 4]
    decide +kernel
  · obtain ⟨-, embedded⟩ := found compound _ rfl rfl surrounding _ rfl
    obtain ⟨base, front, back, members_eq⟩ := embedded [.field "head" .uint8] "part" _ rfl
    exact ⟨_, _, base, front, back, rfl, rfl, members_eq⟩

end Record

end HostBridge
