import HostBridge.Proofs.Layout.Placement
import Mathlib.Data.List.Basic

/-!
# Optional slots

An optional slot is there or not, and the build decides which. Resolving a record for a build makes
the decision in advance, at every depth: an optional slot that the build has is replaced by the slot
inside it, and any other is taken out of the list that it stands in. What is left mentions no
feature, so its layout depends on the width of pointers alone; and it is the layout of the record.
-/

namespace HostBridge

namespace Slot

mutual

/-- The slot as a build has it; `none` if the build lacks it. -/
def resolve (config : BuildConfig) : Slot → Option Slot
  | .field name type => some (.field name type)
  | .array name type length => some (.array name type length)
  | .embed name slots => some (.embed name (resolveAll config slots))
  | .union name variants => some (.union name (resolveAll config variants))
  | .optional feature slot => if config.has feature then resolve config slot else none

/-- The slots that a build has, as it has them. -/
def resolveAll (config : BuildConfig) : List Slot → List Slot
  | [] => []
  | slot :: slots =>
      match resolve config slot with
      | some resolved => resolved :: resolveAll config slots
      | none => resolveAll config slots

end

mutual

/-- The features that a slot mentions. -/
def features : Slot → List Feature
  | .field _ _ => []
  | .array _ _ _ => []
  | .embed _ slots => featuresOf slots
  | .union _ variants => featuresOf variants
  | .optional feature slot => feature :: features slot

/-- The features that slots mention. -/
def featuresOf : List Slot → List Feature
  | [] => []
  | slot :: slots => features slot ++ featuresOf slots

end

variable {config other : BuildConfig} {slot resolved : Slot} {slots : List Slot}

theorem resolveAll_eq_filterMap (config : BuildConfig) (slots : List Slot) :
    resolveAll config slots = slots.filterMap (resolve config) := by
  induction slots with
  | nil => rfl
  | cons slot slots induction =>
      rw [resolveAll, List.filterMap_cons, induction]
      cases resolve config slot <;> rfl

theorem featuresOf_eq_flatMap (slots : List Slot) :
    featuresOf slots = slots.flatMap features := by
  induction slots with
  | nil => rfl
  | cons slot slots induction => rw [featuresOf, List.flatMap_cons, induction]

theorem mem_featuresOf {feature : Feature} (mem : slot ∈ slots)
    (mentioned : feature ∈ slot.features) : feature ∈ featuresOf slots := by
  rw [featuresOf_eq_flatMap]
  exact List.mem_flatMap_of_mem mem mentioned

/-! ## No feature is left -/

theorem featuresOf_resolveAll
    (each : ∀ slot ∈ slots, ∀ resolved, slot.resolve config = some resolved →
      resolved.features = []) :
    featuresOf (resolveAll config slots) = [] := by
  rw [featuresOf_eq_flatMap, resolveAll_eq_filterMap, List.flatMap_eq_nil_iff]
  intro resolved kept
  obtain ⟨slot, mem, resolution⟩ := List.mem_filterMap.mp kept
  exact each slot mem resolved resolution

theorem features_resolve (resolution : slot.resolve config = some resolved) :
    resolved.features = [] := by
  induction slot generalizing resolved with
  | field | array =>
      rw [resolve, Option.some.injEq] at resolution
      subst resolution
      rfl
  | embed name slots induction | union name slots induction =>
      rw [resolve, Option.some.injEq] at resolution
      subst resolution
      rw [features]
      exact featuresOf_resolveAll fun slot mem _ => induction slot mem
  | optional feature slot induction =>
      rw [resolve] at resolution
      split at resolution
      · exact induction resolution
      · cases resolution

/-! ## Builds that agree -/

theorem resolveAll_congr (each : ∀ slot ∈ slots, slot.resolve other = slot.resolve config) :
    resolveAll other slots = resolveAll config slots := by
  rw [resolveAll_eq_filterMap, resolveAll_eq_filterMap]
  exact List.filterMap_congr each

/-- Builds that agree on the features of a slot resolve it alike. -/
theorem resolve_congr (agree : ∀ feature ∈ slot.features, other.has feature = config.has feature) :
    slot.resolve other = slot.resolve config := by
  induction slot with
  | field | array => rfl
  | embed name slots induction | union name slots induction =>
      have same : resolveAll other slots = resolveAll config slots := by
        apply resolveAll_congr
        intro slot mem
        exact induction slot mem fun feature mentioned =>
          agree feature (mem_featuresOf mem mentioned)
      rw [resolve, resolve, same]
  | optional feature slot induction =>
      have inner := induction fun mentioned mem => agree mentioned (List.mem_cons_of_mem _ mem)
      rw [resolve, resolve, agree feature List.mem_cons_self, inner]

end Slot

/-! ## The layout of what is left -/

namespace Layout

variable {cut : Nat → Nat} {config other : BuildConfig} {slot : Slot} {slots : List Slot}

/-- The extents in a list of slots are those of what is left of it. -/
theorem filterMap_measure_resolveAll
    (each : ∀ slot ∈ slots, (slot.resolve config).bind (measure cut other) =
      measure cut config slot) :
    (Slot.resolveAll config slots).filterMap (measure cut other) =
      slots.filterMap (measure cut config) := by
  rw [Slot.resolveAll_eq_filterMap, List.filterMap_filterMap]
  exact List.filterMap_congr each

section Width

variable (width_eq : other.width = config.width)
include width_eq

/-- Measuring a slot is measuring what is left of it, in any build with pointers of that width. -/
theorem measure_resolve (cut : Nat → Nat) (slot : Slot) :
    (slot.resolve config).bind (measure cut other) = measure cut config slot := by
  induction slot with
  | field | array => rw [Slot.resolve, Option.bind_some, measure, measure, width_eq]
  | embed name slots induction =>
      rw [Slot.resolve, Option.bind_some, measure, measure, measureStruct_eq_foldl,
        measureStruct_eq_foldl, filterMap_measure_resolveAll induction]
  | union name variants induction =>
      rw [Slot.resolve, Option.bind_some, measure, measure, measureUnion_eq_foldl,
        measureUnion_eq_foldl, filterMap_measure_resolveAll induction]
  | optional feature slot induction =>
      rw [Slot.resolve, measure]
      split
      · exact induction
      · rfl

theorem measureStruct_resolveAll (cut : Nat → Nat) (before : Extent) (slots : List Slot) :
    measureStruct cut other before (Slot.resolveAll config slots) =
      measureStruct cut config before slots := by
  rw [measureStruct_eq_foldl, measureStruct_eq_foldl,
    filterMap_measure_resolveAll fun slot _ => measure_resolve width_eq cut slot]

theorem placeStruct_resolve {outer : String} {base : Nat} (cursor : Nat)
    (each : ∀ slot ∈ slots, ∀ outer offset,
      (slot.resolve config).toList.flatMap (place cut other outer offset) =
        place cut config outer offset slot) :
    placeStruct cut other outer base cursor (Slot.resolveAll config slots) =
      placeStruct cut config outer base cursor slots := by
  induction slots generalizing cursor with
  | nil => rfl
  | cons slot slots induction =>
      have here := each slot List.mem_cons_self
      have measured := measure_resolve width_eq cut slot
      have rest := fun cursor =>
        induction cursor fun slot mem => each slot (List.mem_cons_of_mem _ mem)
      cases resolution : slot.resolve config with
      | none =>
          rw [resolution, Option.bind_none] at measured
          simp only [Slot.resolveAll, resolution, placeStruct, ← measured]
          exact rest cursor
      | some resolved =>
          rw [resolution, Option.bind_some] at measured
          simp only [resolution, Option.toList_some, List.flatMap_singleton] at here
          simp only [Slot.resolveAll, resolution, placeStruct, measured]
          -- the two cursors move by the same extent
          cases measure cut config slot with
          | none => exact rest cursor
          | some extent => simp only [here, rest]

/-- Placing a slot is placing what is left of it. -/
theorem place_resolve (cut : Nat → Nat) (slot : Slot) (outer : String) (offset : Nat) :
    (slot.resolve config).toList.flatMap (place cut other outer offset) =
      place cut config outer offset slot := by
  induction slot generalizing outer offset with
  | field | array => rfl
  | embed name slots induction =>
      rw [Slot.resolve, Option.toList_some, List.flatMap_singleton, place_embed, place_embed]
      exact placeStruct_resolve width_eq 0 induction
  | union name variants induction =>
      rw [Slot.resolve, Option.toList_some, List.flatMap_singleton, place, place,
        placeUnion_eq_flatMap, placeUnion_eq_flatMap, Slot.resolveAll_eq_filterMap,
        List.filterMap_eq_flatMap_toList, List.flatMap_assoc]
      apply List.flatMap_congr
      intro slot mem
      exact induction slot mem (join outer name) offset
  | optional feature slot induction =>
      rw [Slot.resolve, place]
      split
      · exact induction outer offset
      · rfl

end Width

end Layout

/-! ## Records -/

namespace Record

/-- The record with its slots as a build has them. -/
def resolve (config : BuildConfig) (record : Record) : Record :=
  { record with slots := Slot.resolveAll config record.slots }

/-- The features that a record mentions. -/
def features (record : Record) : List Feature :=
  record.requires.toList ++ Slot.featuresOf record.slots

variable {config other : BuildConfig}

theorem present_congr {record : Record}
    (agree : ∀ feature ∈ record.features, other.has feature = config.has feature) :
    record.present other = record.present config := by
  obtain ⟨name, requires, slots⟩ := record
  cases requires with
  | none => rfl
  | some feature => exact agree feature List.mem_cons_self

theorem resolve_eq_of_agree {record : Record}
    (agree : ∀ feature ∈ record.features, other.has feature = config.has feature) :
    record.resolve other = record.resolve config := by
  have same : Slot.resolveAll other record.slots = Slot.resolveAll config record.slots := by
    apply Slot.resolveAll_congr
    intro slot mem
    apply Slot.resolve_congr
    intro feature mentioned
    exact agree feature (List.mem_append_right _ (Slot.mem_featuresOf mem mentioned))
  rw [resolve, resolve, same]

/-- A build with pointers of the same width lays out what is left as the first build lays out the
record, if it has the record at all. -/
theorem compute_resolve_of_width (record : Record) (width_eq : other.width = config.width)
    (present_eq : record.present other = record.present config) :
    (record.resolve config).compute other = record.compute config := by
  have size_eq : (record.resolve config).extent Layout.word other =
      record.extent Layout.word config := by
    rw [extent, extent, resolve, Layout.measureStruct_resolveAll width_eq]
  have members_eq : (record.resolve config).placements Layout.word other =
      record.placements Layout.word config :=
    Layout.placeStruct_resolve width_eq 0 fun slot _ => Layout.place_resolve width_eq _ slot
  have same : (record.resolve config).present other = record.present config := present_eq
  rw [compute, compute, same, size_eq, members_eq]
  rfl

/-- Resolving the optional slots of a record in advance leaves no optional slot and does not change
its layout. So the layout depends on the width of pointers and on the features that the record
mentions, and on nothing else of a build. -/
theorem layout_of_resolved (config : BuildConfig) (record : Record)
    (present : record.present config = true) :
    Slot.featuresOf (record.resolve config).slots = [] ∧
      (∃ layout, record.compute config = some layout ∧
        (record.resolve config).compute config = some layout) ∧
      ∀ other : BuildConfig, other.width = config.width →
        (∀ feature ∈ record.features, other.has feature = config.has feature) →
          record.compute other = record.compute config := by
  refine ⟨Slot.featuresOf_resolveAll fun _ _ _ => Slot.features_resolve, ?_, ?_⟩
  · rw [compute_resolve_of_width record rfl rfl, compute, if_pos present]
    exact ⟨_, rfl, rfl⟩
  · intro other width_eq agree
    calc record.compute other
        = (record.resolve other).compute other := (compute_resolve_of_width record rfl rfl).symm
      _ = (record.resolve config).compute other := by rw [resolve_eq_of_agree agree]
      _ = record.compute config := compute_resolve_of_width record width_eq (present_congr agree)

/-- Optional slots in a union, in a struct and in each other. -/
def conditional : Record :=
  { name := "Conditional"
    requires := some .frameRecord
    slots :=
      [.field "flags" .uint8,
        .optional .hashTable (.field "table" .pointer),
        .union "as"
          [.optional .classSuper (.array "words" .value (.words 3)),
            .optional .frameRecord (.optional .hashTable (.field "deep" .int64)),
            .optional .frameRecord
              (.embed "pair" [.optional .regexpLen (.field "left" .int8), .field "right" .int32])],
        .embed "empty" [.optional .scopeRecord (.field "gone" .float64)],
        .field "tail" .uint8] }

/-- A build with 32-bit pointers, in which the record is there and its table is not. -/
def sparse : BuildConfig :=
  { abi := .callFrame, width := .bits32, has := BuildConfig.featureSet [.frameRecord] }

/-- A build that differs from it in a feature that the record does not mention. -/
def sparseOther : BuildConfig :=
  { sparse with abi := .frameScope, has := BuildConfig.featureSet [.objectIvTable, .frameRecord] }

theorem layout_of_resolved_conditional :
    conditional.present sparse = true ∧
      (∀ feature ∈ conditional.features, sparseOther.has feature = sparse.has feature) ∧
      (conditional.resolve sparse).compute sparse = some
        { name := "Conditional"
          size := 12
          members :=
            [("flags", { offset := 0, type := .uint8 }),
              ("as.pair.right", { offset := 4, type := .int32 }),
              ("tail", { offset := 8, type := .uint8 })] } ∧
      conditional.compute sparseOther = (conditional.resolve sparse).compute sparse := by
  have present : conditional.present sparse = true := by decide
  have agree : ∀ feature ∈ conditional.features, sparseOther.has feature = sparse.has feature := by
    decide
  obtain ⟨-, ⟨layout, computed, resolved⟩, same⟩ := layout_of_resolved sparse conditional present
  refine ⟨present, agree, ?_, ?_⟩
  · decide +kernel
  · rw [same sparseOther rfl agree, computed, resolved]

end Record

end HostBridge
