import HostBridge.Proofs.Layout.Extent
import Mathlib.Data.List.Basic

/-!
# The places of members

Members are placed with a cursor that moves in words of 32 bits. As long as the size of the record
fits in a word, no sum wraps around, and the layout is the one that unbounded numbers give.
-/

namespace HostBridge

namespace Layout

/-- The name around the slots of a struct: without a name of its own, the one around the struct. -/
def scope (outer name : String) : String := if name.isEmpty then outer else join outer name

variable {cut : Nat → Nat} {config : BuildConfig} {slot : Slot} {slots : List Slot}
  {outer : String} {offset base : Nat} {placement : Placement}

theorem place_embed (cut : Nat → Nat) (config : BuildConfig) (outer name : String) (offset : Nat)
    (slots : List Slot) :
    place cut config outer offset (.embed name slots) =
      placeStruct cut config (scope outer name) offset 0 slots := by
  rw [place, scope]

theorem placeUnion_eq_flatMap (cut : Nat → Nat) (config : BuildConfig) (outer : String)
    (offset : Nat) (slots : List Slot) :
    placeUnion cut config outer offset slots = slots.flatMap (place cut config outer offset) := by
  induction slots with
  | nil => rfl
  | cons slot slots induction => rw [placeUnion, induction, List.flatMap_cons]

theorem mem_placeUnion :
    placement ∈ placeUnion cut config outer offset slots ↔
      ∃ slot ∈ slots, placement ∈ place cut config outer offset slot := by
  rw [placeUnion_eq_flatMap, List.mem_flatMap]

/-! ## Words -/

theorem placeStruct_word (before : Extent)
    (each : ∀ slot ∈ slots, ∀ outer offset,
      (∀ extent ∈ measure exact config slot, offset + extent.size < UInt32.size) →
        place word config outer offset slot = place exact config outer offset slot)
    (small : base + (measureStruct exact config before slots).size < UInt32.size) :
    placeStruct word config outer base before.size slots =
      placeStruct exact config outer base before.size slots := by
  induction slots generalizing before with
  | nil => rfl
  | cons slot slots induction =>
      have rest := fun slot mem => each slot (List.mem_cons_of_mem _ mem)
      cases measured : measure exact config slot with
      | none =>
          have same : measure word config slot = none := by
            rw [measure_word (by rw [measured]; nofun), measured]
          simp only [placeStruct, measureStruct, measured, same] at small ⊢
          exact induction before rest small
      | some extent =>
          simp only [measureStruct, measured] at small
          have total := size_le_measureStruct config (append exact before extent) slots
          have grown := size_append before extent
          have same : measure word config slot = some extent := by
            rw [measure_word, measured]
            intro other mem
            rw [measured, Option.mem_some_iff] at mem
            subst mem
            omega
          have start : alignUp word before.size extent.align =
            alignUp exact before.size extent.align := alignUp_word (by omega)
          have here : place word config outer (base + alignUp exact before.size extent.align) slot =
              place exact config outer (base + alignUp exact before.size extent.align) slot := by
            apply each slot List.mem_cons_self
            intro other mem
            rw [measured, Option.mem_some_iff] at mem
            subst mem
            omega
          have later := induction (append exact before extent) rest small
          rw [grown] at later
          simp only [placeStruct, measured, same, start]
          rw [word_eq (by omega), word_eq (by omega), here, later]
          rfl

/-- Where its end fits in a word, words and unbounded numbers give every member of a slot the same
place. -/
theorem place_word
    (small : ∀ extent ∈ measure exact config slot, offset + extent.size < UInt32.size) :
    place word config outer offset slot = place exact config outer offset slot := by
  induction slot generalizing outer offset with
  | field | array => rfl
  | embed name slots induction =>
      have bound := small _ rfl
      have inner := size_le_pad (align_le_measureStruct exact config nothing slots)
      rw [place_embed, place_embed]
      exact placeStruct_word nothing
        (fun slot mem outer offset => induction slot mem) (by omega)
  | union name variants induction =>
      have bound := small _ rfl
      have inner := size_le_pad (align_le_measureUnion exact config nothing variants)
      rw [place, place, placeUnion_eq_flatMap, placeUnion_eq_flatMap]
      apply List.flatMap_congr
      intro slot mem
      apply induction slot mem
      intro extent measured
      have room := variant_size_le_measureUnion nothing mem measured
      omega
  | optional feature slot induction =>
      rw [measure] at small
      rw [place, place]
      split
      case isTrue present =>
        rw [if_pos present] at small
        exact induction small
      case isFalse => rfl

end Layout

/-! ## Records -/

namespace Record

/-- The record as a slot, a struct without a name. -/
def slot (record : Record) : Slot := .embed "" record.slots

theorem measure_slot (cut : Nat → Nat) (config : BuildConfig) (record : Record) :
    Layout.measure cut config record.slot = some (record.extent cut config) := by
  rw [slot, Layout.measure, extent]

theorem place_slot (cut : Nat → Nat) (config : BuildConfig) (record : Record) :
    Layout.place cut config "" 0 record.slot = record.placements cut config :=
  Layout.place_embed cut config "" "" 0 record.slots

/-- The layout in unbounded numbers, written down in words. -/
def exactLayout (config : BuildConfig) (record : Record) : RecordLayout :=
  { name := record.name
    size := .ofNat (record.extent Layout.exact config).size
    members := (record.placements Layout.exact config).map fun placement =>
      (placement.name, { offset := .ofNat placement.offset, type := placement.type }) }

section Words

variable {config : BuildConfig} {record : Record}
  (small : (record.extent Layout.exact config).size < UInt32.size)
include small

private theorem slot_small :
    ∀ extent ∈ Layout.measure Layout.exact config record.slot, extent.size < UInt32.size := by
  intro extent measured
  rw [measure_slot, Option.mem_some_iff] at measured
  exact measured ▸ small

theorem extent_word : record.extent Layout.word config = record.extent Layout.exact config := by
  have same := Layout.measure_word (slot_small small)
  rwa [measure_slot, measure_slot, Option.some.injEq] at same

theorem placements_word :
    record.placements Layout.word config = record.placements Layout.exact config := by
  rw [← place_slot, ← place_slot, Layout.place_word]
  simpa only [Nat.zero_add] using slot_small small

/-- A record whose size fits in a word has the layout that unbounded numbers give it. -/
theorem compute_eq_exactLayout (present : record.present config = true) :
    record.compute config = some (record.exactLayout config) := by
  rw [compute, if_pos present, extent_word small, placements_word small]
  rfl

theorem toNat_exactLayout_size :
    (record.exactLayout config).size.toNat = (record.extent Layout.exact config).size := by
  rw [exactLayout, UInt32.toNat_ofNat', Nat.mod_eq_of_lt small]

end Words

theorem present_of_compute {config : BuildConfig} {record : Record} {layout : RecordLayout}
    (computed : record.compute config = some layout) : record.present config = true := by
  rw [compute] at computed
  split at computed
  · assumption
  · cases computed

end Record

end HostBridge
