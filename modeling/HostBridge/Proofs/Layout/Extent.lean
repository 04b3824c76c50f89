import HostBridge.Layout.Record
import Mathlib.Algebra.Ring.Nat

/-!
# The space of slots

Every alignment is positive, so aligning a cursor never moves it back, and the space of a struct or
of a union only grows while its slots are added. A record whose size fits in a word therefore has no
part beyond that bound, and words measure it as unbounded numbers do.
-/

namespace HostBridge

/-- Induction on slots, with a hypothesis for every slot of a struct and every variant of a
union. -/
@[elab_as_elim, induction_eliminator]
theorem Slot.induction {motive : Slot → Prop}
    (field : ∀ name type, motive (.field name type))
    (array : ∀ name type length, motive (.array name type length))
    (embed : ∀ name slots, (∀ slot ∈ slots, motive slot) → motive (.embed name slots))
    (union : ∀ name variants, (∀ slot ∈ variants, motive slot) → motive (.union name variants))
    (optional : ∀ feature slot, motive slot → motive (.optional feature slot))
    (slot : Slot) : motive slot :=
  match slot with
  | .field name type => field name type
  | .array name type length => array name type length
  | .embed name slots => embed name slots fun slot _ =>
      Slot.induction field array embed union optional slot
  | .union name variants => union name variants fun slot _ =>
      Slot.induction field array embed union optional slot
  | .optional feature slot => optional feature slot
      (Slot.induction field array embed union optional slot)

theorem Width.bytes_pos (width : Width) : 0 < width.bytes := by
  cases width <;> decide

theorem Width.bytes_lt (width : Width) : width.bytes < UInt32.size := by
  cases width <;> decide

theorem NativeType.size_pos (width : Width) (type : NativeType) : 0 < type.size width := by
  cases width <;> cases type <;> decide

/-- Words of 32 bits can be divided into elements of any type without a rest. -/
theorem NativeType.size_dvd (width : Width) (type : NativeType) :
    type.size width ∣ UInt32.size := by
  cases width <;> cases type <;> decide

theorem NativeType.align_pos (width : Width) (type : NativeType) : 0 < type.align width := by
  cases width <;> cases type <;> decide

namespace Layout

variable {cut : Nat → Nat} {config : BuildConfig} {slot : Slot} {slots : List Slot}
  {before extent next : Extent}

/-! ## Lists of slots -/

theorem measureStruct_eq_foldl (cut : Nat → Nat) (config : BuildConfig) (before : Extent)
    (slots : List Slot) :
    measureStruct cut config before slots =
      (slots.filterMap (measure cut config)).foldl (append cut) before := by
  induction slots generalizing before with
  | nil => rfl
  | cons slot slots induction =>
      rw [measureStruct, List.filterMap_cons]
      cases measure cut config slot with
      | none => exact induction before
      | some extent => exact induction (append cut before extent)

theorem measureUnion_eq_foldl (cut : Nat → Nat) (config : BuildConfig) (before : Extent)
    (slots : List Slot) :
    measureUnion cut config before slots =
      (slots.filterMap (measure cut config)).foldl overlay before := by
  induction slots generalizing before with
  | nil => rfl
  | cons slot slots induction =>
      rw [measureUnion, List.filterMap_cons]
      cases measure cut config slot with
      | none => exact induction before
      | some extent => exact induction (overlay before extent)

/-! ## Alignment -/

theorem align_le_measureStruct (cut : Nat → Nat) (config : BuildConfig) (before : Extent)
    (slots : List Slot) : before.align ≤ (measureStruct cut config before slots).align := by
  induction slots generalizing before with
  | nil => exact Nat.le_refl _
  | cons slot slots induction =>
      rw [measureStruct]
      split
      · refine Nat.le_trans ?_ (induction _)
        exact Nat.le_max_left ..
      · exact induction _

theorem align_le_measureUnion (cut : Nat → Nat) (config : BuildConfig) (before : Extent)
    (slots : List Slot) : before.align ≤ (measureUnion cut config before slots).align := by
  induction slots generalizing before with
  | nil => exact Nat.le_refl _
  | cons slot slots induction =>
      rw [measureUnion]
      split
      · refine Nat.le_trans ?_ (induction _)
        exact Nat.le_max_left ..
      · exact induction _

theorem align_pos_of_measure (measured : measure cut config slot = some extent) :
    0 < extent.align := by
  induction slot with
  | field | array =>
      rw [measure, Option.some.injEq] at measured
      subst measured
      exact NativeType.align_pos ..
  | embed name slots =>
      rw [measure, Option.some.injEq] at measured
      subst measured
      exact align_le_measureStruct cut config nothing slots
  | union name variants =>
      rw [measure, Option.some.injEq] at measured
      subst measured
      exact align_le_measureUnion cut config nothing variants
  | optional feature slot induction =>
      rw [measure] at measured
      split at measured
      · exact induction measured
      · cases measured

theorem align_foldl_le {combine : Extent → Extent → Extent} {bound : Nat}
    (align_eq : ∀ before next, (combine before next).align = max before.align next.align)
    (extents : List Extent) (start : before.align ≤ bound)
    (each : ∀ extent ∈ extents, extent.align ≤ bound) :
    (extents.foldl combine before).align ≤ bound := by
  induction extents generalizing before with
  | nil => exact start
  | cons next extents induction =>
      obtain ⟨here, rest⟩ := List.forall_mem_cons.mp each
      refine induction ?_ rest
      rw [align_eq]
      exact Nat.max_le.mpr ⟨start, here⟩

/-- Nothing in a record is aligned to more than a pointer. -/
theorem align_le_of_measure (measured : measure cut config slot = some extent) :
    extent.align ≤ config.width.bytes := by
  induction slot generalizing extent with
  | field | array =>
      rw [measure, Option.some.injEq] at measured
      subst measured
      exact Nat.min_le_right ..
  | embed name slots induction =>
      rw [measure, Option.some.injEq, measureStruct_eq_foldl] at measured
      subst measured
      refine align_foldl_le (fun _ _ => rfl) _ config.width.bytes_pos ?_
      intro extent mem
      obtain ⟨slot, slot_mem, measured⟩ := List.mem_filterMap.mp mem
      exact induction slot slot_mem measured
  | union name variants induction =>
      rw [measure, Option.some.injEq, measureUnion_eq_foldl] at measured
      subst measured
      refine align_foldl_le (fun _ _ => rfl) _ config.width.bytes_pos ?_
      intro extent mem
      obtain ⟨slot, slot_mem, measured⟩ := List.mem_filterMap.mp mem
      exact induction slot slot_mem measured
  | optional feature slot induction =>
      rw [measure] at measured
      split at measured
      · exact induction measured
      · cases measured

theorem le_alignUp {align : Nat} (positive : 0 < align) (number : Nat) :
    number ≤ alignUp exact number align := by
  have bound := Nat.lt_div_mul_add (a := number + align - 1) positive
  rw [alignUp, exact]
  omega

theorem size_le_pad (positive : 0 < extent.align) : extent.size ≤ (pad exact extent).size :=
  le_alignUp positive extent.size

/-! ## Growth -/

theorem size_append (before next : Extent) :
    (append exact before next).size = alignUp exact before.size next.align + next.size := rfl

theorem size_le_append (positive : 0 < next.align) :
    before.size ≤ (append exact before next).size := by
  rw [size_append]
  exact Nat.le_add_right_of_le (le_alignUp positive before.size)

theorem size_le_measureStruct (config : BuildConfig) (before : Extent) (slots : List Slot) :
    before.size ≤ (measureStruct exact config before slots).size := by
  induction slots generalizing before with
  | nil => exact Nat.le_refl _
  | cons slot slots induction =>
      rw [measureStruct]
      split
      case h_1 extent measured =>
        exact Nat.le_trans (size_le_append (align_pos_of_measure measured)) (induction _)
      case h_2 => exact induction _

theorem size_le_measureUnion (config : BuildConfig) (before : Extent) (slots : List Slot) :
    before.size ≤ (measureUnion cut config before slots).size := by
  induction slots generalizing before with
  | nil => exact Nat.le_refl _
  | cons slot slots induction =>
      rw [measureUnion]
      split
      · refine Nat.le_trans ?_ (induction _)
        exact Nat.le_max_left ..
      · exact induction _

/-- A union has room for each of its variants. -/
theorem variant_size_le_measureUnion (before : Extent) (mem : slot ∈ slots)
    (measured : measure cut config slot = some extent) :
    extent.size ≤ (measureUnion cut config before slots).size := by
  induction slots generalizing before with
  | nil => cases mem
  | cons head slots induction =>
      rw [measureUnion]
      rcases List.mem_cons.mp mem with rfl | later
      · rw [measured]
        refine Nat.le_trans ?_ (size_le_measureUnion config _ slots)
        exact Nat.le_max_right ..
      · split
        · exact induction _ later
        · exact induction _ later

/-! ## Words -/

theorem word_eq {number : Nat} (small : number < UInt32.size) : word number = number :=
  Nat.mod_eq_of_lt small

theorem alignUp_word {number align : Nat} (small : alignUp exact number align < UInt32.size) :
    alignUp word number align = alignUp exact number align :=
  word_eq small

theorem append_word (small : (append exact before next).size < UInt32.size) :
    append word before next = append exact before next := by
  rw [size_append] at small
  rw [append, alignUp_word (by omega), word_eq small]
  rfl

theorem pad_word (small : (pad exact extent).size < UInt32.size) :
    pad word extent = pad exact extent := by
  rw [pad, alignUp_word small]
  rfl

theorem measureStruct_word
    (each : ∀ slot ∈ slots, (∀ extent ∈ measure exact config slot, extent.size < UInt32.size) →
      measure word config slot = measure exact config slot)
    (small : (measureStruct exact config before slots).size < UInt32.size) :
    measureStruct word config before slots = measureStruct exact config before slots := by
  induction slots generalizing before with
  | nil => rfl
  | cons slot slots induction =>
      have same := each slot List.mem_cons_self
      have rest := fun slot mem => each slot (List.mem_cons_of_mem _ mem)
      cases measured : measure exact config slot with
      | none =>
          rw [measured] at same
          simp only [measureStruct, measured, same nofun] at small ⊢
          exact induction rest small
      | some extent =>
          simp only [measureStruct, measured] at small ⊢
          have bound : (append exact before extent).size < UInt32.size :=
            Nat.lt_of_le_of_lt (size_le_measureStruct config _ slots) small
          have fits : ∀ other ∈ measure exact config slot, other.size < UInt32.size := by
            intro other mem
            rw [measured, Option.mem_some_iff] at mem
            subst mem
            rw [size_append] at bound
            omega
          rw [same fits, measured]
          simp only [append_word bound]
          exact induction rest small

theorem measureUnion_word
    (each : ∀ slot ∈ slots, (∀ extent ∈ measure exact config slot, extent.size < UInt32.size) →
      measure word config slot = measure exact config slot)
    (small : (measureUnion exact config before slots).size < UInt32.size) :
    measureUnion word config before slots = measureUnion exact config before slots := by
  have fits : ∀ slot ∈ slots, measure word config slot = measure exact config slot :=
    fun slot mem => each slot mem fun _ measured =>
      Nat.lt_of_le_of_lt (variant_size_le_measureUnion before mem measured) small
  clear small each
  induction slots generalizing before with
  | nil => rfl
  | cons slot slots induction =>
      have rest := fun slot mem => fits slot (List.mem_cons_of_mem _ mem)
      rw [measureUnion, measureUnion, fits slot List.mem_cons_self]
      split
      · exact induction rest
      · exact induction rest

/-- Words that are divided into elements can be counted in bytes if the elements can. -/
theorem words_lt {width : Width} {type : NativeType} {count : Nat}
    (small : type.size width * (count * width.bytes / type.size width) < UInt32.size) :
    count * width.bytes < UInt32.size := by
  -- from the first word that is too large on, the elements take as much space
  obtain ⟨most, size_eq⟩ := type.size_dvd width
  rw [size_eq] at small
  have fewer := Nat.lt_of_mul_lt_mul_left small
  rw [size_eq, Nat.mul_comm (type.size width)]
  exact (Nat.div_lt_iff_lt_mul (type.size_pos width)).mp fewer

theorem elementCount_word {width : Width} {type : NativeType} {length : ArrayLength}
    (small : type.size width * elementCount exact width type length < UInt32.size) :
    elementCount word width type length = elementCount exact width type length := by
  cases length with
  | fixed => rfl
  | words count =>
      simp only [elementCount, exact] at small ⊢
      rw [word_eq (words_lt small)]

/-- A slot whose size fits in a word is measured alike in words and in unbounded numbers. -/
theorem measure_word (small : ∀ extent ∈ measure exact config slot, extent.size < UInt32.size) :
    measure word config slot = measure exact config slot := by
  induction slot with
  | field => rfl
  | array name type length =>
      have bound := small _ rfl
      rw [exact] at bound
      rw [measure, elementCount_word bound, word_eq bound]
      rfl
  | embed name slots induction =>
      have bound := small _ rfl
      have inner := Nat.lt_of_le_of_lt
        (size_le_pad (align_le_measureStruct exact config nothing slots)) bound
      rw [measure, measureStruct_word induction inner, pad_word bound]
      rfl
  | union name variants induction =>
      have bound := small _ rfl
      have inner := Nat.lt_of_le_of_lt
        (size_le_pad (align_le_measureUnion exact config nothing variants)) bound
      rw [measure, measureUnion_word induction inner, pad_word bound]
      rfl
  | optional feature slot induction =>
      rw [measure] at small
      rw [measure, measure]
      split
      case isTrue present =>
        rw [if_pos present] at small
        exact induction small
      case isFalse => rfl

end Layout

end HostBridge
