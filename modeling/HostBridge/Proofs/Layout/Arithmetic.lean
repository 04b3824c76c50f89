import HostBridge.Proofs.Layout.Embedding

/-!
# The numbers of a layout

Words of 32 bits wrap around without notice, so a layout is only right if none of the numbers on
the way to it leaves them. Here the computation is repeated with a list of all these numbers: sizes,
alignments and lengths, products before and after a division, aligned cursors, and offsets from the
start of the record. If the size of the record fits in a word, then so does every number of the
list, and the computation in words is the one in unbounded numbers.
-/

namespace HostBridge

namespace Layout

/-- A result, with the numbers that were computed on the way to it. A number that was cut stands in
the list as it was before. -/
structure Noted (α : Type) where
  /-- The result. -/
  result : α
  /-- The numbers, oldest first. -/
  numbers : List Nat

namespace Noted

variable {α β : Type}

instance : Monad Noted where
  pure result := { result, numbers := [] }
  bind before next :=
    { result := (next before.result).result
      numbers := before.numbers ++ (next before.result).numbers }

@[simp]
theorem result_pure (result : α) : (pure result : Noted α).result = result := rfl

@[simp]
theorem result_bind (before : Noted α) (next : α → Noted β) :
    (before >>= next).result = (next before.result).result := rfl

/-- Note a number and cut it. -/
def note (cut : Nat → Nat) (number : Nat) : Noted Nat :=
  { result := cut number, numbers := [number] }

@[simp]
theorem result_note (cut : Nat → Nat) (number : Nat) : (note cut number).result = cut number := rfl

/-! ## The computation with its numbers -/

/-- The least multiple of `align` from `number` on. -/
def alignUp (cut : Nat → Nat) (number align : Nat) : Noted Nat := do
  let count ← note exact ((number + align - 1) / align)
  note cut (count * align)

/-- The number of elements of an array. -/
def elementCount (cut : Nat → Nat) (width : Width) (type : NativeType) :
    ArrayLength → Noted Nat
  | .fixed count => note exact count
  | .words count => do
      let bytes ← note cut (count * width.bytes)
      note exact (bytes / type.size width)

/-- Put an extent behind those of a struct. -/
def append (cut : Nat → Nat) (before next : Extent) : Noted Extent := do
  let start ← alignUp cut before.size next.align
  let size ← note cut (start + next.size)
  let align ← note exact (max before.align next.align)
  pure { size, align }

/-- Put an extent beside those of a union. -/
def overlay (before next : Extent) : Noted Extent := do
  let size ← note exact (max before.size next.size)
  let align ← note exact (max before.align next.align)
  pure { size, align }

/-- Fill up an extent to a multiple of its alignment. -/
def pad (cut : Nat → Nat) (extent : Extent) : Noted Extent := do
  let size ← alignUp cut extent.size extent.align
  pure { extent with size }

mutual

/-- The space that a slot takes in a build. -/
def measure (cut : Nat → Nat) (config : BuildConfig) : Slot → Noted (Option Extent)
  | .field _ type => do
      let size ← note exact (type.size config.width)
      let align ← note exact (type.align config.width)
      pure (some { size, align })
  | .array _ type length => do
      let count ← elementCount cut config.width type length
      let size ← note cut (type.size config.width * count)
      let align ← note exact (type.align config.width)
      pure (some { size, align })
  | .embed _ slots => do
      let inner ← measureStruct cut config nothing slots
      let extent ← pad cut inner
      pure (some extent)
  | .union _ variants => do
      let inner ← measureUnion cut config nothing variants
      let extent ← pad cut inner
      pure (some extent)
  | .optional feature slot => if config.has feature then measure cut config slot else pure none

/-- The space of slots one behind the other. -/
def measureStruct (cut : Nat → Nat) (config : BuildConfig) (before : Extent) :
    List Slot → Noted Extent
  | [] => pure before
  | slot :: slots => do
      match ← measure cut config slot with
      | some extent => do
          let grown ← append cut before extent
          measureStruct cut config grown slots
      | none => measureStruct cut config before slots

/-- The space of slots at one offset. -/
def measureUnion (cut : Nat → Nat) (config : BuildConfig) (before : Extent) :
    List Slot → Noted Extent
  | [] => pure before
  | slot :: slots => do
      match ← measure cut config slot with
      | some extent => do
          let grown ← overlay before extent
          measureUnion cut config grown slots
      | none => measureUnion cut config before slots

end

mutual

/-- The members of a slot at an offset. -/
def place (cut : Nat → Nat) (config : BuildConfig) (outer : String) (offset : Nat) :
    Slot → Noted (List Placement)
  | .field name type => pure [{ name := join outer name, offset, type }]
  | .array name type _ => pure [{ name := join outer name, offset, type }]
  | .embed name slots => placeStruct cut config (scope outer name) offset 0 slots
  | .union name variants => placeUnion cut config (join outer name) offset variants
  | .optional feature slot =>
      if config.has feature then place cut config outer offset slot else pure []

/-- The members of slots one behind the other. -/
def placeStruct (cut : Nat → Nat) (config : BuildConfig) (outer : String) (base cursor : Nat) :
    List Slot → Noted (List Placement)
  | [] => pure []
  | slot :: slots => do
      match ← measure cut config slot with
      | none => placeStruct cut config outer base cursor slots
      | some extent => do
          let start ← alignUp cut cursor extent.align
          let offset ← note cut (base + start)
          let here ← place cut config outer offset slot
          let next ← note cut (start + extent.size)
          let later ← placeStruct cut config outer base next slots
          pure (here ++ later)

/-- The members of slots at one offset. -/
def placeUnion (cut : Nat → Nat) (config : BuildConfig) (outer : String) (offset : Nat) :
    List Slot → Noted (List Placement)
  | [] => pure []
  | slot :: slots => do
      let here ← place cut config outer offset slot
      let later ← placeUnion cut config outer offset slots
      pure (here ++ later)

end

/-! ## The results are those of the layout -/

variable {config : BuildConfig} {slot : Slot} {slots : List Slot} {outer : String}
  {offset base : Nat} {before next extent : Extent}

theorem result_elementCount (cut : Nat → Nat) (width : Width) (type : NativeType)
    (length : ArrayLength) :
    (elementCount cut width type length).result = Layout.elementCount cut width type length := by
  cases length <;> rfl

theorem result_measureStruct (cut : Nat → Nat) (config : BuildConfig) (before : Extent)
    (each : ∀ slot ∈ slots, (measure cut config slot).result = Layout.measure cut config slot) :
    (measureStruct cut config before slots).result =
      Layout.measureStruct cut config before slots := by
  induction slots generalizing before with
  | nil => rfl
  | cons slot slots induction =>
      have rest := fun slot mem => each slot (List.mem_cons_of_mem _ mem)
      rw [measureStruct, Layout.measureStruct, result_bind, each slot List.mem_cons_self]
      cases Layout.measure cut config slot with
      | none => exact induction before rest
      | some extent => exact induction (Layout.append cut before extent) rest

theorem result_measureUnion (cut : Nat → Nat) (config : BuildConfig) (before : Extent)
    (each : ∀ slot ∈ slots, (measure cut config slot).result = Layout.measure cut config slot) :
    (measureUnion cut config before slots).result =
      Layout.measureUnion cut config before slots := by
  induction slots generalizing before with
  | nil => rfl
  | cons slot slots induction =>
      have rest := fun slot mem => each slot (List.mem_cons_of_mem _ mem)
      rw [measureUnion, Layout.measureUnion, result_bind, each slot List.mem_cons_self]
      cases Layout.measure cut config slot with
      | none => exact induction before rest
      | some extent => exact induction (Layout.overlay before extent) rest

theorem result_measure (cut : Nat → Nat) (config : BuildConfig) (slot : Slot) :
    (measure cut config slot).result = Layout.measure cut config slot := by
  induction slot with
  | field => rfl
  | array name type length =>
      rw [measure, Layout.measure, ← result_elementCount]
      rfl
  | embed name slots induction =>
      rw [measure, Layout.measure, ← result_measureStruct _ _ nothing induction]
      rfl
  | union name variants induction =>
      rw [measure, Layout.measure, ← result_measureUnion _ _ nothing induction]
      rfl
  | optional feature slot induction =>
      rw [measure, Layout.measure]
      split
      · exact induction
      · rfl

theorem result_placeStruct (cut : Nat → Nat) (config : BuildConfig) (outer : String)
    (base cursor : Nat)
    (each : ∀ slot ∈ slots, ∀ outer offset,
      (place cut config outer offset slot).result = Layout.place cut config outer offset slot) :
    (placeStruct cut config outer base cursor slots).result =
      Layout.placeStruct cut config outer base cursor slots := by
  induction slots generalizing cursor with
  | nil => rfl
  | cons slot slots induction =>
      have rest := fun slot mem => each slot (List.mem_cons_of_mem _ mem)
      rw [placeStruct, Layout.placeStruct, result_bind, result_measure]
      cases Layout.measure cut config slot with
      | none => exact induction cursor rest
      | some extent =>
          simp only [result_bind, result_pure, result_note, each slot List.mem_cons_self,
            induction _ rest]
          rfl

theorem result_placeUnion {cut : Nat → Nat}
    (each : ∀ slot ∈ slots,
      (place cut config outer offset slot).result = Layout.place cut config outer offset slot) :
    (placeUnion cut config outer offset slots).result =
      Layout.placeUnion cut config outer offset slots := by
  induction slots with
  | nil => rfl
  | cons slot slots induction =>
      obtain ⟨here, rest⟩ := List.forall_mem_cons.mp each
      rw [Layout.placeUnion, ← here, ← induction rest]
      rfl

theorem result_place (cut : Nat → Nat) (config : BuildConfig) (outer : String) (offset : Nat)
    (slot : Slot) :
    (place cut config outer offset slot).result = Layout.place cut config outer offset slot := by
  induction slot generalizing outer offset with
  | field | array => rfl
  | embed name slots induction =>
      rw [place, place_embed]
      exact result_placeStruct cut config _ offset 0 fun slot mem outer offset =>
        induction slot mem outer offset
  | union name variants induction =>
      rw [place, Layout.place]
      exact result_placeUnion fun slot mem => induction slot mem _ offset
  | optional feature slot induction =>
      rw [place, Layout.place]
      split
      · exact induction outer offset
      · rfl

/-! ## Words follow unbounded numbers -/

/-- Every number of the computation is a word of 32 bits. -/
def Fits (computation : Noted α) : Prop := ∀ number ∈ computation.numbers, number < UInt32.size

theorem fits_pure (result : α) : (pure result : Noted α).Fits := nofun

theorem fits_note {cut : Nat → Nat} {number : Nat} :
    (note cut number).Fits ↔ number < UInt32.size :=
  List.forall_mem_singleton

theorem fits_bind {first : Noted α} {next : α → Noted β} :
    (first >>= next).Fits ↔ first.Fits ∧ (next first.result).Fits :=
  List.forall_mem_append

/-- The first computation is the second one, unless a number of the second one is no word. -/
def Follows (words unbounded : Noted α) : Prop := unbounded.Fits → words = unbounded

theorem Follows.refl (computation : Noted α) : computation.Follows computation := fun _ => rfl

theorem Follows.note (number : Nat) : (note word number).Follows (note exact number) := by
  intro fits
  rw [Noted.note, word_eq (fits_note.mp fits)]
  rfl

/-- What goes on from the same result goes on alike, so that computations can be compared step by
step. -/
theorem Follows.bind {words unbounded : Noted α} {next further : α → Noted β}
    (first : words.Follows unbounded) (rest : ∀ result, (next result).Follows (further result)) :
    (words >>= next).Follows (unbounded >>= further) := by
  intro fits
  obtain ⟨fits_first, fits_rest⟩ := fits_bind.mp fits
  rw [first fits_first]
  show Noted.mk _ _ = Noted.mk _ _
  rw [rest _ fits_rest]

theorem follows_alignUp (number align : Nat) :
    (alignUp word number align).Follows (alignUp exact number align) :=
  (Follows.refl _).bind fun _ => .note _

theorem follows_elementCount (width : Width) (type : NativeType) (length : ArrayLength) :
    (elementCount word width type length).Follows (elementCount exact width type length) := by
  cases length with
  | fixed => exact .refl _
  | words count => exact (Follows.note _).bind fun _ => .refl _

theorem follows_append (before next : Extent) :
    (append word before next).Follows (append exact before next) :=
  (follows_alignUp _ _).bind fun _ => (Follows.note _).bind fun _ => .refl _

theorem follows_pad (extent : Extent) : (pad word extent).Follows (pad exact extent) :=
  (follows_alignUp _ _).bind fun _ => .refl _

theorem follows_measureStruct (before : Extent)
    (each : ∀ slot ∈ slots, (measure word config slot).Follows (measure exact config slot)) :
    (measureStruct word config before slots).Follows (measureStruct exact config before slots) := by
  induction slots generalizing before with
  | nil => exact .refl _
  | cons slot slots induction =>
      have rest := fun slot mem => each slot (List.mem_cons_of_mem _ mem)
      apply (each slot List.mem_cons_self).bind
      rintro (_ | extent)
      · exact induction before rest
      · exact (follows_append before extent).bind fun grown => induction grown rest

theorem follows_measureUnion (before : Extent)
    (each : ∀ slot ∈ slots, (measure word config slot).Follows (measure exact config slot)) :
    (measureUnion word config before slots).Follows (measureUnion exact config before slots) := by
  induction slots generalizing before with
  | nil => exact .refl _
  | cons slot slots induction =>
      have rest := fun slot mem => each slot (List.mem_cons_of_mem _ mem)
      apply (each slot List.mem_cons_self).bind
      rintro (_ | extent)
      · exact induction before rest
      · exact (Follows.refl _).bind fun grown => induction grown rest

theorem follows_measure (config : BuildConfig) (slot : Slot) :
    (measure word config slot).Follows (measure exact config slot) := by
  induction slot with
  | field => exact .refl _
  | array name type length =>
      exact (follows_elementCount _ _ _).bind fun _ => (Follows.note _).bind fun _ => .refl _
  | embed name slots induction =>
      exact (follows_measureStruct nothing induction).bind fun _ =>
        (follows_pad _).bind fun _ => .refl _
  | union name variants induction =>
      exact (follows_measureUnion nothing induction).bind fun _ =>
        (follows_pad _).bind fun _ => .refl _
  | optional feature slot induction =>
      rw [measure, measure]
      split
      · exact induction
      · exact .refl _

theorem follows_placeStruct (outer : String) (base cursor : Nat)
    (each : ∀ slot ∈ slots, ∀ outer offset,
      (place word config outer offset slot).Follows (place exact config outer offset slot)) :
    (placeStruct word config outer base cursor slots).Follows
      (placeStruct exact config outer base cursor slots) := by
  induction slots generalizing cursor with
  | nil => exact .refl _
  | cons slot slots induction =>
      have rest := fun slot mem => each slot (List.mem_cons_of_mem _ mem)
      apply (follows_measure config slot).bind
      rintro (_ | extent)
      · exact induction cursor rest
      · refine (follows_alignUp _ _).bind fun start => (Follows.note _).bind fun offset => ?_
        refine (each slot List.mem_cons_self outer offset).bind fun here => ?_
        exact (Follows.note _).bind fun next => (induction next rest).bind fun _ => .refl _

theorem follows_placeUnion
    (each : ∀ slot ∈ slots,
      (place word config outer offset slot).Follows (place exact config outer offset slot)) :
    (placeUnion word config outer offset slots).Follows
      (placeUnion exact config outer offset slots) := by
  induction slots with
  | nil => exact .refl _
  | cons slot slots induction =>
      obtain ⟨here, rest⟩ := List.forall_mem_cons.mp each
      exact here.bind fun _ => (induction rest).bind fun _ => .refl _

theorem follows_place (config : BuildConfig) (outer : String) (offset : Nat) (slot : Slot) :
    (place word config outer offset slot).Follows (place exact config outer offset slot) := by
  induction slot generalizing outer offset with
  | field | array => exact .refl _
  | embed name slots induction =>
      rw [place, place]
      exact follows_placeStruct _ offset 0 fun slot mem outer offset =>
        induction slot mem outer offset
  | union name variants induction =>
      rw [place, place]
      exact follows_placeUnion fun slot mem => induction slot mem _ offset
  | optional feature slot induction =>
      rw [place, place]
      split
      · exact induction outer offset
      · exact .refl _

/-! ## Unbounded numbers fit if the size does -/

theorem fits_alignUp {number align : Nat} (positive : 0 < align)
    (small : Layout.alignUp exact number align < UInt32.size) :
    (alignUp exact number align).Fits := by
  refine fits_bind.mpr ⟨fits_note.mpr ?_, fits_note.mpr small⟩
  exact Nat.lt_of_le_of_lt (Nat.le_mul_of_pos_right _ positive) small

theorem fits_elementCount {width : Width} {type : NativeType} {length : ArrayLength}
    (small : type.size width * Layout.elementCount exact width type length < UInt32.size) :
    (elementCount exact width type length).Fits := by
  have count_lt : Layout.elementCount exact width type length < UInt32.size :=
    Nat.lt_of_le_of_lt (Nat.le_mul_of_pos_left _ (type.size_pos width)) small
  cases length with
  | fixed count => exact fits_note.mpr count_lt
  | words count => exact fits_bind.mpr ⟨fits_note.mpr (words_lt small), fits_note.mpr count_lt⟩

theorem fits_append (positive : 0 < next.align)
    (small : (Layout.append exact before next).size < UInt32.size)
    (align_small : max before.align next.align < UInt32.size) :
    (append exact before next).Fits := by
  have start_small : Layout.alignUp exact before.size next.align < UInt32.size :=
    Nat.lt_of_le_of_lt (Nat.le_add_right ..) small
  exact fits_bind.mpr ⟨fits_alignUp positive start_small, fits_bind.mpr ⟨fits_note.mpr small,
    fits_bind.mpr ⟨fits_note.mpr align_small, fits_pure _⟩⟩⟩

theorem fits_overlay (small : (Layout.overlay before next).size < UInt32.size)
    (align_small : max before.align next.align < UInt32.size) :
    (overlay before next).Fits :=
  fits_bind.mpr ⟨fits_note.mpr small, fits_bind.mpr ⟨fits_note.mpr align_small, fits_pure _⟩⟩

theorem fits_pad (positive : 0 < extent.align)
    (small : (Layout.pad exact extent).size < UInt32.size) : (pad exact extent).Fits :=
  fits_bind.mpr ⟨fits_alignUp positive small, fits_pure _⟩

/-- A slot is measured with words if its size is one. -/
def FitsSlot (config : BuildConfig) (slot : Slot) : Prop :=
  (∀ extent ∈ Layout.measure exact config slot, extent.size < UInt32.size) →
    (measure exact config slot).Fits

theorem fits_measureStruct (each : ∀ slot ∈ slots, FitsSlot config slot)
    (aligned : before.align ≤ config.width.bytes)
    (small : (Layout.measureStruct exact config before slots).size < UInt32.size) :
    (measureStruct exact config before slots).Fits := by
  induction slots generalizing before with
  | nil => exact fits_pure _
  | cons slot slots induction =>
      have rest := fun slot mem => each slot (List.mem_cons_of_mem _ mem)
      have here := each slot List.mem_cons_self
      rw [FitsSlot] at here
      rw [Layout.measureStruct] at small
      rw [measureStruct, fits_bind, result_measure]
      cases measured : Layout.measure exact config slot with
      | none =>
          rw [measured] at here small
          exact ⟨here fun _ mem => absurd mem (Option.not_mem_none _), induction rest aligned small⟩
      | some extent =>
          rw [measured] at here small
          have bound : (Layout.append exact before extent).size < UInt32.size :=
            Nat.lt_of_le_of_lt (size_le_measureStruct config _ slots) small
          have grown_aligned : max before.align extent.align ≤ config.width.bytes :=
            Nat.max_le.mpr ⟨aligned, align_le_of_measure measured⟩
          refine ⟨here ?_, fits_bind.mpr ⟨?_, ?_⟩⟩
          · rintro _ ⟨⟩
            exact Nat.lt_of_le_of_lt (Nat.le_add_left ..) bound
          · exact fits_append (align_pos_of_measure measured) bound
              (Nat.lt_of_le_of_lt grown_aligned config.width.bytes_lt)
          · exact induction rest grown_aligned small

theorem fits_measureUnion (each : ∀ slot ∈ slots, FitsSlot config slot)
    (aligned : before.align ≤ config.width.bytes)
    (small : (Layout.measureUnion exact config before slots).size < UInt32.size) :
    (measureUnion exact config before slots).Fits := by
  induction slots generalizing before with
  | nil => exact fits_pure _
  | cons slot slots induction =>
      have rest := fun slot mem => each slot (List.mem_cons_of_mem _ mem)
      have here := each slot List.mem_cons_self
      rw [FitsSlot] at here
      rw [Layout.measureUnion] at small
      rw [measureUnion, fits_bind, result_measure]
      cases measured : Layout.measure exact config slot with
      | none =>
          rw [measured] at here small
          exact ⟨here fun _ mem => absurd mem (Option.not_mem_none _), induction rest aligned small⟩
      | some extent =>
          rw [measured] at here small
          have bound : (Layout.overlay before extent).size < UInt32.size :=
            Nat.lt_of_le_of_lt (size_le_measureUnion config _ slots) small
          have grown_aligned : max before.align extent.align ≤ config.width.bytes :=
            Nat.max_le.mpr ⟨aligned, align_le_of_measure measured⟩
          refine ⟨here ?_, fits_bind.mpr ⟨?_, ?_⟩⟩
          · rintro _ ⟨⟩
            exact Nat.lt_of_le_of_lt (Nat.le_max_right ..) bound
          · exact fits_overlay bound (Nat.lt_of_le_of_lt grown_aligned config.width.bytes_lt)
          · exact induction rest grown_aligned small

private theorem align_lt (type : NativeType) : type.align config.width < UInt32.size :=
  Nat.lt_of_le_of_lt (Nat.min_le_right ..) config.width.bytes_lt

theorem fits_measure (config : BuildConfig) (slot : Slot) : FitsSlot config slot := by
  induction slot with
  | field name type =>
      intro small
      exact fits_bind.mpr ⟨fits_note.mpr (small _ rfl),
        fits_bind.mpr ⟨fits_note.mpr (align_lt type), fits_pure _⟩⟩
  | array name type length =>
      intro small
      have bound := small _ rfl
      rw [exact] at bound
      rw [measure, fits_bind, result_elementCount]
      exact ⟨fits_elementCount bound, fits_bind.mpr ⟨fits_note.mpr bound,
        fits_bind.mpr ⟨fits_note.mpr (align_lt type), fits_pure _⟩⟩⟩
  | embed name slots induction =>
      intro small
      have bound := small _ rfl
      have positive := align_le_measureStruct exact config nothing slots
      rw [measure, fits_bind, result_measureStruct _ _ nothing fun slot _ => result_measure ..]
      exact ⟨fits_measureStruct induction config.width.bytes_pos
          (Nat.lt_of_le_of_lt (size_le_pad positive) bound),
        fits_bind.mpr ⟨fits_pad positive bound, fits_pure _⟩⟩
  | union name variants induction =>
      intro small
      have bound := small _ rfl
      have positive := align_le_measureUnion exact config nothing variants
      rw [measure, fits_bind, result_measureUnion _ _ nothing fun slot _ => result_measure ..]
      exact ⟨fits_measureUnion induction config.width.bytes_pos
          (Nat.lt_of_le_of_lt (size_le_pad positive) bound),
        fits_bind.mpr ⟨fits_pad positive bound, fits_pure _⟩⟩
  | optional feature slot induction =>
      intro small
      rw [Layout.measure] at small
      rw [measure]
      split
      case isTrue present =>
        rw [if_pos present] at small
        exact induction small
      case isFalse => exact fits_pure _

theorem fits_placeStruct (before : Extent)
    (each : ∀ slot ∈ slots, ∀ outer offset,
      (∀ extent ∈ Layout.measure exact config slot, offset + extent.size < UInt32.size) →
        (place exact config outer offset slot).Fits)
    (small : base + (Layout.measureStruct exact config before slots).size < UInt32.size) :
    (placeStruct exact config outer base before.size slots).Fits := by
  induction slots generalizing before with
  | nil => exact fits_pure _
  | cons slot slots induction =>
      have rest := fun slot mem => each slot (List.mem_cons_of_mem _ mem)
      have here := each slot List.mem_cons_self outer
      have own := fits_measure config slot
      rw [FitsSlot] at own
      rw [Layout.measureStruct] at small
      rw [placeStruct, fits_bind, result_measure]
      cases measured : Layout.measure exact config slot with
      | none =>
          rw [measured] at own small
          exact ⟨own fun _ mem => absurd mem (Option.not_mem_none _), induction before rest small⟩
      | some extent =>
          simp only [measured] at own here small
          have total := size_le_measureStruct config (Layout.append exact before extent) slots
          have grown := size_append before extent
          have later := induction (Layout.append exact before extent) rest small
          refine ⟨own ?_, fits_bind.mpr ⟨fits_alignUp (align_pos_of_measure measured) (by omega),
            fits_bind.mpr ⟨fits_note.mpr ?_, fits_bind.mpr ⟨here _ ?_,
              fits_bind.mpr ⟨fits_note.mpr ?_, fits_bind.mpr ⟨later, fits_pure _⟩⟩⟩⟩⟩⟩
          · rintro _ ⟨⟩
            omega
          · show base + Layout.alignUp exact before.size extent.align < UInt32.size
            omega
          · rintro _ ⟨⟩
            show base + Layout.alignUp exact before.size extent.align + extent.size < UInt32.size
            omega
          · show Layout.alignUp exact before.size extent.align + extent.size < UInt32.size
            omega

theorem fits_placeUnion (each : ∀ slot ∈ slots, (place exact config outer offset slot).Fits) :
    (placeUnion exact config outer offset slots).Fits := by
  induction slots with
  | nil => exact fits_pure _
  | cons slot slots induction =>
      obtain ⟨here, rest⟩ := List.forall_mem_cons.mp each
      exact fits_bind.mpr ⟨here, fits_bind.mpr ⟨induction rest, fits_pure _⟩⟩

theorem fits_place
    (small : ∀ extent ∈ Layout.measure exact config slot, offset + extent.size < UInt32.size) :
    (place exact config outer offset slot).Fits := by
  induction slot generalizing outer offset with
  | field | array => exact fits_pure _
  | embed name slots induction =>
      have bound := small _ rfl
      have inner := size_le_pad (align_le_measureStruct exact config nothing slots)
      rw [place]
      exact fits_placeStruct nothing (fun slot mem outer offset => induction slot mem) (by omega)
  | union name variants induction =>
      have bound := small _ rfl
      have inner := size_le_pad (align_le_measureUnion exact config nothing variants)
      rw [place]
      apply fits_placeUnion
      intro slot mem
      apply induction slot mem
      intro extent measured
      have room := variant_size_le_measureUnion nothing mem measured
      omega
  | optional feature slot induction =>
      rw [Layout.measure] at small
      rw [place]
      split
      case isTrue present =>
        rw [if_pos present] at small
        exact induction small
      case isFalse => exact fits_pure _

end Noted

end Layout

/-! ## Records -/

/-- The members of a layout at their places, in unbounded numbers. -/
def RecordLayout.placements (layout : RecordLayout) : List Placement :=
  layout.members.map fun entry =>
    { name := entry.1, offset := entry.2.offset.toNat, type := entry.2.type }

namespace Record

variable {config : BuildConfig} {record : Record}

/-- The size and the members of a record, with the numbers that are computed for them. -/
def noted (cut : Nat → Nat) (config : BuildConfig) (record : Record) :
    Layout.Noted (Nat × List Placement) := do
  let placements ← Layout.Noted.placeStruct cut config "" 0 0 record.slots
  let inner ← Layout.Noted.measureStruct cut config Layout.nothing record.slots
  let extent ← Layout.Noted.pad cut inner
  pure (extent.size, placements)

theorem result_noted (cut : Nat → Nat) (config : BuildConfig) (record : Record) :
    (record.noted cut config).result =
      ((record.extent cut config).size, record.placements cut config) := by
  have placed := Layout.Noted.result_placeStruct cut config "" 0 0
    fun slot (_ : slot ∈ record.slots) outer offset =>
      Layout.Noted.result_place cut config outer offset slot
  have measured := Layout.Noted.result_measureStruct cut config Layout.nothing
    fun slot (_ : slot ∈ record.slots) => Layout.Noted.result_measure cut config slot
  rw [extent, placements, ← placed, ← measured]
  rfl

theorem follows_noted (config : BuildConfig) (record : Record) :
    (record.noted Layout.word config).Follows (record.noted Layout.exact config) := by
  refine (Layout.Noted.follows_placeStruct _ _ _ fun slot _ outer offset =>
    Layout.Noted.follows_place config outer offset slot).bind fun _ => ?_
  refine (Layout.Noted.follows_measureStruct _ fun slot _ =>
    Layout.Noted.follows_measure config slot).bind fun _ => ?_
  exact (Layout.Noted.follows_pad _).bind fun _ => .refl _

section Words

variable (small : (record.extent Layout.exact config).size < UInt32.size)
include small

theorem fits_noted : (record.noted Layout.exact config).Fits := by
  have positive := Layout.align_le_measureStruct Layout.exact config Layout.nothing record.slots
  have inner_small := Nat.lt_of_le_of_lt (Layout.size_le_pad positive) small
  rw [noted, Layout.Noted.fits_bind, Layout.Noted.fits_bind,
    Layout.Noted.result_measureStruct _ _ _ fun slot _ => Layout.Noted.result_measure ..]
  refine ⟨?_, ?_, Layout.Noted.fits_bind.mpr ⟨Layout.Noted.fits_pad positive small,
    Layout.Noted.fits_pure _⟩⟩
  · apply Layout.Noted.fits_placeStruct Layout.nothing
    · exact fun slot _ outer offset => Layout.Noted.fits_place
    · rwa [Nat.zero_add]
  · exact Layout.Noted.fits_measureStruct (fun slot _ => Layout.Noted.fits_measure config slot)
      config.width.bytes_pos inner_small

theorem offset_lt {placement : Placement}
    (mem : placement ∈ record.placements Layout.exact config) :
    placement.offset < UInt32.size := by
  have lengths := Layout.length_place Layout.exact config "" 0 record.slot
  rw [← place_slot, ← List.map_snd_zip (Nat.le_of_eq lengths)] at mem
  obtain ⟨entry, located, rfl⟩ := List.mem_map.mp mem
  exact Nat.lt_of_le_of_lt (Nat.le_of_add_right_le (located_within located)) small

theorem placements_exactLayout :
    (record.exactLayout config).placements = record.placements Layout.exact config := by
  rw [RecordLayout.placements, exactLayout, List.map_map]
  refine (List.map_congr_left ?_).trans (List.map_id _)
  intro placement mem
  simp only [Function.comp_apply, UInt32.toNat_ofNat', Nat.mod_eq_of_lt (offset_lt small mem)]
  rfl

/-- If the size of a record fits in a word, then so does every number that is computed for its
layout. The computation in words is therefore, number by number, the one in unbounded numbers, and
the layout has the size and the members that unbounded numbers give. -/
theorem numbers_within_words :
    (∀ number ∈ (record.noted Layout.word config).numbers, number < UInt32.size) ∧
      record.noted Layout.word config = record.noted Layout.exact config ∧
      (∀ cut, (record.noted cut config).result =
        ((record.extent cut config).size, record.placements cut config)) ∧
      (record.extent Layout.word config).size = (record.extent Layout.exact config).size ∧
      record.placements Layout.word config = record.placements Layout.exact config ∧
      (record.present config = true →
        ∃ layout, record.compute config = some layout ∧
          layout.size.toNat = (record.extent Layout.exact config).size ∧
          layout.placements = record.placements Layout.exact config) := by
  have fits := fits_noted small
  have same := follows_noted config record fits
  have results := congrArg Layout.Noted.result same
  rw [result_noted, result_noted, Prod.mk.injEq] at results
  refine ⟨?_, same, fun cut => result_noted cut config record, results.1, results.2, ?_⟩
  · rw [same]
    exact fits
  · intro present
    exact ⟨record.exactLayout config, compute_eq_exactLayout small present,
      toNat_exactLayout_size small, placements_exactLayout small⟩

end Words

/-- A record that leaves sixteen bytes of the words. -/
def brimming : Record :=
  { name := "Brimming"
    slots :=
      [.field "tag" .uint8,
        .union "as"
          [.array "numbers" .int32 (.words 536870909),
            .embed "" [.array "bytes" .uint8 (.fixed 4294967272), .field "last" .uint8]],
        .optional .classSuper (.array "more" .float64 (.words 536870909))] }

/-- A build with 64-bit pointers and no optional members. -/
def plain : BuildConfig := { abi := .callFrame, width := .bits64, has := fun _ => false }

theorem numbers_within_words_brimming :
    (brimming.extent Layout.exact plain).size = 4294967280 ∧
      4294967272 ∈ (brimming.noted Layout.word plain).numbers ∧
      (∀ number ∈ (brimming.noted Layout.word plain).numbers, number < UInt32.size) ∧
      ∃ layout, brimming.compute plain = some layout ∧
        layout.size = 4294967280 ∧
        layout.placements =
          [{ name := "tag", offset := 0, type := .uint8 },
            { name := "as.numbers", offset := 4, type := .int32 },
            { name := "as.bytes", offset := 4, type := .uint8 },
            { name := "as.last", offset := 4294967276, type := .uint8 }] := by
  have size_eq : (brimming.extent Layout.exact plain).size = 4294967280 := by decide +kernel
  have placed : brimming.placements Layout.exact plain =
      [{ name := "tag", offset := 0, type := .uint8 },
        { name := "as.numbers", offset := 4, type := .int32 },
        { name := "as.bytes", offset := 4, type := .uint8 },
        { name := "as.last", offset := 4294967276, type := .uint8 }] := by decide +kernel
  have small : (brimming.extent Layout.exact plain).size < UInt32.size := by
    rw [size_eq]
    decide
  obtain ⟨fits, -, -, -, -, found⟩ := numbers_within_words small
  obtain ⟨layout, computed, layout_size, members⟩ := found rfl
  refine ⟨size_eq, by decide +kernel, fits, layout, computed, ?_, members.trans placed⟩
  exact UInt32.toNat_inj.mp (layout_size.trans size_eq)

end Record

end HostBridge
