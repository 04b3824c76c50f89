import HostBridge.Proofs.Code.Member

/-!
# Generated and raw access

A member is reached in two ways: by generated code, with the offset as a signed displacement of 32
bits, and by the host itself, which adds the offset as it is. Both take the same bytes, of the same
number and with the same extension, as long as the offset is below `2 ^ 31`. From there on the
displacement is negative, and generated code reaches what the host reaches from an address `2 ^ 32`
bytes further down.
-/

namespace HostBridge

/-! ## Addresses -/

namespace Member

variable (member : Member) (base : UInt64)

theorem size_le : member.size ≤ 8 := by
  rw [size]
  cases member.type <;> decide

/-- The cases of a raw read are those of the sign of the type. -/
theorem readRaw_eq (memory : Memory) :
    member.readRaw memory base =
      let bits := memory.load (member.address base) member.size
      if member.type.isSigned then (member.type.irType .pointer).signExtend bits else bits := by
  obtain ⟨offset, type⟩ := member
  cases type <;> rfl

/-- The cases of a raw write are those of the size of the type. -/
theorem writeRaw_eq (memory : Memory) (bits : UInt64) :
    member.writeRaw memory base bits =
      memory.store (member.address base) member.size bits := by
  obtain ⟨offset, type⟩ := member
  cases type <;> rfl

/-- The record in which the host finds what generated code finds in the record at `base`. -/
def origin : UInt64 :=
  if member.offset.toNat < 2 ^ 31 then base else base - 0x100000000

theorem origin_eq_iff : member.origin base = base ↔ member.offset.toNat < 2 ^ 31 := by
  rw [origin]
  split
  case isTrue small => exact iff_of_true rfl small
  case isFalse large =>
    refine iff_of_false (fun same => ?_) large
    have moved := congrArg UInt64.toNat same
    have bound := base.toNat_lt
    rw [UInt64.toNat_sub] at moved
    simp only [UInt64.reduceToNat] at moved
    omega

theorem displaced_eq_address :
    displaced base member.offset = member.address (member.origin base) := by
  apply UInt64.toNat_inj.mp
  have := member.offset.toNat_lt
  have := base.toNat_lt
  rw [displaced, address, origin, UInt64.toNat_add, UInt64.toNat_add, toNat_displacement,
    UInt32.toNat_toUInt64]
  split
  · rfl
  · rw [UInt64.toNat_sub]
    simp only [UInt64.reduceToNat]
    omega

/-- The two records of a far member do not share the first byte of the member. -/
theorem size_le_address_sub (far : member.origin base ≠ base) :
    member.size ≤ (member.address base - member.address (member.origin base)).toNat := by
  have large := mt (member.origin_eq_iff base).mpr far
  have apart : member.address base - member.address (base - 0x100000000) = 0x100000000 := by
    rw [address, address]
    grind
  rw [origin, if_neg large, apart]
  exact Nat.le_trans member.size_le (by decide)

/-- A word whose low byte is new at the member leaves its mark in one of the two records alone. -/
theorem exists_writeRaw_ne (far : member.origin base ≠ base) (memory : Memory) :
    ∃ word,
      member.writeRaw memory (member.origin base) word ≠ member.writeRaw memory base word := by
  refine ⟨(memory (member.address base)).toUInt64 + 1, fun same => ?_⟩
  have kept := congrFun same (member.address base)
  have positive : 0 < member.size := member.type.size_pos .bits64
  rw [writeRaw_eq, writeRaw_eq, Memory.store_beyond _ (member.size_le_address_sub base far),
    Memory.store_first member.size_le positive] at kept
  simp at kept

end Member

/-! ## Extensions -/

/-- The low bits of a value, extended to a word by the rule for the type. -/
def NativeType.extended (type : NativeType) (bits : UInt64) : BitVec 64 :=
  let low := bits.toBitVec.setWidth (8 * type.size .bits64)
  if type.isSigned then low.signExtend 64 else low.setWidth 64

theorem IrType.cut_cut (type : IrType) (bits : UInt64) :
    type.cut (type.cut bits) = type.cut bits := by
  apply UInt64.toNat_inj.mp
  simp [toNat_cut]

theorem IrType.toBitVec_signExtend (type : IrType) (bits : UInt64) :
    (type.signExtend bits).toBitVec =
      (bits.toBitVec.setWidth (8 * type.bytes)).signExtend 64 := by
  cases type with
  | i8 | i16 | i32 | f32 => rfl
  | i64 | f64 => simp [signExtend, bytes]

theorem Member.toBitVec_readRaw (member : Member) (memory : Memory) (base : UInt64) :
    (member.readRaw memory base).toBitVec =
      member.type.extended (memory.load (member.address base) member.size) := by
  have bound := memory.toNat_load_lt (member.address base) member.size_le
  rw [readRaw_eq, NativeType.extended]
  dsimp only
  split
  · rw [IrType.toBitVec_signExtend, NativeType.bytes_irType]
  · apply BitVec.eq_of_toNat_eq
    rw [BitVec.toNat_setWidth, BitVec.toNat_setWidth, UInt64.toNat_toBitVec]
    change _ = _ % 2 ^ (8 * member.size) % 2 ^ 64
    rw [Nat.mod_eq_of_lt bound, Nat.mod_eq_of_lt (UInt64.toNat_lt _)]

/-! ## Machines -/

/-- In this state, a store to the machine is a plain store to memory, wherever it goes. -/
def Machine.FlatAt {ε : Type} (machine : Machine ε) (state : State ε) : Prop :=
  ∀ (address : UInt64) (count : Nat) (bits : UInt64),
    machine.memory (machine.store address count bits state) =
      (machine.memory state).store address count bits

variable {ε : Type} {machine : Machine ε} {state : State ε} {member : Member}

theorem Code.memory_storer (flat : machine.FlatAt state) (function : String) (base : UInt64)
    {value word : UInt64}
    (low : (member.type.irType .pointer).cut word = (member.type.irType .pointer).cut value) :
    ∃ after,
      (storer function (member.type.irType .pointer) member.offset).call machine [base, value]
          state = (.returned [], after) ∧
        machine.memory after =
          member.writeRaw (machine.memory state) (member.origin base) word := by
  refine ⟨_, call_storer .., ?_⟩
  rw [flat, Memory.store_cut _ ((IrType.cut_cut ..).trans low.symm), Member.displaced_eq_address,
    NativeType.bytes_irType, Member.writeRaw_eq]
  rfl

/-- Generated code reads and writes a member as the host does, `2 ^ 32` bytes further down if the
offset is `2 ^ 31` or more. -/
theorem generated_access_raw {bridge : Bridge} (wide : bridge.config.width = .bits64)
    {record name : String} (found : bridge.layouts.lookup record name = .ok member)
    (linker : Linker) (function : String) (flat : machine.FlatAt state) (base : UInt64) :
    let type := member.type.irType .pointer
    let memory := machine.memory state
    let origin := member.origin base
    ∃ get set,
      (FunctionSpec.getter function record name type).code bridge linker = .ok get ∧
      (FunctionSpec.setter function record name type).code bridge linker = .ok set ∧
      (∃ bits,
        get.call machine [base] state = (.returned [bits], state) ∧
        bits = memory.load (member.address origin) member.size ∧
        (member.readRaw memory origin).toBitVec = member.type.extended bits) ∧
      (∀ value word, type.cut word = type.cut value →
        ∃ after, set.call machine [base, value] state = (.returned [], after) ∧
          machine.memory after = member.writeRaw memory origin word) ∧
      (origin = base ↔ member.offset.toNat < 2 ^ 31) ∧
      (origin ≠ base →
        ∃ word after, set.call machine [base, word] state = (.returned [], after) ∧
          machine.memory after ≠ member.writeRaw memory base word) := by
  intro type memory origin
  refine ⟨_, _, FunctionSpec.code_getter found wide linker function,
    FunctionSpec.code_setter found wide linker function, ?_, ?_, member.origin_eq_iff base, ?_⟩
  · refine ⟨_, Code.call_loader .., ?_, ?_⟩
    · rw [Member.displaced_eq_address, NativeType.bytes_irType]
      rfl
    · rw [Member.toBitVec_readRaw, Member.displaced_eq_address, NativeType.bytes_irType]
      rfl
  · exact fun value word low => Code.memory_storer flat function base low
  · intro far
    obtain ⟨word, missed⟩ := member.exists_writeRaw_ne base far memory
    have whole : type.cut word = type.cut word := rfl
    obtain ⟨after, stored, left⟩ := Code.memory_storer flat function base whole
    exact ⟨word, after, stored, left ▸ missed⟩

/-! ## The ends of the range -/

/-- A machine with memory and nothing else. -/
def Machine.bare : Machine Memory :=
  { Machine.idle with
    memory := State.world
    store := fun address count bits state =>
      { state with world := state.world.store address count bits } }

/-- Memory of zeros. -/
def State.blank : State Memory := { thread := .fresh, world := .zero }

/-- A bridge with one member. -/
def Bridge.withMember (member : Member) : Bridge :=
  .build .default [.member "Strip" "cell" member] .own false

theorem Bridge.lookup_withMember (member : Member) :
    (withMember member).layouts.lookup "Strip" "cell" = .ok member :=
  lookup_build ⟨[], [], rfl, nofun⟩ ..

/-- At the last offset below `2 ^ 31` the origin is the record itself. -/
theorem generated_access_raw_near :
    let member : Member := ⟨0x7fffffff, .int8⟩
    ∃ get set bits after,
      (FunctionSpec.getter "cell" "Strip" "cell" .i8).code (.withMember member) .idle = .ok get ∧
      (FunctionSpec.setter "cell" "Strip" "cell" .i8).code (.withMember member) .idle = .ok set ∧
      get.call .bare [1] .blank = (.returned [bits], .blank) ∧
      (member.readRaw .zero 1).toBitVec = NativeType.int8.extended bits ∧
      set.call .bare [1, 0x80] .blank = (.returned [], after) ∧
      after.world = member.writeRaw .zero 1 0xff80 := by
  intro member
  have wide : (Bridge.withMember member).config.width = .bits64 := rfl
  have flat : Machine.bare.FlatAt .blank := fun _ _ _ => rfl
  obtain ⟨get, set, get_code, set_code, ⟨bits, loaded, -, extended⟩, stores, near, -⟩ :=
    generated_access_raw wide (Bridge.lookup_withMember member) .idle "cell" flat 1
  obtain ⟨after, stored, left⟩ := stores 0x80 0xff80 (by decide)
  rw [near.mpr (by decide)] at extended left
  exact ⟨get, set, bits, after, get_code, set_code, loaded, extended, stored, left⟩

/-- At an offset that is a negative displacement generated code writes in front of the record, where
the host writes nothing. -/
theorem generated_write_misses_raw :
    let member : Member := ⟨0xfffffff8, .uint64⟩
    ∃ set after,
      (FunctionSpec.setter "cell" "Strip" "cell" .i64).code (.withMember member) .idle = .ok set ∧
      set.call .bare [8, 0x1122334455667788] .blank = (.returned [], after) ∧
      after.world 0 = 0x88 ∧ after.world ≠ member.writeRaw .zero 8 0x1122334455667788 := by
  intro member
  have found := Bridge.lookup_withMember member
  refine ⟨_, _, FunctionSpec.code_setter found rfl .idle "cell", Code.call_storer .., ?_, ?_⟩
  · decide +kernel
  · intro same
    have first := congrFun same 0
    revert first
    decide +kernel

end HostBridge
