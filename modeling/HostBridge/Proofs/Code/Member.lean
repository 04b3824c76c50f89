import HostBridge.Proofs.Layout.Beside
import HostBridge.Proofs.Layout.Table
import HostBridge.Proofs.Session.Space

/-!
# Members as storage

A record that was laid out for this machine's pointers and registered in a bridge is storage with
one cell for each member: what generated code stores to a member it loads again, and the store
reaches no member in another slot of a struct around it, nor any byte outside the record.
-/

namespace HostBridge

/-- The steps register every member of the layout at its place. -/
def RecordLayout.RegisteredBy (steps : List Bridge.BuildStep) (layout : RecordLayout) : Prop :=
  ∀ name member, (name, member) ∈ layout.members →
    Bridge.Registers steps layout.name name member

theorem RecordLayout.registeredBy_members {layout : RecordLayout}
    (distinct : (layout.members.map (·.1)).Nodup) :
    layout.RegisteredBy
      (layout.members.map fun entry => .member layout.name entry.1 entry.2) := by
  intro name member listed
  obtain ⟨earlier, later, split⟩ := List.append_of_mem listed
  rw [split, List.map_append, List.nodup_append] at distinct
  refine ⟨_, _, by rw [split, List.map_append, List.map_cons], ?_⟩
  intro place mem
  obtain ⟨entry, entry_mem, same⟩ := List.mem_map.mp mem
  have name_eq : entry.1 = name := (Bridge.BuildStep.member.inj same).2.1
  have again : name ∈ later.map (·.1) := name_eq ▸ List.mem_map_of_mem entry_mem
  exact (List.nodup_cons.mp distinct.2.1).1 again

/-- Loads and stores of a member take its bytes on a machine with pointers of 64 bits. -/
theorem NativeType.bytes_irType (type : NativeType) :
    (type.irType .pointer).bytes = type.size .bits64 := by
  cases type <;> rfl

namespace Record.LaidOut

variable {config : BuildConfig} {record : Record} {layout : RecordLayout} {name : String}
  {member : Member} {base : UInt64}

theorem toNat_address (laid : record.LaidOut config layout)
    (room : base.toNat + layout.size.toNat ≤ 2 ^ 64) (listed : (name, member) ∈ layout.members) :
    (displaced base member.offset).toNat = base.toNat + member.offset.toNat := by
  have within := laid.member_within listed
  have small := laid.small
  have positive := member.type.size_pos config.width
  rw [← laid.size_eq] at small
  exact toNat_displaced (by omega) (by omega)

end Record.LaidOut

/-- Storing to a member through generated code changes bytes of the record alone; the member then
holds the value, and what stands beside it in a struct is loaded as before. -/
theorem members_independent {ε : Type} {config : BuildConfig} {record : Record}
    {layout : RecordLayout} (laid : record.LaidOut config layout)
    (wide : config.width = .bits64) {steps : List Bridge.BuildStep}
    (registered : layout.RegisteredBy steps) (slots : LocationSlots) (hasEvaluator : Bool)
    (linker : Linker) (function : String) {machine : Machine ε} {state : State ε} {base : UInt64}
    (room : base.toNat + layout.size.toNat ≤ 2 ^ 64)
    (plain : machine.PlainAt state base layout.size.toNat) {name : String} {member : Member}
    (listed : (name, member) ∈ layout.members) {value : UInt64}
    (typed : (member.type.irType .pointer).cut value = value) :
    let bridge := Bridge.build config steps slots hasEvaluator
    let getter := fun name (member : Member) =>
      FunctionSpec.getter function layout.name name (member.type.irType .pointer)
    let setter := FunctionSpec.setter function layout.name name (member.type.irType .pointer)
    ∃ set get after,
      setter.code bridge linker = .ok set ∧
      (getter name member).code bridge linker = .ok get ∧
      set.call machine [base, value] state = (.returned [], after) ∧
      (∀ address : UInt64,
        address.toNat < base.toNat ∨ base.toNat + layout.size.toNat ≤ address.toNat →
          machine.memory after address = machine.memory state address) ∧
      get.call machine [base] after = (.returned [value], after) ∧
      ∀ other place, (other, place) ∈ layout.members → record.Beside config name other →
        ∃ get bits,
          (getter other place).code bridge linker = .ok get ∧
          get.call machine [base] state = (.returned [bits], state) ∧
          get.call machine [base] after = (.returned [bits], after) := by
  intro bridge getter setter
  have found : ∀ {name member}, (name, member) ∈ layout.members →
      bridge.layouts.lookup layout.name name = .ok member :=
    fun listed => Bridge.lookup_build (registered _ _ listed) config slots hasEvaluator
  have address := laid.toNat_address room listed
  have within := laid.member_within listed
  have bytes := member.type.bytes_irType
  rw [wide, ← bytes] at within
  have stored : machine.memory (machine.store (displaced base member.offset)
      (member.type.irType .pointer).bytes value state) =
      (machine.memory state).store (displaced base member.offset)
        (member.type.irType .pointer).bytes value := by
    have positive := member.type.size_pos .bits64
    exact plain _ _ _ (by omega) (by omega) (by omega)
  refine ⟨_, _, _, FunctionSpec.code_setter (found listed) wide linker function,
    FunctionSpec.code_getter (found listed) wide linker function, Code.call_storer .., ?_, ?_, ?_⟩
  · intro other outside
    rw [typed, stored]
    exact Memory.store_outside (by omega) _ (by omega)
  · rw [Code.call_loader, typed, stored, Memory.load_store_value (by omega) typed]
  · intro other place other_listed beside
    refine ⟨_, _, FunctionSpec.code_getter (found other_listed) wide linker function,
      Code.call_loader .., ?_⟩
    have other_address := laid.toNat_address room other_listed
    have other_within := laid.member_within other_listed
    have apart := laid.members_apart beside listed other_listed
    have other_bytes := place.type.bytes_irType
    rw [wide, ← other_bytes] at other_within
    rw [wide, ← bytes, ← other_bytes] at apart
    rw [Code.call_loader, typed, stored,
      Memory.load_store_beside (by omega) (by omega) _ (by omega)]

/-! ## A union of a pair and an array -/

/-- The members of the pair share the bytes of the array, and stand side by side. -/
def Record.cell : Record :=
  { name := "Cell"
    slots :=
      [.field "flags" .uint32,
        .optional .hashTable (.array "table" .pointer (.fixed 2)),
        .union "as"
          [.embed "pair" [.field "left" .int8, .array "right" .uint8 (.fixed 3)],
            .array "words" .value (.words 2)],
        .embed "" [.field "tail" .float64]] }

/-- The layout of the cell in a build without the table. -/
def RecordLayout.cell : RecordLayout :=
  { name := "Cell"
    size := 32
    members :=
      [("flags", { offset := 0, type := .uint32 }),
        ("as.pair.left", { offset := 8, type := .int8 }),
        ("as.pair.right", { offset := 9, type := .uint8 }),
        ("as.words", { offset := 8, type := .value }),
        ("tail", { offset := 24, type := .float64 })] }

theorem Record.cell_laidOut : Record.cell.LaidOut .default .cell where
  computed := by decide +kernel
  small := by decide
  filled := by
    have pair : (Slot.embed "pair" [.field "left" .int8, .array "right" .uint8 (.fixed 3)]).Filled
        .default := .embed (by simpa using ⟨.field .., .array (by decide)⟩)
    have either : (Slot.union "as" [.embed "pair" [.field "left" .int8,
        .array "right" .uint8 (.fixed 3)], .array "words" .value (.words 2)]).Filled .default :=
      .union (by simpa using ⟨pair, .array (by decide)⟩)
    have tail : (Slot.embed "" [.field "tail" .float64]).Filled .default :=
      .embed (by simpa using .field ..)
    exact .embed (by simpa [Record.cell] using ⟨.field .., .optional nofun, either, tail⟩)
  distinct := by decide +kernel

/-- The smallest slot around the two members is the pair inside the union. -/
theorem Record.cell_beside : Record.cell.Beside .default "as.pair.left" "as.pair.right" :=
  .embed (List.mem_of_getElem? (i := 2) rfl) <|
    .union (List.mem_of_getElem? (i := 0) rfl) <|
      .here (i := 0) (j := 1) (by decide) rfl rfl .field .array

/-- A session whose statements and functions do nothing. -/
def Session.Context.idle : Session.Context Session.World :=
  { setup := { program := [] }
    bridge := .ofConfig .default
    codes := []
    observer := .plain
    run := fun _ => pure 0
    enter := fun _ _ => pure 0 }

/-- The state of a session in the region of one frame. -/
def Session.framed : State Session.World := { thread := Thread.fresh.push ⟨7⟩, world := {} }

theorem members_independent_pair :
    let bridge := Bridge.build .default
      (RecordLayout.cell.members.map fun entry => .member "Cell" entry.1 entry.2) .own false
    let linker : Linker := { address? := fun _ => none, place := Session.Space.placeNode }
    let machine := Session.Context.idle.machine
    let base := Session.Space.bufferBase 0
    ∃ set get other after bits,
      (FunctionSpec.setter "store" "Cell" "as.pair.left" .i8).code bridge linker = .ok set ∧
      (FunctionSpec.getter "store" "Cell" "as.pair.left" .i8).code bridge linker = .ok get ∧
      (FunctionSpec.getter "store" "Cell" "as.pair.right" .i8).code bridge linker = .ok other ∧
      set.call machine [base, 0xff] Session.framed = (.returned [], after) ∧
      get.call machine [base] after = (.returned [0xff], after) ∧
      other.call machine [base] Session.framed = (.returned [bits], Session.framed) ∧
      other.call machine [base] after = (.returned [bits], after) := by
  intro bridge linker machine base
  have plain : machine.PlainAt Session.framed base RecordLayout.cell.size.toNat := by
    apply Session.machine_plainAt Session.Observer.lawful_plain
    · decide
    · decide
    · decide +kernel
    · decide +kernel
  have laid := Record.cell_laidOut
  have registered := RecordLayout.registeredBy_members laid.distinct
  obtain ⟨set, get, after, set_code, get_code, stored, -, loaded, beside⟩ :=
    members_independent laid rfl registered .own false linker "store" (by decide) plain
      (List.mem_of_getElem? (i := 1) rfl) (by decide : IrType.i8.cut 0xff = 0xff)
  obtain ⟨other, bits, other_code, before, kept⟩ :=
    beside "as.pair.right" _ (List.mem_of_getElem? (i := 2) rfl) Record.cell_beside
  exact ⟨set, get, other, after, bits, set_code, get_code, other_code, stored, loaded, before, kept⟩

/-! ## A size that wraps around -/

/-- An array that is one byte short of `2 ^ 32`, and two fields behind it. -/
def Record.wrapping : Record :=
  { name := "Wrap"
    slots := [.array "a" .uint8 (.fixed 0xffffffff), .field "b" .uint8, .field "c" .uint8] }

/-- The layout that is computed for it. The offset of the last field has wrapped around, and so has
the size. -/
def RecordLayout.wrapping : RecordLayout :=
  { name := "Wrap"
    size := 1
    members :=
      [("a", { offset := 0, type := .uint8 }), ("b", { offset := 0xffffffff, type := .uint8 }),
        ("c", { offset := 0, type := .uint8 })] }

theorem Record.wrapping_filled : Record.wrapping.slot.Filled .default :=
  .embed (by simpa [Record.wrapping] using ⟨.array (by decide), .field .., .field ..⟩)

/-- The computed size is not enough to keep members apart: the record is computed to take one byte,
all names are different, no array is empty, and yet a store to the last field is a store to the
array. -/
theorem members_overlap_wrapping :
    let layout := RecordLayout.wrapping
    let bridge := Bridge.build .default
      (layout.members.map fun entry => .member "Wrap" entry.1 entry.2) .own false
    let machine := Session.Context.idle.machine
    let base := Session.Space.bufferBase 0
    Record.wrapping.compute .default = some layout ∧ layout.size.toNat < 2 ^ 31 ∧
      Record.wrapping.slot.Filled .default ∧ (layout.members.map (·.1)).Nodup ∧
      Record.wrapping.Beside .default "c" "a" ∧ base.toNat + layout.size.toNat ≤ 2 ^ 64 ∧
      machine.PlainAt Session.framed base layout.size.toNat ∧
      ∃ set get after,
        (FunctionSpec.setter "store" "Wrap" "c" .i8).code bridge .idle = .ok set ∧
        (FunctionSpec.getter "store" "Wrap" "a" .i8).code bridge .idle = .ok get ∧
        get.call machine [base] Session.framed = (.returned [0], Session.framed) ∧
        set.call machine [base, 0x55] Session.framed = (.returned [], after) ∧
        get.call machine [base] after = (.returned [0x55], after) := by
  intro layout bridge machine base
  have distinct : (layout.members.map (·.1)).Nodup := by decide
  have registered := RecordLayout.registeredBy_members distinct
  have found {name : String} {member : Member} (listed : (name, member) ∈ layout.members) :
      bridge.layouts.lookup "Wrap" name = .ok member :=
    Bridge.lookup_build (registered _ _ listed) .default .own false
  have plain : machine.PlainAt Session.framed base layout.size.toNat := by
    apply Session.machine_plainAt Session.Observer.lawful_plain
    · decide
    · decide
    · decide +kernel
    · decide +kernel
  refine ⟨by decide +kernel, by decide, Record.wrapping_filled, distinct,
    .here (i := 2) (j := 0) (by decide) rfl rfl .field .array, by decide, plain, _, _, _,
    FunctionSpec.code_setter (found (List.mem_of_getElem? (i := 2) rfl)) rfl .idle "store",
    FunctionSpec.code_getter (found (List.mem_of_getElem? (i := 0) rfl)) rfl .idle "store",
    ?_, Code.call_storer .., ?_⟩
  · have empty : (machine.memory Session.framed).load base 1 = 0 := by decide +kernel
    rw [Code.call_loader]
    exact congrArg (fun bits => (Ending.returned [bits], Session.framed)) empty
  · have stored : machine.memory (machine.store base 1 0x55 Session.framed) =
        (machine.memory Session.framed).store base 1 0x55 :=
      plain base 1 0x55 Nat.one_pos (Nat.le_refl _) (Nat.le_refl _)
    have typed : IrType.i8.cut 0x55 = 0x55 := by decide
    have overwritten : (machine.memory (machine.store base 1 0x55 Session.framed)).load base 1 =
        0x55 := by
      rw [stored]
      exact Memory.load_store_value (by decide) typed
    rw [Code.call_loader]
    exact congrArg (fun bits => (Ending.returned [bits], _)) overwritten

end HostBridge
