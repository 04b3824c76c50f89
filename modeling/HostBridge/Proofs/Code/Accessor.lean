import HostBridge.Code.Run
import Mathlib.Algebra.Ring.Nat

/-!
# Accessors

What the emission of a member access adds to a draft, and the functions made of one access: a getter
and a setter. Compiling them succeeds on a machine with the pointers of the build, and calling them
loads from or stores to the member and does nothing else.
-/

namespace HostBridge

/-! ## Emissions -/

namespace Emit

variable {α β : Type}

theorem run_bind_of_ok {emission : Emit α} {draft reached : Draft} {value : α}
    (first : emission.run.run draft = (.ok value, reached)) (next : α → Emit β) :
    (emission >>= next).run.run draft = (next value).run.run reached := by
  rw [ExceptT.run_bind, StateT.run_bind, first]
  rfl

theorem run_draft (before : Draft) : draft.run.run before = (.ok before, before) := rfl

theorem run_ofExcept_ok (value : α) (before : Draft) :
    (ofExcept (.ok value)).run.run before = (.ok value, before) := rfl

theorem run_single {instr : Instr} {type : IrType} (yields : instr.resultTypes = [type])
    (before : Draft) :
    (single instr).run.run before = (.ok before.types.length, before.append instr) := by
  change (Except.ok ((before.fresh instr.resultTypes.length).headD 0), before.append instr) = _
  rw [yields]
  rfl

theorem run_silent_singleton (instr : Instr) (before : Draft) :
    (silent [instr]).run.run before = (.ok (), before.append instr) := rfl

end Emit

namespace Bridge

variable {bridge : Bridge} {record name : String} {member : Member} {base value : Register}
  {draft : Draft}

theorem run_checkPointer (wide : bridge.config.width = .bits64)
    (pointer : draft.typeOf base = .pointer) :
    (bridge.checkPointer base).run.run draft = (.ok (), draft) := by
  rw [checkPointer, Emit.run_bind_of_ok (Emit.run_draft draft), wide, pointer]
  rfl

theorem run_getMember (found : bridge.layouts.lookup record name = .ok member)
    (wide : bridge.config.width = .bits64) (pointer : draft.typeOf base = .pointer) :
    (bridge.getMember record name base).run.run draft =
      (.ok draft.types.length,
        draft.append (.load (member.type.irType .pointer) base member.offset)) := by
  rw [getMember, found, Emit.run_bind_of_ok (Emit.run_ofExcept_ok member draft),
    Emit.run_bind_of_ok (run_checkPointer wide pointer), Emit.run_single rfl]

theorem run_setMember (found : bridge.layouts.lookup record name = .ok member)
    (wide : bridge.config.width = .bits64) (pointer : draft.typeOf base = .pointer)
    (typed : draft.typeOf value = member.type.irType .pointer) :
    (bridge.setMember record name base value).run.run draft =
      (.ok (), draft.append (.store (member.type.irType .pointer) value base member.offset)) := by
  rw [setMember, found, Emit.run_bind_of_ok (Emit.run_ofExcept_ok member draft),
    Emit.run_bind_of_ok (run_checkPointer wide pointer),
    Emit.run_bind_of_ok (Emit.run_draft draft)]
  simp only [typed, bne_self_eq_false, Bool.false_eq_true, if_false]
  exact Emit.run_silent_singleton ..

end Bridge

/-! ## Functions -/

namespace FunctionSpec

/-- A function that returns a member of the record its argument points to. -/
def getter (function record name : String) (type : IrType) : FunctionSpec :=
  { name := function
    signature := { params := [.pointer], returns := [type] }
    body := [.get record name 0]
    results := [1] }

/-- A function that stores its second argument to a member of the record its first one points
to. -/
def setter (function record name : String) (type : IrType) : FunctionSpec :=
  { name := function
    signature := { params := [.pointer, type], returns := [] }
    body := [.set record name 0 1]
    results := [] }

/-- The code of a function on its own. -/
def code (bridge : Bridge) (linker : Linker) (spec : FunctionSpec) : Except BridgeError Code :=
  (Compiler.compile {} bridge linker spec).map (·.1)

end FunctionSpec

namespace Code

/-- A function of one load from a displacement. -/
def loader (function : String) (type : IrType) (offset : UInt32) : Code :=
  { name := function
    signature := { params := [.pointer], returns := [type] }
    instrs := [.load type 0 offset]
    results := [1]
    retained := [] }

/-- A function of one store to a displacement. -/
def storer (function : String) (type : IrType) (offset : UInt32) : Code :=
  { name := function
    signature := { params := [.pointer, type], returns := [] }
    instrs := [.store type 1 0 offset]
    results := []
    retained := [] }

end Code

namespace FunctionSpec

variable {bridge : Bridge} {record name : String} {member : Member}

/-- A function of one operation is what the operation emits. -/
theorem draft_of_emit {linker : Linker} {spec : FunctionSpec} {op : Op} (body : spec.body = [op])
    {yielded : List Register} {reached : Draft}
    (emitted :
      (op.emit bridge linker (List.range spec.signature.params.length)).run.run
        (.start spec.signature) = (.ok yielded, reached)) :
    spec.draft bridge linker =
      (.ok (List.range spec.signature.params.length ++ yielded), reached) := by
  rw [draft, body, Op.emitAll, Emit.run_bind_of_ok emitted]
  rfl

theorem code_getter (found : bridge.layouts.lookup record name = .ok member)
    (wide : bridge.config.width = .bits64) (linker : Linker) (function : String) :
    (getter function record name (member.type.irType .pointer)).code bridge linker =
      .ok (.loader function (member.type.irType .pointer) member.offset) := by
  let spec := getter function record name (member.type.irType .pointer)
  have emitted :
      ((Op.get record name 0).emit bridge linker [0]).run.run (.start spec.signature) =
        (.ok [1], (Draft.start spec.signature).append
          (.load (member.type.irType .pointer) 0 member.offset)) := by
    rw [Op.emit, Op.emit.one, Emit.run_bind_of_ok (Bridge.run_getMember found wide rfl)]
    rfl
  rw [code, Compiler.compile, draft_of_emit rfl emitted]
  simp [getter, spec, Draft.verify, Draft.start, Draft.append, Instr.wellTyped, Instr.resultTypes,
    Op.register, Dictionary.get?, Code.loader, Except.map]

theorem code_setter (found : bridge.layouts.lookup record name = .ok member)
    (wide : bridge.config.width = .bits64) (linker : Linker) (function : String) :
    (setter function record name (member.type.irType .pointer)).code bridge linker =
      .ok (.storer function (member.type.irType .pointer) member.offset) := by
  let spec := setter function record name (member.type.irType .pointer)
  have emitted :
      ((Op.set record name 0 1).emit bridge linker [0, 1]).run.run (.start spec.signature) =
        (.ok [], (Draft.start spec.signature).append
          (.store (member.type.irType .pointer) 1 0 member.offset)) := by
    rw [Op.emit, Op.emit.nothing, Emit.run_bind_of_ok (Bridge.run_setMember found wide rfl rfl)]
    rfl
  rw [code, Compiler.compile, draft_of_emit rfl emitted]
  simp [setter, spec, Draft.verify, Draft.start, Draft.append, Instr.wellTyped, Instr.resultTypes,
    Dictionary.get?, Code.storer, Except.map]

end FunctionSpec

/-! ## Calls -/

/-- A displacement of `2 ^ 31` or more is negative. -/
theorem toNat_displacement (offset : UInt32) :
    offset.toInt32.toInt64.toUInt64.toNat =
      offset.toNat + if offset.toNat < 2 ^ 31 then 0 else 2 ^ 64 - 2 ^ 32 := by
  change (offset.toBitVec.signExtend 64).toNat = _
  have sign : offset.toBitVec.msb = true ↔ ¬offset.toNat < 2 ^ 31 := by
    rw [BitVec.msb_eq_decide, decide_eq_true_iff, Nat.not_lt]
    rfl
  have whole : offset.toBitVec.toNat % 2 ^ 64 = offset.toNat :=
    Nat.mod_eq_of_lt (Nat.lt_trans offset.toNat_lt (by decide))
  rw [BitVec.toNat_signExtend, BitVec.toNat_setWidth, whole]
  by_cases small : offset.toNat < 2 ^ 31
  · rw [if_pos small, if_neg (by simpa [sign] using small)]
  · rw [if_neg small, if_pos (sign.mpr small)]

theorem toNat_displaced {base : UInt64} {offset : UInt32} (small : offset.toNat < 2 ^ 31)
    (room : base.toNat + offset.toNat < 2 ^ 64) :
    (displaced base offset).toNat = base.toNat + offset.toNat := by
  rw [displaced, UInt64.toNat_add, toNat_displacement, if_pos small, Nat.add_zero,
    Nat.mod_eq_of_lt room]

/-- In this state, a store within the `size` bytes from `base` on is a plain store to memory. -/
def Machine.PlainAt {ε : Type} (machine : Machine ε) (state : State ε) (base : UInt64)
    (size : Nat) : Prop :=
  ∀ (address : UInt64) (count : Nat) (bits : UInt64), 0 < count → base.toNat ≤ address.toNat →
    address.toNat + count ≤ base.toNat + size →
      machine.memory (machine.store address count bits state) =
        (machine.memory state).store address count bits

namespace Code

variable {ε : Type} (machine : Machine ε)

theorem call_loader (function : String) (type : IrType) (offset : UInt32) (base : UInt64)
    (state : State ε) :
    (loader function type offset).call machine [base] state =
      (.returned [(machine.memory state).load (displaced base offset) type.bytes], state) := rfl

theorem call_storer (function : String) (type : IrType) (offset : UInt32) (base value : UInt64)
    (state : State ε) :
    (storer function type offset).call machine [base, value] state =
      (.returned [],
        machine.store (displaced base offset) type.bytes (type.cut value) state) := rfl

end Code

/-! ## Surroundings that do nothing -/

/-- A linker for functions without pointers and nodes. -/
def Linker.idle : Linker :=
  { address? := fun _ => none
    place := fun _ node => { node, address := 0, fileAddress := 0 } }

/-- An evaluator that evaluates nothing. -/
def Evaluator.idle {ε : Type} : Evaluator ε :=
  { isSequence := fun _ => pure false
    describe := fun _ => pure ""
    typeError := fun _ => pure .nil
    evaluate := fun _ _ => pure .nil }

/-- A machine on which nothing is stored, called or installed. -/
def Machine.idle {ε : Type} : Machine ε :=
  { memory := fun _ => .zero
    store := fun _ _ _ state => state
    locate := fun _ _ world => world
    routine := fun _ _ => pure []
    enter := fun _ _ => pure 0
    installed := fun _ => none
    evaluator := .idle
    frameAddress := fun _ => 0
    locationAddress := 0 }

end HostBridge
