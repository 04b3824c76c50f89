import HostBridge.Bridge
import HostBridge.Code.Instr

/-!
# Emission

A function under construction is a draft: instructions, the types of its registers, and the
source nodes that it keeps alive. An emission adds to the draft; should it fail, the draft is left
as it was reached.
-/

namespace HostBridge

/-- A function under construction. -/
structure Draft where
  /-- Parameters and results of the function. -/
  signature : Signature
  /-- The types of the registers in use; the parameters come first. -/
  types : List IrType
  /-- The instructions so far. -/
  instrs : List Instr := []
  /-- The nodes that the function keeps alive. -/
  retained : List PlacedNode := []
deriving DecidableEq, Repr

namespace Draft

/-- A function with nothing but its parameters. -/
def start (signature : Signature) : Draft := { signature, types := signature.params }

/-- The type of a register. -/
def typeOf (draft : Draft) (register : Register) : IrType :=
  (draft.types[register]?).getD .pointer

/-- Add an instruction. -/
def append (instr : Instr) (draft : Draft) : Draft :=
  { draft with
    instrs := draft.instrs ++ [instr]
    types := draft.types ++ instr.resultTypes }

/-- The registers that the next values get. -/
def fresh (draft : Draft) (count : Nat) : List Register :=
  (List.range count).map (draft.types.length + ·)

/-- Keep a node alive. -/
def retain (node : PlacedNode) (draft : Draft) : Draft :=
  { draft with retained := draft.retained ++ [node] }

end Draft

/-- A step of the construction of a function. -/
abbrev Emit (α : Type) := ExceptT BridgeError (StateM Draft) α

namespace Emit

/-- The draft. -/
def draft : Emit Draft := get

/-- A failed look-up is a failed emission. -/
def ofExcept {α : Type} (result : Except BridgeError α) : Emit α := ExceptT.mk (pure result)

/-- Add an instruction and return the registers of its values. -/
def instr (instr : Instr) : Emit (List Register) := do
  let before ← draft
  set (before.append instr)
  pure (before.fresh instr.resultTypes.length)

/-- Add an instruction that yields one value. -/
def single (instruction : Instr) : Emit Register := do
  let registers ← instr instruction
  pure (registers.headD 0)

/-- Add instructions that yield nothing. -/
def silent : List Instr → Emit Unit
  | [] => pure ()
  | first :: rest => do
      let _ ← instr first
      silent rest

/-- A constant. -/
def const (type : IrType) (bits : UInt64) : Emit Register := single (.const type (type.cut bits))

/-- A pointer. -/
def pointer (bits : UInt64) : Emit Register := const .pointer bits

/-- An operation on a value. -/
def unary (operation : Operation) (operand : Register) : Emit Register := do
  let before ← draft
  single (.unary operation (before.typeOf operand) operand)

/-! ## Value operations -/

/-- Tag an integer: shift it by one and set the low bit. -/
def intToFixnum (value : Register) : Emit Register := do
  let shifted ← unary (.shiftLeft 1) value
  unary (.or 1) shifted

/-- Take the tag off an integer. -/
def fixnumToInt (value : Register) : Emit Register := unary (.shiftRight 1) value

/-- Whether a value is a tagged integer. -/
def isFixnum (value : Register) : Emit Register := do
  let bit ← unary (.and 1) value
  unary .nonZero bit

/-- Whether a value counts as true. -/
def truthy (value : Register) : Emit Register := do
  let masked ← unary (.and (~~~HostValue.nil.bits)) value
  unary .nonZero masked

/-- The truth value of a condition, as a host value of a type. -/
def toBoolean (condition : Register) (type : IrType) : Emit Register := do
  let bit ← unary .nonZero condition
  let widened ← unary (.extend type) bit
  unary (.shiftLeft 1) widened

/-! ## Calls -/

/-- Call an address. -/
def call (target : Address) (signature : Signature) (args : List Register) :
    Emit (List Register) :=
  instr (.call target signature args)

/-- A block that returns the zeros of types. -/
def zeroBlock (types : List IrType) : ReturnBlock :=
  { constants := types.map .zero, returned := List.range types.length }

/-- Return from the function if an exit is pending, with a zero for each of its results. -/
def leaveIfPending (framePending : Address) : Emit Unit := do
  let registers ← call framePending { params := [], returns := [.i32] } []
  let before ← draft
  silent [.leaveIf (registers.headD 0) (zeroBlock before.signature.returns)]

end Emit

namespace Bridge

/-- Records have to be laid out for this machine's pointers, and `register` has to hold one. -/
def checkPointer (bridge : Bridge) (register : Register) : Emit Unit := do
  let draft ← Emit.draft
  if IrType.pointer.bytes != bridge.config.width.bytes then
    throw (.config (.foreignPointers bridge.config.width .pointer))
  else if draft.typeOf register != .pointer then
    throw (.wrongType "pointer" IrType.pointer.name (draft.typeOf register).name)
  else pure ()

/-- Load a member of the record that `base` points to. -/
def getMember (bridge : Bridge) (record name : String) (base : Register) : Emit Register := do
  let member ← Emit.ofExcept (bridge.layouts.lookup record name)
  bridge.checkPointer base
  Emit.single (.load (member.type.irType .pointer) base member.offset)

/-- Store a value to a member of the record that `base` points to. -/
def setMember (bridge : Bridge) (record name : String) (base value : Register) : Emit Unit := do
  let member ← Emit.ofExcept (bridge.layouts.lookup record name)
  bridge.checkPointer base
  let draft ← Emit.draft
  let expected := member.type.irType .pointer
  let found := draft.typeOf value
  if found != expected then
    throw (.wrongType "value" (expected.name ++ " (" ++ member.type.declaration ++ ")") found.name)
  else
    Emit.silent [.store expected value base member.offset]

/-- The type tag of the heap object that `object` points to. -/
def builtinType (bridge : Bridge) (object : Register) : Emit Register := do
  bridge.checkPointer object
  let flags ← Emit.ofExcept (bridge.layouts.lookup "RBasic" "flags")
  let word ← Emit.single (.load (flags.type.irType .pointer) object flags.offset)
  Emit.unary (.and (TypeTag.mask bridge.config.abi).toUInt64) word

/-- Call a service. Without a signature of its own the call uses that of the catalogue. -/
def callNative (bridge : Bridge) (name : String) (signature : Option Signature)
    (args : List Register) : Emit (List Register) := do
  let address ← Emit.ofExcept (bridge.functions.pointerOf name)
  match signature <|> Service.signature? name .pointer with
  | some signature => Emit.call address signature args
  | none => throw (.generation (.noSignature name))

/-- Return from the function if an exit is pending. -/
def exitCheck (bridge : Bridge) : Emit Unit := do
  let address ← Emit.ofExcept (bridge.functions.pointerOf Helper.framePending.name)
  Emit.leaveIfPending address

/-- Call a service that may leave an exit pending. -/
def callChecked (bridge : Bridge) (name : String) (signature : Option Signature)
    (args : List Register) : Emit (List Register) := do
  let results ← bridge.callNative name signature args
  bridge.exitCheck
  pure results

/-- Set the current location to that of a node. -/
def setSourceLocation (bridge : Bridge) (node : PlacedNode) : Emit Unit := do
  Emit.silent ((bridge.slots.parts bridge.config.abi node).map (.locate bridge.slots.owner))
  modify (·.retain node)

/-- The helper that evaluates calls with a block. -/
def blockHelper (bound : Bool) : Helper :=
  if bound then .blockPassCall else .blockPassFcall

/-- Call a method with a block, and return from the function if that leaves an exit pending. -/
def callWithBlock (bridge : Bridge) (bound : Bool) (receiver : Register) (method : UInt64)
    (args block : Register) : Emit Register := do
  let name := (blockHelper bound).name
  let address ← Emit.ofExcept (bridge.functions.pointerOf name)
  match Service.signature? name .pointer with
  | none => throw (.unknownFunction name)
  | some signature => do
      let method ← Emit.pointer method
      match ← Emit.call address signature [receiver, method, args, block] with
      | [] => throw (.generation (.noResult name))
      | value :: _ => do
          let pending ← Emit.ofExcept (bridge.functions.pointerOf Helper.framePending.name)
          Emit.leaveIfPending pending
          pure value

end Bridge

end HostBridge
