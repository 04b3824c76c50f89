import HostBridge.Location
import HostBridge.Memory
import HostBridge.NativeType
import HostBridge.Service.Registry

/-!
# Instructions

Generated functions are straight lines of typed instructions, with branches to blocks that return
from the function. Each value is put in the next free register; a register holds the bits of its
value below its type's width.
-/

namespace HostBridge

/-- The number of a register. -/
abbrev Register := Nat

/-- Operations on one integer. -/
inductive Operation where
  /-- Add a constant, modulo the width. -/
  | add (bits : UInt64)
  /-- Keep the bits of a mask. -/
  | and (bits : UInt64)
  /-- Set the bits of a mask. -/
  | or (bits : UInt64)
  /-- Shift to the left. -/
  | shiftLeft (amount : UInt64)
  /-- Shift to the right and extend the sign. -/
  | shiftRight (amount : UInt64)
  /-- One for every integer but zero. -/
  | nonZero
  /-- Fill up with zeros to a wider type. -/
  | extend (type : IrType)
deriving DecidableEq, Repr

namespace Operation

/-- The type of the result for an operand of a type. -/
def resultType (type : IrType) : Operation → IrType
  | .nonZero => .i8
  | .extend wider => wider
  | _ => type

/-- Whether the operation applies to operands of a type. -/
def applies (type : IrType) : Operation → Bool
  | .extend wider => type.isInteger && wider.isInteger && type.bytes < wider.bytes
  | _ => type.isInteger

/-- The result for an operand of a type. -/
def eval (type : IrType) (operand : UInt64) : Operation → UInt64
  | .add bits => type.cut (operand + bits)
  | .and bits => type.cut (operand &&& bits)
  | .or bits => type.cut (operand ||| bits)
  | .shiftLeft amount => type.cut (operand <<< amount)
  | .shiftRight amount =>
      type.cut ((type.signExtend operand).toInt64 >>> amount.toInt64).toUInt64
  | .nonZero => if operand = 0 then 0 else 1
  | .extend _ => operand

end Operation

/-- A constant that a block makes. -/
inductive Immediate where
  /-- An integer of a type. -/
  | int (type : IrType) (bits : UInt64)
  /-- A float of 32 bits. -/
  | float32 (bits : UInt32)
  /-- A float of 64 bits. -/
  | float64 (bits : UInt64)
deriving DecidableEq, Repr

namespace Immediate

/-- The type of a constant. -/
def type : Immediate → IrType
  | .int type _ => type
  | .float32 _ => .f32
  | .float64 _ => .f64

/-- The bits of a constant. -/
def value : Immediate → UInt64
  | .int type bits => type.cut bits
  | .float32 bits => bits.toUInt64
  | .float64 bits => bits

/-- The zero of a type. -/
def zero : IrType → Immediate
  | .f32 => .float32 0
  | .f64 => .float64 0
  | type => .int type 0

end Immediate

/-- A block that makes constants and returns from the function with some of them. -/
structure ReturnBlock where
  /-- The constants. -/
  constants : List Immediate
  /-- The numbers of the constants that are returned. -/
  returned : List Nat
deriving DecidableEq, Repr

namespace ReturnBlock

/-- The types of what the block returns. -/
def types (block : ReturnBlock) : List (Option IrType) :=
  block.returned.map fun number => block.constants[number]?.map Immediate.type

/-- What the block returns. -/
def values (block : ReturnBlock) : List UInt64 :=
  block.returned.map fun number => (block.constants[number]?.map Immediate.value).getD 0

end ReturnBlock

/-- An instruction. -/
inductive Instr where
  /-- A constant. -/
  | const (type : IrType) (bits : UInt64)
  /-- Load from an address and a signed displacement of 32 bits. -/
  | load (type : IrType) (base : Register) (offset : UInt32)
  /-- Store to an address and a signed displacement of 32 bits. -/
  | store (type : IrType) (value base : Register) (offset : UInt32)
  /-- An operation on an operand of a type. -/
  | unary (operation : Operation) (type : IrType) (operand : Register)
  /-- Call an address. -/
  | call (target : Address) (signature : Signature) (args : List Register)
  /-- Go to a block that returns from the function if the value is not zero. -/
  | leaveIf (value : Register) (block : ReturnBlock)
  /-- Store one part of a location. -/
  | locate (owner : LocationOwner) (part : Location.Part)
deriving DecidableEq, Repr

namespace Instr

/-- The types of the values that an instruction yields. -/
def resultTypes : Instr → List IrType
  | .const type _ => [type]
  | .load type _ _ => [type]
  | .unary operation type _ => [operation.resultType type]
  | .call _ signature _ => signature.returns
  | .store .. | .leaveIf .. | .locate .. => []

/-- Whether an instruction is well typed, given the return types of the function and the types of
the registers. -/
def wellTyped (returns types : List IrType) : Instr → Bool
  | .const .. | .locate .. => true
  | .load _ base _ => types[base]? == some .pointer
  | .store type value base _ => types[value]? == some type && types[base]? == some .pointer
  | .unary operation type operand => types[operand]? == some type && operation.applies type
  | .call _ signature args =>
      args.map (fun register => types[register]?) == signature.params.map some
  | .leaveIf value block =>
      (types[value]?.map IrType.isInteger).getD false && block.types == returns.map some

end Instr

/-- The address at a signed displacement of 32 bits. -/
def displaced (base : UInt64) (offset : UInt32) : UInt64 :=
  base + offset.toInt32.toInt64.toUInt64

end HostBridge
