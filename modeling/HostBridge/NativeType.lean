import HostBridge.Abi

/-!
# Native types

Types of record members as the host declares them, and the machine types that generated code
computes with.
-/

namespace HostBridge

/-- Types of values in generated code. -/
inductive IrType where
  | i8
  | i16
  | i32
  | i64
  | f32
  | f64
deriving DecidableEq, Repr

namespace IrType

/-- The name of a machine type. -/
def name : IrType → String
  | .i8 => "i8"
  | .i16 => "i16"
  | .i32 => "i32"
  | .i64 => "i64"
  | .f32 => "f32"
  | .f64 => "f64"

/-- Bytes of a value. -/
def bytes : IrType → Nat
  | .i8 => 1
  | .i16 => 2
  | .i32 | .f32 => 4
  | .i64 | .f64 => 8

/-- Whether integer operations apply. -/
def isInteger : IrType → Bool
  | .i8 | .i16 | .i32 | .i64 => true
  | .f32 | .f64 => false

/-- The low bits of a word that a value of the type keeps. -/
def cut (type : IrType) (bits : UInt64) : UInt64 :=
  match type.bytes with
  | 1 => bits &&& 0xff
  | 2 => bits &&& 0xffff
  | 4 => bits &&& 0xffffffff
  | _ => bits

/-- The word with the same signed value as the low bits of the type. -/
def signExtend (type : IrType) (bits : UInt64) : UInt64 :=
  match type.bytes with
  | 1 => bits.toUInt8.toInt8.toInt64.toUInt64
  | 2 => bits.toUInt16.toInt16.toInt64.toUInt64
  | 4 => bits.toUInt32.toInt32.toInt64.toUInt64
  | _ => bits

/-- The pointer type of the machine that runs generated code. -/
def pointer : IrType := .i64

end IrType

/-- The type of a record member. -/
inductive NativeType where
  | int8
  | uint8
  | int32
  | uint32
  | int64
  | uint64
  | long
  | ulong
  | pointer
  | value
  | float64
deriving DecidableEq, Repr

namespace NativeType

/-- Every type of a record member. -/
def all : List NativeType :=
  [.int8, .uint8, .int32, .uint32, .int64, .uint64, .long, .ulong, .pointer, .value, .float64]

/-- The name of a type in listings. -/
def name : NativeType → String
  | .int8 => "int8"
  | .uint8 => "u_int8"
  | .int32 => "int32"
  | .uint32 => "u_int32"
  | .int64 => "int64"
  | .uint64 => "u_int64"
  | .long => "long"
  | .ulong => "u_long"
  | .pointer => "pointer"
  | .value => "value"
  | .float64 => "float64"

/-- The type of a name. -/
def ofName? (name : String) : Option NativeType :=
  all.find? (·.name == name)

/-- The spelling of a type in C declarations. -/
def declaration : NativeType → String
  | .int8 => "signed char"
  | .uint8 => "unsigned char"
  | .int32 => "int"
  | .uint32 => "unsigned int"
  | .int64 => "int64_t"
  | .uint64 => "uint64_t"
  | .long => "long"
  | .ulong => "unsigned long"
  | .pointer => "void *"
  | .value => "VALUE"
  | .float64 => "double"

/-- Bytes of a member. -/
def size (width : Width) : NativeType → Nat
  | .int8 | .uint8 => 1
  | .int32 | .uint32 => 4
  | .int64 | .uint64 | .float64 => 8
  | .long | .ulong | .pointer | .value => width.bytes

/-- Alignment of a member; scalars of eight bytes are aligned to four under 32-bit pointers. -/
def align (width : Width) (type : NativeType) : Nat :=
  min (type.size width) width.bytes

/-- Whether reading a member extends its sign. -/
def isSigned : NativeType → Bool
  | .int8 | .int32 | .int64 | .long => true
  | _ => false

/-- The machine type of a member for a given pointer type. -/
def irType (pointerType : IrType) : NativeType → IrType
  | .int8 | .uint8 => .i8
  | .int32 | .uint32 => .i32
  | .int64 | .uint64 => .i64
  | .float64 => .f64
  | .long | .ulong | .pointer | .value => pointerType

end NativeType

end HostBridge
