import HostBridge.NativeType
import HostBridge.Memory

/-!
# Record members

A member lives at an offset of its record and has a native type. The host reads and writes it
directly in its own memory.
-/

namespace HostBridge

/-- Where a member lives and what it holds. -/
structure Member where
  /-- Bytes from the start of the record. -/
  offset : UInt32
  /-- The native type. -/
  type : NativeType
deriving DecidableEq, Repr

namespace Member

/-- Bytes of the member on this machine. -/
def size (member : Member) : Nat := member.type.size .host

/-- The address of the member in the record at `base`. -/
def address (member : Member) (base : UInt64) : UInt64 :=
  base + member.offset.toUInt64

/-- Read the member of the record at `base`. Signed members extend their sign, floats are returned
as their bits. -/
def readRaw (member : Member) (memory : Memory) (base : UInt64) : UInt64 :=
  let address := member.address base
  match member.type, member.size with
  | .int8, _ => IrType.i8.signExtend (memory.load address 1)
  | .uint8, _ => memory.load address 1
  | .int32, _ => IrType.i32.signExtend (memory.load address 4)
  | .uint32, _ => memory.load address 4
  | .long, 4 => IrType.i32.signExtend (memory.load address 4)
  | _, 4 => memory.load address 4
  | _, _ => memory.load address 8

/-- Write the low bits of a word to the member of the record at `base`. -/
def writeRaw (member : Member) (memory : Memory) (base : UInt64) (bits : UInt64) : Memory :=
  let address := member.address base
  match member.size with
  | 1 => memory.store address 1 bits
  | 4 => memory.store address 4 bits
  | _ => memory.store address 8 bits

end Member

end HostBridge
