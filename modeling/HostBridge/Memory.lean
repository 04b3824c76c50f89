/-!
# Byte memory

Memory maps every 64-bit address to a byte. Words are stored with the low byte first, and
addresses wrap around.
-/

namespace HostBridge

/-- A byte at every address. -/
abbrev Memory := UInt64 → UInt8

namespace Memory

/-- Memory that holds zero everywhere. -/
def zero : Memory := fun _ => 0

/-- Replace one byte. -/
def set (memory : Memory) (address : UInt64) (byte : UInt8) : Memory :=
  fun other => if other = address then byte else memory other

/-- The number made of `count` bytes from `address` on, low byte first. -/
def load (memory : Memory) (address : UInt64) : Nat → UInt64
  | 0 => 0
  | count + 1 => (memory address).toUInt64 ||| (load memory (address + 1) count <<< 8)

/-- Write the low `count` bytes of `bits` from `address` on, low byte first. -/
def store (memory : Memory) (address : UInt64) : Nat → UInt64 → Memory
  | 0, _ => memory
  | count + 1, bits =>
      store (memory.set address bits.toUInt8) (address + 1) count (bits >>> 8)

/-- Lay bytes over memory from `address` on. -/
def write (memory : Memory) (address : UInt64) (bytes : Array UInt8) : Memory :=
  fun other => (bytes[(other - address).toNat]?).getD (memory other)

/-- The list of `count` bytes from `address` on. -/
def read (memory : Memory) (address : UInt64) : Nat → List UInt8
  | 0 => []
  | count + 1 => memory address :: read memory (address + 1) count

/-- The bytes from `address` on before the first zero, at most `limit` of them. -/
def readText (memory : Memory) (address : UInt64) : Nat → List UInt8
  | 0 => []
  | limit + 1 =>
      if memory address = 0 then [] else memory address :: readText memory (address + 1) limit

end Memory

end HostBridge
