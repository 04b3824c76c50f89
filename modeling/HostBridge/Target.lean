import HostBridge.Abi

/-!
# Target triples

A triple names an architecture, a vendor, a system and sometimes an environment. Its pointer
width follows from the architecture, unless the environment asks for 32-bit pointers on a 64-bit
architecture.
-/

namespace HostBridge

namespace Target

/-- Pointer bits of the known architectures; `none` for the one that is deliberately unknown. -/
def architectures : List (String × Option Nat) :=
  [("unknown", none), ("arm", some 32), ("armeb", some 32), ("armv4t", some 32),
    ("armv5te", some 32), ("armv6", some 32), ("armv7", some 32), ("armv7a", some 32),
    ("armv7k", some 32), ("armv7r", some 32), ("armv7s", some 32), ("thumbv6m", some 32),
    ("thumbv7a", some 32), ("thumbv7em", some 32), ("thumbv7m", some 32),
    ("thumbv7neon", some 32), ("aarch64", some 64), ("aarch64_be", some 64), ("arm64", some 64),
    ("asmjs", some 32), ("avr", some 16), ("bpfeb", some 64), ("bpfel", some 64),
    ("hexagon", some 32), ("i386", some 32), ("i586", some 32), ("i686", some 32),
    ("loongarch64", some 64), ("m68k", some 32), ("mips", some 32), ("mipsel", some 32),
    ("mips64", some 64), ("mips64el", some 64), ("msp430", some 16), ("nvptx64", some 64),
    ("powerpc", some 32), ("powerpc64", some 64), ("powerpc64le", some 64),
    ("riscv32", some 32), ("riscv32i", some 32), ("riscv32im", some 32),
    ("riscv32imac", some 32), ("riscv32imc", some 32), ("riscv32gc", some 32),
    ("riscv64", some 64), ("riscv64gc", some 64), ("riscv64imac", some 64), ("s390x", some 64),
    ("sparc", some 32), ("sparc64", some 64), ("sparcv9", some 64), ("wasm32", some 32),
    ("wasm64", some 64), ("x86_64", some 64), ("x86_64h", some 64)]

/-- Environments that use 32-bit pointers whatever the architecture. -/
def narrowEnvironments : List String := ["gnux32", "gnu_ilp32", "gnuilp32"]

/-- The width of a triple: outside `none` if its architecture is not known, inside `none` if no
host build has such pointers. -/
def width? (triple : String) : Option (Option Width) :=
  match triple.splitOn "-" with
  | [] => none
  | architecture :: others =>
      (architectures.lookup architecture).map fun bits =>
        if others.any narrowEnvironments.contains then
          bits.bind fun _ => some .bits32
        else
          bits.bind Width.ofBits?

end Target

end HostBridge
