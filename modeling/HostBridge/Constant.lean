import HostBridge.Abi
import HostBridge.Exit
import HostBridge.Value

/-!
# Constants

The numbers that generated code relies on: special values, type tags, exit codes and flag words.
Codes of type tags depend on the runtime family.
-/

namespace HostBridge

/-- The built-in type of a heap object, stored in the low bits of its flags. -/
inductive TypeTag where
  | none
  | nil
  | object
  | classObject
  | iclass
  | module
  | float
  | string
  | regexp
  | array
  | fixnum
  | hash
  | struct
  | bignum
  | file
  | true
  | false
  | data
  | match
  | symbol
  | undef
deriving DecidableEq, Repr

namespace TypeTag

/-- Every tag, in listing order. -/
def all : List TypeTag :=
  [.none, .nil, .object, .classObject, .iclass, .module, .float, .string, .regexp, .array, .fixnum,
    .hash, .struct, .bignum, .file, .true, .false, .data, .match, .symbol, .undef]

/-- The code of a tag. -/
def code : Abi → TypeTag → UInt32
  | .frameScope, tag =>
      match tag with
      | .none => 0x00
      | .nil => 0x01
      | .object => 0x02
      | .classObject => 0x03
      | .iclass => 0x04
      | .module => 0x05
      | .float => 0x06
      | .string => 0x07
      | .regexp => 0x08
      | .array => 0x09
      | .fixnum => 0x0a
      | .hash => 0x0b
      | .struct => 0x0c
      | .bignum => 0x0d
      | .file => 0x0e
      | .true => 0x20
      | .false => 0x21
      | .data => 0x22
      | .match => 0x23
      | .symbol => 0x24
      | .undef => 0x3c
  | .callFrame, tag =>
      match tag with
      | .none => 0x00
      | .object => 0x01
      | .classObject => 0x02
      | .module => 0x03
      | .float => 0x04
      | .string => 0x05
      | .regexp => 0x06
      | .array => 0x07
      | .hash => 0x08
      | .struct => 0x09
      | .bignum => 0x0a
      | .file => 0x0b
      | .data => 0x0c
      | .match => 0x0d
      | .nil => 0x11
      | .true => 0x12
      | .false => 0x13
      | .symbol => 0x14
      | .fixnum => 0x15
      | .undef => 0x1b
      | .iclass => 0x1d

/-- The tag of a code. -/
def ofCode? (abi : Abi) (code : UInt32) : Option TypeTag :=
  all.find? (·.code abi == code)

/-- The bits of an object's flags that hold the tag. -/
def mask : Abi → UInt32
  | .frameScope => 0x3f
  | .callFrame => 0x1f

/-- The tag of an object with the given flags. -/
def ofFlags? (abi : Abi) (flags : UInt64) : Option TypeTag :=
  ofCode? abi (flags &&& (mask abi).toUInt64).toUInt32

/-- The tag as a symbol in listings. -/
def name : TypeTag → String
  | .none => "None"
  | .nil => "Nil"
  | .object => "Object"
  | .classObject => "Class"
  | .iclass => "IClass"
  | .module => "Module"
  | .float => "Float"
  | .string => "String"
  | .regexp => "Regexp"
  | .array => "Array"
  | .fixnum => "Fixnum"
  | .hash => "Hash"
  | .struct => "Struct"
  | .bignum => "Bignum"
  | .file => "File"
  | .true => "True"
  | .false => "False"
  | .data => "Data"
  | .match => "Match"
  | .symbol => "Symbol"
  | .undef => "Undef"

/-- The name of the constant that holds the code. -/
def constantName : TypeTag → String
  | .none => "T_NONE"
  | .nil => "T_NIL"
  | .object => "T_OBJECT"
  | .classObject => "T_CLASS"
  | .iclass => "T_ICLASS"
  | .module => "T_MODULE"
  | .float => "T_FLOAT"
  | .string => "T_STRING"
  | .regexp => "T_REGEXP"
  | .array => "T_ARRAY"
  | .fixnum => "T_FIXNUM"
  | .hash => "T_HASH"
  | .struct => "T_STRUCT"
  | .bignum => "T_BIGNUM"
  | .file => "T_FILE"
  | .true => "T_TRUE"
  | .false => "T_FALSE"
  | .data => "T_DATA"
  | .match => "T_MATCH"
  | .symbol => "T_SYMBOL"
  | .undef => "T_UNDEF"

end TypeTag

/-- A named number. -/
structure Constant where
  /-- The name that the host gives it. -/
  name : String
  /-- Its value. -/
  value : Nat
deriving DecidableEq, Repr

namespace Constant

/-- Special values. -/
def specialValues : List Constant :=
  [⟨"Qfalse", HostValue.false.bits.toNat⟩, ⟨"Qtrue", HostValue.true.bits.toNat⟩,
    ⟨"Qnil", HostValue.nil.bits.toNat⟩, ⟨"Qundef", HostValue.undef.bits.toNat⟩]

/-- How `yield` passes its arguments. -/
def yieldModes : List Constant :=
  [⟨"YIELD_FUNC_AVALUE", 1⟩, ⟨"YIELD_FUNC_SVALUE", 2⟩]

/-- Flags of arrays that store their elements inline. -/
def inlineArrays : Abi → List Constant
  | .frameScope => []
  | .callFrame =>
      [⟨"RARRAY_EMBED_FLAG", 0x2000⟩, ⟨"RARRAY_EMBED_LEN_MASK", 0x18000⟩,
        ⟨"RARRAY_EMBED_LEN_SHIFT", 15⟩]

/-- Every constant of a runtime family, in listing order. -/
def table (abi : Abi) : List Constant :=
  specialValues
    ++ TypeTag.all.map (fun tag => ⟨tag.constantName, (tag.code abi).toNat⟩)
    ++ [⟨"T_MASK", (TypeTag.mask abi).toNat⟩]
    ++ ExitKind.all.map (fun kind => ⟨kind.constantName, kind.code.toNat⟩)
    ++ [⟨"TAG_MASK", ExitKind.codeMask.toNat⟩]
    ++ yieldModes
    ++ inlineArrays abi

/-- The value of a constant by name. -/
def value? (abi : Abi) (name : String) : Option Nat :=
  ((table abi).find? (·.name == name)).map (·.value)

end Constant

end HostBridge
