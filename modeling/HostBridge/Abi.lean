/-!
# Host builds

A host build belongs to one of two runtime families, has a pointer width, and may lack some
optional record members.
-/

namespace HostBridge

/-- The family of runtime internals that generated code talks to. -/
inductive Abi where
  /-- A tree-walking interpreter with global frame and scope pointers. -/
  | frameScope
  /-- A bytecode machine with control frames per thread. -/
  | callFrame
deriving DecidableEq, Repr

namespace Abi

/-- Both families. -/
def all : List Abi := [.frameScope, .callFrame]

/-- The name of a family in documents and on the command line. -/
def name : Abi → String
  | .frameScope => "frame-scope"
  | .callFrame => "call-frame"

/-- The family of a name. -/
def ofName? (name : String) : Option Abi :=
  all.find? (·.name == name)

/-- The family as a symbol in diagnostic dumps. -/
def symbol : Abi → String
  | .frameScope => "FrameScope"
  | .callFrame => "CallFrame"

/-- Whether the runtime keeps a current node beside line and file. -/
def tracksNode : Abi → Bool
  | .frameScope => true
  | .callFrame => false

end Abi

/-- The pointer width of a host build. -/
inductive Width where
  | bits32
  | bits64
deriving DecidableEq, Repr

namespace Width

/-- Bytes of a pointer. -/
def bytes : Width → Nat
  | .bits32 => 4
  | .bits64 => 8

/-- Bits of a pointer. -/
def bits (width : Width) : Nat := width.bytes * 8

/-- The width with the given number of bits. -/
def ofBits? : Nat → Option Width
  | 32 => some .bits32
  | 64 => some .bits64
  | _ => none

/-- The width as a symbol in diagnostic dumps. -/
def symbol : Width → String
  | .bits32 => "W32"
  | .bits64 => "W64"

/-- The width of the machine that runs generated code. -/
def host : Width := .bits64

/-- What is said of a width that no host build has. -/
def unsupportedMessage (bits : Nat) : String :=
  "unsupported pointer width " ++ toString bits

end Width

/-- A record member, or a whole record, that a host build may lack. -/
inductive Feature where
  | objectIvTable
  | classIvTable
  | classSuper
  | hashTable
  | regexpLen
  | regexpSource
  | frameRecord
  | scopeRecord
deriving DecidableEq, Repr

namespace Feature

/-- Every feature, in listing order. -/
def all : List Feature :=
  [.objectIvTable, .classIvTable, .classSuper, .hashTable, .regexpLen, .regexpSource,
    .frameRecord, .scopeRecord]

/-- The name of a feature in documents. -/
def name : Feature → String
  | .objectIvTable => "object-iv-table"
  | .classIvTable => "class-iv-table"
  | .classSuper => "class-super"
  | .hashTable => "hash-table"
  | .regexpLen => "regexp-len"
  | .regexpSource => "regexp-source"
  | .frameRecord => "frame-record"
  | .scopeRecord => "scope-record"

/-- The feature as a symbol in diagnostic dumps. -/
def symbol : Feature → String
  | .objectIvTable => "ObjectIvTable"
  | .classIvTable => "ClassIvTable"
  | .classSuper => "ClassSuper"
  | .hashTable => "HashTable"
  | .regexpLen => "RegexpLen"
  | .regexpSource => "RegexpSource"
  | .frameRecord => "FrameRecord"
  | .scopeRecord => "ScopeRecord"

/-- The feature of a name. -/
def ofName? (name : String) : Option Feature :=
  all.find? (·.name == name)

/-- The features of a stock build. -/
def defaults : Abi → List Feature
  | .frameScope => all
  | .callFrame => []

end Feature

end HostBridge
