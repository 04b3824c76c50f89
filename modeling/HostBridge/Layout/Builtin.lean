import HostBridge.Layout.Record
import HostBridge.Layout.Table

/-!
# Records of the host

The records of both runtime families, and the layout table that a bridge starts from.
-/

namespace HostBridge

namespace Builtin

/-- The version of the record tables. -/
def version : Nat := 1

/-- The slots that every heap object starts with. -/
def header : List Slot := [.field "flags" .ulong, .field "klass" .value]

/-- The header as a struct of its own. -/
def headerSlot : Slot := .embed "basic" header

/-- Capacity, or the owner of shared storage. -/
def capacityOrShared : List Slot := [.field "capa" .long, .field "shared" .value]

/-- Three values inside the record. -/
def inlineValues : Slot := .array "ary" .value (.fixed 3)

/-- Records of the tree-walking interpreter. -/
def frameScopeRecords : List Record :=
  [{ name := "RBasic", slots := header },
    { name := "RObject"
      slots := [headerSlot, .optional .objectIvTable (.field "iv_tbl" .pointer)] },
    { name := "RClass"
      slots :=
        [headerSlot, .optional .classIvTable (.field "iv_tbl" .pointer),
          .field "m_tbl" .pointer, .optional .classSuper (.field "super" .value)] },
    { name := "RFloat", slots := [headerSlot, .field "value" .float64] },
    { name := "RString"
      slots :=
        [headerSlot, .field "len" .long, .field "ptr" .pointer, .union "aux" capacityOrShared] },
    { name := "RArray"
      slots :=
        [headerSlot, .field "len" .long, .union "aux" capacityOrShared, .field "ptr" .pointer] },
    { name := "RRegexp"
      slots :=
        [headerSlot, .field "ptr" .pointer, .optional .regexpLen (.field "len" .long),
          .optional .regexpSource (.field "str" .pointer)] },
    { name := "RHash"
      slots :=
        [headerSlot, .optional .hashTable (.field "tbl" .pointer), .field "iter_lev" .int32,
          .field "ifnone" .value] },
    { name := "RFile", slots := [headerSlot, .field "fptr" .pointer] },
    { name := "RData"
      slots :=
        [headerSlot, .field "dmark" .pointer, .field "dfree" .pointer,
          .field "data" .pointer] },
    { name := "FRAME"
      requires := some .frameRecord
      slots :=
        [.field "self" .value, .field "argc" .int32, .field "last_func" .ulong,
          .field "orig_func" .ulong, .field "last_class" .value, .field "prev" .pointer,
          .field "tmp" .pointer, .field "node" .pointer, .field "iter" .int32,
          .field "flags" .int32, .field "uniq" .ulong] },
    { name := "SCOPE"
      requires := some .scopeRecord
      slots :=
        [headerSlot, .field "local_tbl" .pointer, .field "local_vars" .pointer,
          .field "flags" .int32] }]

/-- Records of the bytecode machine. -/
def callFrameRecords : List Record :=
  [{ name := "RBasic", slots := header },
    { name := "RObject"
      slots :=
        [headerSlot,
          .union "as"
            [.embed "heap"
                [.field "numiv" .long, .field "ivptr" .pointer,
                  .field "iv_index_tbl" .pointer],
              inlineValues]] },
    { name := "RClass"
      slots :=
        [headerSlot, .field "ptr" .pointer, .field "m_tbl" .pointer,
          .field "iv_index_tbl" .pointer] },
    { name := "RFloat", slots := [headerSlot, .field "float_value" .float64] },
    { name := "RString"
      slots :=
        [headerSlot,
          .union "as"
            [.embed "heap"
                [.field "len" .long, .field "ptr" .pointer, .union "aux" capacityOrShared],
              .array "ary" .uint8 (.words 3)]] },
    { name := "RArray"
      slots :=
        [headerSlot,
          .union "as"
            [.embed "heap"
                [.field "len" .long, .union "aux" capacityOrShared, .field "ptr" .pointer],
              inlineValues]] },
    { name := "RRegexp"
      slots :=
        [headerSlot, .field "ptr" .pointer, .field "src" .value, .field "usecnt" .ulong] },
    { name := "RHash"
      slots :=
        [headerSlot, .field "ntbl" .pointer, .field "iter_lev" .int32,
          .field "ifnone" .value] },
    { name := "RFile", slots := [headerSlot, .field "fptr" .pointer] },
    { name := "RData"
      slots :=
        [headerSlot, .field "dmark" .pointer, .field "dfree" .pointer,
          .field "data" .pointer] }]

/-- The records of a runtime family, in table order. -/
def records : Abi → List Record
  | .frameScope => frameScopeRecords
  | .callFrame => callFrameRecords

/-- The name of the record that the bridge keeps for a protected region. -/
def controlFrameName : String := "ControlFrame"

/-- The members of that record that generated code may use. -/
def controlFrameMembers : List (String × Member) :=
  [("tag", ⟨16, .uint64⟩), ("retval", ⟨24, .uint64⟩), ("prev", ⟨32, .pointer⟩),
    ("state", ⟨40, .uint32⟩), ("exit_code", ⟨44, .uint32⟩), ("armed", ⟨48, .uint32⟩)]

/-- Bytes of that record. -/
def controlFrameSize : UInt32 := 56

/-- Register every member of a record. -/
def registerMembers (record : String) (members : List (String × Member)) (table : LayoutTable) :
    LayoutTable :=
  members.foldl (fun table entry => table.register record entry.1 entry.2) table

/-- Register a record, if the build has it. -/
def registerRecord (config : BuildConfig) (table : LayoutTable) (record : Record) :
    LayoutTable :=
  match record.compute config with
  | some layout =>
      (registerMembers layout.name layout.members table).registerSize layout.name layout.size
  | none => table

/-- The layout table of a build. The record of protected regions lives in this process, so it only
exists at this machine's pointer width. -/
def layouts (config : BuildConfig) : LayoutTable :=
  let table := (records config.abi).foldl (registerRecord config) .empty
  if config.width = .host then
    (registerMembers controlFrameName controlFrameMembers table).registerSize controlFrameName
      controlFrameSize
  else table

end Builtin

end HostBridge
