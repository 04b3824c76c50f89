import HostBridge.Dictionary
import HostBridge.Error
import HostBridge.Layout.Member

/-!
# Layout tables

A table maps the name of a record and the dotted name of a member to the place of the member. The
last registration of a member counts, and listings do not depend on the order of registration.
-/

namespace HostBridge

/-- The known members and sizes of records. -/
structure LayoutTable where
  /-- Members by record and name. -/
  records : Dictionary (Dictionary Member) := []
  /-- Bytes by record. -/
  sizes : Dictionary UInt32 := []

namespace LayoutTable

/-- The table that knows nothing. -/
def empty : LayoutTable := {}

/-- Add a member, or replace it. -/
def register (record name : String) (member : Member) (table : LayoutTable) : LayoutTable :=
  let members := (table.records.get? record).getD []
  { table with records := table.records.insert record (members.insert name member) }

/-- Set the size of a record. The record is known from then on, even without members. -/
def registerSize (record : String) (size : UInt32) (table : LayoutTable) : LayoutTable :=
  { records := table.records.insert record ((table.records.get? record).getD [])
    sizes := table.sizes.insert record size }

/-- The members of a record. -/
def membersOf (table : LayoutTable) (record : String) : Except BridgeError (Dictionary Member) :=
  match table.records.get? record with
  | some members => .ok members
  | none => .error (.unknownRecord record)

/-- The place of a member. -/
def lookup (table : LayoutTable) (record name : String) : Except BridgeError Member := do
  let members ← table.membersOf record
  match members.get? name with
  | some member => .ok member
  | none => .error (.unknownMember record name)

/-- Whether a member is known. -/
def has (table : LayoutTable) (record name : String) : Bool :=
  (table.records.get? record).any fun members => (members.get? name).isSome

/-- The offset of a member. -/
def offsetOf (table : LayoutTable) (record name : String) : Except BridgeError UInt32 :=
  (table.lookup record name).map (·.offset)

/-- The size of a record, if it is known. -/
def sizeOf? (table : LayoutTable) (record : String) : Option UInt32 :=
  table.sizes.get? record

/-- The names of the known records, in the order of their bytes. -/
def recordNames (table : LayoutTable) : List String := table.records.sortedKeys

/-- Whether a member is listed before another one: by offset, then by name. -/
def listedBefore (left right : String × Member) : Bool :=
  if left.2.offset = right.2.offset then decide (left.1 ≤ right.1)
  else decide (left.2.offset < right.2.offset)

/-- The members of a record, by offset and then by name. -/
def fields (table : LayoutTable) (record : String) :
    Except BridgeError (List (String × Member)) := do
  let members ← table.membersOf record
  pure (members.mergeSort listedBefore)

/-- The number of members of all records. -/
def memberCount (table : LayoutTable) : Nat :=
  (table.records.flatMap fun entry => entry.2).length

/-- Whether no record is known. -/
def isEmpty (table : LayoutTable) : Bool := table.records.isEmpty

end LayoutTable

end HostBridge
