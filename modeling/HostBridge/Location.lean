import HostBridge.Error
import HostBridge.Memory
import HostBridge.Text.Utf8

/-!
# Source locations

Before a call that can raise, generated code points the current line, file and node at the place
that is being executed, so that a diagnostic of the call reports it. Generated code can reach the
bridge's own location in memory: a line, the address of the file's name and the address of the node.
-/

namespace HostBridge

/-- A place in a source. -/
structure SourceNode where
  /-- The line. -/
  line : Int32
  /-- The file, without a zero byte. -/
  file : String
  /-- The identity of the node in the host. -/
  id : UInt64
deriving DecidableEq, Repr

namespace SourceNode

/-- A place; files with a zero byte cannot be named to the host. -/
def create (line : Int32) (file : String) (id : UInt64) : Except BridgeError SourceNode :=
  if file.toList.contains '\x00' then
    .error (.wrongType "file" "string without NUL" "string with NUL")
  else .ok { line, file, id }

/-- The bytes of the file's name, ended by a zero byte. -/
def fileBytes (node : SourceNode) : List UInt8 :=
  node.file.toUTF8.toList ++ [0]

end SourceNode

/-- A node in memory. -/
structure PlacedNode where
  /-- The node. -/
  node : SourceNode
  /-- The address of the node. -/
  address : UInt64
  /-- The address of the name of its file. -/
  fileAddress : UInt64
deriving DecidableEq, Repr

namespace PlacedNode

/-- Where a node in memory holds its identity. -/
def idOffset : UInt64 := 16

/-- The bytes of the node: address and length of its file's name, its identity and its line. -/
def image (placed : PlacedNode) : List UInt8 :=
  let memory := Memory.zero
    |>.store 0 8 placed.fileAddress
    |>.store 8 8 (.ofNat placed.node.fileBytes.length)
    |>.store idOffset 8 placed.node.id
    |>.store 24 4 placed.node.line.toUInt32.toUInt64
  memory.read 0 32

/-- Put the node and the name of its file in memory. -/
def write (placed : PlacedNode) (memory : Memory) : Memory :=
  (memory.write placed.address placed.image.toArray).write placed.fileAddress
    placed.node.fileBytes.toArray

end PlacedNode

/-- What an address in a location refers to. -/
inductive Reference (α : Type) where
  /-- Nothing. -/
  | unset
  /-- A thing that was placed at the address. -/
  | placed (thing : α) (address : UInt64)
  /-- Whatever is found at an address that code has stored. -/
  | word (address : UInt64)
deriving DecidableEq, Repr

namespace Reference

variable {α β : Type}

/-- The address; zero stands for nothing. -/
def address : Reference α → UInt64
  | .unset => 0
  | .placed _ address => address
  | .word address => address

/-- The reference after code has stored an address over it. -/
def overwrite (reference : Reference α) (bits : UInt64) : Reference α :=
  if bits = reference.address then reference else if bits = 0 then .unset else .word bits

/-- What is shown of a referent: a placed thing speaks for itself as long as it is `intact`, and
else its address is looked up. -/
def shown (intact : Bool) (known : α → β) (look : UInt64 → Option β) : Reference α → Option β
  | .unset => none
  | .placed thing address => if intact then some (known thing) else look address
  | .word address => look address

end Reference

/-- The current location. -/
structure Location where
  /-- The current line. -/
  line : Int32 := 0
  /-- The name of the current file. -/
  file : Reference String := .unset
  /-- The current node. -/
  node : Reference SourceNode := .unset
deriving DecidableEq, Repr

namespace Location

/-- Nothing has been executed yet. -/
def unset : Location := {}

/-- One part of a location update. -/
inductive Part where
  | line (line : Int32)
  | file (placed : PlacedNode)
  | node (placed : PlacedNode)
deriving DecidableEq, Repr

/-- Set one part of a location. -/
def set (location : Location) : Part → Location
  | .line line => { location with line }
  | .file placed => { location with file := .placed placed.node.file placed.fileAddress }
  | .node placed => { location with node := .placed placed.node placed.address }

/-- The location of a node as the host sets it. -/
def ofNode (abi : Abi) (placed : PlacedNode) : Location :=
  { line := placed.node.line
    file := .placed placed.node.file placed.fileAddress
    node := if abi.tracksNode then .placed placed.node placed.address else .unset }

/-! ## Locations in memory -/

/-- The bytes that a location takes. -/
def size : UInt64 := 24

/-- Whether the byte at a distance from the start of a location belongs to a part. -/
def inPart (distance : UInt64) : Bool :=
  distance < 4 || (8 ≤ distance && distance < 24)

/-- The bytes of a location, by their distance from its start. -/
def image (location : Location) : Memory :=
  Memory.zero
    |>.store 0 4 location.line.toUInt32.toUInt64
    |>.store 8 8 location.file.address
    |>.store 16 8 location.node.address

/-- A location with the words that memory holds for it from `base` on. -/
def reload (memory : Memory) (base : UInt64) (location : Location) : Location :=
  { line := (memory.load base 4).toUInt32.toInt32
    file := location.file.overwrite (memory.load (base + 8) 8)
    node := location.node.overwrite (memory.load (base + 16) 8) }

/-! ## Diagnostics -/

/-- A location as diagnostics show it. -/
structure Report where
  /-- The line. -/
  line : Int32
  /-- The name of the file. -/
  file : Option String
  /-- The identity of the node. -/
  node : Option UInt64
deriving DecidableEq, Repr

/-- No name of a file is longer. -/
def nameLimit : Nat := 0x1000000

/-- What diagnostics show of a location. A node is only shown if it is one of the given nodes. -/
def report (intact : Bool) (memory : Memory) (nodes : List PlacedNode) (location : Location) :
    Report :=
  { line := location.line
    file := location.file.shown intact id fun address =>
      some (Text.Utf8.decode (memory.readText address nameLimit))
    node := location.node.shown intact SourceNode.id fun address =>
      (nodes.find? (·.address == address)).map fun placed =>
        memory.load (placed.address + PlacedNode.idOffset) 8 }

end Location

/-- Whose memory holds a current location. -/
inductive LocationOwner where
  /-- The bridge itself. -/
  | bridge
  /-- The embedding program. -/
  | host
  /-- Addresses of the line, the file and the node in the host's memory. -/
  | placed (line file : UInt64) (node : Option UInt64)
deriving DecidableEq, Repr

/-- Where generated code stores its location updates. -/
structure LocationSlots where
  /-- Whose location it is. -/
  owner : LocationOwner
  /-- Whether there is a place for the node. -/
  hasNode : Bool
deriving DecidableEq, Repr

namespace LocationSlots

/-- The location of the bridge. -/
def own : LocationSlots := { owner := .bridge, hasNode := true }

/-- The location of the embedding program. -/
def host (hasNode : Bool) : LocationSlots := { owner := .host, hasNode }

/-- Fixed addresses. -/
def placed (line file : UInt64) (node : Option UInt64) : LocationSlots :=
  { owner := .placed line file node, hasNode := node.isSome }

/-- The addresses of the slots, where they are fixed. -/
def addresses? (slots : LocationSlots) : Option (UInt64 × UInt64 × Option UInt64) :=
  match slots.owner with
  | .placed line file node => some (line, file, node)
  | .bridge | .host => none

/-- The parts of an update to a node, in the order in which they are stored. The node itself is only
stored for a runtime that tracks it, and only if it has a slot. -/
def parts (slots : LocationSlots) (abi : Abi) (placed : PlacedNode) : List Location.Part :=
  [.line placed.node.line, .file placed]
    ++ if abi.tracksNode && slots.hasNode then [.node placed] else []

/-- The slots in diagnostic dumps; only fixed addresses are shown as numbers. -/
def dump (slots : LocationSlots) : String :=
  let shown (address : UInt64) : String := toString address.toNat
  let (line, file, node) :=
    match slots.owner with
    | .placed line file node => (shown line, shown file, node.map shown)
    | .bridge | .host => ("_", "_", if slots.hasNode then some "_" else none)
  "LocationSlots \x7b line: " ++ line ++ ", file: " ++ file ++ ", node: "
    ++ (node.map fun text => "Some(" ++ text ++ ")").getD "None" ++ " \x7d"

end LocationSlots

/-- The current location of every owner. -/
abbrev Locations := LocationOwner → Location

namespace Locations

/-- No location is set. -/
def unset : Locations := fun _ => .unset

/-- Replace the location of one owner. -/
def replace (locations : Locations) (owner : LocationOwner) (location : Location) : Locations :=
  fun other => if other = owner then location else locations other

/-- Set one part of the location of one owner. -/
def set (locations : Locations) (owner : LocationOwner) (part : Location.Part) : Locations :=
  locations.replace owner ((locations owner).set part)

end Locations

end HostBridge
