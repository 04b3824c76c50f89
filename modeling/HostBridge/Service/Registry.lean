import HostBridge.Dictionary
import HostBridge.Error
import HostBridge.Service.Catalogue

/-!
# Registered addresses

A registry binds names to addresses. It is filled from the services that the host supplies and
from the helpers of the bridge, which the host cannot replace.
-/

namespace HostBridge

/-- The helpers that the bridge offers to generated code. -/
inductive Helper where
  | frameProtect
  | frameSignal
  | framePending
  | frameCurrent
  | blockPassCall
  | blockPassFcall
  | currentLocation
deriving DecidableEq, Repr

namespace Helper

/-- Every helper. -/
def all : List Helper :=
  [.frameProtect, .frameSignal, .framePending, .frameCurrent, .blockPassCall, .blockPassFcall,
    .currentLocation]

/-- The name that a helper is registered under. -/
def name : Helper → String
  | .frameProtect => "frame_protect"
  | .frameSignal => "frame_signal"
  | .framePending => "frame_pending"
  | .frameCurrent => "frame_current"
  | .blockPassCall => "block_pass_call"
  | .blockPassFcall => "block_pass_fcall"
  | .currentLocation => "current_location"

end Helper

/-- Routines of the embedding program that sessions may bind to a name. -/
inductive Routine where
  /-- The sum of two words. -/
  | add
  /-- Ten times the first word plus the second. -/
  | concat
  /-- The sum of four words with weights one to four. -/
  | weigh
  /-- The successor of a half word. -/
  | inc32
  /-- Logs a word and returns it. -/
  | log
  /-- Runs a subprogram as a helper: what unwinds out of it is parked. -/
  | sub
  /-- Runs a subprogram as the body of a protected region. -/
  | subBody
deriving DecidableEq, Repr

namespace Routine

/-- Every routine. -/
def all : List Routine := [.add, .concat, .weigh, .inc32, .log, .sub, .subBody]

/-- The name of a routine. -/
def name : Routine → String
  | .add => "add"
  | .concat => "concat"
  | .weigh => "weigh"
  | .inc32 => "inc32"
  | .log => "log"
  | .sub => "sub"
  | .subBody => "sub_body"

/-- The routine of a name. -/
def ofName? (name : String) : Option Routine :=
  all.find? (·.name == name)

end Routine

/-- The address of a callable, or of runtime state. -/
inductive Address where
  /-- An address that the host gives as a number. -/
  | raw (bits : UInt64)
  /-- A helper of the bridge. -/
  | helper (which : Helper)
  /-- A routine of the embedding program. -/
  | routine (which : Routine)
deriving DecidableEq, Repr

namespace Address

/-- An address in listings. Those of helpers and routines are shown by name, because their numbers
differ from run to run. -/
def display : Address → String
  | .raw bits => Text.hex bits.toNat
  | .helper which => "bridge:" ++ which.name
  | .routine which => "native:" ++ which.name

end Address

/-- Names and addresses that the host supplies, in the order of supply. -/
abbrev HostServices := List (String × Address)

namespace HostServices

/-- The address supplied for a name; the last one counts. -/
def get? (services : HostServices) (name : String) : Option Address :=
  (services.reverse.find? (·.1 == name)).map (·.2)

end HostServices

/-- Bound names. -/
structure Registry where
  /-- Addresses by name. -/
  entries : Dictionary Address := []

namespace Registry

/-- The registry that binds nothing. -/
def empty : Registry := {}

/-- Bind a name, or bind it anew. -/
def register (name : String) (address : Address) (registry : Registry) : Registry :=
  { entries := registry.entries.insert name address }

/-- The address bound to a name. -/
def pointerOf (registry : Registry) (name : String) : Except BridgeError Address :=
  match registry.entries.get? name with
  | some address => .ok address
  | none => .error (.unknownFunction name)

/-- Whether a name is bound. -/
def contains (registry : Registry) (name : String) : Bool :=
  (registry.entries.get? name).isSome

/-- The bound names, in the order of their bytes. -/
def names (registry : Registry) : List String := registry.entries.sortedKeys

/-- The number of bound names. -/
def size (registry : Registry) : Nat := registry.entries.length

/-- Whether nothing is bound. -/
def isEmpty (registry : Registry) : Bool := registry.entries.isEmpty

/-- Bind a service that the host of a runtime family supplies, unless the catalogue gives its name
to the bridge. -/
def supply (abi : Abi) (registry : Registry) (supplied : String × Address) : Registry :=
  match Service.find? supplied.1 with
  | some service =>
      if service.provider = .bridge then registry
      else if service.includes abi then registry.register supplied.1 supplied.2
      -- A service of the other family is out of place, and bound all the same.
      else registry.register supplied.1 supplied.2
  | none => registry.register supplied.1 supplied.2

/-- The registry of a bridge: what the host supplies, then the helpers. -/
def bootstrap (abi : Abi) (services : HostServices) : Registry :=
  let supplied := services.foldl (supply abi) .empty
  Helper.all.foldl (fun registry helper => registry.register helper.name (.helper helper))
    supplied

end Registry

end HostBridge
