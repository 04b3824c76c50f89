import HostBridge.Proofs.Code.Watch
import HostBridge.Session.Run

/-!
# Traced sessions

A traced session is a session whose observer writes down what happens to the bridge's own location:
every update of the host, every part of an update that generated code stores, every other store that
changes the location, and the location itself as it is found at each call of generated code and
between the statements of each body.
-/

namespace HostBridge

namespace Session

/-- An entry of a trace. -/
inductive Mark where
  /-- The host has set the location to a node, for a runtime family. -/
  | set (abi : Abi) (placed : PlacedNode)
  /-- Code that was generated for a runtime family has stored a part of an update. -/
  | stored (abi : Abi) (part : Location.Part)
  /-- Code has changed the location by a store that is no part of an update. -/
  | overwritten
  /-- The location at a call of generated code, or between two statements. -/
  | seen (location : Location)
deriving DecidableEq, Repr

namespace Mark

/-- The node of an update. An update of generated code is known by its file. -/
def update? : Mark → Option PlacedNode
  | .set _ placed => some placed
  | .stored _ (.file placed) => some placed
  | _ => none

/-- Whatever has changed the location is an update for the runtime family. -/
def Uses (abi : Abi) : Mark → Prop
  | .set used _ => used = abi
  | .stored used _ => used = abi
  | .overwritten => False
  | .seen _ => True

instance (abi : Abi) : (mark : Mark) → Decidable (mark.Uses abi)
  | .set used _ => inferInstanceAs (Decidable (used = abi))
  | .stored used _ => inferInstanceAs (Decidable (used = abi))
  | .overwritten => inferInstanceAs (Decidable False)
  | .seen _ => inferInstanceAs (Decidable True)

end Mark

/-- A world with its trace. -/
structure Traced where
  /-- The world. -/
  world : World
  /-- The trace, newest mark first. -/
  marks : List Mark

namespace Traced

/-- The bridge's own location. -/
def location (traced : Traced) : Location := traced.world.locations .bridge

/-- Add a mark. -/
def note (mark : Mark) (traced : Traced) : Traced := { traced with marks := mark :: traced.marks }

end Traced

/-- A state without its trace. -/
def erase (state : State Traced) : State World :=
  { thread := state.thread, world := state.world.world }

/-- A state with a trace. -/
def withTrace (marks : List Mark) (state : State World) : State Traced :=
  { thread := state.thread, world := { world := state.world, marks } }

/-- Write down the location. -/
def look : Act Traced Unit := Act.onWorld fun traced => traced.note (.seen traced.location)

/-- The machine for functions of a runtime family. What they store to the location is written
down. -/
def marking (abi : Abi) (machine : Machine Traced) : Machine Traced :=
  { machine with
    store := fun address count bits state =>
      let reached := machine.store address count bits state
      if reached.world.location = state.world.location then reached
      else { reached with world := reached.world.note .overwritten }
    locate := fun owner part traced =>
      let reached := machine.locate owner part traced
      if owner = .bridge then reached.note (.stored abi part) else reached }

/-- The observer that writes down what happens to the location, where `abiOf` is the runtime family
that a function was generated for. -/
def tracing (abiOf : Code → Abi) : Observer Traced where
  world := Traced.world
  put world traced := { traced with world }
  look := look
  placed abi placed := Act.onWorld (·.note (.set abi placed))
  call machine code args := code.watch look (marking (abiOf code) machine) args

/-- Run a body with a trace and a number of levels below it. -/
def traceAt (setup : Setup) (bridge : Bridge) (codes : List Code) (abiOf : Code → Abi) :
    Nat → Body → Act Traced UInt64 :=
  observeAt (tracing abiOf) setup bridge codes

end Session

end HostBridge
