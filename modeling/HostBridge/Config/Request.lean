import HostBridge.Bridge

/-!
# Requests

Builds and bridges asked for by the names of their parts.
-/

namespace HostBridge

/-- A build by the names of its family and features. What is left out is that of the stock build. -/
structure BuildRequest where
  /-- The name of a runtime family. -/
  abi : Option String := none
  /-- Pointer bits. -/
  width : Option Nat := none
  /-- The names of the features. -/
  features : Option (List String) := none
deriving DecidableEq, Repr

namespace BuildRequest

/-- Why there is no such build. -/
inductive Fault where
  | unknownAbi
  | badWidth (bits : Nat)
  | unknownFeature (name : String)
deriving DecidableEq, Repr

namespace Fault

/-- The wording of a fault, where there is one. -/
def message? : Fault → Option String
  | .unknownAbi => none
  | .badWidth bits => some (Width.unsupportedMessage bits)
  | .unknownFeature name => some (DocumentFault.unknownFeatureMessage name)

end Fault

/-- The family of a name. -/
def abiNamed (name : String) : Except Fault Abi :=
  match Abi.ofName? name with
  | some abi => pure abi
  | none => throw .unknownAbi

/-- The width with a number of bits. -/
def widthOf (bits : Nat) : Except Fault Width :=
  match Width.ofBits? bits with
  | some width => pure width
  | none => throw (.badWidth bits)

/-- The feature of a name. -/
def featureNamed (name : String) : Except Fault Feature :=
  match Feature.ofName? name with
  | some feature => pure feature
  | none => throw (.unknownFeature name)

/-- The build that is asked for. Family, width and features are checked in this order. -/
def resolve (request : BuildRequest) : Except Fault BuildConfig := do
  let stock ←
    match request.abi with
    | some name => do pure (BuildConfig.forAbi (← abiNamed name))
    | none => pure BuildConfig.default
  let sized ←
    match request.width with
    | some bits => do pure { stock with width := ← widthOf bits }
    | none => pure stock
  match request.features with
  | some names => do
      let features ← names.mapM featureNamed
      pure { sized with has := BuildConfig.featureSet features }
  | none => pure sized

end BuildRequest

/-- A bridge by the parts that it is built from. -/
structure BridgeRequest where
  /-- The build. -/
  build : BuildRequest := {}
  /-- The steps of the construction. -/
  steps : List Bridge.BuildStep := []
  /-- Where location updates are stored. -/
  slots : LocationSlots := .own
  /-- Whether the host supplies an evaluator. -/
  evaluator : Bool := false

namespace BridgeRequest

/-- The bridge that is asked for. -/
def resolve (request : BridgeRequest) : Except BuildRequest.Fault Bridge := do
  let config ← request.build.resolve
  pure (Bridge.build config request.steps request.slots request.evaluator)

end BridgeRequest

end HostBridge
