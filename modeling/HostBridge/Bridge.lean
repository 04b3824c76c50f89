import HostBridge.Constant
import HostBridge.Invocation
import HostBridge.Layout.Builtin
import HostBridge.Location
import HostBridge.Service.Registry

/-!
# Bridges

A bridge joins the tables of a host build: record layouts, service addresses, the place of the
current location, and whether the host can evaluate calls.
-/

namespace HostBridge

/-- The tables of a host build. -/
structure Bridge where
  /-- The build. -/
  config : BuildConfig
  /-- Members and sizes of records. -/
  layouts : LayoutTable
  /-- Addresses of services. -/
  functions : Registry
  /-- Where location updates are stored. -/
  slots : LocationSlots
  /-- Whether the host supplies an evaluator. -/
  hasEvaluator : Bool

namespace Bridge

/-- One step of the construction of a bridge. -/
inductive BuildStep where
  /-- Add one service. -/
  | function (name : String) (address : Address)
  /-- Replace all services. -/
  | services (services : HostServices)
  /-- Add a member beyond the records of the host. -/
  | member (record name : String) (place : Member)

/-- The services after a step. -/
def BuildStep.toServices (services : HostServices) : BuildStep → HostServices
  | .function name address => services ++ [(name, address)]
  | .services replaced => replaced
  | .member .. => services

/-- The layout table after a step. -/
def BuildStep.toLayouts (table : LayoutTable) : BuildStep → LayoutTable
  | .member record name place => table.register record name place
  | .function .. | .services _ => table

/-- Build a bridge. -/
def build (config : BuildConfig) (steps : List BuildStep) (slots : LocationSlots)
    (hasEvaluator : Bool) : Bridge :=
  { config
    layouts := steps.foldl BuildStep.toLayouts (Builtin.layouts config)
    functions := Registry.bootstrap config.abi (steps.foldl BuildStep.toServices [])
    slots
    hasEvaluator }

/-- The bridge of a build without further steps. -/
def ofConfig (config : BuildConfig) : Bridge := build config [] .own false

/-- Evaluate a call, if the bridge has an evaluator. -/
def invoke {ε : Type} (bridge : Bridge) (evaluator : Evaluator ε) (invocation : Invocation) :
    Act ε (Except BridgeError HostValue) :=
  if bridge.hasEvaluator then evaluator.invoke bridge.config.abi invocation
  else pure (.error .noEvaluator)

/-- The bridge in diagnostic dumps. -/
def dump (bridge : Bridge) : String :=
  "Bridge \x7b config: " ++ bridge.config.dump
    ++ ", members: " ++ toString bridge.layouts.memberCount
    ++ ", functions: " ++ toString bridge.functions.size
    ++ ", slots: " ++ bridge.slots.dump
    ++ ", evaluator: " ++ (if bridge.hasEvaluator then "true" else "false") ++ " \x7d"

end Bridge

end HostBridge
