import HostBridge.Bridge
import HostBridge.Command.Arguments
import HostBridge.Text.Json

/-!
# Reports

Each command resolves the build that it is asked about and describes one of the bridge's tables.
-/

namespace HostBridge

namespace Command

/-- The version of the program. -/
def version : String := "0.2.0"

/-- Why a command fails. -/
inductive Failure where
  /-- No runtime family has the name. -/
  | unknownAbi (name : String)
  /-- No build has such pointers. -/
  | unsupportedWidth (bits : Nat)
  /-- An operation of the bridge failed. -/
  | bridge (error : BridgeError)
deriving DecidableEq, Repr

namespace Failure

/-- The wording of a failure. -/
def message : Failure → String
  | .unknownAbi name => "unknown ABI `" ++ name ++ "` (expected frame-scope or call-frame)"
  | .unsupportedWidth bits => Width.unsupportedMessage bits
  | .bridge error => error.message

end Failure

/-- What a command finds outside the program. -/
structure Surroundings where
  /-- What is found at a path. -/
  file : String → BuildConfig.FileContent
  /-- The setting of the log filter. -/
  logFilter : Option String

/-- The runtime family that the options name. -/
def chosenAbi (target : Target) : Except Failure (Option Abi) :=
  match target.abi with
  | none => pure none
  | some name =>
      match Abi.ofName? name with
      | some abi => pure (some abi)
      | none => throw (.unknownAbi name)

/-- The build that the document describes, or the stock build. -/
def baseConfig (surroundings : Surroundings) (target : Target) (abi : Option Abi) :
    Except Failure BuildConfig :=
  match target.config with
  | some path => (BuildConfig.ofFile path (surroundings.file path)).mapError .bridge
  | none => pure (BuildConfig.forAbi (abi.getD .callFrame))

/-- Another runtime family brings its own features; the width stays. -/
def overrideAbi (abi : Option Abi) (config : BuildConfig) : BuildConfig :=
  match abi with
  | some abi =>
      if abi = config.abi then config
      else { BuildConfig.forAbi abi with width := config.width }
  | none => config

/-- The build that a command describes: the document first, then the options. -/
def resolve (surroundings : Surroundings) (target : Target) : Except Failure BuildConfig := do
  let abi ← chosenAbi target
  let base ← baseConfig surroundings target abi
  let config := overrideAbi abi base
  match target.width with
  | none => pure config
  | some bits =>
      match Width.ofBits? bits with
      | some width => pure { config with width }
      | none => throw (.unsupportedWidth bits)

/-! ## Record layouts -/

/-- The size of a record in JSON. -/
def sizeJson (layouts : LayoutTable) (record : String) : Json :=
  match layouts.sizeOf? record with
  | some size => .number size.toNat
  | none => .null

/-- One line of the list of records. -/
def recordLine (layouts : LayoutTable) (record : String) : String :=
  let size :=
    match layouts.sizeOf? record with
    | some size => Text.alignRight 4 (toString size.toNat)
    | none => "   ?"
  Text.alignLeft 14 record ++ " " ++ size ++ " bytes"

/-- The list of records. -/
def listRecords (layouts : LayoutTable) (json : Bool) : String :=
  if json then
    let records := layouts.recordNames.map fun record =>
      Json.object [("name", .string record), ("size", sizeJson layouts record)]
    Text.unlines [(Json.array records).compact]
  else Text.unlines (layouts.recordNames.map (recordLine layouts))

/-- A member in JSON. -/
def memberJson (entry : String × Member) : Json :=
  .object
    [("name", .string entry.1), ("offset", .number entry.2.offset.toNat),
      ("type", .string entry.2.type.declaration)]

/-- One line of the members of a record. -/
def memberLine (entry : String × Member) : String :=
  "  " ++ Text.alignRight 4 (toString entry.2.offset.toNat) ++ "  "
    ++ Text.alignLeft 20 entry.1 ++ " " ++ entry.2.type.declaration

/-- The members of a record. -/
def showRecord (layouts : LayoutTable) (record : String) (json : Bool) :
    Except Failure String := do
  let members ← (layouts.fields record).mapError .bridge
  if json then
    let object := Json.object
      [("fields", .array (members.map memberJson)), ("name", .string record),
        ("size", sizeJson layouts record)]
    pure (Text.unlines [object.pretty 0])
  else
    let title :=
      match layouts.sizeOf? record with
      | some size => record ++ " (" ++ toString size.toNat ++ " bytes)"
      | none => record
    pure (Text.unlines (title :: members.map memberLine))

/-! ## Services -/

/-- A signature in JSON. -/
def signatureJson : Option ServiceSignature → Json
  | none => .null
  | some signature =>
      .object
        [("params", .array (signature.params.map fun type => .string type.symbol)),
          ("ret", (signature.result.map fun type => Json.string type.symbol).getD .null),
          ("variadic", .boolean signature.variadic)]

/-- The families that have a service, in JSON. -/
def scopeJson : Option Abi → Json
  | none => .string "Both"
  | some abi => .object [("Only", .string abi.name)]

/-- A service in JSON. -/
def serviceJson (service : Service) : Json :=
  .object
    [("name", .string service.name), ("sig", signatureJson service.signature),
      ("scope", scopeJson service.only), ("provider", .string service.provider.symbol)]

/-- One line of the list of services. -/
def serviceLine (service : Service) : String :=
  let marker :=
    match service.provider with
    | .host => " "
    | .bridge => "*"
  let signature :=
    match service.signature with
    | some signature => signature.render
    | none => "(runtime state)"
  marker ++ " " ++ Text.alignLeft 22 service.name ++ " " ++ signature

/-- The list of services. -/
def listServices (abi : Abi) (all json : Bool) : String :=
  let services := Service.catalogue.filter fun service =>
    service.includes abi && (all || service.provider == .host)
  if json then Text.unlines [(Json.array (services.map serviceJson)).pretty 0]
  else
    Text.unlines
      (services.map serviceLine ++ if all then ["", "* provided by the bridge"] else [])

/-! ## Constants -/

/-- The list of constants. -/
def listConstants (abi : Abi) (json : Bool) : String :=
  let constants := Constant.table abi
  if json then
    let entries := constants.map fun constant =>
      Json.object [("name", .string constant.name), ("value", .number constant.value)]
    Text.unlines
      [(Json.object [("abi", .string abi.name), ("entries", .array entries)]).pretty 0]
  else
    Text.unlines
      (("# " ++ abi.name) :: constants.map fun constant =>
        Text.alignLeft 24 constant.name ++ " " ++ Text.hexFour constant.value ++ "  "
          ++ toString constant.value)

/-! ## Build and environment -/

/-- The resolved build, what its bridge knows, and the environment. -/
def describeBuild (config : BuildConfig) (logFilter : Option String) : String :=
  let bridge := Bridge.ofConfig config
  let document := (config.toDocument.splitOn "\n").filter (· != "")
  Text.unlines
    (["Ludic v" ++ version, "", "Bootstrap:    v" ++ toString Builtin.version, "", "Build:"]
      ++ document.map ("  " ++ ·)
      ++ ["", "Records:      " ++ toString bridge.layouts.recordNames.length,
        "Members:      " ++ toString bridge.layouts.memberCount,
        "Services:     " ++ toString bridge.functions.size ++ " registered", "",
        "Environment:", "  LUDIC_LOG = " ++ logFilter.getD "(default)"])

/-- Run a command: the text of its report, or its failure. -/
def execute (surroundings : Surroundings) (arguments : Arguments) : Except Failure String := do
  let config ← resolve surroundings arguments.target
  match arguments.verb with
  | .layout =>
      let layouts := (Bridge.ofConfig config).layouts
      match arguments.record with
      | some record => showRecord layouts record arguments.json
      | none => pure (listRecords layouts arguments.json)
  | .services => pure (listServices config.abi arguments.all arguments.json)
  | .constants => pure (listConstants config.abi arguments.json)
  | .info => pure (describeBuild config surroundings.logFilter)

/-- What a finished command leaves behind. -/
structure Completion where
  /-- The exit code. -/
  code : UInt32 := 0
  /-- The text of the report. -/
  output : String := ""
  /-- Why the command failed. -/
  failure : Option Failure := none

/-- The line that names program and version. -/
def versionText : String := Text.unlines ["ludic " ++ version]

/-- How the program is used. -/
def usage : String :=
  Text.unlines
    ["Usage: ludic layout [RECORD] [--json] [TARGET]",
      "       ludic services [--all] [--json] [TARGET]",
      "       ludic constants [--json] [TARGET]", "       ludic info [TARGET]", "",
      "TARGET: [--abi NAME] [--width BITS] [--config PATH]"]

/-- Do what a command line asks for. -/
def run (surroundings : Surroundings) : Request → Completion
  | .misuse => { code := 2 }
  | .help => { output := usage }
  | .version => { output := versionText }
  | .run arguments =>
      match execute surroundings arguments with
      | .ok report => { output := report }
      | .error failure => { code := 1, failure := some failure }

end Command

end HostBridge
