import HostBridge.Error
import HostBridge.Toml.Document

/-!
# Build configurations

A configuration fixes the runtime family, the pointer width and the optional members of a host
build. It can be read from a document and written as one.
-/

namespace HostBridge

/-- A resolved host build. -/
structure BuildConfig where
  /-- The runtime family. -/
  abi : Abi
  /-- The pointer width. -/
  width : Width
  /-- The optional members that the build has. -/
  has : Feature → Bool

namespace BuildConfig

/-- The set of the listed features. -/
def featureSet (features : List Feature) : Feature → Bool :=
  fun feature => features.contains feature

/-- A stock build of a runtime family for this machine. -/
def forAbi (abi : Abi) : BuildConfig :=
  { abi, width := .host, has := featureSet (Feature.defaults abi) }

/-- The build that is meant when nothing is said. -/
def default : BuildConfig := forAbi .callFrame

/-- The features of a build, in listing order. -/
def features (config : BuildConfig) : List Feature :=
  Feature.all.filter config.has

/-- The configuration in diagnostic dumps. -/
def dump (config : BuildConfig) : String :=
  "BuildConfig \x7b abi: " ++ config.abi.symbol ++ ", pointer_width: " ++ config.width.symbol
    ++ ", features: \x7b" ++ Text.joined ", " (config.features.map Feature.symbol) ++ "\x7d \x7d"

/-! ## Documents -/

/-- The configuration as a document. -/
def toDocument (config : BuildConfig) : String :=
  Text.unlines
    ["abi = \"" ++ config.abi.name ++ "\"",
      "pointer_width = " ++ toString config.width.bits,
      "features = ["
        ++ Text.joined ", " (config.features.map fun feature => "\"" ++ feature.name ++ "\"")
        ++ "]"]

/-- A choice is a text, or a table whose only key is the choice and whose value is empty. -/
def choice {α : Type} (unknown : String → DocumentFault) (ofName? : String → Option α) :
    Toml.Value → Except DocumentFault α
  | .string name => resolve name
  | .table _ [(name, body)] => do
      let chosen ← resolve name
      match body with
      | .table _ [] | .array [] | .tables [] => pure chosen
      | _ => throw .unsuitable
  | _ => throw .unsuitable
where
  /-- The value of a name. -/
  resolve (name : String) : Except DocumentFault α :=
    match ofName? name with
    | some value => pure value
    | none => throw (unknown name)

/-- The runtime family that a value names. -/
def abiOf (value : Toml.Value) : Except DocumentFault Abi :=
  choice .unknownAbi Abi.ofName? value

/-- The pointer width that a value gives. -/
def widthOf : Toml.Value → Except DocumentFault Width
  | .integer number =>
      if 0 ≤ number ∧ number < UInt32.size then
        match Width.ofBits? number.toNat with
        | some width => pure width
        | none => throw (.unsupportedWidth number.toNat)
      else throw .unsuitable
  | _ => throw .unsuitable

/-- The feature that a value names. -/
def featureOf (value : Toml.Value) : Except DocumentFault Feature :=
  choice .unknownFeature Feature.ofName? value

/-- The features that a value lists. -/
def featuresOf : Toml.Value → Except DocumentFault (List Feature)
  | .array items => items.mapM featureOf
  | .tables items => items.mapM fun entries => featureOf (.table .header entries)
  | _ => throw .unsuitable

/-- What a document says so far. -/
structure Draft where
  /-- The value of `abi`. -/
  abi : Option Abi := none
  /-- The value of `pointer_width`. -/
  width : Option Width := none
  /-- The value of `features`. -/
  features : Option (List Feature) := none

/-- Take one entry of a document into account. Other keys are ignored. -/
def Draft.add (draft : Draft) (entry : String × Toml.Value) : Except DocumentFault Draft :=
  if entry.1 = "abi" then do
    let abi ← abiOf entry.2
    pure { draft with abi := some abi }
  else if entry.1 = "pointer_width" then do
    let width ← widthOf entry.2
    pure { draft with width := some width }
  else if entry.1 = "features" then do
    let features ← featuresOf entry.2
    pure { draft with features := some features }
  else pure draft

/-- The configuration of a draft: the stock build of its family, with the width and the features
replaced where the document gives them. -/
def Draft.finish (draft : Draft) : Except DocumentFault BuildConfig :=
  match draft.abi with
  | none => throw .missingAbi
  | some abi =>
      let stock := forAbi abi
      pure
        { stock with
          width := draft.width.getD stock.width
          has := (draft.features.map featureSet).getD stock.has }

/-- The configuration that the entries of a document describe. They are checked in order, and a
missing family is only noticed at the end. -/
def ofEntries (entries : Toml.Entries) : Except DocumentFault BuildConfig := do
  let draft ← entries.foldlM Draft.add {}
  draft.finish

/-- Read a configuration document. -/
def ofDocument (text : String) : Except BridgeError BuildConfig :=
  match Toml.Document.read? text with
  | none => .error (.config (.document .malformed))
  | some entries => (ofEntries entries).mapError fun fault => .config (.document fault)

/-! ## Files -/

/-- What is found at a path. -/
inductive FileContent where
  | missing
  | directory
  /-- Something on the way is no directory. -/
  | blocked
  | denied
  /-- The path, or a step of it, has too many bytes. -/
  | tooLong
  | bytes (content : ByteArray)

/-- Read a configuration file, given what is found at its path. -/
def ofFile (path : String) : FileContent → Except BridgeError BuildConfig
  | .missing => .error (.config (.unreadable path "No such file or directory (os error 2)"))
  | .directory => .error (.config (.unreadable path "Is a directory (os error 21)"))
  | .blocked => .error (.config (.unreadable path "Not a directory (os error 20)"))
  | .denied => .error (.config (.unreadable path "Permission denied (os error 13)"))
  | .tooLong => .error (.config (.unreadable path "File name too long (os error 36)"))
  | .bytes content =>
      match String.fromUTF8? content with
      | some text => ofDocument text
      | none => .error (.config (.unreadable path "stream did not contain valid UTF-8"))

end BuildConfig

end HostBridge
