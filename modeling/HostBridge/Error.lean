import HostBridge.Abi
import HostBridge.Exit
import HostBridge.NativeType

/-!
# Errors

Every way in which an operation of the bridge can fail, and the one place that words them.
-/

namespace HostBridge

/-- What is wrong with a configuration document. -/
inductive DocumentFault where
  /-- The text is no document at all, or defines a key twice. -/
  | malformed
  /-- A key has a value of the wrong kind. -/
  | unsuitable
  /-- The `abi` key names no runtime family. -/
  | unknownAbi (name : String)
  /-- The `features` key lists an unknown feature. -/
  | unknownFeature (name : String)
  /-- The `pointer_width` key asks for a width that no build has. -/
  | unsupportedWidth (bits : Nat)
  /-- The `abi` key is missing. -/
  | missingAbi
deriving DecidableEq, Repr

namespace DocumentFault

/-- A name between grave accents. -/
def quoted (name : String) : String := "`" ++ name ++ "`"

/-- What is said of a feature that does not exist. -/
def unknownFeatureMessage (name : String) : String :=
  "unknown variant " ++ quoted name ++ ", expected one of "
    ++ Text.joined ", " (Feature.all.map fun feature => quoted feature.name)

/-- The wording of a fault. -/
def message : DocumentFault → String
  | .malformed => "malformed document"
  | .unsuitable => "unsuitable value"
  | .unknownAbi name =>
      "unknown variant " ++ quoted name ++ ", expected "
        ++ Text.joined " or " (Abi.all.map fun abi => quoted abi.name)
  | .unknownFeature name => unknownFeatureMessage name
  | .unsupportedWidth bits => Width.unsupportedMessage bits
  | .missingAbi => "missing field " ++ quoted "abi"

end DocumentFault

/-- Why a build configuration cannot be used. -/
inductive ConfigFault where
  /-- The file could not be read. -/
  | unreadable (path reason : String)
  /-- The document does not describe a configuration. -/
  | document (fault : DocumentFault)
  /-- Records are laid out for other pointers than those of the code's target. -/
  | foreignPointers (width : Width) (target : IrType)
deriving DecidableEq, Repr

namespace ConfigFault

/-- The wording of a fault. -/
def message : ConfigFault → String
  | .unreadable path reason => path ++ ": " ++ reason
  | .document fault => fault.message
  | .foreignPointers width target =>
      "layouts are for " ++ toString width.bits ++ "-bit pointers but the target uses "
        ++ target.name

end ConfigFault

/-- Why a function could not be generated. -/
inductive CodeFault where
  /-- A call without signature to a service that has none. -/
  | noSignature (name : String)
  /-- The call of a helper whose signature has no result, where one is needed. -/
  | noResult (name : String)
  /-- The name is already defined. -/
  | duplicate (name : String)
  /-- The address of something that does not exist yet. -/
  | unlinked
  /-- The emitted instructions are not well typed. -/
  | rejected
deriving DecidableEq, Repr

namespace CodeFault

/-- The wording of a fault. -/
def message : CodeFault → String
  | .noSignature name => "no signature known for " ++ name
  | .noResult name => name ++ " returned no value"
  | .duplicate name => "Duplicate definition of identifier: " ++ name
  | .unlinked => "address unknown"
  | .rejected => "function rejected"

end CodeFault

/-- A failed operation of the bridge. -/
inductive BridgeError where
  /-- No record has this name. -/
  | unknownRecord (record : String)
  /-- The record has no member of this name. -/
  | unknownMember (record member : String)
  /-- No address is bound to this name. -/
  | unknownFunction (name : String)
  /-- A value of the wrong kind was supplied. -/
  | wrongType (subject expected found : String)
  /-- No enclosing frame accepts an exit. -/
  | unmatchedExit (kind : ExitKind) (target : OwnerTag)
  /-- A frame was popped while another one was innermost; zero stands for an empty stack. -/
  | frameOrder (popped top : Nat)
  /-- A number that is no exit code. -/
  | invalidExitCode (number : UInt32)
  /-- The build configuration cannot be used. -/
  | config (fault : ConfigFault)
  /-- The code generator refused a request. -/
  | generation (fault : CodeFault)
  /-- A process-wide bridge exists already. -/
  | alreadyInstalled
  /-- No process-wide bridge exists. -/
  | notInstalled
  /-- The bridge has no evaluator. -/
  | noEvaluator
deriving DecidableEq, Repr

namespace BridgeError

/-- The wording of an error. -/
def message : BridgeError → String
  | .unknownRecord record => "Invalid struct name " ++ record
  | .unknownMember record member => "Invalid member name " ++ member ++ " for struct " ++ record
  | .unknownFunction name => "No such function pointer defined: " ++ name
  | .wrongType subject expected found =>
      "Wrong type for " ++ subject ++ "; expected " ++ expected ++ " but got " ++ found
  | .unmatchedExit kind target =>
      "No enclosing frame accepts " ++ kind.symbol ++ " exit targeting " ++ target.display
  | .frameOrder popped top =>
      "Frame #" ++ toString popped ++ " popped out of order (top of stack is #"
        ++ toString top ++ ")"
  | .invalidExitCode number => "Invalid exit code " ++ Text.hex number.toNat
  | .config fault => "Invalid configuration: " ++ fault.message
  | .generation fault => "Code generation failed: " ++ fault.message
  | .alreadyInstalled => "Bridge is already installed"
  | .notInstalled => "Bridge is not installed"
  | .noEvaluator => "No host evaluator installed"

end BridgeError

end HostBridge
