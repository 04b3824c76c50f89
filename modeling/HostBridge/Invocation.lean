import HostBridge.Abi
import HostBridge.Control.Region

/-!
# Calls with a block

A block belongs to a call site and is no argument, so that a call with a block cannot be a plain
native call. It is written as a small call tree and handed to the evaluator of the host.
-/

namespace HostBridge

/-- A call as the evaluator of the host understands it. -/
inductive CallTree where
  /-- A value. -/
  | lit (value : HostValue)
  /-- The elements of a sequence as arguments. -/
  | splat (sequence : CallTree)
  /-- A call of a method on a receiver. -/
  | call (receiver : CallTree) (method : UInt64) (args : CallTree)
  /-- A call of a method on the implicit receiver. -/
  | fcall (method : UInt64) (args : CallTree)
  /-- A call with a block attached. -/
  | blockPass (call block : CallTree)
  /-- Arguments that carry a block. -/
  | blockArg (args block : CallTree)
deriving DecidableEq, Repr

namespace CallTree

/-- The method that a tree calls. -/
def method? : CallTree → Option UInt64
  | .call _ method _ => some method
  | .fcall method _ => some method
  | .blockPass inner _ => inner.method?
  | _ => none

/-- A tree in diagnostic dumps. -/
def dump : CallTree → String
  | .lit value => "Lit(HostValue(" ++ toString value.bits.toNat ++ "))"
  | .splat sequence => "Splat(" ++ sequence.dump ++ ")"
  | .call receiver method args =>
      "Call \x7b recv: " ++ receiver.dump ++ ", method: HostId(" ++ toString method.toNat
        ++ "), args: " ++ args.dump ++ " \x7d"
  | .fcall method args =>
      "FCall \x7b method: HostId(" ++ toString method.toNat ++ "), args: " ++ args.dump ++ " \x7d"
  | .blockPass inner block =>
      "BlockPass \x7b call: " ++ inner.dump ++ ", block: " ++ block.dump ++ " \x7d"
  | .blockArg args block =>
      "BlockArg \x7b args: " ++ args.dump ++ ", block: " ++ block.dump ++ " \x7d"

end CallTree

/-- Who receives a call. -/
inductive Receiver where
  /-- A value. -/
  | bound (value : HostValue)
  /-- The `self` of the current scope. -/
  | implicit (self : HostValue)
deriving DecidableEq, Repr

/-- A request to call a method, with or without a block. -/
structure Invocation where
  /-- The receiver. -/
  receiver : Receiver
  /-- The interned name of the method. -/
  method : UInt64
  /-- The arguments, as one sequence. -/
  args : HostValue
  /-- The block. -/
  block : Option HostValue
deriving DecidableEq, Repr

namespace Invocation

/-- The `self` that the call is evaluated under. -/
def self (invocation : Invocation) : HostValue :=
  match invocation.receiver with
  | .bound value => value
  | .implicit self => self

/-- Attach a block to a call. -/
def attach (block : Option HostValue) (call : CallTree) : CallTree :=
  match block with
  | some value => .blockPass call (.lit value)
  | none => call

/-- The tree of a call. The bytecode machine takes the block of a call without receiver from its
arguments; everywhere else it is attached to the call. -/
def toCallTree (abi : Abi) (invocation : Invocation) : CallTree :=
  let args := CallTree.splat (.lit invocation.args)
  match invocation.receiver, abi, invocation.block with
  | .bound value, _, block => attach block (.call (.lit value) invocation.method args)
  | .implicit _, .frameScope, block => attach block (.fcall invocation.method args)
  | .implicit _, .callFrame, some block =>
      .fcall invocation.method (.blockArg args (.lit block))
  | .implicit _, .callFrame, none => .fcall invocation.method args

end Invocation

/-- The expression evaluator of a host, in a world. -/
structure Evaluator (ε : Type) where
  /-- Whether a value can be spread as arguments. -/
  isSequence : HostValue → Act ε Bool
  /-- A short description of a value. -/
  describe : HostValue → Act ε String
  /-- The exception to raise for a type error. -/
  typeError : String → Act ε HostValue
  /-- Evaluate a call under a `self`. -/
  evaluate : CallTree → HostValue → Act ε HostValue

namespace Evaluator

variable {ε : Type}

/-- Evaluate a call, whose arguments have to be a sequence. -/
def invoke (evaluator : Evaluator ε) (abi : Abi) (invocation : Invocation) :
    Act ε (Except BridgeError HostValue) := do
  if ← evaluator.isSequence invocation.args then
    let value ← evaluator.evaluate (invocation.toCallTree abi) invocation.self
    pure (.ok value)
  else
    let found ← evaluator.describe invocation.args
    pure (.error (.wrongType "args" "sequence" found))

/-- Evaluate a call for generated code: a type error is raised as an exception of the host, and
whatever unwinds is parked. -/
def invokeNative (evaluator : Evaluator ε) (abi : Abi) (invocation : Invocation) :
    Act ε UInt64 :=
  Act.runNative do
    match ← evaluator.invoke abi invocation with
    | .ok value => pure value.bits
    | .error error => do
        let exception ← evaluator.typeError error.message
        Act.signalExit .raise .any exception.bits

end Evaluator

end HostBridge
