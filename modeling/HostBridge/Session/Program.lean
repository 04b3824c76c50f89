import HostBridge.Code.Function
import HostBridge.Config.Request

/-!
# Session programs

A program is a list of statements that push, execute and leave protected regions, call generated
functions and evaluate calls. Each statement that finishes is logged with its result.
-/

namespace HostBridge

namespace Session

/-- A word, or the accumulator plus a word. -/
inductive Operand where
  | word (bits : UInt64)
  | acc (bits : UInt64)
deriving DecidableEq, Repr

namespace Operand

/-- The value of an operand. -/
def eval (acc : UInt64) : Operand → UInt64
  | .word bits => bits
  | .acc bits => acc + bits

end Operand

/-- An argument of a generated function. -/
inductive Argument where
  | pointer (pointer : Pointer)
  | float (bits : UInt64)
deriving DecidableEq, Repr

/-- A statement. -/
inductive Stmt where
  /-- Run a body under a frame. -/
  | protect (tag : OwnerTag) (body : List Stmt)
  /-- Push a frame and hold its guard under a name. -/
  | push (name : String) (tag : OwnerTag)
  /-- Execute the region of a held guard. -/
  | exec (name : String) (body : List Stmt)
  /-- Pop the frame of a held guard. -/
  | pop (name : String)
  /-- Drop a held guard. -/
  | drop (name : String)
  /-- Look at the frame of a held guard. -/
  | frame (name : String)
  /-- Run a body above a frame that is not executing, and pop the frame on any way out. -/
  | scope (tag : OwnerTag) (body : List Stmt)
  /-- Look at the innermost frame. -/
  | top
  /-- Whether the helper's idea of the innermost frame is that of the thread. -/
  | topIsCurrent
  /-- Look at the stack. -/
  | state
  /-- Leave by an exit. -/
  | signal (kind : UInt32) (target : OwnerTag) (value : Operand)
  /-- Let an exit wait. -/
  | park (kind : UInt32) (target : OwnerTag) (value : Operand)
  /-- Resume what waits. -/
  | resume
  /-- Ask whether something waits. -/
  | pending
  /-- Ask where an exit would land. -/
  | resolve (kind : UInt32) (target : OwnerTag)
  /-- Run a body as a helper of generated code. -/
  | native (body : List Stmt)
  /-- Run a body as a protected region of generated code. -/
  | protectBody (tag : OwnerTag) (body : List Stmt) (silent : Bool)
  /-- Run a generated function as a protected region of generated code. -/
  | protectCode (tag : OwnerTag) (function : String) (data : Pointer) (silent : Bool)
  /-- Signal an exit as generated code does. -/
  | signalNative (kind : UInt32) (target : OwnerTag) (value : Operand)
  /-- Fail in a way that is foreign to control flow. -/
  | fail (message : String)
  /-- Run a body and stop whatever unwinds out of it. -/
  | attempt (body : List Stmt)
  /-- End the body with a value. -/
  | ret (value : Operand)
  /-- End the body if something waits. -/
  | check
  /-- Look at the accumulator. -/
  | note
  /-- Run a subprogram. -/
  | sub (index : Nat)
  /-- Evaluate a call through the bridge of the session. -/
  | invoke (invocation : Invocation)
  /-- Evaluate a call with a block as generated code does. -/
  | blockPass (bound : Bool) (receiver method args block : UInt64)
  /-- Call a generated function. -/
  | call (function : String) (args : List Argument)
  /-- Look at a buffer. -/
  | bytes (buffer : String)
  /-- Look at a member of the innermost frame. -/
  | frameMember (name : String)
  /-- Look at the current location. -/
  | location
  /-- Look at the current file. -/
  | locationFile
  /-- Look at the location that the embedding program holds. -/
  | hostLocation
  /-- Set the current location from the host. -/
  | setLocation (line : Int32) (file : String) (id : UInt64) (abi : String)
  /-- Build a bridge and make it the process-wide one. -/
  | install (bridge : BridgeRequest)
  /-- Look at the process-wide bridge. -/
  | installed

/-- Statements in order. -/
abbrev Body := List Stmt

namespace Stmt

/-- The name of a statement in the log. -/
def name : Stmt → String
  | .protect .. => "protect"
  | .push .. => "push"
  | .exec .. => "exec"
  | .pop _ => "pop"
  | .drop _ => "drop"
  | .frame _ => "frame"
  | .scope .. => "scope"
  | .top => "top"
  | .topIsCurrent => "top_is_current"
  | .state => "state"
  | .signal .. => "signal"
  | .park .. => "park"
  | .resume => "resume"
  | .pending => "pending"
  | .resolve .. => "resolve"
  | .native _ => "native"
  | .protectBody .. | .protectCode .. => "frame_protect"
  | .signalNative .. => "frame_signal"
  | .fail _ => "fail"
  | .attempt _ => "catch"
  | .ret _ => "ret"
  | .check => "check"
  | .note => "note"
  | .sub _ => "sub"
  | .invoke _ => "invoke"
  | .blockPass .. => "block_pass"
  | .call .. => "call"
  | .bytes _ => "bytes"
  | .frameMember _ => "frame_member"
  | .location => "location"
  | .locationFile => "location_file"
  | .hostLocation => "host_location"
  | .setLocation .. => "set_location"
  | .install _ => "install"
  | .installed => "global"

end Stmt

/-- How the evaluator of a session behaves. -/
structure EvaluatorSpec where
  /-- The values that can be spread as arguments. -/
  sequences : List UInt64 := []
  /-- The exception for type errors. -/
  typeError : UInt64 := 0
  /-- The bodies of the methods that it knows. -/
  methods : List (UInt64 × Body) := []

/-- Everything that a session is made of. -/
structure Setup where
  /-- The statements to run. -/
  program : Body
  /-- Subprograms by number. -/
  subs : List Body := []
  /-- The bridge of the session. -/
  bridge : BridgeRequest := {}
  /-- Buffers with their initial bytes. -/
  buffers : Dictionary (List UInt8) := []
  /-- The functions to compile. -/
  functions : List FunctionSpec := []
  /-- The evaluator. -/
  evaluator : EvaluatorSpec := {}
  /-- The process-wide bridge that is there from the start. -/
  installed : Option BridgeRequest := none

/-! ## Results -/

/-- Why a statement fails. -/
inductive Fault where
  /-- An operation of the bridge failed. -/
  | bridge (error : BridgeError)
  /-- There is no such build. -/
  | build (fault : BuildRequest.Fault)
  /-- No guard is held under the name. -/
  | noSuchFrame
  /-- No function has the name. -/
  | noSuchFunction
deriving DecidableEq, Repr

/-- How a body was left. -/
inductive Departure where
  /-- It returned a value. -/
  | value (bits : UInt64)
  /-- A foreign failure left it. -/
  | failure (message : String)
  /-- An exit left it. -/
  | exit
deriving DecidableEq, Repr

/-- The result of a statement. -/
inductive Result where
  | nothing
  | truth (truth : Bool)
  | number (number : Nat)
  | word (bits : UInt64)
  | text (text : String)
  | token (token : Token)
  | phase (phase : Phase)
  | outcome (outcome : Outcome)
  | frame (frame : Frame)
  | guard (frame : Frame)
  | stack (thread : Thread)
  | region (value : UInt64) (code : UInt32)
  | departure (departure : Departure)
  | value (value : HostValue)
  | bytes (bytes : List UInt8)
  | location (report : Location.Report)
  | abi (abi : Abi)
  | fault (fault : Fault)

/-- An entry of the log. -/
inductive Entry where
  /-- A statement finished; the depth of the stack and whether something waits are noted too. -/
  | finished (name : String) (result : Result) (depth : Nat) (pending : Bool)
  /-- The frame of a scope was popped. -/
  | scopeEnd (result : Except BridgeError Phase)
  /-- The evaluator was asked for a type error. -/
  | typeError (message : String)
  /-- The evaluator was asked to evaluate a call. -/
  | evaluate (tree : CallTree) (self : HostValue)
  /-- The logging routine was called. -/
  | routine (bits : UInt64)

end Session

end HostBridge
