import HostBridge.Exit
import HostBridge.Value

/-!
# Frames

A protected region is represented by a frame on the stack of its thread, which links to the frame
below it. Generated code shares the frame, so its fields are plain words.
-/

namespace HostBridge

/-- The lifecycle of a frame. -/
inductive Phase where
  /-- Pushed, and its region not ended. -/
  | active
  /-- Its region ended normally. -/
  | completed
  /-- Its region was left by an unwind. -/
  | unwound
deriving DecidableEq, Repr

namespace Phase

/-- The phase as the word that a frame holds. -/
def code : Phase → UInt32
  | .active => 0
  | .completed => 1
  | .unwound => 2

/-- The phase of a word; unknown words count as active. -/
def ofCode (code : UInt32) : Phase :=
  if code = 1 then .completed else if code = 2 then .unwound else .active

/-- The phase as a symbol in listings. -/
def symbol : Phase → String
  | .active => "Active"
  | .completed => "Completed"
  | .unwound => "Unwound"

end Phase

/-- The number of a frame on its thread, counted from one. It tells where the frame is. -/
abbrev FrameId := Nat

/-- A link to a frame. -/
inductive Link where
  /-- There is no frame. -/
  | none
  /-- The frame with a number. -/
  | frame (id : FrameId)
  /-- A word that generated code has left in the place of a link, and that leads to no frame. -/
  | wild (bits : UInt64)
deriving DecidableEq, Repr

/-- What a frame is known by to others: words that start as its number and its depth. -/
structure Token where
  /-- The word that an exit is matched by. It has 64 bits, which hold the numbers of all frames but
  those that a thread pushes after the first `2 ^ 64 - 1` of them. -/
  serial : Nat
  /-- The depth of the frame, one for the outermost. -/
  depth : Nat
deriving DecidableEq, Repr

/-- One protected region on a thread's stack. -/
structure Frame where
  /-- The number of the frame. -/
  id : FrameId
  /-- What the frame is known by. -/
  token : Token
  /-- The tag of the region. -/
  tag : OwnerTag
  /-- The result slot: the value of the region, or of the exit aimed at it. -/
  result : UInt64 := HostValue.nil.bits
  /-- The frame below, which was the innermost one when this one was pushed. -/
  prev : Link := .none
  /-- The phase as a word. -/
  phaseCode : UInt32 := Phase.active.code
  /-- The code of the last exit aimed at the frame, zero if there was none. -/
  exitCode : UInt32 := 0
  /-- Not zero while the region is being executed. -/
  armedWord : UInt32 := 0
deriving DecidableEq, Repr

namespace Frame

/-- The phase of a frame. -/
def phase (frame : Frame) : Phase := .ofCode frame.phaseCode

/-- Whether the region of the frame is being executed, so that an exit can land on it. -/
def armed (frame : Frame) : Bool := frame.armedWord != 0

/-- Whether an exit can land on the frame. -/
def accepts (kind : ExitKind) (target : OwnerTag) (frame : Frame) : Bool :=
  frame.armed && (kind.ignoresTarget || target == .any || frame.tag == target)

/-- Start executing the region. -/
def arm (frame : Frame) : Frame := { frame with armedWord := 1 }

/-- Stop executing the region. -/
def disarm (frame : Frame) : Frame := { frame with armedWord := 0 }

/-- The region ended normally with a value. -/
def complete (value : UInt64) (frame : Frame) : Frame :=
  { frame with result := value, phaseCode := Phase.completed.code }

/-- The region was left by an unwind. -/
def abandon (frame : Frame) : Frame := { frame with phaseCode := Phase.unwound.code }

/-- An exit of this kind, with this value, is aimed at the frame. -/
def aim (kind : ExitKind) (value : UInt64) (frame : Frame) : Frame :=
  { frame with result := value, exitCode := kind.code }

/-- The phase that popping a frame reports: an active one ended normally, unless the pop is part of
an unwind. -/
def finalPhase (unwinding : Bool) (frame : Frame) : Phase :=
  match frame.phase with
  | .active => if unwinding then .unwound else .completed
  | done => done

/-- A frame in diagnostic dumps. -/
def dump (frame : Frame) : String :=
  "ActiveFrame \x7b token: ResumptionToken \x7b serial: " ++ toString frame.token.serial
    ++ ", depth: " ++ toString frame.token.depth ++ " \x7d, tag: OwnerTag("
    ++ toString frame.tag.bits.toNat ++ "), state: " ++ frame.phase.symbol ++ " \x7d"

end Frame

/-- How the execution of a region ended for the one who started it. -/
inductive Outcome where
  /-- The region returned a value. -/
  | completed (value : UInt64)
  /-- An exit landed on the region's frame. -/
  | unwound (kind : ExitKind) (value : UInt64)
deriving DecidableEq, Repr

namespace Outcome

/-- The phase that the frame is left in. -/
def phase : Outcome → Phase
  | .completed _ => .completed
  | .unwound _ _ => .unwound

/-- The value returned, or carried by the exit. -/
def value : Outcome → UInt64
  | .completed value => value
  | .unwound _ value => value

/-- Zero for a normal end, otherwise the code of the exit. -/
def code : Outcome → UInt32
  | .completed _ => 0
  | .unwound kind _ => kind.code

/-- An outcome in diagnostic dumps. -/
def dump : Outcome → String
  | .completed value => "Completed(" ++ toString value.toNat ++ ")"
  | .unwound kind value =>
      "Unwound \x7b kind: " ++ kind.symbol ++ ", value: " ++ toString value.toNat ++ " \x7d"

end Outcome

end HostBridge
