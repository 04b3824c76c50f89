import HostBridge.Control.Frame
import HostBridge.Error

/-!
# Threads

A thread knows its innermost frame, from which links lead to all others of its stack; the serial of
its next frame; and at most one unwind that waits to be resumed. The operations here are the single
steps; regions are built from them.
-/

namespace HostBridge

/-- What an unwind carries. -/
inductive Payload where
  /-- An exit on its way to a frame with this serial. -/
  | exit (serial : Nat) (kind : ExitKind)
  /-- A failure from outside, which no frame stops. -/
  | foreign (message : String)
deriving DecidableEq, Repr

/-- The control state of a thread. -/
structure Thread where
  /-- The innermost frame. -/
  current : Link := .none
  /-- The frames that exist, newest first. -/
  frames : List Frame := []
  /-- The serial of the next frame. It has 64 bits, which hold it until `2 ^ 64 - 1` frames were
  pushed. -/
  nextSerial : Nat := 1
  /-- The unwind that waits to be resumed. -/
  pending : Option Payload := none
deriving DecidableEq, Repr

namespace Thread

/-- A thread that has done nothing yet. -/
def fresh : Thread := {}

/-- The frame with a number. -/
def frame? (id : FrameId) (thread : Thread) : Option Frame :=
  thread.frames.find? (·.id == id)

/-- The frame that a link leads to. -/
def follow? (link : Link) (thread : Thread) : Option Frame :=
  match link with
  | .frame id => thread.frame? id
  | .none | .wild _ => none

/-- The frames that links lead to from one link on, at most `count` of them. -/
def chainFrom (thread : Thread) : Nat → Link → List Frame
  | 0, _ => []
  | count + 1, link =>
      match thread.follow? link with
      | some frame => frame :: thread.chainFrom count frame.prev
      | none => []

/-- The stack, innermost frame first. -/
def chain (thread : Thread) : List Frame :=
  thread.chainFrom thread.frames.length thread.current

/-- The innermost frame. -/
def top? (thread : Thread) : Option Frame := thread.follow? thread.current

/-- The depth of the innermost frame, zero if there is none. -/
def depth (thread : Thread) : Nat :=
  (thread.top?.map (·.token.depth)).getD 0

/-- The tags of the stack, innermost first. -/
def tags (thread : Thread) : List OwnerTag := thread.chain.map (·.tag)

/-- Whether an unwind waits to be resumed. -/
def exitPending (thread : Thread) : Bool := thread.pending.isSome

/-- The token that the next frame gets. The depth is a word of 32 bits and wraps around. -/
def nextToken (thread : Thread) : Token :=
  { serial := thread.nextSerial, depth := (thread.depth + 1) % UInt32.size }

/-- Push a frame. -/
def push (tag : OwnerTag) (thread : Thread) : Thread :=
  { thread with
    current := .frame thread.nextSerial
    frames :=
      { id := thread.nextSerial, token := thread.nextToken, tag, prev := thread.current } ::
        thread.frames
    nextSerial := thread.nextSerial + 1 }

/-- The serial of the frame with a number. -/
def serialOf (id : FrameId) (thread : Thread) : Nat :=
  ((thread.frame? id).map (·.token.serial)).getD 0

/-- Change every frame. -/
def mapFrames (change : Frame → Frame) (thread : Thread) : Thread :=
  { thread with frames := thread.frames.map change }

/-- Change the frame with a number. -/
def modify (id : FrameId) (change : Frame → Frame) (thread : Thread) : Thread :=
  thread.mapFrames fun frame => if frame.id = id then change frame else frame

/-- Pop the frame with a number: the frame below is the innermost one then. A frame that is not the
innermost one stays where it is. -/
def pop (id : FrameId) (unwinding : Bool) (thread : Thread) : Except BridgeError Phase × Thread :=
  match thread.top? with
  | none => (.error (.frameOrder (thread.serialOf id) 0), thread)
  | some frame =>
      if frame.id = id then
        (.ok (frame.finalPhase unwinding),
          { thread with
            current := frame.prev
            frames := thread.frames.filter (·.id != id) })
      else (.error (.frameOrder (thread.serialOf id) frame.token.serial), thread)

/-- The innermost frame that accepts an exit. -/
def target? (kind : ExitKind) (target : OwnerTag) (thread : Thread) : Option Frame :=
  thread.chain.find? (·.accepts kind target)

/-- The frame that an exit would land on. -/
def resolve (kind : ExitKind) (target : OwnerTag) (thread : Thread) :
    Except BridgeError Token :=
  match thread.target? kind target with
  | some frame => .ok frame.token
  | none => .error (.unmatchedExit kind target)

/-- Aim an exit: its value and code go to the frame that it will land on. -/
def aim (kind : ExitKind) (target : OwnerTag) (value : UInt64) (thread : Thread) :
    Except BridgeError (Payload × Thread) :=
  match thread.target? kind target with
  | some frame =>
      .ok (.exit frame.token.serial kind, thread.modify frame.id (·.aim kind value))
  | none => .error (.unmatchedExit kind target)

/-- Let an unwind wait, in place of the one that waited before. -/
def park (payload : Payload) (thread : Thread) : Thread :=
  { thread with pending := some payload }

/-- Nothing waits any more. -/
def clear (thread : Thread) : Thread := { thread with pending := none }

end Thread

end HostBridge
