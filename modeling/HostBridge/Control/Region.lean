import HostBridge.Control.Action

/-!
# Protected regions

A region runs a body under a frame. An exit picks the innermost frame that is being executed and
accepts it, leaves its value there, and unwinds to that frame. Where nothing may unwind, the exit
is parked and resumed by the next frame whose body returns.
-/

namespace HostBridge

namespace Act

variable {ε α : Type}

/-- Push a frame and return its number. -/
def pushFrame (tag : OwnerTag) : Act ε FrameId := do
  let thread ← thread
  onThread (·.push tag)
  pure thread.nextSerial

/-- Pop a frame. -/
def popFrame (id : FrameId) (unwinding : Bool) : Act ε (Except BridgeError Phase) := do
  let thread ← thread
  let (result, thread) := thread.pop id unwinding
  onThread fun _ => thread
  pure result

/-- Drop a frame: pop it if it is the innermost one, and otherwise leave it where it is. -/
def dropFrame (id : FrameId) (unwinding : Bool) : Act ε Unit := do
  let _ ← popFrame id unwinding
  pure ()

/-- Resume the unwind that waits, if there is one. -/
def resumePending : Act ε Unit := do
  let thread ← thread
  match thread.pending with
  | some payload => do
      onThread (·.clear)
      unwind payload
  | none => pure ()

/-- Aim an exit at the frame that accepts it; an exit that no frame accepts is fatal. -/
def aimExit (kind : ExitKind) (target : OwnerTag) (value : UInt64) : Act ε Payload := do
  let thread ← thread
  match thread.aim kind target value with
  | .ok (payload, thread) => do
      onThread fun _ => thread
      pure payload
  | .error error => fatal error

/-- Leave for the innermost frame that accepts the exit. -/
def signalExit (kind : ExitKind) (target : OwnerTag) (value : UInt64) : Act ε α := do
  let payload ← aimExit kind target value
  unwind payload

/-- Let the exit wait instead of unwinding. -/
def parkExit (kind : ExitKind) (target : OwnerTag) (value : UInt64) : Act ε Unit := do
  let payload ← aimExit kind target value
  onThread (·.park payload)

/-- Run something that generated code calls: an unwind out of it is parked, and zero returned. -/
def runNative (body : Act ε UInt64) : Act ε UInt64 := do
  match ← catching body with
  | .ok value => pure value
  | .error payload => do
      onThread (·.park payload)
      pure 0

/-- The result slot of a frame. -/
def resultOf (id : FrameId) : Act ε UInt64 := do
  let thread ← thread
  pure ((thread.frame? id).map (·.result) |>.getD HostValue.nil.bits)

/-- Execute the region of a frame. This is where an exit aimed at the frame arrives, matched by the
serial that the frame has at the start; other exits and foreign failures go on. An exit that the
body left pending is resumed when the body returns. -/
def exec (id : FrameId) (body : Act ε UInt64) : Act ε Outcome := do
  let before ← thread
  let serial := before.serialOf id
  onThread (·.modify id Frame.arm)
  let ended ← catching do
    let value ← body
    resumePending
    pure value
  onThread (·.modify id Frame.disarm)
  match ended with
  | .ok value => do
      onThread (·.modify id (Frame.complete value))
      pure (.completed value)
  | .error payload => do
      onThread (·.modify id Frame.abandon)
      match payload with
      | .exit target kind =>
          if target = serial then do
            let value ← resultOf id
            pure (.unwound kind value)
          else unwind payload
      | .foreign _ => unwind payload

/-- Run an action while the frame of a guard is held: should the action unwind, the frame is
dropped on the way. -/
def guarding (id : FrameId) (action : Act ε α) : Act ε α := do
  match ← catching action with
  | .ok value => pure value
  | .error payload => do
      dropFrame id true
      unwind payload

/-- Push a frame, execute the body under it, and pop it. A frame that the body left above it keeps
it on the stack. -/
def protect (tag : OwnerTag) (body : Act ε UInt64) : Act ε Outcome := do
  let id ← pushFrame tag
  let outcome ← guarding id (exec id body)
  dropFrame id false
  pure outcome

/-! ## Entries for generated code -/

/-- Run a protected region for generated code: the value of its outcome and the outcome's code. An
unwind that passes through the region is parked; it leaves zero and no code. -/
def frameProtect (tag : OwnerTag) (body : Act ε UInt64) : Act ε (UInt64 × Option UInt32) := do
  match ← catching (protect tag body) with
  | .ok outcome => pure (outcome.value, some outcome.code)
  | .error payload => do
      onThread (·.park payload)
      pure (0, none)

/-- Signal an exit from generated code, which leaves it pending. -/
def frameSignal (code : UInt32) (target : OwnerTag) (value : UInt64) : Act ε Unit :=
  match ExitKind.ofCode? code with
  | some kind => parkExit kind target value
  | none => fatal (.invalidExitCode code)

end Act

end HostBridge
