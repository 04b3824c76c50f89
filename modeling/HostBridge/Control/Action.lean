import HostBridge.Control.Thread

/-!
# Actions

An action changes the control state of a thread and the world around it. It returns a value, is
left by an unwind, or aborts the process; each way of ending keeps the state that was reached.
-/

namespace HostBridge

/-- Why a process is aborted. -/
inductive Abort where
  /-- An error that control flow cannot recover from. -/
  | fatal (error : BridgeError)
  /-- A call to an address where no code is known. -/
  | wildCall (address : UInt64)
  /-- Nested calls went deeper than the run allows. -/
  | exhausted
deriving DecidableEq, Repr

/-- How an action ends. -/
inductive Ending (α : Type) where
  | returned (value : α)
  | unwinding (payload : Payload)
  | aborted (cause : Abort)
deriving DecidableEq, Repr

/-- The control state of a thread, and everything else. -/
structure State (ε : Type) where
  /-- Frames and pending unwind. -/
  thread : Thread
  /-- The world around the thread. -/
  world : ε

/-- A step of a thread in a world. -/
def Act (ε α : Type) := State ε → Ending α × State ε

namespace Act

variable {ε α β : Type}

/-- Run an action. -/
def run (action : Act ε α) (state : State ε) : Ending α × State ε := action state

/-- Return a value. -/
protected def pure (value : α) : Act ε α := fun state => (.returned value, state)

/-- Go on with the value of an action, unless it unwinds or aborts. -/
protected def bind (action : Act ε α) (next : α → Act ε β) : Act ε β := fun state =>
  match action state with
  | (.returned value, state) => next value state
  | (.unwinding payload, state) => (.unwinding payload, state)
  | (.aborted cause, state) => (.aborted cause, state)

instance : Monad (Act ε) where
  pure := Act.pure
  bind := Act.bind

/-- Unwind. -/
def unwind (payload : Payload) : Act ε α := fun state => (.unwinding payload, state)

/-- Abort the process. -/
def abort (cause : Abort) : Act ε α := fun state => (.aborted cause, state)

/-- Abort the process with an error. -/
def fatal (error : BridgeError) : Act ε α := abort (.fatal error)

/-- Look at the state. -/
def get : Act ε (State ε) := fun state => (.returned state, state)

/-- Change the state. -/
def update (change : State ε → State ε) : Act ε Unit := fun state => (.returned (), change state)

/-- The control state. -/
def thread : Act ε Thread := fun state => (.returned state.thread, state)

/-- The world. -/
def world : Act ε ε := fun state => (.returned state.world, state)

/-- Change the control state. -/
def onThread (change : Thread → Thread) : Act ε Unit :=
  update fun state => { state with thread := change state.thread }

/-- Change the world. -/
def onWorld (change : ε → ε) : Act ε Unit :=
  update fun state => { state with world := change state.world }

/-- Run an action to its return or unwind, and return which of the two it was. -/
def catching (action : Act ε α) : Act ε (Except Payload α) := fun state =>
  match action state with
  | (.returned value, state) => (.returned (.ok value), state)
  | (.unwinding payload, state) => (.returned (.error payload), state)
  | (.aborted cause, state) => (.aborted cause, state)

end Act

end HostBridge
