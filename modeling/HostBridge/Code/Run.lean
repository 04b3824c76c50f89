import HostBridge.Code.Function

/-!
# Running generated functions

Generated code runs on a machine: memory, the current locations, the routines behind addresses and
the evaluator of the host. The helpers of the bridge act on the control state of the thread, and
none of them unwinds into the code that called it.
-/

namespace HostBridge

/-- What generated code runs on. -/
structure Machine (ε : Type) where
  /-- Memory as generated code sees it. -/
  memory : State ε → Memory
  /-- The state after the low bytes of a word have been stored at an address. -/
  store : UInt64 → Nat → UInt64 → State ε → State ε
  /-- Store one part of a location. -/
  locate : LocationOwner → Location.Part → ε → ε
  /-- Call an address that is no helper, for the words that it returns. -/
  routine : Address → List UInt64 → Act ε (List UInt64)
  /-- Call the code at an address with one pointer. -/
  enter : UInt64 → UInt64 → Act ε UInt64
  /-- The process-wide bridge. -/
  installed : ε → Option Bridge
  /-- The evaluator of the host. -/
  evaluator : Evaluator ε
  /-- The address of the innermost frame, zero if there is none. -/
  frameAddress : Thread → UInt64
  /-- The address of the bridge's own location. -/
  locationAddress : UInt64

namespace Machine

variable {ε : Type}

/-- Store to memory. -/
def storeWord (machine : Machine ε) (address : UInt64) (bytes : Nat) (bits : UInt64) :
    Act ε Unit :=
  Act.update (machine.store address bytes bits)

/-- Load from memory. -/
def loadWord (machine : Machine ε) (address : UInt64) (bytes : Nat) : Act ε UInt64 := do
  let state ← Act.get
  pure ((machine.memory state).load address bytes)

/-- Store the code of a region's outcome, unless its address is zero. A region that an unwind passed
through has no code, and what was stored before stays. -/
def storeCode (machine : Machine ε) (address : UInt64) (code : Option UInt32) : Act ε Unit :=
  match code with
  | some code => if address = 0 then pure () else machine.storeWord address 4 code.toUInt64
  | none => pure ()

/-- Evaluate a call with a block through the process-wide bridge. -/
def blockPass (machine : Machine ε) (invocation : Invocation) : Act ε UInt64 := do
  let world ← Act.world
  match machine.installed world with
  | none => Act.fatal .notInstalled
  | some bridge =>
      if bridge.hasEvaluator then
        machine.evaluator.invokeNative bridge.config.abi invocation
      else Act.fatal .noEvaluator

/-- The invocation that a helper for calls with a block stands for. -/
def invocationOf (bound : Bool) (receiver method args block : UInt64) : Invocation :=
  { receiver := if bound then .bound ⟨receiver⟩ else .implicit ⟨receiver⟩
    method
    args := ⟨args⟩
    block := some ⟨block⟩ }

/-- Call a helper. -/
def callHelper (machine : Machine ε) (helper : Helper) (args : List UInt64) : Act ε UInt64 :=
  let arg (index : Nat) : UInt64 := args.getD index 0
  match helper with
  | .frameProtect => do
      let (value, code) ← Act.frameProtect ⟨arg 0⟩ (machine.enter (arg 1) (arg 2))
      machine.storeCode (arg 3) code
      pure value
  | .frameSignal => do
      Act.frameSignal (arg 0).toUInt32 ⟨arg 1⟩ (arg 2)
      pure 0
  | .framePending => do
      let thread ← Act.thread
      pure (if thread.exitPending then 1 else 0)
  | .frameCurrent => do
      let thread ← Act.thread
      pure (machine.frameAddress thread)
  | .blockPassCall => machine.blockPass (invocationOf true (arg 0) (arg 1) (arg 2) (arg 3))
  | .blockPassFcall => machine.blockPass (invocationOf false (arg 0) (arg 1) (arg 2) (arg 3))
  | .currentLocation => pure machine.locationAddress

/-- Call an address, for the words that it returns. -/
def callAddress (machine : Machine ε) (target : Address) (args : List UInt64) :
    Act ε (List UInt64) :=
  match target with
  | .helper helper => do
      let word ← machine.callHelper helper args
      pure [word]
  | .raw _ | .routine _ => machine.routine target args

end Machine

/-- What an instruction comes to. -/
inductive Move where
  /-- It yields values, and the run goes on. -/
  | yielded (values : List UInt64)
  /-- The function returns values. -/
  | returned (values : List UInt64)
deriving DecidableEq, Repr

/-- Where a run of instructions stands. -/
inductive Progress where
  /-- At the end of the instructions, with the values of the registers. -/
  | finished (registers : List UInt64)
  /-- The function has returned values. -/
  | returned (values : List UInt64)
deriving DecidableEq, Repr

namespace Code

variable {ε : Type}

/-- The value of a register. -/
def valueOf (registers : List UInt64) (register : Register) : UInt64 :=
  registers.getD register 0

/-- Words cut to types, one word for each type. A word that is missing is zero. -/
def fitted (types : List IrType) (words : List UInt64) : List UInt64 :=
  types.zipWith (fun type bits => type.cut bits) (words ++ List.replicate types.length 0)

/-- Run an instruction. -/
def step (machine : Machine ε) (registers : List UInt64) : Instr → Act ε Move
  | .const type bits => pure (.yielded [type.cut bits])
  | .load type base offset => do
      let bits ← machine.loadWord (displaced (valueOf registers base) offset) type.bytes
      pure (.yielded [bits])
  | .store type value base offset => do
      machine.storeWord (displaced (valueOf registers base) offset) type.bytes
        (valueOf registers value)
      pure (.yielded [])
  | .unary operation type operand =>
      pure (.yielded [operation.eval type (valueOf registers operand)])
  | .call target signature args => do
      let words ← machine.callAddress target (args.map (valueOf registers))
      pure (.yielded (fitted signature.returns words))
  | .leaveIf value block =>
      pure (if valueOf registers value = 0 then .yielded [] else .returned block.values)
  | .locate owner part => do
      Act.onWorld (machine.locate owner part)
      pure (.yielded [])

/-- Run instructions from the given registers on. -/
def runFrom (machine : Machine ε) : List Instr → List UInt64 → Act ε Progress
  | [], registers => pure (.finished registers)
  | instr :: instrs, registers => do
      match ← step machine registers instr with
      | .yielded values => runFrom machine instrs (registers ++ values)
      | .returned values => pure (.returned values)

/-- Call a function. -/
def call (machine : Machine ε) (code : Code) (args : List UInt64) : Act ε (List UInt64) := do
  match ← runFrom machine code.instrs (fitted code.signature.params args) with
  | .finished registers => pure (code.results.map (valueOf registers))
  | .returned values => pure values

end Code

end HostBridge
