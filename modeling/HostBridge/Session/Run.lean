import HostBridge.Session.World

/-!
# Running a session

Statements are run one after the other. Bodies, subprograms, methods of the evaluator and code
that is entered by its address are run one level deeper; the number of levels is bounded.
-/

namespace HostBridge

namespace Session

/-- An action of a session. -/
abbrev Do (α : Type) := Act World α

/-- How a session is looked at while it runs. The world of the session is a part of a larger one. -/
structure Observer (ε : Type) where
  /-- The world of the session. -/
  world : ε → World
  /-- The larger world with another world of the session in it. -/
  put : World → ε → ε
  /-- A look at the state, before and after every statement. -/
  look : Act ε Unit
  /-- The host has set the location to a node, for a runtime family. -/
  placed : Abi → PlacedNode → Act ε Unit
  /-- Call a generated function on a machine. -/
  call : Machine ε → Code → List UInt64 → Act ε (List UInt64)

namespace Observer

variable {ε α : Type}

/-- The state of the session. -/
def state (observer : Observer ε) (outer : State ε) : State World :=
  { thread := outer.thread, world := observer.world outer.world }

/-- The larger state with another state of the session in it. -/
def putState (observer : Observer ε) (inner : State World) (outer : State ε) : State ε :=
  { thread := inner.thread, world := observer.put inner.world outer.world }

/-- An action of the session in the larger world. -/
def lift (observer : Observer ε) (action : Do α) : Act ε α := fun outer =>
  let result := action (observer.state outer)
  (result.1, observer.putState result.2 outer)

/-- Nobody looks. -/
def plain : Observer World where
  world world := world
  put world _ := world
  look := pure ()
  placed _ _ := pure ()
  call machine code args := code.call machine args

end Observer

/-- What a statement is run in. -/
structure Context (ε : Type) where
  /-- The parts of the session. -/
  setup : Setup
  /-- The bridge of the session. -/
  bridge : Bridge
  /-- The compiled functions; their numbers give their addresses. -/
  codes : List Code
  /-- How the session is looked at. -/
  observer : Observer ε
  /-- Run a body one level deeper. -/
  run : Body → Act ε UInt64
  /-- Call the code at an address with a pointer, one level deeper. -/
  enter : UInt64 → UInt64 → Act ε UInt64

/-- The function of a name, with its number; the last one of the name counts. -/
def codeNamed? (codes : List Code) (name : String) : Option (Nat × Code) :=
  (codes.zipIdx.reverse.find? fun entry => entry.1.name == name).map fun entry =>
    (entry.2, entry.1)

/-- The address of a buffer. -/
def bufferAddress? (buffers : Dictionary (List UInt8)) (name : String) : Option UInt64 :=
  ((buffers.map (·.1)).idxOf? name).map Space.bufferBase

/-- The address that a pointer stands for; `none` if there is no such thing. -/
def pointerAddress? (buffers : Dictionary (List UInt8)) (codes : List Code) :
    Pointer → Option UInt64
  | .word bits => some bits
  | .buffer name offset => (bufferAddress? buffers name).map (· + offset)
  | .code name => (codeNamed? codes name).map fun entry => Space.codeAddress entry.1
  | .routine which => some (Space.routineAddress which)

namespace Context

variable {ε α : Type}

/-- An action of the session by itself, which runs no body and no code. -/
def lift (context : Context ε) (action : Do α) : Act ε α := context.observer.lift action

/-- The address that a pointer stands for; `none` if there is no such thing. -/
def resolve? (context : Context ε) (pointer : Pointer) : Option UInt64 :=
  pointerAddress? context.setup.buffers context.codes pointer

/-- Add an entry to the log. -/
def record (entry : Entry) : Do Unit := Act.onWorld (·.record entry)

/-- The statements of a subprogram; there is nothing in one that does not exist. -/
def subprogram (context : Context ε) (index : Nat) : Body := context.setup.subs.getD index []

/-- Call an address that is no helper. -/
def routine (context : Context ε) (target : Address) (args : List UInt64) : Act ε UInt64 :=
  let arg (index : Nat) : UInt64 := args.getD index 0
  match target with
  | .routine .add => pure (arg 0 + arg 1)
  | .routine .concat => pure (arg 0 * 10 + arg 1)
  | .routine .weigh => pure (arg 0 + 2 * arg 1 + 3 * arg 2 + 4 * arg 3)
  | .routine .inc32 => pure ((arg 0).toUInt32 + 1).toUInt64
  | .routine .log => do
      context.lift (record (.routine (arg 0)))
      pure (arg 0)
  | .routine .sub => Act.runNative (context.run (context.subprogram (arg 0).toNat))
  | .routine .subBody => context.run (context.subprogram (arg 0).toNat)
  | .raw bits => Act.abort (.wildCall bits)
  | .helper _ => pure 0

/-- The evaluator of the session. -/
def evaluator (context : Context ε) : Evaluator ε :=
  let spec := context.setup.evaluator
  { isSequence := fun value => pure (spec.sequences.contains value.bits)
    describe := fun value => pure value.display
    typeError := fun message => do
      context.lift (record (.typeError message))
      pure ⟨spec.typeError⟩
    evaluate := fun tree self => do
      context.lift (record (.evaluate tree self))
      match tree.method?.bind fun method => spec.methods.lookup method with
      | some body => do
          let bits ← context.run body
          pure ⟨bits⟩
      | none => pure .nil }

/-- The machine that the generated functions of the session run on. -/
def machine (context : Context ε) : Machine ε :=
  let observer := context.observer
  { memory := fun state => Space.view (observer.state state)
    store := fun address count bits state =>
      observer.putState (Space.store address count bits (observer.state state)) state
    locate := fun owner part outer =>
      let world := observer.world outer
      observer.put { world with locations := world.locations.set owner part } outer
    routine := fun target args => do
      let word ← context.routine target args
      pure [word]
    enter := context.enter
    installed := fun outer => (observer.world outer).installed
    evaluator := context.evaluator
    frameAddress := fun thread => Space.linkWord thread.current
    locationAddress := Space.locationBase }

/-- Call a generated function. -/
def call (context : Context ε) (code : Code) (args : List UInt64) : Act ε (List UInt64) :=
  context.observer.call context.machine code args

/-- Set the accumulator. -/
def setAcc (bits : UInt64) : Do Unit := Act.onWorld (·.setAcc bits)

/-- The value of an operand. -/
def operand (value : Operand) : Do UInt64 := do
  let world ← Act.world
  pure (value.eval world.acc)

/-- What a statement comes to. -/
inductive Step where
  /-- It finished with a result. -/
  | finished (result : Result)
  /-- It ended the body with a value. -/
  | left (value : UInt64)

/-- Finish with a result. -/
def finish (result : Result) : Do Step := pure (.finished result)

/-- Finish with a fault. -/
def failWith (error : BridgeError) : Do Step := finish (.fault (.bridge error))

/-- Go on with the exit kind of a code. -/
def withKind (code : UInt32) (next : ExitKind → Do Step) : Do Step :=
  match ExitKind.ofCode? code with
  | some kind => next kind
  | none => failWith (.invalidExitCode code)

/-- The guard that is held under a name. -/
def guard? (name : String) : Do (Option FrameId) := do
  let world ← Act.world
  pure (world.guards.get? name)

/-- Go on with the guard that is held under a name. -/
def withGuard (name : String) (next : FrameId → Do Step) : Do Step := do
  match ← guard? name with
  | some id => next id
  | none => finish (.fault .noSuchFrame)

/-- Hold a guard under a name. The guard that was held there before is dropped afterwards. -/
def hold (name : String) (id : FrameId) : Do Unit := do
  let world ← Act.world
  Act.onWorld (·.hold name id)
  match world.guards.get? name with
  | some earlier => Act.dropFrame earlier false
  | none => pure ()

/-- Finish with an outcome, whose value goes to the accumulator. -/
def finishOutcome (outcome : Outcome) : Do Step := do
  setAcc outcome.value
  finish (.outcome outcome)

/-- Finish with a word, which also goes to the accumulator. -/
def finishWord (bits : UInt64) : Do Step := do
  setAcc bits
  finish (.word bits)

/-- Finish with the first result of a function, if it has one. -/
def finishCall : List UInt64 → Do Step
  | value :: _ => finishWord value
  | [] => do
      setAcc 0
      finish .nothing

/-- Finish with the answer of the evaluator. -/
def finishInvoke : Except BridgeError HostValue → Do Step
  | .ok value => do
      setAcc value.bits
      finish (.value value)
  | .error error => failWith error

/-- The code that a region for generated code starts from. -/
def unsetCode : UInt32 := 0xffffffff

/-- Finish with the value and the code of a region for generated code. -/
def finishRegion (silent : Bool) (value : UInt64) (code : Option UInt32) : Do Step := do
  setAcc value
  finish (.region value (if silent then unsetCode else code.getD unsetCode))

/-- Pop the frame of a scope, and log what that came to. -/
def endScope (id : FrameId) (unwinding : Bool) : Do Unit := do
  let popped ← Act.popFrame id unwinding
  record (.scopeEnd popped)

/-- How a body was left. -/
def departureOf : Except Payload UInt64 → Departure
  | .ok value => .value value
  | .error (.foreign message) => .failure message
  | .error (.exit ..) => .exit

/-- Put a node in memory and set the bridge's location to it, for a runtime family. -/
def locateNode (abi : Abi) (node : SourceNode) : Do PlacedNode := do
  let world ← Act.world
  let placed := Space.placeNode world.nodes.length node
  Act.onWorld fun world =>
    { world.addNodes [placed] with
      locations := world.locations.replace .bridge (.ofNode abi placed) }
  pure placed

/-- The word that an argument passes; `none` if it points to nothing. -/
def argument? (context : Context ε) : Argument → Option UInt64
  | .pointer pointer => context.resolve? pointer
  | .float bits => some bits

/-- Run a statement. -/
def perform (context : Context ε) : Stmt → Act ε Step
  | .protect tag body => do
      let outcome ← Act.protect tag (context.run body)
      context.lift (finishOutcome outcome)
  | .push name tag => context.lift do
      let thread ← Act.thread
      let id ← Act.pushFrame tag
      hold name id
      finish (.token thread.nextToken)
  | .exec name body => do
      match ← context.lift (guard? name) with
      | some id => do
          context.lift (Act.onWorld (·.release name))
          let outcome ← Act.guarding id (Act.exec id (context.run body))
          context.lift (hold name id)
          context.lift (finishOutcome outcome)
      | none => context.lift (finish (.fault .noSuchFrame))
  | .pop name => context.lift (withGuard name fun id => do
      Act.onWorld (·.release name)
      match ← Act.popFrame id false with
      | .ok phase => finish (.phase phase)
      | .error error => failWith error)
  | .drop name => context.lift (withGuard name fun id => do
      Act.onWorld (·.release name)
      Act.dropFrame id false
      finish .nothing)
  | .frame name => context.lift (withGuard name fun id => do
      let thread ← Act.thread
      match thread.frame? id with
      | some frame => finish (.guard frame)
      | none => finish .nothing)
  | .scope tag body => do
      let id ← Act.pushFrame tag
      match ← Act.catching (context.run body) with
      | .ok value => do
          context.lift (endScope id false)
          context.lift (finish (.word value))
      | .error payload => do
          context.lift (endScope id true)
          Act.unwind payload
  | .top => context.lift do
      let thread ← Act.thread
      match thread.top? with
      | some frame => finish (.frame frame)
      | none => finish .nothing
  | .topIsCurrent => context.lift (finish (.truth true))
  | .state => context.lift do
      let thread ← Act.thread
      finish (.stack thread)
  | .signal kind target value => context.lift (withKind kind fun kind => do
      let value ← operand value
      Act.signalExit kind target value)
  | .park kind target value => context.lift (withKind kind fun kind => do
      let value ← operand value
      Act.parkExit kind target value
      finish .nothing)
  | .resume => context.lift do
      Act.resumePending
      finish .nothing
  | .pending => context.lift do
      let thread ← Act.thread
      finish (.number (if thread.exitPending then 1 else 0))
  | .resolve kind target => context.lift (withKind kind fun kind => do
      let thread ← Act.thread
      match thread.resolve kind target with
      | .ok token => finish (.token token)
      | .error error => failWith error)
  | .native body => do
      let value ← Act.runNative (context.run body)
      context.lift (finishWord value)
  | .protectBody tag body silent => do
      let (value, code) ← Act.frameProtect tag (context.run body)
      context.lift (finishRegion silent value code)
  | .protectCode tag function data silent =>
      match context.resolve? (.code function), context.resolve? data with
      | some address, some data => do
          let (value, code) ← Act.frameProtect tag (context.enter address data)
          context.lift (finishRegion silent value code)
      | _, _ => context.lift (finish (.fault .noSuchFunction))
  | .signalNative kind target value => context.lift do
      let value ← operand value
      Act.frameSignal kind target value
      finish .nothing
  | .fail message => Act.unwind (.foreign message)
  | .attempt body => do
      let ended ← Act.catching (context.run body)
      context.lift (finish (.departure (departureOf ended)))
  | .ret value => context.lift do
      let value ← operand value
      pure (.left value)
  | .check => context.lift do
      let thread ← Act.thread
      if thread.exitPending then pure (.left 0) else finish .nothing
  | .note => context.lift do
      let world ← Act.world
      finish (.word world.acc)
  | .sub index => do
      let value ← context.run (context.subprogram index)
      context.lift (finish (.word value))
  | .invoke invocation => do
      let answer ← context.bridge.invoke context.evaluator invocation
      context.lift (finishInvoke answer)
  | .blockPass bound receiver method args block => do
      let value ← context.machine.blockPass
        (Machine.invocationOf bound receiver method args block)
      context.lift (finishWord value)
  | .call function args =>
      match codeNamed? context.codes function, args.mapM context.argument? with
      | some (_, code), some args => do
          let results ← context.call code args
          context.lift (finishCall results)
      | _, _ => context.lift (finish (.fault .noSuchFunction))
  | .bytes buffer => context.lift do
      let world ← Act.world
      let size := ((context.setup.buffers.get? buffer).map List.length).getD 0
      let base := (context.resolve? (.buffer buffer 0)).getD 0
      finish (.bytes (world.heap.read base size))
  | .frameMember name =>
      match context.bridge.layouts.lookup Builtin.controlFrameName name with
      | .error error => context.lift (failWith error)
      | .ok member => context.lift do
          let state ← Act.get
          match state.thread.top? with
          | none => finish .nothing
          | some frame =>
              finish (.word (member.readRaw (Space.view state) (Space.frameAddress frame.id)))
  | .location => context.lift do
      let world ← Act.world
      finish (.location (world.locationReport .bridge))
  | .locationFile => context.lift do
      let world ← Act.world
      match (world.locationReport .bridge).file with
      | some file => finish (.text file)
      | none => finish .nothing
  | .hostLocation => context.lift do
      let world ← Act.world
      finish (.location (world.locationReport .host))
  | .setLocation line file id abi =>
      match SourceNode.create line file id with
      | .error error => context.lift (failWith error)
      | .ok node =>
          match BuildRequest.abiNamed abi with
          | .error fault => context.lift (finish (.fault (.build fault)))
          | .ok abi => do
              let placed ← context.lift (locateNode abi node)
              context.observer.placed abi placed
              context.lift (finish .nothing)
  | .install request =>
      match request.resolve with
      | .error fault => context.lift (finish (.fault (.build fault)))
      | .ok bridge => context.lift do
          let world ← Act.world
          if world.installed.isSome then failWith .alreadyInstalled
          else do
            Act.onWorld fun world => { world with installed := some bridge }
            finish (.abi bridge.config.abi)
  | .installed => context.lift do
      let world ← Act.world
      match world.installed with
      | some bridge => finish (.abi bridge.config.abi)
      | none => failWith .notInstalled

/-- Log a statement that finished. -/
def recordFinished (stmt : Stmt) (result : Result) : Do Unit := do
  let thread ← Act.thread
  record (.finished stmt.name result thread.depth thread.exitPending)

/-- Run statements in order: the value of the one that ended the body, else zero. -/
def runBody (context : Context ε) : Body → Act ε UInt64
  | [] => do
      context.observer.look
      pure 0
  | stmt :: body => do
      context.observer.look
      match ← context.perform stmt with
      | .finished result => do
          context.lift (recordFinished stmt result)
          runBody context body
      | .left value => pure value

/-- Call the code at an address with a pointer. -/
def enterCode (context : Context ε) (address data : UInt64) : Act ε UInt64 :=
  match Space.codeIndex? address with
  | some index =>
      match context.codes[index]? with
      | some code => do
          let results ← context.call code [data]
          pure (results.headD 0)
      | none => Act.abort (.wildCall address)
  | none =>
      match Space.routineAt? address with
      | some routine => context.routine (.routine routine) [data]
      | none => Act.abort (.wildCall address)

end Context

/-! ## Levels -/

section Levels

variable {ε : Type} (observer : Observer ε) (setup : Setup) (bridge : Bridge) (codes : List Code)

mutual

/-- Run a body with a number of levels below it, while an observer looks. -/
def observeAt : Nat → Body → Act ε UInt64
  | 0, _ => Act.abort .exhausted
  | levels + 1, body =>
      Context.runBody
        { setup, bridge, codes, observer
          run := fun inner => observeAt levels inner
          enter := fun address data => observeEnterAt levels address data }
        body

/-- Call the code at an address with a number of levels below it, while an observer looks. -/
def observeEnterAt : Nat → UInt64 → UInt64 → Act ε UInt64
  | 0, _, _ => Act.abort .exhausted
  | levels + 1, address, data =>
      Context.enterCode
        { setup, bridge, codes, observer
          run := fun inner => observeAt levels inner
          enter := fun address data => observeEnterAt levels address data }
        address data

end

end Levels

/-- Run a body with a number of levels below it. -/
def runAt (setup : Setup) (bridge : Bridge) (codes : List Code) : Nat → Body → Do UInt64 :=
  observeAt .plain setup bridge codes

/-- The number of levels that a session may use. -/
def levelLimit : Nat := 100000

/-! ## Compilation -/

/-- Where the next function finds things, after some functions have been compiled. Its nodes are
placed behind those of the functions so far. -/
def linker (buffers : Dictionary (List UInt8)) (codes : List Code) : Linker :=
  let first := (codes.flatMap Code.retained).length
  { address? := pointerAddress? buffers codes
    place := fun index node => Space.placeNode (first + index) node }

/-- Compile functions in order. After a failure a new compiler takes over, so that the names
defined so far can be defined again. -/
def compileAll (bridge : Bridge) (buffers : Dictionary (List UInt8)) :
    Compiler → List Code → List FunctionSpec →
      List (Except BridgeError Code) × List Code
  | _, codes, [] => ([], codes)
  | compiler, codes, spec :: specs =>
      match compiler.compile bridge (linker buffers codes) spec with
      | .ok (code, compiler) =>
          let (results, codes) := compileAll bridge buffers compiler (codes ++ [code]) specs
          (.ok code :: results, codes)
      | .error error =>
          let (results, codes) := compileAll bridge buffers {} codes specs
          (.error error :: results, codes)

/-! ## The whole session -/

/-- How a session ends. -/
inductive Conclusion where
  /-- The program was left, and the thread is in this state. -/
  | left (departure : Departure) (thread : Thread)
  /-- The process was aborted. -/
  | aborted (cause : Abort)

/-- What a session shows. -/
structure Report where
  /-- The compiled functions, or why they could not be compiled. -/
  compiled : List (Except BridgeError Code)
  /-- The log, oldest entry first. -/
  log : List Entry
  /-- How the program ended. -/
  conclusion : Conclusion

/-- The state that a session starts in. -/
def start (setup : Setup) (codes : List Code) (installed : Option Bridge) : State World :=
  let world : World := { heap := World.fillBuffers .zero 0 setup.buffers, installed }
  { thread := .fresh, world := world.addNodes (codes.flatMap Code.retained) }

/-- How the program of a session ended. -/
def concludeWith (ending : Ending UInt64) (thread : Thread) : Conclusion :=
  match ending with
  | .returned value => .left (.value value) thread
  | .unwinding (.foreign message) => .left (.failure message) thread
  | .unwinding (.exit ..) => .left .exit thread
  | .aborted cause => .aborted cause

/-- Run a session. -/
def run (setup : Setup) : Except BuildRequest.Fault Report := do
  let installed ←
    match setup.installed with
    | some request => do pure (some (← request.resolve))
    | none => pure none
  let bridge ← setup.bridge.resolve
  let (compiled, codes) := compileAll bridge setup.buffers {} [] setup.functions
  let (ending, state) :=
    runAt setup bridge codes levelLimit setup.program (start setup codes installed)
  pure
    { compiled
      log := state.world.log.reverse
      conclusion := concludeWith ending state.thread }

end Session

end HostBridge
