import HostBridge.Code.Emit

/-!
# Functions

A function is described by operations on numbered values: the parameters come first, then what
each operation yields. Compiling it emits the operations and checks the types of the result.
-/

namespace HostBridge

/-- A pointer in the terms of a session. -/
inductive Pointer where
  /-- A plain word. -/
  | word (bits : UInt64)
  /-- A byte of a named buffer. -/
  | buffer (name : String) (offset : UInt64)
  /-- The code of a compiled function. -/
  | code (name : String)
  /-- A routine of the embedding program. -/
  | routine (which : Routine)
deriving DecidableEq, Repr

/-- Where the code of a function finds things in memory. -/
structure Linker where
  /-- The address that a pointer stands for, if it leads anywhere. -/
  address? : Pointer → Option UInt64
  /-- The place of the function's node with a number, counted from zero. -/
  place : Nat → SourceNode → PlacedNode

/-- An operation of a function's description. Operands are numbers of values. -/
inductive Op where
  | const (type : IrType) (bits : UInt64)
  | constPointer (bits : UInt64)
  | address (pointer : Pointer)
  | get (record name : String) (base : Nat)
  | set (record name : String) (base value : Nat)
  | intToFixnum (value : Nat)
  | fixnumToInt (value : Nat)
  | isFixnum (value : Nat)
  | truthy (value : Nat)
  | toBoolean (value : Nat) (type : IrType)
  | builtinType (value : Nat)
  | add (value : Nat) (bits : UInt64)
  | call (name : String) (args : List Nat) (signature : Option Signature) (checked : Bool)
  | exitCheck
  | location (line : Int32) (file : String) (id : UInt64)
  | callWithBlock (bound : Bool) (receiver : Nat) (method : UInt64) (args block : Nat)
deriving DecidableEq, Repr

/-- The description of a function. -/
structure FunctionSpec where
  /-- The name of the function. -/
  name : String
  /-- Parameters and results. -/
  signature : Signature
  /-- The operations. -/
  body : List Op
  /-- The numbers of the values that are returned. -/
  results : List Nat
deriving DecidableEq, Repr

/-- A function that can be called. -/
structure Code where
  /-- The name of the function. -/
  name : String
  /-- Parameters and results. -/
  signature : Signature
  /-- The instructions. -/
  instrs : List Instr
  /-- The registers that are returned. -/
  results : List Register
  /-- The nodes that the function keeps alive. -/
  retained : List PlacedNode
deriving DecidableEq, Repr

/-- The nodes that a function keeps alive in diagnostic dumps. -/
def Code.dumpRetained (code : Code) : String :=
  "RetainedObjects(" ++ toString code.retained.length ++ ")"

namespace Op

/-- The register of a value. -/
def register (values : List Register) (value : Nat) : Register := values.getD value 0

/-- Emit an operation and return the registers of the values that it yields. -/
def emit (bridge : Bridge) (linker : Linker) (values : List Register) :
    Op → Emit (List Register)
  | .const type bits => one (Emit.const type bits)
  | .constPointer bits => one (Emit.pointer bits)
  | .address pointer => one do
      match linker.address? pointer with
      | some bits => Emit.pointer bits
      | none => Emit.ofExcept (.error (.generation .unlinked))
  | .get record name base => one (bridge.getMember record name (register values base))
  | .set record name base value =>
      nothing (bridge.setMember record name (register values base) (register values value))
  | .intToFixnum value => one (Emit.intToFixnum (register values value))
  | .fixnumToInt value => one (Emit.fixnumToInt (register values value))
  | .isFixnum value => one (Emit.isFixnum (register values value))
  | .truthy value => one (Emit.truthy (register values value))
  | .toBoolean value type => one (Emit.toBoolean (register values value) type)
  | .builtinType value => one (bridge.builtinType (register values value))
  | .add value bits => one (Emit.unary (.add bits) (register values value))
  | .call name args signature checked =>
      let registers := args.map (register values)
      if checked then bridge.callChecked name signature registers
      else bridge.callNative name signature registers
  | .exitCheck => nothing bridge.exitCheck
  | .location line file id => nothing do
      let node ← Emit.ofExcept (SourceNode.create line file id)
      let draft ← Emit.draft
      bridge.setSourceLocation (linker.place draft.retained.length node)
  | .callWithBlock bound receiver method args block =>
      one
        (bridge.callWithBlock bound (register values receiver) method (register values args)
          (register values block))
where
  /-- An emission of one value. -/
  one (emission : Emit Register) : Emit (List Register) := do
    let register ← emission
    pure [register]
  /-- An emission without value. -/
  nothing (emission : Emit Unit) : Emit (List Register) := do
    emission
    pure []

/-- Emit operations one after the other; the values grow with what they yield. -/
def emitAll (bridge : Bridge) (linker : Linker) :
    List Register → List Op → Emit (List Register)
  | values, [] => pure values
  | values, op :: ops => do
      let yielded ← op.emit bridge linker values
      emitAll bridge linker (values ++ yielded) ops

end Op

namespace FunctionSpec

/-- Emit a function: how the emission ended, and the draft that it reached. -/
def draft (bridge : Bridge) (linker : Linker) (spec : FunctionSpec) :
    Except BridgeError (List Register) × Draft :=
  let values := List.range spec.signature.params.length
  (Op.emitAll bridge linker values spec.body).run.run (.start spec.signature)

end FunctionSpec

/-- Whether the instructions of a draft are well typed and its results are as declared. -/
def Draft.verify (draft : Draft) (results : List Register) : Bool :=
  draft.instrs.all (·.wellTyped draft.signature.returns draft.types)
    && results.map (fun register => draft.types[register]?) == draft.signature.returns.map some

/-- The names that a compiler has defined. -/
structure Compiler where
  /-- Signatures by name. -/
  defined : Dictionary Signature := []

namespace Compiler

/-- Compile a function. Its emission comes first, then its name, then the check of its types. -/
def compile (compiler : Compiler) (bridge : Bridge) (linker : Linker)
    (spec : FunctionSpec) : Except BridgeError (Code × Compiler) :=
  match spec.draft bridge linker with
  | (.error error, _) => .error error
  | (.ok values, draft) =>
      let results := spec.results.map (Op.register values)
      match compiler.defined.get? spec.name with
      | some signature =>
          if signature = spec.signature then .error (.generation (.duplicate spec.name))
          else .error (.generation .rejected)
      | none =>
          if draft.verify results then
            .ok
              ({ name := spec.name, signature := spec.signature, instrs := draft.instrs, results,
                  retained := draft.retained },
                { defined := compiler.defined.insert spec.name spec.signature })
          else .error (.generation .rejected)

end Compiler

end HostBridge
