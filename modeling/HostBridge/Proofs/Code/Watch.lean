import HostBridge.Proofs.Code.Update

/-!
# Generated code in two worlds

Two machines in different worlds act alike if their parts do. Generated code then runs alike on
both, even if the second run takes a look at its world before every call. Only location updates are
asked for as a whole: between the parts of an update the two worlds may disagree.
-/

namespace HostBridge

variable {ε δ : Type}

/-! ## Evaluators and machines -/

/-- Two evaluators answer alike. -/
structure Evaluator.Alike (tied : State ε → State δ → Prop) (first : Evaluator ε)
    (second : Evaluator δ) : Prop where
  isSequence : ∀ value, Act.Alike tied (first.isSequence value) (second.isSequence value)
  describe : ∀ value, Act.Alike tied (first.describe value) (second.describe value)
  typeError : ∀ message, Act.Alike tied (first.typeError message) (second.typeError message)
  evaluate : ∀ tree self, Act.Alike tied (first.evaluate tree self) (second.evaluate tree self)

/-- Two machines act alike, location updates apart. -/
structure Machine.Alike (tied : State ε → State δ → Prop) (first : Machine ε)
    (second : Machine δ) : Prop where
  memory : ∀ {left right}, tied left right → first.memory left = second.memory right
  store : ∀ address count bits {left right}, tied left right →
    tied (first.store address count bits left) (second.store address count bits right)
  routine : ∀ target args, Act.Alike tied (first.routine target args) (second.routine target args)
  enter : ∀ address data, Act.Alike tied (first.enter address data) (second.enter address data)
  installed : ∀ {left right}, tied left right →
    first.installed left.world = second.installed right.world
  evaluator : Evaluator.Alike tied first.evaluator second.evaluator
  frameAddress : first.frameAddress = second.frameAddress
  locationAddress : first.locationAddress = second.locationAddress

section Alike

variable {tied : State ε → State δ → Prop} (same : Act.SameThread tied)

namespace Evaluator.Alike

variable {first : Evaluator ε} {second : Evaluator δ} (alike : Evaluator.Alike tied first second)
include alike

theorem invoke (abi : Abi) (invocation : Invocation) :
    Act.Alike tied (first.invoke abi invocation) (second.invoke abi invocation) := by
  refine .bind (alike.isSequence _) fun sequence => ?_
  cases sequence with
  | true => exact .bind (alike.evaluate _ _) fun value => .pure _
  | false => exact .bind (alike.describe _) fun found => .pure _

include same

theorem invokeNative (abi : Abi) (invocation : Invocation) :
    Act.Alike tied (first.invokeNative abi invocation) (second.invokeNative abi invocation) := by
  refine .runNative same (.bind (alike.invoke abi invocation) fun result => ?_)
  cases result with
  | ok value => exact .pure _
  | error error => exact .bind (alike.typeError _) fun exception => .signalExit same _ _ _

end Evaluator.Alike

namespace Machine.Alike

variable {first : Machine ε} {second : Machine δ} (alike : Machine.Alike tied first second)
include alike

theorem loadWord (address : UInt64) (bytes : Nat) :
    Act.Alike tied (first.loadWord address bytes) (second.loadWord address bytes) := by
  intro left right states
  refine ⟨?_, states⟩
  change Ending.returned ((first.memory left).load address bytes) = _
  rw [alike.memory states]
  rfl

theorem storeWord (address : UInt64) (bytes : Nat) (bits : UInt64) :
    Act.Alike tied (first.storeWord address bytes bits) (second.storeWord address bytes bits) :=
  fun _ _ states => ⟨rfl, alike.store address bytes bits states⟩

theorem storeCode (address : UInt64) (code : Option UInt32) :
    Act.Alike tied (first.storeCode address code) (second.storeCode address code) := by
  unfold Machine.storeCode
  cases code with
  | none => exact .pure _
  | some code =>
      dsimp only
      split
      · exact .pure _
      · exact alike.storeWord _ _ _

include same

theorem blockPass (invocation : Invocation) :
    Act.Alike tied (first.blockPass invocation) (second.blockPass invocation) := by
  intro left right states
  simp only [Machine.blockPass, Act.bind_apply, Act.world_apply, alike.installed states]
  cases second.installed right.world with
  | none => exact Act.Alike.fatal _ left right states
  | some bridge =>
      by_cases able : bridge.hasEvaluator
      · simp only [able, if_true]
        exact alike.evaluator.invokeNative same _ invocation left right states
      · simp only [able]
        exact Act.Alike.fatal _ left right states

theorem callHelper (helper : Helper) (args : List UInt64) :
    Act.Alike tied (first.callHelper helper args) (second.callHelper helper args) := by
  cases helper with
  | frameProtect =>
      exact .bind (.frameProtect same _ (alike.enter _ _)) fun ended =>
        .bind (alike.storeCode _ _) fun _ => .pure _
  | frameSignal => exact .bind (.frameSignal same _ _ _) fun _ => .pure _
  | framePending => exact .bind (.thread same) fun _ => .pure _
  | frameCurrent =>
      refine .bind (.thread same) fun thread => ?_
      rw [alike.frameAddress]
      exact .pure _
  | blockPassCall => exact alike.blockPass same _
  | blockPassFcall => exact alike.blockPass same _
  | currentLocation =>
      change Act.Alike tied (pure first.locationAddress) (pure second.locationAddress)
      rw [alike.locationAddress]
      exact .pure _

theorem callAddress (target : Address) (args : List UInt64) :
    Act.Alike tied (first.callAddress target args) (second.callAddress target args) := by
  cases target with
  | raw | routine => exact alike.routine _ args
  | helper helper => exact .bind (alike.callHelper same helper args) fun word => .pure _

/-- An instruction that stores no part of a location runs alike on both machines. -/
theorem step {instr : Instr} (plain : instr.part? = none) (registers : List UInt64) :
    Act.Alike tied (Code.step first registers instr) (Code.step second registers instr) := by
  cases instr with
  | const | unary | leaveIf => exact .pure _
  | load => exact .bind (alike.loadWord _ _) fun _ => .pure _
  | store => exact .bind (alike.storeWord _ _ _) fun _ => .pure _
  | call => exact .bind (alike.callAddress same _ _) fun _ => .pure _
  | locate => cases plain

end Machine.Alike

end Alike

/-! ## Runs with a look at every call -/

/-- Store parts of a location one after the other. -/
def Machine.locateAll (machine : Machine ε) (owner : LocationOwner) (parts : List Location.Part)
    (world : ε) : ε :=
  parts.foldl (fun world part => machine.locate owner part world) world

namespace Code

/-- What comes before an instruction: a look at the state if the instruction is a call. -/
def before (look : Act ε Unit) : Instr → Act ε Unit
  | .call .. => look
  | _ => pure ()

/-- Run instructions, with a look at the state before every call. -/
def watchFrom (look : Act ε Unit) (machine : Machine ε) :
    List Instr → List UInt64 → Act ε Progress
  | [], registers => pure (.finished registers)
  | instr :: instrs, registers => do
      before look instr
      match ← step machine registers instr with
      | .yielded values => watchFrom look machine instrs (registers ++ values)
      | .returned values => pure (.returned values)

/-- Call a function, with a look at the state before every call that it makes. -/
def watch (look : Act ε Unit) (machine : Machine ε) (code : Code) (args : List UInt64) :
    Act ε (List UInt64) :=
  returning code.results <$>
    watchFrom look machine code.instrs (fitted code.signature.params args)

theorem watchFrom_pure (machine : Machine ε) (instrs : List Instr) (registers : List UInt64) :
    watchFrom (pure ()) machine instrs registers = runFrom machine instrs registers := by
  induction instrs generalizing registers with
  | nil => rfl
  | cons instr instrs induction =>
      have silent : before (pure () : Act ε Unit) instr = pure () := by cases instr <;> rfl
      rw [watchFrom, runFrom, silent, pure_bind]
      refine bind_congr fun move => ?_
      cases move with
      | yielded values => exact induction _
      | returned values => rfl

theorem watchFrom_locates (look : Act ε Unit) (machine : Machine ε) (owner : LocationOwner)
    (parts : List Location.Part) (instrs : List Instr) (registers : List UInt64) :
    watchFrom look machine (parts.map (.locate owner) ++ instrs) registers = (do
      Act.onWorld (machine.locateAll owner parts)
      watchFrom look machine instrs registers) := by
  induction parts with
  | nil => rfl
  | cons part parts induction =>
      have silent : before look (.locate owner part) = pure () := rfl
      rw [List.map_cons, List.cons_append, watchFrom, silent, pure_bind, step, bind_assoc]
      simp only [pure_bind, List.append_nil, induction]
      rfl

theorem runFrom_locates (machine : Machine ε) (owner : LocationOwner) (parts : List Location.Part)
    (instrs : List Instr) (registers : List UInt64) :
    runFrom machine (parts.map (.locate owner) ++ instrs) registers = (do
      Act.onWorld (machine.locateAll owner parts)
      runFrom machine instrs registers) := by
  rw [← watchFrom_pure, watchFrom_locates, watchFrom_pure]

section Alike

variable {tied : State ε → State δ → Prop} {first : Machine ε} {second : Machine δ}
  {look : Act δ Unit} {slots : LocationSlots} {abi : Abi}

/-- Code made of whole updates runs alike on machines that act alike, if whole updates do and no
look is noticed. -/
theorem alike_watchFrom {instrs : List Instr} {nodes : List PlacedNode}
    (updates : Instr.Updates slots abi instrs nodes) (same : Act.SameThread tied)
    (alike : Machine.Alike tied first second) (unnoticed : Act.Alike tied (pure ()) look)
    (whole : ∀ placed, Act.Alike tied
      (Act.onWorld (first.locateAll slots.owner (slots.parts abi placed)))
      (Act.onWorld (second.locateAll slots.owner (slots.parts abi placed))))
    (registers : List UInt64) :
    Act.Alike tied (runFrom first instrs registers) (watchFrom look second instrs registers) := by
  induction updates generalizing registers with
  | nil => exact .pure _
  | update placed _ induction =>
      rw [runFrom_locates, watchFrom_locates]
      exact .bind (whole placed) fun _ => induction registers
  | @other instr instrs _ plain _ induction =>
      have before : Act.Alike tied (pure ()) (before look instr) := by
        cases instr with
        | call => exact unnoticed
        | _ => exact .pure ()
      rw [runFrom, watchFrom]
      refine .after before (.bind (alike.step same plain registers) fun move => ?_)
      cases move with
      | yielded values => exact induction _
      | returned values => exact .pure _

theorem alike_watch {code : Code} {nodes : List PlacedNode}
    (updates : Instr.Updates slots abi code.instrs nodes) (same : Act.SameThread tied)
    (alike : Machine.Alike tied first second) (unnoticed : Act.Alike tied (pure ()) look)
    (whole : ∀ placed, Act.Alike tied
      (Act.onWorld (first.locateAll slots.owner (slots.parts abi placed)))
      (Act.onWorld (second.locateAll slots.owner (slots.parts abi placed))))
    (args : List UInt64) :
    Act.Alike tied (code.call first args) (code.watch look second args) := by
  rw [call_eq, watch, map_eq_pure_bind, map_eq_pure_bind]
  exact .bind (alike_watchFrom updates same alike unnoticed whole _) fun _ => .pure _

end Alike

end Code

end HostBridge
