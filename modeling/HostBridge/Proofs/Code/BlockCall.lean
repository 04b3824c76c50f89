import HostBridge.Proofs.Code.Emission
import HostBridge.Proofs.Control.Crossing

/-!
# Calls with a block

Generated code calls a method with a block through a helper; the embedding program calls it through
the bridge itself. Around either of them a region ends in the same way and in the same state, and
the evaluator is asked the same questions, as long as it does not unwind while something waits to be
resumed. The questions are written down in the world, where no answer can depend on them.
-/

namespace HostBridge

/-! ## The evaluator's side -/

/-- What an evaluator is asked. -/
inductive Query where
  | isSequence (value : HostValue)
  | describe (value : HostValue)
  | typeError (text : String)
  | evaluate (tree : CallTree) (self : HostValue)
deriving DecidableEq, Repr

/-- Whether the question is to evaluate something. -/
def Query.isEvaluation : Query → Bool
  | .evaluate .. => true
  | _ => false

/-- A world in which the questions to the evaluator are written down. -/
structure Consulted (ε : Type) where
  world : ε
  queries : List Query

/-- The state without the list of questions. -/
def State.plain {ε : Type} (state : State (Consulted ε)) : State ε :=
  { thread := state.thread, world := state.world.world }

/-- Write a question down and answer it. -/
def Act.answering {ε α : Type} (query : Query) (answer : Act ε α) : Act (Consulted ε) α :=
  fun state =>
    let result := answer state.plain
    (result.1,
      { thread := result.2.thread
        world := { world := result.2.world, queries := state.world.queries ++ [query] } })

namespace Act

variable {ε α β : Type} {query : Query} {answer : Act ε α} {state reached : State (Consulted ε)}

theorem answering_eq {ending : Ending α}
    (ended : answering query answer state = (ending, reached)) :
    answer state.plain = (ending, reached.plain) ∧
      reached.world.queries = state.world.queries ++ [query] := by
  cases ended
  exact ⟨rfl, rfl⟩

theorem CalmAt.answering (calm : answer.CalmAt state.plain) :
    (answering query answer).CalmAt state :=
  fun payload reached unwound => calm payload reached.plain (answering_eq unwound).1

theorem queries_answering_bind {next : α → Act (Consulted ε) β}
    (silent : ∀ value reached, (next value reached).2.world = reached.world) :
    ((answering query answer >>= next) state).2.world.queries =
      state.world.queries ++ [query] := by
  rw [bind_apply]
  rcases answered : answering query answer state with ⟨value | _ | _, reached⟩
  · rw [silent, (answering_eq answered).2]
  · exact (answering_eq answered).2
  · exact (answering_eq answered).2

theorem world_signalExit (kind : ExitKind) (target : OwnerTag) (value : UInt64) (state : State ε) :
    (signalExit kind target value state : Ending α × State ε).2.world = state.world := by
  rw [signalExit_apply]
  rcases state.thread.aim kind target value with _ | _ <;> rfl

end Act

namespace Evaluator

variable {ε : Type}

/-- The evaluator that writes down what it is asked. -/
def consulted (evaluator : Evaluator ε) : Evaluator (Consulted ε) where
  isSequence value := (evaluator.isSequence value).answering (.isSequence value)
  describe value := (evaluator.describe value).answering (.describe value)
  typeError text := (evaluator.typeError text).answering (.typeError text)
  evaluate tree self := (evaluator.evaluate tree self).answering (.evaluate tree self)

/-- The error of a call whose arguments are something else than a sequence. -/
def noSequence (found : String) : BridgeError := .wrongType "args" "sequence" found

/-- In this state, the questions about a call are answered without an unwind while another one
waits; and where the arguments are no sequence, nothing waits once the exception is made. -/
structure Orderly (evaluator : Evaluator ε) (abi : Abi) (invocation : Invocation)
    (state : State ε) : Prop where
  asks : (evaluator.isSequence invocation.args).CalmAt state
  evaluates : ∀ asked,
    evaluator.isSequence invocation.args state = (.returned true, asked) →
      (evaluator.evaluate (invocation.toCallTree abi) invocation.self).CalmAt asked
  describes : ∀ asked,
    evaluator.isSequence invocation.args state = (.returned false, asked) →
      (evaluator.describe invocation.args).CalmAt asked
  explains : ∀ asked found described,
    evaluator.isSequence invocation.args state = (.returned false, asked) →
      evaluator.describe invocation.args asked = (.returned found, described) →
        (evaluator.typeError (noSequence found).message).CalmAt described
  raises : ∀ asked found described exception explained,
    evaluator.isSequence invocation.args state = (.returned false, asked) →
      evaluator.describe invocation.args asked = (.returned found, described) →
        evaluator.typeError (noSequence found).message described =
            (.returned exception, explained) →
          explained.thread.pending = none

/-- The questions about a call, from a state on. -/
def dialogue (evaluator : Evaluator ε) (abi : Abi) (invocation : Invocation) (state : State ε) :
    List Query :=
  .isSequence invocation.args ::
    match evaluator.isSequence invocation.args state with
    | (.returned true, _) => [.evaluate (invocation.toCallTree abi) invocation.self]
    | (.returned false, asked) =>
        .describe invocation.args ::
          match evaluator.describe invocation.args asked with
          | (.returned found, _) => [.typeError (noSequence found).message]
          | _ => []
    | _ => []

end Evaluator

/-! ## The embedding program's side -/

namespace Bridge

variable {ε : Type}

/-- Call with a block, and raise what the evaluator makes of an error. -/
def invokeRaising (bridge : Bridge) (evaluator : Evaluator ε) (invocation : Invocation) :
    Act ε UInt64 := do
  match ← bridge.invoke evaluator invocation with
  | .ok value => pure value.bits
  | .error error => do
      let exception ← evaluator.typeError error.message
      Act.signalExit .raise .any exception.bits

/-- With an evaluator, the call is one question after the other. -/
theorem invokeRaising_eq {bridge : Bridge} (able : bridge.hasEvaluator = true)
    (evaluator : Evaluator ε) (invocation : Invocation) :
    bridge.invokeRaising evaluator invocation = (do
      if ← evaluator.isSequence invocation.args then
        let value ← evaluator.evaluate (invocation.toCallTree bridge.config.abi) invocation.self
        pure value.bits
      else
        let found ← evaluator.describe invocation.args
        let exception ← evaluator.typeError (Evaluator.noSequence found).message
        Act.signalExit .raise .any exception.bits) := by
  rw [invokeRaising, invoke, if_pos able, Evaluator.invoke, bind_assoc]
  congr 1
  funext sequence
  cases sequence <;> simp [Evaluator.noSequence]

theorem invokeRaising_calmAt {bridge : Bridge} (able : bridge.hasEvaluator = true)
    {evaluator : Evaluator ε} {invocation : Invocation} {state : State (Consulted ε)}
    (orderly : evaluator.Orderly bridge.config.abi invocation state.plain) :
    (bridge.invokeRaising evaluator.consulted invocation).CalmAt state := by
  rw [invokeRaising_eq able]
  refine .bind (.answering orderly.asks) fun sequence asked answer => ?_
  have answer := (Act.answering_eq answer).1
  cases sequence with
  | true =>
      exact .bind (.answering (orderly.evaluates _ answer)) fun _ _ _ => .pure _ _
  | false =>
      refine .bind (.answering (orderly.describes _ answer)) fun found described answer' => ?_
      have answer' := (Act.answering_eq answer').1
      refine .bind (.answering (orderly.explains _ _ _ answer answer')) ?_
      intro exception explained answer''
      refine .signalExit ?_ _ _ _
      exact orderly.raises _ _ _ _ _ answer answer' (Act.answering_eq answer'').1

theorem queries_invokeRaising {bridge : Bridge} (able : bridge.hasEvaluator = true)
    (evaluator : Evaluator ε) (invocation : Invocation) (state : State (Consulted ε)) :
    (bridge.invokeRaising evaluator.consulted invocation state).2.world.queries =
      state.world.queries ++ evaluator.dialogue bridge.config.abi invocation state.plain := by
  rw [invokeRaising_eq able, Act.bind_apply, Evaluator.dialogue]
  rcases asked : evaluator.consulted.isSequence invocation.args state with
    ⟨sequence | payload | cause, reached⟩ <;> obtain ⟨answer, written⟩ := Act.answering_eq asked <;>
    rw [answer]
  · cases sequence with
    | true =>
        exact (Act.queries_answering_bind fun _ _ => rfl).trans (by simp [written])
    | false =>
        simp only [Bool.false_eq_true, if_false]
        rw [Act.bind_apply]
        rcases described : evaluator.consulted.describe invocation.args reached with
          ⟨found | payload | cause, reached'⟩ <;>
          obtain ⟨answer', written'⟩ := Act.answering_eq described <;> rw [answer']
        · refine (Act.queries_answering_bind fun _ _ => Act.world_signalExit ..).trans ?_
          simp [written, written']
        · simp [written, written']
        · simp [written, written']
  · exact written
  · exact written

end Bridge

/-! ## The side of generated code -/

/-- A function that calls a method on its first argument, with the elements of its second one as
arguments and its third one as block, and returns the result. -/
def FunctionSpec.blockCaller (function : String) (bound : Bool) (method : UInt64) :
    FunctionSpec :=
  { name := function
    signature := { params := [.pointer, .pointer, .pointer], returns := [.pointer] }
    body := [.callWithBlock bound 0 method 1 2]
    results := [3] }

namespace Code

/-- The instructions of a call with a block. -/
def blockCaller (function : String) (bound : Bool) (method : UInt64) : Code :=
  { name := function
    signature := { params := [.pointer, .pointer, .pointer], returns := [.pointer] }
    instrs :=
      [.const .pointer method,
        .call (.helper (Bridge.blockHelper bound)) Bridge.blockSignature [0, 3, 1, 2],
        .call (.helper .framePending) { params := [], returns := [.i32] } [],
        .leaveIf 5 (Emit.zeroBlock [.pointer])]
    results := [4]
    retained := [] }

/-- Call a function for one word. -/
def callWord {ε : Type} (machine : Machine ε) (code : Code) (args : List UInt64) :
    Act ε UInt64 := do
  let results ← code.call machine args
  pure (results.headD 0)

end Code

theorem Bridge.BindsHelpers.code_blockCaller {bridge : Bridge} (binds : bridge.BindsHelpers)
    (linker : Linker) (function : String) (bound : Bool) (method : UInt64) :
    (FunctionSpec.blockCaller function bound method).code bridge linker =
      .ok (.blockCaller function bound method) := by
  let spec := FunctionSpec.blockCaller function bound method
  have emitted :
      ((Op.callWithBlock bound 0 method 1 2).emit bridge linker [0, 1, 2]).run.run
          (.start spec.signature) =
        (.ok [4], (Code.blockCaller function bound method).instrs.foldl
          (fun draft instr => draft.append instr) (.start spec.signature)) := by
    rw [Op.emit, Op.emit.one, Emit.run_bind_of_ok (binds.run_callWithBlock ..)]
    rfl
  rw [FunctionSpec.code, Compiler.compile, FunctionSpec.draft_of_emit rfl emitted]
  cases bound <;> rfl

namespace Machine

variable {ε : Type}

theorem callAddress_blockHelper (machine : Machine ε) (bound : Bool)
    (receiver method args block : UInt64) :
    machine.callAddress (.helper (Bridge.blockHelper bound)) [receiver, method, args, block] = (do
      let word ← machine.blockPass (invocationOf bound receiver method args block)
      pure [word]) := by
  cases bound <;> rfl

theorem callAddress_framePending (machine : Machine ε) (args : List UInt64) :
    machine.callAddress (.helper .framePending) args = (do
      let thread ← Act.thread
      pure [if thread.exitPending then 1 else 0]) := rfl

theorem blockPass_apply {machine : Machine ε} {bridge : Bridge} {state : State ε}
    (installed : machine.installed state.world = some bridge) (able : bridge.hasEvaluator = true)
    (invocation : Invocation) :
    machine.blockPass invocation state =
      Act.runNative (bridge.invokeRaising machine.evaluator invocation) state := by
  have invoked : bridge.invoke machine.evaluator invocation =
      machine.evaluator.invoke bridge.config.abi invocation := if_pos able
  rw [blockPass, Act.bind_apply, Act.world_apply]
  simp only [installed, able, if_true]
  rw [Bridge.invokeRaising, invoked]
  rfl

end Machine

namespace Code

variable {ε : Type} (machine : Machine ε)

theorem runFrom_call (target : Address) (signature : Signature) (args : List Register)
    (instrs : List Instr) (registers : List UInt64) :
    runFrom machine (.call target signature args :: instrs) registers = (do
      let words ← machine.callAddress target (args.map (valueOf registers))
      runFrom machine instrs (registers ++ fitted signature.returns words)) := by
  rw [runFrom, step, bind_assoc]
  simp only [pure_bind]

theorem runFrom_leaveIf (value : Register) (block : ReturnBlock) (instrs : List Instr)
    (registers : List UInt64) :
    runFrom machine (.leaveIf value block :: instrs) registers =
      if valueOf registers value = 0 then runFrom machine instrs registers
      else pure (.returned block.values) := by
  rw [runFrom, step, pure_bind]
  by_cases zero : valueOf registers value = 0 <;> simp [zero]

/-- The function calls the helper and returns early if that leaves an unwind waiting. -/
theorem callWord_blockCaller (function : String) (bound : Bool)
    (receiver method args block : UInt64) :
    (blockCaller function bound method).callWord machine [receiver, args, block] =
      Act.returningEarly
        (machine.blockPass (Machine.invocationOf bound receiver method args block)) := by
  rw [callWord, call, blockCaller, Act.returningEarly]
  dsimp only
  rw [runFrom, step, pure_bind]
  dsimp only
  rw [runFrom_call]
  change ((machine.callAddress _ [receiver, method, args, block] >>= _) >>= _) >>= _ = _
  rw [machine.callAddress_blockHelper]
  simp only [bind_assoc, pure_bind]
  congr 1
  funext value
  rw [runFrom_call, machine.callAddress_framePending]
  simp only [bind_assoc, pure_bind, runFrom_leaveIf]
  congr 1
  funext thread
  cases thread.exitPending <;> rfl

end Code

/-! ## Both sides in a region -/

theorem Evaluator.filter_dialogue {ε : Type} (evaluator : Evaluator ε) (abi : Abi)
    (invocation : Invocation) (state : State ε) :
    (evaluator.dialogue abi invocation state).filter Query.isEvaluation =
      if (evaluator.isSequence invocation.args state).1 = .returned true then
        [.evaluate (invocation.toCallTree abi) invocation.self]
      else [] := by
  rw [dialogue, List.filter_cons_of_neg (by simp [Query.isEvaluation])]
  rcases evaluator.isSequence invocation.args state with ⟨(_ | _) | _ | _, asked⟩
  · dsimp only
    rw [List.filter_cons_of_neg (by simp [Query.isEvaluation])]
    rcases evaluator.describe invocation.args asked with ⟨_ | _ | _, described⟩ <;> rfl
  · rfl
  · rfl
  · rfl

theorem Invocation.self_eq_receiver (bound : Bool) (receiver : HostValue) (method : UInt64)
    (args : HostValue) (block : Option HostValue) :
    Invocation.self
      { receiver := if bound then .bound receiver else .implicit receiver, method, args, block } =
        receiver := by
  cases bound <;> rfl

/-- Around a compiled call with a block a region ends as around the call through the bridge, and in
the same state. The questions to the evaluator are part of the state; the call is evaluated once if
the arguments are found to be a sequence, and not at all otherwise. -/
theorem Bridge.blockCall_agrees {ε : Type} (evaluator : Evaluator ε) (config : BuildConfig)
    (steps : List BuildStep) (slots : LocationSlots) (linker : Linker) (function : String)
    {machine : Machine (Consulted ε)} (heard : machine.evaluator = evaluator.consulted)
    {state : State (Consulted ε)}
    (installed : machine.installed state.world = some (build config steps slots true))
    (tag : OwnerTag) (bound : Bool) (receiver method args block : UInt64)
    (orderly :
      evaluator.Orderly config.abi
        { receiver := if bound then .bound ⟨receiver⟩ else .implicit ⟨receiver⟩
          method
          args := ⟨args⟩
          block := some ⟨block⟩ }
        (state.entered tag).plain) :
    let bridge := build config steps slots true
    let invocation : Invocation :=
      { receiver := if bound then .bound ⟨receiver⟩ else .implicit ⟨receiver⟩
        method
        args := ⟨args⟩
        block := some ⟨block⟩ }
    let dialogue := evaluator.dialogue config.abi invocation (state.entered tag).plain
    ∃ code,
      (FunctionSpec.blockCaller function bound method).code bridge linker = .ok code ∧
      Act.protect tag (code.callWord machine [receiver, args, block]) state =
        Act.protect tag (bridge.invokeRaising machine.evaluator invocation) state ∧
      (Act.protect tag (code.callWord machine [receiver, args, block]) state).2.world.queries =
        state.world.queries ++ dialogue ∧
      dialogue.filter Query.isEvaluation =
        if (evaluator.isSequence ⟨args⟩ (state.entered tag).plain).1 = .returned true then
          [.evaluate (invocation.toCallTree config.abi) ⟨receiver⟩]
        else [] := by
  intro bridge invocation dialogue
  have binds : bridge.BindsHelpers := build_bindsHelpers config steps slots true
  have calm : (bridge.invokeRaising machine.evaluator invocation).CalmAt (state.entered tag) := by
    rw [heard]
    exact invokeRaising_calmAt rfl orderly
  have found : machine.installed (state.entered tag).world = some bridge := installed
  have helped : Act.returningEarly (machine.blockPass invocation) (state.entered tag) =
      Act.returningEarly (Act.runNative (bridge.invokeRaising machine.evaluator invocation))
        (state.entered tag) := by
    rw [Act.returningEarly, Act.returningEarly, Act.bind_apply, Act.bind_apply,
      Machine.blockPass_apply found rfl]
  have agrees : Act.protect tag
      ((Code.blockCaller function bound method).callWord machine [receiver, args, block]) state =
        Act.protect tag (bridge.invokeRaising machine.evaluator invocation) state := by
    rw [Code.callWord_blockCaller]
    exact (Act.protect_congr helped).trans (Act.protect_returningEarly calm)
  refine ⟨_, binds.code_blockCaller linker function bound method, agrees, ?_, ?_⟩
  · rw [agrees, Act.world_protect, heard, queries_invokeRaising rfl]
    rfl
  · rw [evaluator.filter_dialogue, Invocation.self_eq_receiver]

/-! ## An exit past the region -/

/-- An evaluator that leaves every call by a break out of a region with tag 7. -/
def Evaluator.breaking : Evaluator Unit :=
  { Evaluator.idle with
    isSequence := fun _ => pure true
    evaluate := fun _ _ => Act.signalExit .break ⟨7⟩ 42 }

/-- A state in the region of one frame with tag 7. -/
def State.sheltered : State (Consulted Unit) :=
  { thread := (Thread.fresh.push ⟨7⟩).modify 1 Frame.arm, world := ⟨(), []⟩ }

theorem Evaluator.breaking_orderly (abi : Abi) (invocation : Invocation) :
    breaking.Orderly abi invocation (State.sheltered.entered ⟨9⟩).plain where
  asks := .pure _ _
  evaluates := by
    rintro asked ⟨⟩
    exact .signalExit rfl _ _ _
  describes := by rintro _ ⟨⟩
  explains := by rintro _ _ _ ⟨⟩
  raises := by rintro _ _ _ _ _ ⟨⟩

/-- The break passes through the region around the code, and lands further out, whether the call
has a receiver of its own or not. -/
theorem Bridge.blockCall_agrees_breaking :
    let bridge := build .default [] .own true
    let machine : Machine (Consulted Unit) :=
      { Machine.idle with
        installed := fun _ => some bridge
        evaluator := Evaluator.breaking.consulted }
    (∃ code,
      (FunctionSpec.blockCaller "call" false 3).code bridge .idle = .ok code ∧
      (Act.protect ⟨9⟩ (code.callWord machine [1, 2, 5]) .sheltered).1 =
        .unwinding (.exit 1 .break) ∧
      (Act.protect ⟨9⟩ (code.callWord machine [1, 2, 5]) .sheltered).2.world.queries =
        [.isSequence ⟨2⟩,
          .evaluate (.fcall 3 (.blockArg (.splat (.lit ⟨2⟩)) (.lit ⟨5⟩))) ⟨1⟩]) ∧
    ∃ code,
      (FunctionSpec.blockCaller "call" true 3).code bridge .idle = .ok code ∧
      (Act.protect ⟨9⟩ (code.callWord machine [1, 2, 5]) .sheltered).1 =
        .unwinding (.exit 1 .break) ∧
      (Act.protect ⟨9⟩ (code.callWord machine [1, 2, 5]) .sheltered).2.world.queries =
        [.isSequence ⟨2⟩,
          .evaluate (.blockPass (.call (.lit ⟨1⟩) 3 (.splat (.lit ⟨2⟩))) (.lit ⟨5⟩)) ⟨1⟩] := by
  intro bridge machine
  have agrees (bound : Bool) := blockCall_agrees Evaluator.breaking .default [] .own .idle "call"
    (rfl : machine.evaluator = Evaluator.breaking.consulted)
    (rfl : machine.installed State.sheltered.world = some bridge) ⟨9⟩ bound 1 3 2 5
    (Evaluator.breaking_orderly ..)
  constructor
  · obtain ⟨code, compiled, same, asked, -⟩ := agrees false
    refine ⟨code, compiled, ?_, asked.trans rfl⟩
    rw [same]
    rfl
  · obtain ⟨code, compiled, same, asked, -⟩ := agrees true
    refine ⟨code, compiled, ?_, asked.trans rfl⟩
    rw [same]
    rfl

end HostBridge
