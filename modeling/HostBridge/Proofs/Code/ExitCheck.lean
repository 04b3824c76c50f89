import HostBridge.Proofs.Code.BlockCall
import HostBridge.Proofs.Code.Renaming

/-!
# Exit checks

Generated functions check for a pending exit where their description says so, and after calls that
may leave one. A function that finds an exit pending at a check returns zeros in the state that it
was in there. Otherwise it goes on as the function without this check, which differs in the names of
the registers behind the check. The operands of a description have to name values that are there.
-/

namespace HostBridge

/-! ## Described functions -/

namespace Op

open Emit

/-- The values that an operation reads. -/
def operands : Op → List Nat
  | .get _ _ base => [base]
  | .set _ _ base value => [base, value]
  | .intToFixnum value | .fixnumToInt value | .isFixnum value | .truthy value
  | .toBoolean value _ | .builtinType value | .add value _ => [value]
  | .call _ args _ _ => args
  | .callWithBlock _ receiver _ args block => [receiver, args, block]
  | .const .. | .constPointer _ | .address _ | .exitCheck | .location .. => []

/-- The number of values that an operation yields. -/
def yields : Op → Nat
  | .set .. | .exitCheck | .location .. => 0
  | .call name _ signature _ => Bridge.returnCount name signature
  | _ => 1

/-- Each operation reads values that are there, where there are `count` values at first. -/
def InScope : Nat → List Op → Prop
  | _, [] => True
  | count, op :: ops =>
      (∀ operand ∈ op.operands, operand < count) ∧ InScope (count + op.yields) ops

instance decidableInScope : (count : Nat) → (ops : List Op) → Decidable (InScope count ops)
  | _, [] => .isTrue trivial
  | count, op :: ops =>
      have := decidableInScope (count + op.yields) ops
      inferInstanceAs (Decidable (_ ∧ InScope (count + op.yields) ops))

variable {bridge : Bridge} {linker : Linker} {name : Register → Register}
  {start start' : List Instr} {count bound : Nat} {values values' : List Register}

theorem register_map {value : Nat} (inScope : value < values.length) :
    register (values.map name) value = name (register values value) := by
  simp [register, inScope]

theorem register_mem {value : Nat} (inScope : value < values.length) :
    register values value ∈ values := by
  simp [register, inScope]

theorem map_register_map {operands : List Nat}
    (inScope : ∀ operand ∈ operands, operand < values.length) :
    operands.map (register (values.map name)) = (operands.map (register values)).map name := by
  rw [List.map_map]
  exact List.map_congr_left fun operand member => register_map (inScope operand member)

theorem parallel_one {emission emission' : Emit Register}
    (first : Parallel name start start' bound emission emission' (Named name)) :
    Parallel name start start' bound (emit.one emission) (emit.one emission')
      (AllNamed name 1) := by
  refine .bind first fun register register' grown _ named => .pure fun grown' larger => ?_
  refine ⟨congrArg ([·]) named.1, rfl, fun other member => ?_⟩
  obtain rfl := List.mem_singleton.mp member
  exact Nat.lt_of_lt_of_le named.2 larger

theorem parallel_nothing {emission emission' : Emit Unit}
    (first : Parallel name start start' bound emission emission' Same) :
    Parallel name start start' bound (emit.nothing emission) (emit.nothing emission')
      (AllNamed name 0) :=
  .bind first fun _ _ _ _ _ => .pure fun _ _ => ⟨rfl, rfl, List.forall_mem_nil _⟩

/-- Emit an operation, but not the exit check at its end. -/
def emitUnchecked (bridge : Bridge) (linker : Linker) (values : List Register) :
    Op → Emit (List Register)
  | .call name args signature _ =>
      bridge.callNative name signature (args.map (register values))
  | .exitCheck => pure []
  | .callWithBlock bound receiver method args block =>
      emit.one
        (bridge.callBlock bound (register values receiver) method (register values args)
          (register values block))
  | op => op.emit bridge linker values

/-- Whether an operation ends with an exit check. -/
def checks : Op → Bool
  | .exitCheck | .callWithBlock .. => true
  | .call _ _ _ checked => checked
  | _ => false

theorem emit_of_checks {op : Op} (checks : op.checks = true) (values : List Register) :
    op.emit bridge linker values = bridge.thenCheck (op.emitUnchecked bridge linker values) := by
  cases op with
  | call name args signature checked =>
      obtain rfl : checked = true := checks
      rfl
  | exitCheck => rfl
  | callWithBlock bound receiver method args block =>
      simp only [emit, emit.one, emitUnchecked, bridge.callWithBlock_eq, Bridge.thenCheck,
        bind_assoc, pure_bind]
  | _ => cases checks

theorem emit_of_not_checks {op : Op} (unchecked : op.checks = false) (values : List Register) :
    op.emit bridge linker values = op.emitUnchecked bridge linker values := by
  cases op with
  | call name args signature checked =>
      obtain rfl : checked = false := unchecked
      rfl
  | exitCheck | callWithBlock => cases unchecked
  | _ => rfl

/-- An emission of one value from one value. -/
theorem parallel_map {emission : Register → Emit Register} {value : Nat}
    (each : ∀ {operand}, operand < bound →
      Parallel name start start' bound (emission operand) (emission (name operand)) (Named name))
    (used : ∀ register ∈ values, register < bound)
    (inScope : ∀ operand ∈ [value], operand < values.length) :
    Parallel name start start' bound (emit.one (emission (register values value)))
      (emit.one (emission (register (values.map name) value))) (AllNamed name 1) := by
  have inScope := inScope value List.mem_cons_self
  rw [register_map inScope]
  exact parallel_one (each (used _ (register_mem inScope)))

theorem parallel_emitUnchecked {op : Op} (named : AllNamed name count bound values values')
    (inScope : ∀ operand ∈ op.operands, operand < count) :
    Parallel name start start' bound (op.emitUnchecked bridge linker values)
      (op.emitUnchecked bridge linker values') (AllNamed name op.yields) := by
  obtain ⟨rfl, rfl, used⟩ := named
  have named : ∀ operand ∈ op.operands,
      register (values.map name) operand = name (register values operand) :=
    fun operand member => register_map (inScope operand member)
  have operand_used : ∀ operand ∈ op.operands, register values operand < bound :=
    fun operand member => used _ (register_mem (inScope operand member))
  cases op with
  | const type bits => exact parallel_one (.const type bits)
  | constPointer bits => exact parallel_one (.const .pointer bits)
  | address pointer =>
      refine parallel_one ?_
      cases linker.address? pointer with
      | none => exact .throw _
      | some bits => exact .const .pointer bits
  | get record member =>
      exact parallel_map (bridge.parallel_getMember record member) used inScope
  | set record member base value =>
      simp only [operands, List.forall_mem_cons] at named operand_used
      simp only [emitUnchecked, emit, named]
      exact parallel_nothing
        (bridge.parallel_setMember record member operand_used.1 operand_used.2.1)
  | intToFixnum => exact parallel_map .intToFixnum used inScope
  | fixnumToInt => exact parallel_map (.unary _) used inScope
  | isFixnum => exact parallel_map .isFixnum used inScope
  | truthy => exact parallel_map .truthy used inScope
  | toBoolean _ type => exact parallel_map (.toBoolean · type) used inScope
  | builtinType => exact parallel_map bridge.parallel_builtinType used inScope
  | add => exact parallel_map (.unary _) used inScope
  | call service args signature checked =>
      have inScope : ∀ operand ∈ args, operand < values.length := inScope
      simp only [emitUnchecked, map_register_map inScope]
      exact bridge.parallel_callNative service signature (List.forall_mem_map.mpr operand_used)
  | exitCheck => exact .pure fun _ _ => ⟨rfl, rfl, List.forall_mem_nil _⟩
  | location line file id =>
      refine parallel_nothing ?_
      refine .bind (.ofExcept _) fun node node' _ _ same => ?_
      subst same
      refine .bind .draft fun before before' _ _ read => ?_
      rw [read.retained_eq]
      exact bridge.parallel_setSourceLocation _
  | callWithBlock bound receiver method args block =>
      simp only [operands, List.forall_mem_cons] at named operand_used
      simp only [emitUnchecked, named]
      exact parallel_one (bridge.parallel_callBlock bound method operand_used.1 operand_used.2.1
        operand_used.2.2.1)

theorem parallel_emit {op : Op} (named : AllNamed name count bound values values')
    (inScope : ∀ operand ∈ op.operands, operand < count) :
    Parallel name start start' bound (op.emit bridge linker values)
      (op.emit bridge linker values') (AllNamed name op.yields) := by
  cases checks : op.checks with
  | false =>
      rw [emit_of_not_checks checks, emit_of_not_checks checks]
      exact parallel_emitUnchecked named inScope
  | true =>
      rw [emit_of_checks checks, emit_of_checks checks]
      exact bridge.parallel_thenCheck (fun larger named => named.mono larger)
        (parallel_emitUnchecked named inScope)

/-- The registers of all values, in use and under new names, after operations in scope. -/
theorem parallel_emitAll {ops : List Op} (named : AllNamed name count bound values values')
    (inScope : InScope count ops) :
    Parallel name start start' bound (emitAll bridge linker values ops)
      (emitAll bridge linker values' ops) (AllNamed name (count + (ops.map yields).sum)) := by
  induction ops generalizing count bound values values' with
  | nil => exact .pure fun grown larger => named.mono larger
  | cons op ops induction =>
      refine .bind (parallel_emit named inScope.1) fun yielded yielded' grown larger named' => ?_
      rw [List.map_cons, List.sum_cons, ← Nat.add_assoc]
      exact induction ((named.mono larger).append named') inScope.2

/-! ## One check less -/

/-- Emit operations up to the exit check at the end of the last one. -/
def emitUpTo (bridge : Bridge) (linker : Linker) (values : List Register) (before : List Op)
    (op : Op) : Emit (List Register) := do
  let values ← emitAll bridge linker values before
  let yielded ← op.emitUnchecked bridge linker values
  pure (values ++ yielded)

variable {before after : List Op} {op : Op}

theorem emitAll_append (values : List Register) (before after : List Op) :
    emitAll bridge linker values (before ++ after) = (do
      let values ← emitAll bridge linker values before
      emitAll bridge linker values after) := by
  induction before generalizing values with
  | nil => rw [List.nil_append, emitAll, pure_bind]
  | cons op before induction =>
      rw [List.cons_append, emitAll, emitAll, bind_assoc]
      exact bind_congr fun yielded => induction _

theorem emitAll_of_checks (checks : op.checks = true) (values : List Register)
    (before after : List Op) :
    emitAll bridge linker values (before ++ op :: after) = (do
      let values ← emitUpTo bridge linker values before op
      bridge.exitCheck
      emitAll bridge linker values after) := by
  simp only [emitAll_append, emitAll, emit_of_checks checks, emitUpTo, Bridge.thenCheck, bind_assoc,
    pure_bind]

theorem inScope_append :
    InScope count (before ++ after) ↔
      InScope count before ∧ InScope (count + (before.map yields).sum) after := by
  induction before generalizing count with
  | nil => simp [InScope]
  | cons op before induction =>
      simp only [List.cons_append, InScope, induction, List.map_cons, List.sum_cons,
        Nat.add_assoc, and_assoc]

theorem parallel_emitUpTo (named : AllNamed name count bound values values')
    (inScope : InScope count before)
    (inScope' : ∀ operand ∈ op.operands, operand < count + (before.map yields).sum) :
    Parallel name start start' bound (emitUpTo bridge linker values before op)
      (emitUpTo bridge linker values' before op)
      (AllNamed name (count + (before.map yields).sum + op.yields)) := by
  refine .bind (parallel_emitAll named inScope) fun reached reached' grown _ named => ?_
  refine .bind (parallel_emitUnchecked named inScope') fun _ _ grown' larger named' => ?_
  exact .pure fun grown'' larger' => ((named.mono larger).append named').mono larger'

end Op

namespace FunctionSpec

/-- The code of a function that was emitted, if its types are right. -/
def assemble (spec : FunctionSpec) (emitted : Except BridgeError (List Register) × Draft) :
    Except BridgeError Code :=
  match emitted with
  | (.error error, _) => .error error
  | (.ok values, draft) =>
      let results := spec.results.map (Op.register values)
      if draft.verify results then
        .ok
          { name := spec.name, signature := spec.signature, instrs := draft.instrs, results,
            retained := draft.retained }
      else .error (.generation .rejected)

/-- The instructions of a function up to the exit check that ends an operation. -/
def front (bridge : Bridge) (linker : Linker) (spec : FunctionSpec) (before : List Op) (op : Op) :
    List Instr :=
  let values := List.range spec.signature.params.length
  ((Op.emitUpTo bridge linker values before op).run.run (.start spec.signature)).2.instrs

/-- The code of a function with the given operations, but without the exit check that ends the
one in the middle. -/
def withoutCheck (bridge : Bridge) (linker : Linker) (spec : FunctionSpec) (before : List Op)
    (op : Op) (after : List Op) : Except BridgeError Code :=
  let values := List.range spec.signature.params.length
  let emission : Emit (List Register) := do
    let values ← Op.emitUpTo bridge linker values before op
    Op.emitAll bridge linker values after
  spec.assemble (emission.run.run (.start spec.signature))

/-- Operations and results name values that are there. -/
def InScope (spec : FunctionSpec) : Prop :=
  Op.InScope spec.signature.params.length spec.body ∧
    ∀ result ∈ spec.results,
      result < spec.signature.params.length + (spec.body.map Op.yields).sum

instance (spec : FunctionSpec) : Decidable spec.InScope := inferInstanceAs (Decidable (_ ∧ _))

variable {bridge : Bridge} {linker : Linker} {spec : FunctionSpec} {before after : List Op}
  {op : Op}

theorem assemble_of_compile {compiler next : Compiler} {code : Code}
    (compiled : compiler.compile bridge linker spec = .ok (code, next)) :
    spec.assemble (spec.draft bridge linker) = .ok code := by
  rw [Compiler.compile] at compiled
  generalize spec.draft bridge linker = emitted at compiled ⊢
  obtain ⟨error | values, draft⟩ := emitted
  · cases compiled
  · rw [assemble]
    dsimp only at compiled
    split at compiled
    · split at compiled <;> cases compiled
    · split at compiled
      · rename_i verified
        cases compiled
        exact if_pos verified
      · cases compiled

theorem assemble_eq_ok {emitted : Except BridgeError (List Register) × Draft} {code : Code}
    (assembled : spec.assemble emitted = .ok code) :
    ∃ values draft, emitted = (.ok values, draft) ∧
      draft.verify (spec.results.map (Op.register values)) = true ∧
      code = { name := spec.name, signature := spec.signature, instrs := draft.instrs,
               results := spec.results.map (Op.register values), retained := draft.retained } := by
  obtain ⟨error | values, draft⟩ := emitted
  · cases assembled
  · rw [assemble] at assembled
    split at assembled
    · rename_i verified
      cases assembled
      exact ⟨values, draft, rfl, verified, rfl⟩
    · cases assembled

theorem code_eq_assemble (spec : FunctionSpec) :
    spec.code bridge linker = spec.assemble (spec.draft bridge linker) := by
  rw [code, Compiler.compile]
  rcases spec.draft bridge linker with ⟨error | values, draft⟩
  · rfl
  · rw [assemble]
    simp only [Dictionary.get?]
    split <;> rfl

end FunctionSpec

/-! ## Runs -/

/-- The instructions of an exit check in a function with these return types, and the register for
what it finds. -/
def Instr.exitCheck (status : Register) (returns : List IrType) : List Instr :=
  [.call (.helper .framePending) { params := [], returns := [.i32] } [],
    .leaveIf status (Emit.zeroBlock returns)]

/-- The zero of each type is the word zero. -/
theorem Immediate.value_zero (type : IrType) : (zero type).value = 0 := by
  cases type <;> decide

/-- A block of zeros returns a zero for each type. -/
theorem Emit.values_zeroBlock (types : List IrType) :
    (zeroBlock types).values = types.map fun _ => 0 := by
  refine List.ext_getElem (by simp [ReturnBlock.values, zeroBlock]) fun place _ bound => ?_
  have inside : place < types.length := by simpa using bound
  simp [ReturnBlock.values, zeroBlock, inside, Immediate.value_zero]

namespace Code

variable {ε : Type} (machine : Machine ε) {name : Register → Register}
  {registers registers' : List UInt64}

theorem valueOf_of_entry (entry : ∀ place, registers'[name place]? = registers[place]?)
    (register : Register) : valueOf registers' (name register) = valueOf registers register := by
  rw [valueOf, valueOf, List.getD_eq_getElem?_getD, List.getD_eq_getElem?_getD, entry]

theorem step_rename (entry : ∀ place, registers'[name place]? = registers[place]?)
    (instr : Instr) :
    step machine registers' (instr.rename name) = step machine registers instr := by
  cases instr <;>
    simp [Instr.rename, step, valueOf_of_entry entry, Function.comp_def]

theorem length_fitted (types : List IrType) (words : List UInt64) :
    (fitted types words).length = types.length := by
  simp [fitted]

/-- An instruction yields a value for each of its results. -/
theorem length_of_step {instr : Instr} {values : List UInt64} {state reached : State ε}
    (taken : step machine registers instr state = (.returned (.yielded values), reached)) :
    values.length = instr.resultTypes.length := by
  cases instr with
  | const | load | store | unary | locate =>
      cases taken
      rfl
  | call target signature args =>
      rw [step, Act.bind_apply] at taken
      split at taken <;> cases taken
      exact length_fitted ..
  | leaveIf value block =>
      rw [step] at taken
      split at taken <;> cases taken
      rfl

/-- At the end of its instructions a run has a register for each of their results. -/
theorem length_of_runFrom {instrs : List Instr} {final : List UInt64} {state reached : State ε}
    (ended : runFrom machine instrs registers state = (.returned (.finished final), reached)) :
    final.length = registers.length + (instrs.flatMap Instr.resultTypes).length := by
  induction instrs generalizing registers state with
  | nil =>
      cases ended
      rfl
  | cons instr instrs induction =>
      rw [runFrom, Act.bind_apply] at ended
      rcases taken : step machine registers instr state with ⟨(values | _) | _ | _, next⟩ <;>
        simp only [taken] at ended
      · rw [induction ended, List.length_append, length_of_step machine taken,
          List.flatMap_cons, List.length_append, Nat.add_assoc]
      · cases ended
      · cases ended
      · cases ended

theorem runFrom_append (front back : List Instr) (registers : List UInt64) :
    runFrom machine (front ++ back) registers = (do
      match ← runFrom machine front registers with
      | .finished registers => runFrom machine back registers
      | .returned values => pure (.returned values)) := by
  induction front generalizing registers with
  | nil => rw [List.nil_append, runFrom, pure_bind]
  | cons instr front induction =>
      rw [List.cons_append, runFrom, runFrom, bind_assoc]
      refine bind_congr fun move => ?_
      cases move with
      | yielded values => exact induction _
      | returned values => rw [pure_bind]

/-- At a check the function returns zeros if an exit is pending. Nothing changes either way. -/
theorem runFrom_exitCheck (returns : List IrType) (rest : List Instr) (registers : List UInt64)
    (state : State ε) :
    runFrom machine (Instr.exitCheck registers.length returns ++ rest) registers state =
      if state.thread.exitPending then (.returned (.returned (returns.map fun _ => 0)), state)
      else runFrom machine rest (registers ++ [0]) state := by
  have status (bits : UInt64) : valueOf (registers ++ [bits]) registers.length = bits := by
    simp [valueOf]
  rw [Instr.exitCheck, List.cons_append, List.cons_append, List.nil_append, runFrom_call,
    machine.callAddress_framePending, bind_assoc, Act.bind_apply, Act.thread_apply]
  have fitted_eq (bits : UInt64) : fitted [.i32] [bits] = [IrType.i32.cut bits] := rfl
  simp only [pure_bind, fitted_eq, runFrom_leaveIf, status, Emit.values_zeroBlock]
  cases state.thread.exitPending <;> rfl

/-- What a function returns: the values of its results, unless it has returned before its end. -/
def returning (results : List Register) : Progress → List UInt64
  | .finished registers => results.map (valueOf registers)
  | .returned values => values

theorem call_eq (code : Code) (args : List UInt64) :
    code.call machine args =
      returning code.results <$>
        runFrom machine code.instrs (fitted code.signature.params args) := by
  rw [call, map_eq_pure_bind]
  refine bind_congr fun progress => ?_
  cases progress <;> rfl

/-- The names of the registers make no difference to what is returned. -/
theorem returning_runFrom_rename (relabels : Relabels name registers registers')
    (results : List Register) (instrs : List Instr) :
    returning (results.map name) <$> runFrom machine (instrs.map (Instr.rename name)) registers' =
      returning results <$> runFrom machine instrs registers := by
  induction instrs generalizing registers registers' with
  | nil =>
      simp only [List.map_nil, runFrom, map_pure, returning, List.map_map]
      congr 2
      funext register
      exact valueOf_of_entry relabels.entry register
  | cons instr instrs induction =>
      rw [List.map_cons, runFrom, runFrom, map_bind, map_bind, step_rename machine relabels.entry]
      refine bind_congr fun move => ?_
      cases move with
      | yielded values => exact induction (relabels.append values)
      | returned values => rw [map_pure, map_pure]; rfl

/-- The function with an exit check between two parts of its instructions. -/
def checkedBetween (front back : List Instr) (code : Code) : Code :=
  let status := code.signature.params.length + (front.flatMap Instr.resultTypes).length
  { code with
    instrs := front ++ Instr.exitCheck status code.signature.returns ++
      back.map (Instr.rename (skip status))
    results := code.results.map (skip status) }

variable {code : Code} {front back : List Instr} (args : List UInt64) {state reached : State ε}

/-- A function in two parts: the second one, unless it returns in the first. -/
theorem call_of_append (instrs_eq : code.instrs = front ++ back) :
    code.call machine args = (do
      match ← runFrom machine front (fitted code.signature.params args) with
      | .finished registers => returning code.results <$> runFrom machine back registers
      | .returned values => pure values) := by
  rw [call_eq, instrs_eq, runFrom_append, map_bind]
  refine bind_congr fun progress => ?_
  cases progress with
  | finished => rfl
  | returned => rw [map_pure]; rfl

/-- A check that is reached with an exit pending. -/
theorem call_checkedBetween_of_pending
    (atCheck : runFrom machine front (fitted code.signature.params args) state =
      (.returned (.finished registers), reached))
    (pending : reached.thread.exitPending = true) :
    (code.checkedBetween front back).call machine args state =
      (.returned (code.signature.returns.map fun _ => 0), reached) := by
  have status := length_of_runFrom machine atCheck
  rw [length_fitted] at status
  rw [call_of_append machine args (List.append_assoc ..)]
  dsimp only [checkedBetween]
  rw [Act.bind_apply, atCheck, ← status]
  dsimp only
  rw [map_eq_pure_bind, Act.bind_apply, runFrom_exitCheck, if_pos pending]
  rfl

/-- A check that is not reached, or reached without an exit pending. -/
theorem call_checkedBetween_of_clear (instrs_eq : code.instrs = front ++ back)
    (clear : ∀ registers reached,
      runFrom machine front (fitted code.signature.params args) state =
          (.returned (.finished registers), reached) →
        reached.thread.exitPending = false) :
    (code.checkedBetween front back).call machine args state = code.call machine args state := by
  rw [call_of_append machine args (List.append_assoc ..), call_of_append machine args instrs_eq]
  dsimp only [checkedBetween]
  rw [Act.bind_apply, Act.bind_apply]
  rcases atCheck : runFrom machine front (fitted code.signature.params args) state with
    ⟨(registers | _) | _ | _, reached⟩
  · have status := length_of_runFrom machine atCheck
    rw [length_fitted] at status
    -- The check leaves a zero in the one register that the names behind it skip.
    have renamed := returning_runFrom_rename machine (Relabels.skip registers 0) code.results back
    dsimp only
    rw [← status, ← renamed, map_eq_pure_bind, map_eq_pure_bind, Act.bind_apply, Act.bind_apply,
      runFrom_exitCheck, clear registers reached atCheck]
    rfl
  · rfl
  · rfl
  · rfl

end Code

/-! ## Functions with and without a check -/

namespace Draft

variable {name : Register → Register} {start start' : List Instr} {draft draft' : Draft}

theorem Renamed.refl (draft : Draft) : Renamed id draft.instrs draft.instrs draft draft :=
  ⟨rfl, rfl, .id _, [], (List.append_nil _).symm, (List.append_nil _).symm⟩

/-- Well-typed drafts are so under all names. -/
theorem Renamed.verify {results : List Register}
    (renamed : Renamed name start start' draft draft')
    (kept : ∀ instr ∈ start, instr.rename name ∈ start')
    (verified : draft'.verify (results.map name) = true) : draft.verify results = true := by
  obtain ⟨added, grown, grown'⟩ := renamed.grown
  simp only [Draft.verify, Bool.and_eq_true, List.all_eq_true, beq_iff_eq, List.map_map,
    renamed.signature_eq] at verified ⊢
  obtain ⟨typed, returned⟩ := verified
  refine ⟨fun instr member => ?_, ?_⟩
  · rw [← Instr.wellTyped_rename renamed.types.entry]
    refine typed _ ?_
    rw [grown']
    rcases List.mem_append.mp (grown ▸ member) with old | new
    · exact List.mem_append_left _ (kept instr old)
    · exact List.mem_append_right _ (List.mem_map_of_mem new)
  · rw [← returned]
    exact List.map_congr_left fun register _ => (renamed.types.entry register).symm

/-- The draft with an exit check at its end. -/
def checked (draft : Draft) : Draft :=
  (draft.append (.call (.helper .framePending) { params := [], returns := [.i32] } [])).append
    (.leaveIf draft.types.length (Emit.zeroBlock draft.signature.returns))

theorem instrs_checked (draft : Draft) :
    draft.checked.instrs =
      draft.instrs ++ Instr.exitCheck draft.types.length draft.signature.returns :=
  List.append_assoc ..

/-- Registers behind the check have another number from then on. -/
theorem Renamed.checked (draft : Draft) :
    Renamed (skip draft.types.length) draft.instrs draft.checked.instrs draft draft.checked where
  signature_eq := rfl
  retained_eq := rfl
  types := by
    have types_eq : draft.checked.types = draft.types ++ [.i32] := List.append_nil _
    rw [types_eq]
    exact .skip draft.types .i32
  grown := ⟨[], (List.append_nil _).symm, (List.append_nil _).symm⟩

theorem InOrder.rename_mem_checked (inOrder : draft.InOrder) :
    ∀ instr ∈ draft.instrs, instr.rename (skip draft.types.length) ∈ draft.checked.instrs := by
  intro instr member
  rw [Instr.rename_eq_self fun register operand => skip_of_lt (inOrder.used instr member _ operand),
    instrs_checked]
  exact List.mem_append_left _ member

end Draft

theorem Bridge.BindsHelpers.run_exitCheck {bridge : Bridge} (binds : bridge.BindsHelpers)
    (draft : Draft) : bridge.exitCheck.run.run draft = (.ok (), draft.checked) := by
  rw [exitCheck, binds .framePending, Emit.run_bind_of_ok (Emit.run_ofExcept_ok ..)]
  exact Emit.run_leaveIfPending ..

namespace FunctionSpec

open Emit

variable {bridge : Bridge} {linker : Linker} {spec : FunctionSpec} {before after : List Op}
  {op : Op}

/-- Up to a check the registers are in order, and all values are among them. -/
theorem emitUpTo_inOrder (bridge : Bridge) (linker : Linker)
    (inScope : Op.InScope spec.signature.params.length (before ++ op :: after)) :
    let emission := Op.emitUpTo bridge linker (List.range spec.signature.params.length) before op
    (∃ error, emission.FailsWith (.start spec.signature) error) ∨
      ∃ values draft, emission.run.run (.start spec.signature) = (.ok values, draft) ∧
        draft.InOrder ∧ draft.signature = spec.signature ∧
        (∀ register ∈ values, register < draft.types.length) ∧
        Op.InScope values.length after ∧
        values.length + (after.map Op.yields).sum =
          spec.signature.params.length + ((before ++ op :: after).map Op.yields).sum := by
  intro emission
  obtain ⟨inScope, operands, inScope'⟩ := Op.inScope_append.mp inScope
  have named : AllNamed id spec.signature.params.length spec.signature.params.length
      (List.range spec.signature.params.length) (List.range spec.signature.params.length) :=
    ⟨(List.map_id _).symm, List.length_range, fun register member => List.mem_range.mp member⟩
  rcases Op.parallel_emitUpTo named inScope operands _ _ (.start spec.signature)
      (.refl (.start spec.signature)) (Nat.le_refl _) with
    ⟨error, failed, -⟩ | ⟨values, _, draft, _, ended, -, inOrder, -, grown, named⟩
  · exact .inl ⟨error, failed⟩
  · refine .inr ⟨values, draft, ended, inOrder, grown.signature_eq, named.used, ?_, ?_⟩
    · rw [named.length_eq]
      exact inScope'
    · rw [named.length_eq, List.map_append, List.sum_append, List.map_cons, List.sum_cons]
      simp only [Nat.add_assoc]

/-- A function without one of its checks has code if the function has, and the check makes all the
difference. -/
theorem withoutCheck_eq_ok (binds : bridge.BindsHelpers) (inScope : spec.InScope)
    (body : spec.body = before ++ op :: after) (checks : op.checks = true) {code : Code}
    (assembled : spec.assemble (spec.draft bridge linker) = .ok code) :
    ∃ unchecked back,
      spec.withoutCheck bridge linker before op after = .ok unchecked ∧
      unchecked.signature = spec.signature ∧
      unchecked.instrs = spec.front bridge linker before op ++ back ∧
      code = unchecked.checkedBetween (spec.front bridge linker before op) back := by
  obtain ⟨results, final', emitted, verified, rfl⟩ := assemble_eq_ok assembled
  rw [FunctionSpec.draft, body, Op.emitAll_of_checks checks] at emitted
  rw [FunctionSpec.InScope, body] at inScope
  rcases emitUpTo_inOrder bridge linker inScope.1 with
    ⟨error, reached, failed⟩ | ⟨values, draft, upTo, inOrder, signature_eq, used, inScope', count⟩
  · rw [run_bind_of_error failed] at emitted
    cases emitted
  · rw [run_bind_of_ok upTo, run_bind_of_ok (binds.run_exitCheck draft)] at emitted
    -- No value has a register behind the check yet, so the rest starts from the same names.
    have fixed : values.map (skip draft.types.length) = values :=
      (List.map_congr_left fun register member => skip_of_lt (used register member)).trans
        (List.map_id' values)
    have named : AllNamed (skip draft.types.length) values.length draft.types.length values
        values := ⟨fixed.symm, rfl, used⟩
    rcases Op.parallel_emitAll named inScope' draft draft.checked inOrder (.checked draft)
        (Nat.le_refl _) with
      ⟨error, -, reached, failed⟩ |
        ⟨names, names', final, reached, ended, ended', -, renamed, grown, named⟩
    · rw [failed] at emitted
      cases emitted
    · rw [ended'] at emitted
      cases emitted
      have resultsInScope : ∀ result ∈ spec.results, result < names.length := by
        rw [named.length_eq, count]
        exact inScope.2
      rw [named.map_eq, Op.map_register_map resultsInScope] at verified ⊢
      obtain ⟨added, instrs_eq, instrs_eq'⟩ := renamed.grown
      have front_eq : spec.front bridge linker before op = draft.instrs := by
        rw [front, upTo]
      have status : spec.signature.params.length +
          (draft.instrs.flatMap Instr.resultTypes).length = draft.types.length := by
        rw [inOrder.types_eq, signature_eq, List.length_append]
      rw [front_eq]
      let unchecked : Code :=
        { name := spec.name, signature := spec.signature, instrs := final.instrs,
          results := spec.results.map (Op.register names), retained := final.retained }
      refine ⟨unchecked, added, ?_, rfl, instrs_eq, ?_⟩
      · rw [withoutCheck, run_bind_of_ok upTo, ended]
        exact if_pos (renamed.verify inOrder.rename_mem_checked verified)
      · simp only [Code.checkedBetween, unchecked, status, instrs_eq', draft.instrs_checked,
          signature_eq, renamed.retained_eq]

end FunctionSpec

/-! ## What a check cuts off -/

namespace Op

/-- Operations that do the same without an exit check, if there are any. -/
def unchecked? : Op → Option (List Op)
  | .exitCheck => some []
  | .call name args signature _ => some [.call name args signature false]
  | _ => none

theorem emitAll_unchecked {bridge : Bridge} {linker : Linker} {op : Op} {ops : List Op}
    (found : op.unchecked? = some ops) (values : List Register) (before after : List Op) :
    emitAll bridge linker values (before ++ ops ++ after) = (do
      let values ← emitUpTo bridge linker values before op
      emitAll bridge linker values after) := by
  rw [List.append_assoc, emitAll_append, emitUpTo, bind_assoc]
  refine bind_congr fun values => ?_
  cases op with
  | exitCheck =>
      cases found
      simp only [emitUnchecked, pure_bind, List.append_nil, List.nil_append]
  | call name args signature =>
      cases found
      rw [bind_assoc]
      refine bind_congr fun yielded => ?_
      rw [pure_bind]
      rfl
  | _ => cases found

end Op

theorem FunctionSpec.code_unchecked {bridge : Bridge} {linker : Linker} {op : Op} {ops : List Op}
    (found : op.unchecked? = some ops) (spec : FunctionSpec) (before after : List Op) :
    ({ spec with body := before ++ ops ++ after } : FunctionSpec).code bridge linker =
      spec.withoutCheck bridge linker before op after := by
  rw [code_eq_assemble, draft, withoutCheck, ← Op.emitAll_unchecked found]
  rfl

/-- A compiled function that reaches one of its exit checks with an exit pending returns zeros, and
the state is the one that it was in there. If nothing is pending there, or the check is not reached,
the call is that of the function without the check. Where a description says the same without the
check, this is the function that it compiles to. -/
theorem Bridge.exitCheck_cuts_rest (config : BuildConfig) (steps : List BuildStep)
    (slots : LocationSlots) (hasEvaluator : Bool) (linker : Linker) {spec : FunctionSpec}
    (inScope : spec.InScope) {before after : List Op} {op : Op}
    (body : spec.body = before ++ op :: after) (checks : op.checks = true)
    {compiler next : Compiler} {code : Code}
    (compiled :
      compiler.compile (build config steps slots hasEvaluator) linker spec = .ok (code, next)) :
    let bridge := build config steps slots hasEvaluator
    ∃ unchecked,
      spec.withoutCheck bridge linker before op after = .ok unchecked ∧
      (∀ ops, op.unchecked? = some ops →
        ({ spec with body := before ++ ops ++ after } : FunctionSpec).code bridge linker =
          .ok unchecked) ∧
      ∀ {ε : Type} (machine : Machine ε) (args : List UInt64) (state : State ε),
        let atCheck := Code.runFrom machine (spec.front bridge linker before op)
          (Code.fitted spec.signature.params args) state
        (∀ registers reached, atCheck = (.returned (.finished registers), reached) →
          reached.thread.exitPending = true →
            code.call machine args state =
              (.returned (spec.signature.returns.map fun _ => 0), reached)) ∧
        ((∀ registers reached, atCheck = (.returned (.finished registers), reached) →
            reached.thread.exitPending = false) →
          code.call machine args state = unchecked.call machine args state) := by
  intro bridge
  have binds : bridge.BindsHelpers := build_bindsHelpers config steps slots hasEvaluator
  obtain ⟨unchecked, back, without, signature_eq, instrs_eq, rfl⟩ :=
    FunctionSpec.withoutCheck_eq_ok binds inScope body checks
      (FunctionSpec.assemble_of_compile compiled)
  refine ⟨unchecked, without, fun ops found => ?_, fun machine args state => ?_⟩
  · rw [FunctionSpec.code_unchecked found, without]
  · rw [← signature_eq]
    exact ⟨fun registers reached => Code.call_checkedBetween_of_pending machine args,
      Code.call_checkedBetween_of_clear machine args instrs_eq⟩

/-- A function that calls a service for two words and, unless that leaves an exit pending, notes a
location and returns words made of them. -/
def FunctionSpec.reporting (checked : Bool) : FunctionSpec :=
  { name := "report"
    signature := { params := [.pointer], returns := [.pointer, .pointer] }
    body :=
      [.call "split" [0] (some { params := [.pointer], returns := [.pointer, .pointer] }) checked,
        .location 3 "report.rb" 1, .add 2 2]
    results := [1, 3] }

/-- A machine whose services return two words, and that counts what is stored to the location. -/
def Machine.counting : Machine Nat :=
  { Machine.idle with
    routine := fun _ _ => pure [5, 7]
    locate := fun _ _ count => count + 1 }

/-- With an exit pending nothing is noted and zeros are returned, in the same state; otherwise the
function notes the location and returns its words, as it does without the check. -/
theorem Bridge.exitCheck_cuts_rest_reporting :
    let bridge := build .default [.function "split" (.raw 1)] .own false
    let leaving : Thread := { Thread.fresh with pending := some (.exit 1 .break) }
    ∃ code unchecked,
      (FunctionSpec.reporting true).code bridge .idle = .ok code ∧
      (FunctionSpec.reporting false).code bridge .idle = .ok unchecked ∧
      code.call .counting [0] ⟨leaving, 0⟩ = (.returned [0, 0], ⟨leaving, 0⟩) ∧
      code.call .counting [0] ⟨.fresh, 0⟩ = unchecked.call .counting [0] ⟨.fresh, 0⟩ ∧
      unchecked.call .counting [0] ⟨.fresh, 0⟩ = (.returned [5, 9], ⟨.fresh, 2⟩) := by
  intro bridge leaving
  obtain ⟨⟨code, next⟩, compiled⟩ :
      ∃ compiled, Compiler.compile {} bridge .idle (.reporting true) = .ok compiled := ⟨_, by rfl⟩
  obtain ⟨plain, compiled', called⟩ :
      ∃ plain, (FunctionSpec.reporting false).code bridge .idle = .ok plain ∧
        plain.call .counting [0] ⟨.fresh, 0⟩ = (.returned [5, 9], ⟨.fresh, 2⟩) :=
    ⟨_, by rfl, by rfl⟩
  have inScope : (FunctionSpec.reporting true).InScope := by decide +kernel
  have body : (FunctionSpec.reporting true).body =
      [] ++ .call "split" [0] _ true :: [.location 3 "report.rb" 1, .add 2 2] := rfl
  obtain ⟨unchecked, -, same, cut⟩ :=
    exitCheck_cuts_rest .default [.function "split" (.raw 1)] .own false .idle inScope body rfl
      compiled
  obtain rfl : plain = unchecked := Except.ok.inj (compiled'.symm.trans (same _ rfl))
  refine ⟨code, plain, ?_, compiled', ?_, ?_, called⟩
  · rw [FunctionSpec.code, compiled]
    rfl
  · exact (cut .counting [0] ⟨leaving, 0⟩).1 [0, 5, 7] _ rfl rfl
  · refine (cut .counting [0] ⟨.fresh, 0⟩).2 fun registers reached ended => ?_
    cases ended
    rfl

end HostBridge
