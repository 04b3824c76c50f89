import HostBridge.Proofs.Code.ExitCheck
import Mathlib.Data.Nat.Bitwise

/-!
# Operations on host values

Generated code tags integers, takes tags off and tests values with a few instructions of its own.
Wherever such an operation is emitted, its instructions compute from the operand what the host value
says, and they leave the machine alone. Tagging loses the highest bit of a word, so that a word
comes back from its tagged form exactly if its two highest bits agree.
-/

namespace HostBridge

/-! ## Words -/

namespace HostValue

theorem toNat_and_one (word : UInt64) : (word &&& 1).toNat = word.toNat % 2 := by
  rw [UInt64.toNat_and]
  exact Nat.and_one_is_mod _

theorem isFixnum_iff (value : HostValue) :
    value.isFixnum = Bool.true ↔ value.bits &&& 1 ≠ 0 := by
  rw [isFixnum, beq_iff_eq, ne_eq, ← UInt64.toNat_inj, ← UInt64.toNat_inj, toNat_and_one]
  exact Nat.mod_two_ne_zero.symm

/-- The word for `nil` is a single bit, and that for `false` is no bit at all. -/
theorem and_not_nil_eq_zero_iff (word : UInt64) :
    word &&& ~~~nil.bits = 0 ↔ word = false.bits ∨ word = nil.bits := by
  constructor
  · intro masked
    have others : word.toBitVec &&& ~~~BitVec.twoPow 64 2 = 0#64 :=
      congrArg UInt64.toBitVec masked
    have only : word.toBitVec = word.toBitVec &&& BitVec.twoPow 64 2 := by
      calc word.toBitVec
        _ = word.toBitVec &&& (BitVec.twoPow 64 2 ||| ~~~BitVec.twoPow 64 2) := by
            rw [BitVec.or_not_self, BitVec.and_allOnes]
        _ = word.toBitVec &&& BitVec.twoPow 64 2 := by
            rw [BitVec.and_or_distrib_left, others, BitVec.or_zero]
    rw [BitVec.and_twoPow] at only
    split at only
    · exact .inr (UInt64.toBitVec_inj.mp only)
    · exact .inl (UInt64.toBitVec_inj.mp only)
  · rintro (rfl | rfl) <;> rfl

theorem truthy_iff (value : HostValue) :
    value.truthy = Bool.true ↔ value ≠ false ∧ value ≠ nil := by
  rw [truthy, bne_iff_ne, ne_eq, and_not_nil_eq_zero_iff, not_or]
  cases value
  simp only [ne_eq, false, nil, mk.injEq]

theorem toNat_ofFixnum (number : Int64) :
    (ofFixnum number).bits.toNat = 2 * number.toUInt64.toNat % 2 ^ 64 + 1 := by
  have even : 2 * number.toUInt64.toNat % 2 ^ 64 = 2 ^ 1 * (number.toUInt64.toNat % 2 ^ 63) := by
    omega
  have one : (1 : UInt64).toNat % 64 = 1 := rfl
  rw [ofFixnum, UInt64.toNat_or, UInt64.toNat_shiftLeft, one, Nat.shiftLeft_eq, Nat.mul_comm,
    Nat.pow_one, even]
  exact (Nat.two_pow_add_eq_or_of_lt (by decide) _).symm

theorem isFixnum_ofFixnum (number : Int64) : (ofFixnum number).isFixnum = Bool.true := by
  have odd : ((ofFixnum number).bits &&& 1).toNat = 1 := by
    rw [toNat_and_one, toNat_ofFixnum]
    omega
  rw [isFixnum, beq_iff_eq, ← UInt64.toNat_inj]
  exact odd

/-- A value has a number exactly if the test for one holds. -/
theorem isSome_fixnum? (value : HostValue) : value.fixnum?.isSome = value.isFixnum := by
  rw [fixnum?]
  cases value.isFixnum <;> rfl

/-- Shifting to the right halves the signed value. -/
theorem toInt_untagged (word : UInt64) : (word.toInt64 >>> 1).toInt = word.toInt64.toInt / 2 := by
  change (word.toBitVec.sshiftRight 1).toInt = _
  rw [BitVec.toInt_sshiftRight, Int.shiftRight_eq_div_pow]
  rfl

theorem toInt_eq (word : UInt64) :
    word.toInt64.toInt = if 2 * word.toNat < 2 ^ 64 then (word.toNat : Int)
      else word.toNat - (2 ^ 64 : Nat) :=
  BitVec.toInt_eq_toNat_cond _

/-- A number comes back from its tagged form exactly if 63 bits are enough for it. -/
theorem fixnum?_ofFixnum_iff (number : Int64) :
    (ofFixnum number).fixnum? = some number ↔
      -2 ^ 62 ≤ number.toInt ∧ number.toInt < 2 ^ 62 := by
  have tagged := toInt_eq (ofFixnum number).bits
  have plain := toInt_eq number.toUInt64
  rw [toNat_ofFixnum] at tagged
  rw [fixnum?, if_pos (isFixnum_ofFixnum number), Option.some.injEq, ← Int64.toInt_inj,
    toInt_untagged, tagged]
  have bound := number.toUInt64.toNat_lt
  change number.toInt = _ at plain
  rw [plain]
  split <;> split <;> omega

end HostValue

/-! ## Emitted code -/

namespace Emit

/-- What an emission adds to a draft. From any values of the registers so far, the instructions
compute a function of the operand into the register `result`, and they leave the machine alone. -/
structure Adds (draft : Draft) (operand : Register) (emission : Emit Register) (yields : IrType)
    (function : UInt64 → UInt64) (instrs : List Instr) (types : List IrType)
    (result : Register) : Prop where
  /-- The draft grows by the instructions and by the types of their values. -/
  emitted : emission.run.run draft =
    (.ok result,
      { draft with instrs := draft.instrs ++ instrs, types := draft.types ++ types })
  /-- The result has its type. -/
  typed : (draft.types ++ types)[result]? = some yields
  /-- The instructions are well typed, whatever follows them. -/
  wellTyped : ∀ later, ∀ instr ∈ instrs,
    instr.wellTyped draft.signature.returns (draft.types ++ types ++ later) = true
  /-- A run of the instructions finishes with the function of the operand as its result. -/
  computes : ∀ (ε : Type) (machine : Machine ε) (registers : List UInt64),
    registers.length = draft.types.length →
      ∃ values, values.length = types.length ∧
        Code.runFrom machine instrs registers = pure (.finished (registers ++ values)) ∧
        Code.valueOf (registers ++ values) result = function (Code.valueOf registers operand)

/-- In every draft, the emission adds code that computes a function from an operand of type
`given` to a result of type `yields`. -/
def Computes (emission : Register → Emit Register) (given yields : IrType)
    (function : UInt64 → UInt64) : Prop :=
  ∀ (draft : Draft) (operand : Register), draft.types[operand]? = some given →
    ∃ instrs types result, Adds draft operand (emission operand) yields function instrs types result

namespace Computes

variable {emission next : Register → Emit Register} {given between yields : IrType}
  {function further : UInt64 → UInt64}

theorem unary (operation : Operation) {type : IrType} (applies : operation.applies type = true) :
    Computes (Emit.unary operation) type (operation.resultType type) (operation.eval type) := by
  intro draft operand typed
  have type_eq : draft.typeOf operand = type := by rw [Draft.typeOf, typed, Option.getD_some]
  obtain ⟨inside, -⟩ := List.getElem?_eq_some_iff.mp typed
  refine ⟨[.unary operation type operand], [operation.resultType type], draft.types.length,
    ⟨?_, ?_, ?_, ?_⟩⟩
  · rw [Emit.unary, run_bind_of_ok (run_draft draft), type_eq, run_single rfl]
    rfl
  · exact List.getElem?_concat_length
  · intro later instr mem
    obtain rfl := List.mem_singleton.mp mem
    rw [Instr.wellTyped, List.append_assoc, List.getElem?_append_left inside, typed, applies,
      beq_self_eq_true]
    rfl
  · intro ε machine registers length_eq
    refine ⟨[operation.eval type (Code.valueOf registers operand)], rfl, rfl, ?_⟩
    rw [Code.valueOf, ← length_eq, List.getD_eq_getElem?_getD, List.getElem?_concat_length]
    rfl

/-- The result of one emission can be the operand of another one. -/
theorem comp (first : Computes emission given between function)
    (second : Computes next between yields further) :
    Computes (fun operand => emission operand >>= next) given yields (further ∘ function) := by
  intro draft operand typed
  obtain ⟨instrs, types, middle, one⟩ := first draft operand typed
  obtain ⟨instrs', types', result, two⟩ := second
    { draft with instrs := draft.instrs ++ instrs, types := draft.types ++ types } middle one.typed
  refine ⟨instrs ++ instrs', types ++ types', result, ⟨?_, ?_, ?_, ?_⟩⟩
  · rw [run_bind_of_ok one.emitted, two.emitted, List.append_assoc, List.append_assoc]
  · rw [← List.append_assoc]
    exact two.typed
  · intro later instr mem
    rw [← List.append_assoc]
    rcases List.mem_append.mp mem with front | back
    · rw [List.append_assoc]
      exact one.wellTyped (types' ++ later) instr front
    · exact two.wellTyped later instr back
  · intro ε machine registers length_eq
    obtain ⟨values, count, ran, value_eq⟩ := one.computes ε machine registers length_eq
    have grown : (registers ++ values).length = (draft.types ++ types).length := by
      rw [List.length_append, List.length_append, length_eq, count]
    obtain ⟨values', count', ran', value_eq'⟩ := two.computes ε machine _ grown
    refine ⟨values ++ values', ?_, ?_, ?_⟩
    · rw [List.length_append, List.length_append, count, count']
    · rw [Code.runFrom_append, ran, pure_bind, ← List.append_assoc]
      exact ran'
    · rw [← List.append_assoc, value_eq', value_eq]
      rfl

theorem congr (computes : Computes emission given yields function)
    (same : ∀ word, function word = further word) : Computes emission given yields further :=
  funext same ▸ computes

end Computes

theorem computes_intToFixnum :
    Computes intToFixnum .i64 .i64 fun word => (HostValue.ofFixnum word.toInt64).bits :=
  (Computes.unary (.shiftLeft 1) rfl).comp (Computes.unary (.or 1) rfl)

theorem computes_fixnumToInt :
    Computes fixnumToInt .i64 .i64 fun word => (word.toInt64 >>> 1).toUInt64 :=
  Computes.unary (.shiftRight 1) rfl

theorem computes_isFixnum :
    Computes isFixnum .i64 .i8 fun word => if (HostValue.mk word).isFixnum then 1 else 0 := by
  refine ((Computes.unary (.and 1) rfl).comp (Computes.unary .nonZero rfl)).congr fun word => ?_
  change (if word &&& 1 = 0 then (0 : UInt64) else 1) = _
  simp only [HostValue.isFixnum_iff, ne_eq, ite_not]

theorem computes_truthy :
    Computes truthy .i64 .i8 fun word => if (HostValue.mk word).truthy then 1 else 0 := by
  refine ((Computes.unary (.and _) rfl).comp (Computes.unary .nonZero rfl)).congr fun word => ?_
  change (if word &&& ~~~HostValue.nil.bits = 0 then (0 : UInt64) else 1) = _
  simp only [HostValue.truthy, bne_iff_ne, ne_eq, ite_not]

theorem computes_toBoolean {given type : IrType} (condition : given.isInteger = true)
    (integer : type.isInteger = true) (wide : IrType.i8.bytes < type.bytes) :
    Computes (toBoolean · type) given type fun word => (HostValue.ofBool (word != 0)).bits := by
  have widens : (Operation.extend type).applies .i8 = true := by
    rw [Operation.applies, integer, decide_eq_true wide]
    rfl
  refine ((Computes.unary .nonZero condition).comp
    ((Computes.unary (.extend type) widens).comp
      (Computes.unary (.shiftLeft 1) integer))).congr fun word => ?_
  change type.cut ((if word = 0 then (0 : UInt64) else 1) <<< (1 : UInt64)) = _
  by_cases unset : word = 0
  · rw [if_pos unset, unset]
    cases type <;> rfl
  · rw [if_neg unset, HostValue.ofBool, if_pos (bne_iff_ne.mpr unset)]
    cases type <;> rfl

/-- The operations on host values that are emitted into generated code agree with host values, in
every draft and on every word. Tagging and tests are those of host values; taking the tag off gives
the small integer where there is one, which is wherever the test says so; and a condition of any
integer type becomes the word for its truth value, in any wider type. A condition that was made a
host value is truthy exactly if it holds, and a word comes back from its tagged form exactly if 63
bits are enough for its signed value. -/
theorem valueOperations_agree :
    Computes intToFixnum .i64 .i64 (fun word => (HostValue.ofFixnum word.toInt64).bits) ∧
      Computes isFixnum .i64 .i8 (fun word => if (HostValue.mk word).isFixnum then 1 else 0) ∧
      (∃ untagged, Computes fixnumToInt .i64 .i64 untagged ∧
        ∀ word number, (HostValue.mk word).fixnum? = some number →
          untagged word = number.toUInt64) ∧
      (∀ value : HostValue, value.fixnum?.isSome = value.isFixnum) ∧
      Computes truthy .i64 .i8 (fun word => if (HostValue.mk word).truthy then 1 else 0) ∧
      (∀ value : HostValue, value.truthy = true ↔ value ≠ .false ∧ value ≠ .nil) ∧
      (∀ given type : IrType, given.isInteger = true → type.isInteger = true →
        IrType.i8.bytes < type.bytes →
          Computes (toBoolean · type) given type
            (fun word => (HostValue.ofBool (word != 0)).bits)) ∧
      (∀ given : IrType, given.isInteger = true →
        Computes (fun condition => do truthy (← toBoolean condition .i64)) given .i8
          (fun word => if word = 0 then 0 else 1)) ∧
      ∃ back, Computes (fun value => do fixnumToInt (← intToFixnum value)) .i64 .i64 back ∧
        ∀ word, back word = word ↔ -2 ^ 62 ≤ word.toInt64.toInt ∧ word.toInt64.toInt < 2 ^ 62 := by
  refine ⟨computes_intToFixnum, computes_isFixnum, ⟨_, computes_fixnumToInt, ?_⟩,
    HostValue.isSome_fixnum?, computes_truthy, HostValue.truthy_iff,
    fun _ _ => computes_toBoolean, ?_, ⟨_, computes_intToFixnum.comp computes_fixnumToInt, ?_⟩⟩
  · intro word number found
    rw [HostValue.fixnum?] at found
    split at found
    · rw [← Option.some.inj found]
    · cases found
  · intro given condition
    have told := (computes_toBoolean condition rfl (by decide)).comp computes_truthy
    refine told.congr fun word => ?_
    by_cases unset : word = 0
    · rw [if_pos unset, unset]
      rfl
    · have holds : (word != 0) = true := bne_iff_ne.mpr unset
      rw [Function.comp_apply, if_neg unset, holds]
      rfl
  · intro word
    rw [← HostValue.fixnum?_ofFixnum_iff, HostValue.fixnum?,
      if_pos (HostValue.isFixnum_ofFixnum _), Option.some.injEq]
    exact ⟨congrArg UInt64.toInt64, congrArg Int64.toUInt64⟩

/-- A function with a condition of sixteen bits. -/
def shortCondition : Draft := .start { params := [.i16], returns := [.i64] }

theorem valueOperations_agree_shortCondition :
    (∃ instrs types result,
      (toBoolean 0 .i64).run.run shortCondition =
          (.ok result, { shortCondition with instrs, types := .i16 :: types }) ∧
        ∃ values,
          Code.runFrom (Machine.idle : Machine Unit) instrs [5] =
              pure (.finished (5 :: values)) ∧
          Code.valueOf (5 :: values) result = HostValue.true.bits) ∧
      ∃ back, Computes (fun value => do fixnumToInt (← intToFixnum value)) .i64 .i64 back ∧
        back 0x3fffffffffffffff = 0x3fffffffffffffff ∧
        back 0x4000000000000000 ≠ 0x4000000000000000 ∧
        back 0xc000000000000000 = 0xc000000000000000 := by
  obtain ⟨-, -, -, -, -, -, booleans, -, back, computes, back_iff⟩ := valueOperations_agree
  refine ⟨?_, back, computes, (back_iff _).mpr (by decide), fun same => ?_,
    (back_iff _).mpr (by decide)⟩
  · obtain ⟨instrs, types, result, added⟩ :=
      booleans .i16 .i64 rfl rfl (by decide) shortCondition 0 rfl
    obtain ⟨values, -, ran, value_eq⟩ := added.computes Unit Machine.idle [5] rfl
    exact ⟨instrs, types, result, added.emitted, values, ran, value_eq⟩
  · have range := (back_iff _).mp same
    revert range
    decide

end Emit

end HostBridge
