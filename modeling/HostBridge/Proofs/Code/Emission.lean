import HostBridge.Proofs.Bridge
import HostBridge.Proofs.Code.Accessor

/-!
# Failed emissions

An operation that fails leaves the function under construction as it was, so that its construction
can go on as if the operation had not been tried. Most operations look everything up before they add
an instruction. Those that end with an exit check look up a helper afterwards; they cannot fail
there, because every bridge that was built binds the helpers, and the catalogue knows a result of
each helper that is called for its value.
-/

namespace HostBridge

namespace Emit

variable {α β : Type} {emission : Emit α} {next : α → Emit β}

/-- Should the emission fail, the draft is as it was. -/
def Atomic (emission : Emit α) : Prop :=
  ∀ (draft reached : Draft) (error : BridgeError),
    emission.run.run draft = (.error error, reached) → reached = draft

/-- The emission does not change the draft. -/
def Reads (emission : Emit α) : Prop := ∀ draft, (emission.run.run draft).2 = draft

/-- The emission does not fail. -/
def Succeeds (emission : Emit α) : Prop :=
  ∀ draft, ∃ value reached, emission.run.run draft = (.ok value, reached)

/-- The emission fails on a draft with an error. -/
def FailsWith (emission : Emit α) (draft : Draft) (error : BridgeError) : Prop :=
  ∃ reached, emission.run.run draft = (.error error, reached)

theorem ends (emission : Emit α) (draft : Draft) :
    (∃ value reached, emission.run.run draft = (.ok value, reached)) ∨
      ∃ error, emission.FailsWith draft error := by
  rcases ended : emission.run.run draft with ⟨error | value, reached⟩
  · exact .inr ⟨error, reached, ended⟩
  · exact .inl ⟨value, reached, rfl⟩

theorem run_bind_of_error {draft reached : Draft} {error : BridgeError}
    (first : emission.run.run draft = (.error error, reached)) (next : α → Emit β) :
    (emission >>= next).run.run draft = (.error error, reached) := by
  rw [ExceptT.run_bind, StateT.run_bind, first]
  rfl

/-! ## Readers -/

theorem Reads.atomic (reads : emission.Reads) : emission.Atomic := by
  intro draft reached error failed
  simpa [failed] using reads draft

protected theorem Reads.draft : draft.Reads := fun _ => rfl

protected theorem Reads.ofExcept (result : Except BridgeError α) : (ofExcept result).Reads :=
  fun _ => rfl

protected theorem Reads.pure (value : α) : (pure value : Emit α).Reads := fun _ => rfl

protected theorem Reads.throw (error : BridgeError) : (throw error : Emit α).Reads := fun _ => rfl

protected theorem Reads.bind (reads : emission.Reads) (rest : ∀ value, (next value).Reads) :
    (emission >>= next).Reads := by
  intro draft
  have same := reads draft
  rcases emission.ends draft with ⟨value, reached, first⟩ | ⟨error, reached, first⟩
  · obtain rfl : reached = draft := by simpa [first] using same
    rw [run_bind_of_ok first]
    exact rest value reached
  · obtain rfl : reached = draft := by simpa [first] using same
    rw [run_bind_of_error first]

/-- After a look-up, an emission is atomic if the rest is. -/
theorem Reads.bind_atomic (reads : emission.Reads) (rest : ∀ value, (next value).Atomic) :
    (emission >>= next).Atomic := by
  intro draft final error failed
  have same := reads draft
  rcases emission.ends draft with ⟨value, reached, first⟩ | ⟨error', reached, first⟩
  · obtain rfl : reached = draft := by simpa [first] using same
    rw [run_bind_of_ok first] at failed
    exact rest value reached final error failed
  · rw [run_bind_of_error first] at failed
    obtain ⟨-, rfl⟩ := Prod.mk.inj failed
    simpa [first] using same

/-! ## Emissions that succeed -/

theorem Succeeds.atomic (succeeds : emission.Succeeds) : emission.Atomic := by
  intro draft reached error failed
  obtain ⟨value, reached', ended⟩ := succeeds draft
  rw [ended] at failed
  cases failed

protected theorem Succeeds.draft : draft.Succeeds := fun _ => ⟨_, _, rfl⟩

protected theorem Succeeds.single (instr : Instr) : (single instr).Succeeds :=
  fun _ => ⟨_, _, rfl⟩

protected theorem Succeeds.pure (value : α) : (pure value : Emit α).Succeeds :=
  fun _ => ⟨_, _, rfl⟩

protected theorem Succeeds.call (target : Address) (signature : Signature)
    (args : List Register) : (call target signature args).Succeeds :=
  fun _ => ⟨_, _, rfl⟩

protected theorem Succeeds.silent (instrs : List Instr) : (silent instrs).Succeeds := by
  induction instrs with
  | nil => exact .pure ()
  | cons instr instrs induction => exact fun draft => induction (draft.append instr)

protected theorem Succeeds.bind (succeeds : emission.Succeeds)
    (rest : ∀ value, (next value).Succeeds) : (emission >>= next).Succeeds := by
  intro draft
  obtain ⟨value, reached, first⟩ := succeeds draft
  rw [run_bind_of_ok first]
  exact rest value reached

protected theorem Succeeds.leaveIfPending (framePending : Address) :
    (leaveIfPending framePending).Succeeds :=
  .bind (.call _ _ _) fun _ => .bind .draft fun _ => .silent _

/-- What cannot fail afterwards adds no failure. -/
theorem failsWith_bind_iff (rest : ∀ value, (next value).Succeeds) {draft : Draft}
    {error : BridgeError} :
    (emission >>= next).FailsWith draft error ↔ emission.FailsWith draft error := by
  constructor
  · rintro ⟨final, failed⟩
    rcases emission.ends draft with ⟨value, reached, first⟩ | ⟨error', reached, first⟩
    · obtain ⟨value', final', last⟩ := rest value reached
      rw [run_bind_of_ok first, last] at failed
      cases failed
    · rw [run_bind_of_error first] at failed
      cases failed
      exact ⟨_, first⟩
  · rintro ⟨reached, first⟩
    exact ⟨reached, run_bind_of_error first next⟩

theorem Atomic.bind_succeeds (atomic : emission.Atomic) (rest : ∀ value, (next value).Succeeds) :
    (emission >>= next).Atomic := by
  intro draft final error failed
  obtain ⟨reached, first⟩ := (failsWith_bind_iff rest).mp ⟨final, failed⟩
  rw [run_bind_of_error first] at failed
  obtain ⟨-, rfl⟩ := Prod.mk.inj failed
  exact atomic draft reached error first

/-! ## What calls add -/

theorem run_pointer (bits : UInt64) (before : Draft) :
    (pointer bits).run.run before =
      (.ok before.types.length, before.append (.const .pointer bits)) :=
  run_single rfl before

theorem run_call {target : Address} {signature : Signature} {type : IrType}
    (returns : signature.returns = [type]) (args : List Register) (before : Draft) :
    (call target signature args).run.run before =
      (.ok [before.types.length], before.append (.call target signature args)) := by
  change (Except.ok (before.fresh signature.returns.length), _) = _
  rw [returns]
  rfl

theorem run_leaveIfPending (framePending : Address) (before : Draft) :
    (leaveIfPending framePending).run.run before =
      (.ok (), (before.append (.call framePending { params := [], returns := [.i32] } [])).append
        (.leaveIf before.types.length (zeroBlock before.signature.returns))) := by
  rw [leaveIfPending, run_bind_of_ok (run_call rfl _ _)]
  rfl

end Emit

theorem Draft.length_types_append {instr : Instr} {type : IrType}
    (yields : instr.resultTypes = [type]) (draft : Draft) :
    (draft.append instr).types.length = draft.types.length + 1 := by
  rw [Draft.append, List.length_append, yields]
  rfl

namespace Bridge

open Emit

/-! ## Member access -/

theorem checkPointer_reads (bridge : Bridge) (register : Register) :
    (bridge.checkPointer register).Reads := by
  refine Reads.draft.bind fun draft => ?_
  split
  · exact .throw _
  · split
    · exact .throw _
    · exact .pure ()

theorem getMember_atomic (bridge : Bridge) (record name : String) (base : Register) :
    (bridge.getMember record name base).Atomic :=
  (Reads.ofExcept _).bind_atomic fun _ =>
    (bridge.checkPointer_reads base).bind_atomic fun _ => (Succeeds.single _).atomic

theorem setMember_atomic (bridge : Bridge) (record name : String) (base value : Register) :
    (bridge.setMember record name base value).Atomic := by
  refine (Reads.ofExcept _).bind_atomic fun member => ?_
  refine (bridge.checkPointer_reads base).bind_atomic fun _ => ?_
  refine Reads.draft.bind_atomic fun draft => ?_
  dsimp only
  split
  · exact (Reads.throw _).atomic
  · exact (Succeeds.silent _).atomic

theorem builtinType_atomic (bridge : Bridge) (object : Register) :
    (bridge.builtinType object).Atomic := by
  refine (bridge.checkPointer_reads object).bind_atomic fun _ => ?_
  refine (Reads.ofExcept _).bind_atomic fun flags => Succeeds.atomic ?_
  exact (Succeeds.single _).bind fun word draft => Succeeds.single _ draft

/-! ## Calls -/

theorem callNative_atomic (bridge : Bridge) (name : String) (signature : Option Signature)
    (args : List Register) : (bridge.callNative name signature args).Atomic := by
  refine (Reads.ofExcept _).bind_atomic fun address => ?_
  split
  · exact (Succeeds.call _ _ _).atomic
  · exact (Reads.throw _).atomic

/-- The helpers are bound under their names. -/
def BindsHelpers (bridge : Bridge) : Prop :=
  ∀ helper : Helper, bridge.functions.pointerOf helper.name = .ok (.helper helper)

theorem build_bindsHelpers (config : BuildConfig) (steps : List BuildStep) (slots : LocationSlots)
    (hasEvaluator : Bool) : (build config steps slots hasEvaluator).BindsHelpers :=
  Registry.pointerOf_helper _ _

/-- The signature of the helpers for calls with a block, which has a result. -/
def blockSignature : Signature :=
  { params := [.pointer, .pointer, .pointer, .pointer], returns := [.pointer] }

theorem signature?_blockHelper (bound : Bool) :
    Service.signature? (blockHelper bound).name .pointer = some blockSignature := by
  cases bound <;> decide +kernel

namespace BindsHelpers

variable {bridge : Bridge} (binds : bridge.BindsHelpers)
include binds

theorem exitCheck_succeeds : bridge.exitCheck.Succeeds := by
  intro draft
  rw [exitCheck, binds .framePending, run_bind_of_ok (run_ofExcept_ok ..)]
  exact Succeeds.leaveIfPending _ draft

theorem callChecked_atomic (name : String) (signature : Option Signature) (args : List Register) :
    (bridge.callChecked name signature args).Atomic :=
  (bridge.callNative_atomic name signature args).bind_succeeds fun results =>
    binds.exitCheck_succeeds.bind fun _ => .pure results

theorem callChecked_failsWith_iff (name : String) (signature : Option Signature)
    (args : List Register) (draft : Draft) (error : BridgeError) :
    (bridge.callChecked name signature args).FailsWith draft error ↔
      (bridge.callNative name signature args).FailsWith draft error :=
  failsWith_bind_iff fun results => binds.exitCheck_succeeds.bind fun _ => .pure results

/-- What the emission of a call with a block adds: the method, the call, and the exit check. -/
theorem run_callWithBlock (bound : Bool) (receiver : Register) (method : UInt64)
    (args block : Register) (draft : Draft) :
    (bridge.callWithBlock bound receiver method args block).run.run draft =
      (.ok (draft.types.length + 1),
        [.const .pointer method,
          .call (.helper (blockHelper bound)) blockSignature
            [receiver, draft.types.length, args, block],
          .call (.helper .framePending) { params := [], returns := [.i32] } [],
          .leaveIf (draft.types.length + 2) (zeroBlock draft.signature.returns)].foldl
            (fun draft instr => draft.append instr) draft) := by
  rw [callWithBlock, binds (blockHelper bound), run_bind_of_ok (run_ofExcept_ok ..),
    signature?_blockHelper, binds .framePending]
  dsimp only
  rw [run_bind_of_ok (run_pointer ..), run_bind_of_ok (run_call rfl _ _)]
  dsimp only
  rw [run_bind_of_ok (run_ofExcept_ok ..), run_bind_of_ok (run_leaveIfPending ..),
    Draft.length_types_append rfl, Draft.length_types_append rfl, Draft.length_types_append rfl]
  rfl

theorem callWithBlock_succeeds (bound : Bool) (receiver : Register) (method : UInt64)
    (args block : Register) :
    (bridge.callWithBlock bound receiver method args block).Succeeds :=
  fun draft => ⟨_, _, binds.run_callWithBlock bound receiver method args block draft⟩

end BindsHelpers

/-- An operation of a bridge that was built, whatever it was built from, leaves a draft that it
fails on as it was; exit checks and calls with a block do not fail, and a checked call fails as the
call alone does. -/
theorem build_emissions_atomic (config : BuildConfig) (steps : List BuildStep)
    (slots : LocationSlots) (hasEvaluator : Bool) :
    let bridge := build config steps slots hasEvaluator
    (∀ record name base, (bridge.getMember record name base).Atomic) ∧
      (∀ record name base value, (bridge.setMember record name base value).Atomic) ∧
      (∀ object, (bridge.builtinType object).Atomic) ∧
      (∀ name signature args, (bridge.callNative name signature args).Atomic) ∧
      (∀ name signature args, (bridge.callChecked name signature args).Atomic) ∧
      bridge.exitCheck.Succeeds ∧
      (∀ bound receiver method args block,
        (bridge.callWithBlock bound receiver method args block).Succeeds) ∧
      ∀ name signature args draft error,
        (bridge.callChecked name signature args).FailsWith draft error ↔
          (bridge.callNative name signature args).FailsWith draft error := by
  intro bridge
  have binds : bridge.BindsHelpers := build_bindsHelpers config steps slots hasEvaluator
  exact ⟨bridge.getMember_atomic, bridge.setMember_atomic, bridge.builtinType_atomic,
    bridge.callNative_atomic, binds.callChecked_atomic, binds.exitCheck_succeeds,
    binds.callWithBlock_succeeds, binds.callChecked_failsWith_iff⟩

/-- A function that holds a narrow constant next to its pointer. -/
def halfDone : Draft :=
  (Draft.start { params := [.pointer], returns := [] }).append (.const .i8 1)

theorem build_emissions_atomic_mistyped :
    let bridge := build .default [.member "Box" "lid" ⟨8, .pointer⟩] .own false
    ∃ error reached,
      (bridge.setMember "Box" "lid" 0 1).run.run halfDone = (.error error, reached) ∧
        reached = halfDone := by
  intro bridge
  obtain ⟨-, atomic, -⟩ :=
    build_emissions_atomic .default [.member "Box" "lid" ⟨8, .pointer⟩] .own false
  obtain ⟨error, reached, failed⟩ :
      ∃ error, (bridge.setMember "Box" "lid" 0 1).FailsWith halfDone error :=
    ⟨.wrongType "value" "i64 (void *)" "i8", halfDone, by rfl⟩
  exact ⟨error, reached, failed, atomic "Box" "lid" 0 1 halfDone reached error failed⟩

end Bridge

end HostBridge
