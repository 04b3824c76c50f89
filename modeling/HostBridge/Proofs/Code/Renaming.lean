import HostBridge.Proofs.Code.Emission

/-!
# Registers under other names

An emission reads little of the draft that it adds to: the types of its operands, the number of its
registers, and the nodes that it keeps. On a draft that has the same registers under other names it
fails in the same way, or adds the same instructions with the registers named there.
-/

namespace HostBridge

/-! ## Names of places -/

/-- One list has the entries of another under new names; what is added to both has the new name that
comes next. -/
structure Relabels {α : Type} (name : Nat → Nat) (list list' : List α) : Prop where
  entry : ∀ place, list'[name place]? = list[place]?
  next : ∀ count, name (list.length + count) = list'.length + count

namespace Relabels

variable {α : Type} {name : Nat → Nat} {list list' : List α}

protected theorem id (list : List α) : Relabels id list list := ⟨fun _ => rfl, fun _ => rfl⟩

theorem append (relabels : Relabels name list list') (more : List α) :
    Relabels name (list ++ more) (list' ++ more) where
  entry place := by
    by_cases old : place < list.length
    · -- A place that is taken keeps its entry, so its new name is taken as well.
      have named : name place < list'.length := by
        have entry := relabels.entry place
        rw [List.getElem?_eq_getElem old] at entry
        exact (List.getElem?_eq_some_iff.mp entry).1
      rw [List.getElem?_append_left old, List.getElem?_append_left named, relabels.entry]
    · obtain ⟨count, rfl⟩ := Nat.exists_eq_add_of_le (Nat.le_of_not_lt old)
      rw [relabels.next, List.getElem?_append_right (Nat.le_add_right ..),
        List.getElem?_append_right (Nat.le_add_right ..), Nat.add_sub_cancel_left,
        Nat.add_sub_cancel_left]
  next count := by
    rw [List.length_append, List.length_append, Nat.add_assoc, relabels.next, Nat.add_assoc]

end Relabels

/-- The places of a list after an entry has been inserted. -/
def skip (inserted place : Nat) : Nat := if place < inserted then place else place + 1

theorem skip_of_lt {inserted place : Nat} (earlier : place < inserted) :
    skip inserted place = place := if_pos earlier

theorem Relabels.skip {α : Type} (list : List α) (last : α) :
    Relabels (skip list.length) list (list ++ [last]) where
  entry place := by
    by_cases old : place < list.length
    · rw [skip_of_lt old, List.getElem?_append_left old]
    · rw [HostBridge.skip, if_neg old, List.getElem?_eq_none (by simpa using old),
        List.getElem?_eq_none (by simpa using old)]
  next count := by
    rw [HostBridge.skip, if_neg (by omega), List.length_append]
    simp only [List.length_singleton]
    omega

/-! ## Instructions -/

namespace Instr

/-- The registers that an instruction reads. -/
def operands : Instr → List Register
  | .const .. | .locate .. => []
  | .load _ base _ => [base]
  | .store _ value base _ => [value, base]
  | .unary _ _ operand => [operand]
  | .call _ _ args => args
  | .leaveIf value _ => [value]

/-- The instruction with its operands under other names. -/
def rename (name : Register → Register) : Instr → Instr
  | .const type bits => .const type bits
  | .load type base offset => .load type (name base) offset
  | .store type value base offset => .store type (name value) (name base) offset
  | .unary operation type operand => .unary operation type (name operand)
  | .call target signature args => .call target signature (args.map name)
  | .leaveIf value block => .leaveIf (name value) block
  | .locate owner part => .locate owner part

variable {name : Register → Register}

@[simp] theorem resultTypes_rename (instr : Instr) :
    (instr.rename name).resultTypes = instr.resultTypes := by
  cases instr <;> rfl

theorem rename_eq_self {instr : Instr}
    (fixed : ∀ register ∈ instr.operands, name register = register) :
    instr.rename name = instr := by
  cases instr with
  | call target signature args =>
      have same : args.map name = args := (List.map_congr_left fixed).trans (List.map_id' args)
      rw [rename, same]
  | _ => simp_all [operands, rename]

theorem wellTyped_rename {types types' : List IrType}
    (entry : ∀ register, types'[name register]? = types[register]?) (returns : List IrType)
    (instr : Instr) :
    (instr.rename name).wellTyped returns types' = instr.wellTyped returns types := by
  cases instr <;> simp [rename, wellTyped, entry, Function.comp_def]

end Instr

/-! ## Drafts -/

namespace Draft

/-- What is known of the registers of a draft that was emitted. -/
structure InOrder (draft : Draft) : Prop where
  /-- They are the parameters and the results of the instructions. -/
  types_eq : draft.types = draft.signature.params ++ draft.instrs.flatMap Instr.resultTypes
  /-- No instruction reads another one. -/
  used : ∀ instr ∈ draft.instrs, ∀ register ∈ instr.operands, register < draft.types.length

/-- Two drafts with different beginnings that have grown alike since, up to the names of their
registers. -/
structure Renamed (name : Register → Register) (start start' : List Instr)
    (draft draft' : Draft) : Prop where
  signature_eq : draft'.signature = draft.signature
  retained_eq : draft'.retained = draft.retained
  types : Relabels name draft.types draft'.types
  grown : ∃ added, draft.instrs = start ++ added ∧
    draft'.instrs = start' ++ added.map (Instr.rename name)

/-- What emissions read of two drafts is the same, up to the names of registers. -/
structure ReadAlike (name : Register → Register) (draft draft' : Draft) : Prop where
  signature_eq : draft'.signature = draft.signature
  retained_eq : draft'.retained = draft.retained
  typeOf_eq : ∀ register, draft'.typeOf (name register) = draft.typeOf register

/-- What a draft has in common with those that it grows to. -/
structure GrowsTo (draft reached : Draft) : Prop where
  signature_eq : reached.signature = draft.signature
  length_le : draft.types.length ≤ reached.types.length

theorem GrowsTo.refl (draft : Draft) : draft.GrowsTo draft := ⟨rfl, Nat.le_refl _⟩

theorem GrowsTo.trans {draft reached final : Draft} (first : draft.GrowsTo reached)
    (second : reached.GrowsTo final) : draft.GrowsTo final :=
  ⟨second.signature_eq.trans first.signature_eq, Nat.le_trans first.length_le second.length_le⟩

theorem GrowsTo.append (draft : Draft) (instr : Instr) : draft.GrowsTo (draft.append instr) where
  signature_eq := rfl
  length_le := by
    rw [Draft.append, List.length_append]
    exact Nat.le_add_right _ _

theorem InOrder.start (signature : Signature) : (Draft.start signature).InOrder where
  types_eq := (List.append_nil _).symm
  used := nofun

variable {name : Register → Register} {start start' : List Instr} {draft draft' : Draft}

theorem InOrder.append (inOrder : draft.InOrder) {instr : Instr}
    (used : ∀ register ∈ instr.operands, register < draft.types.length) :
    (draft.append instr).InOrder where
  types_eq := by
    simp only [Draft.append, inOrder.types_eq, List.flatMap_append, List.flatMap_singleton,
      List.append_assoc]
  used other member register operand := by
    rw [Draft.append, List.length_append]
    rcases List.mem_append.mp member with old | last
    · exact Nat.lt_add_right _ (inOrder.used other old register operand)
    · obtain rfl := List.mem_singleton.mp last
      exact Nat.lt_add_right _ (used register operand)

theorem Renamed.append (renamed : Renamed name start start' draft draft') (instr : Instr) :
    Renamed name start start' (draft.append instr) (draft'.append (instr.rename name)) where
  signature_eq := renamed.signature_eq
  retained_eq := renamed.retained_eq
  types := by
    rw [Draft.append, Draft.append, Instr.resultTypes_rename]
    exact renamed.types.append _
  grown := by
    obtain ⟨added, grown, grown'⟩ := renamed.grown
    refine ⟨added ++ [instr], ?_, ?_⟩
    · rw [Draft.append, grown, List.append_assoc]
    · rw [Draft.append, grown', List.append_assoc, List.map_append]
      rfl

theorem Renamed.typeOf_eq (renamed : Renamed name start start' draft draft')
    (register : Register) : draft'.typeOf (name register) = draft.typeOf register := by
  rw [typeOf, typeOf, renamed.types.entry]

theorem Renamed.fresh_eq (renamed : Renamed name start start' draft draft') (count : Nat) :
    draft'.fresh count = (draft.fresh count).map name := by
  rw [fresh, fresh, List.map_map]
  exact List.map_congr_left fun place _ => (renamed.types.next place).symm

end Draft

/-! ## Emissions -/

namespace Emit

variable {α β γ δ : Type}

/-- On drafts of which one has the registers of the other under new names, and where the first
`bound` registers are in use, two emissions fail with the same error, or leave such drafts behind
and yield related values. The relation may depend on the number of registers that are then in
use. -/
def Parallel (name : Register → Register) (start start' : List Instr) (bound : Nat)
    (emission : Emit α) (emission' : Emit β) (related : Nat → α → β → Prop) : Prop :=
  ∀ draft draft', draft.InOrder → Draft.Renamed name start start' draft draft' →
    bound ≤ draft.types.length →
      (∃ error, emission.FailsWith draft error ∧ emission'.FailsWith draft' error) ∨
      ∃ value value' reached reached',
        emission.run.run draft = (.ok value, reached) ∧
        emission'.run.run draft' = (.ok value', reached') ∧
        reached.InOrder ∧ Draft.Renamed name start start' reached reached' ∧
        draft.GrowsTo reached ∧ related reached.types.length value value'

/-- A register in use and its new name. -/
def Named (name : Register → Register) (bound : Nat) (register register' : Register) : Prop :=
  register' = name register ∧ register < bound

/-- Registers in use and their new names. -/
structure AllNamed (name : Register → Register) (count bound : Nat)
    (registers registers' : List Register) : Prop where
  map_eq : registers' = registers.map name
  length_eq : registers.length = count
  used : ∀ register ∈ registers, register < bound

namespace AllNamed

variable {name : Register → Register} {count count' bound grown : Nat}
  {registers registers' more more' : List Register}

theorem mono (named : AllNamed name count bound registers registers') (larger : bound ≤ grown) :
    AllNamed name count grown registers registers' :=
  ⟨named.map_eq, named.length_eq,
    fun register member => Nat.lt_of_lt_of_le (named.used register member) larger⟩

theorem append (named : AllNamed name count bound registers registers')
    (named' : AllNamed name count' bound more more') :
    AllNamed name (count + count') bound (registers ++ more) (registers' ++ more') where
  map_eq := by rw [named.map_eq, named'.map_eq, List.map_append]
  length_eq := by rw [List.length_append, named.length_eq, named'.length_eq]
  used register member := by
    rcases List.mem_append.mp member with old | new
    · exact named.used register old
    · exact named'.used register new

end AllNamed

/-- The same value. -/
def Same (_bound : Nat) (value value' : α) : Prop := value = value'

namespace Parallel

variable {name : Register → Register} {start start' : List Instr} {bound : Nat}
  {related : Nat → α → β → Prop}

protected theorem pure {value : α} {value' : β}
    (holds : ∀ grown, bound ≤ grown → related grown value value') :
    Parallel name start start' bound (pure value) (pure value') related :=
  fun draft draft' inOrder renamed enough =>
    .inr ⟨value, value', draft, draft', rfl, rfl, inOrder, renamed, .refl _, holds _ enough⟩

protected theorem throw (error : BridgeError) :
    Parallel name start start' bound (throw error) (throw error) related :=
  fun draft draft' _ _ _ => .inl ⟨error, ⟨draft, rfl⟩, draft', rfl⟩

protected theorem bind {emission : Emit α} {emission' : Emit β} {next : α → Emit γ}
    {next' : β → Emit δ} {related' : Nat → γ → δ → Prop}
    (first : Parallel name start start' bound emission emission' related)
    (rest : ∀ value value' grown, bound ≤ grown → related grown value value' →
      Parallel name start start' grown (next value) (next' value') related') :
    Parallel name start start' bound (emission >>= next) (emission' >>= next') related' := by
  intro draft draft' inOrder renamed enough
  rcases first draft draft' inOrder renamed enough with
    ⟨error, ⟨reached, failed⟩, reached', failed'⟩ |
      ⟨value, value', reached, reached', ended, ended', inOrder, renamed, grown, holds⟩
  · exact .inl ⟨error, ⟨reached, run_bind_of_error failed next⟩, reached',
      run_bind_of_error failed' next'⟩
  · simp only [FailsWith, run_bind_of_ok ended, run_bind_of_ok ended']
    have enough := Nat.le_trans enough grown.length_le
    rcases rest value value' _ enough holds reached reached' inOrder renamed (Nat.le_refl _) with
      failed | ⟨value, value', final, final', ended, ended', inOrder, renamed, grown', holds⟩
    · exact .inl failed
    · exact .inr ⟨value, value', final, final', ended, ended', inOrder, renamed,
        grown.trans grown', holds⟩

protected theorem draft :
    Parallel name start start' bound draft draft fun _ => Draft.ReadAlike name :=
  fun draft draft' inOrder renamed _ =>
    .inr ⟨draft, draft', draft, draft', rfl, rfl, inOrder, renamed, .refl _,
      renamed.signature_eq, renamed.retained_eq, renamed.typeOf_eq⟩

protected theorem ofExcept (result : Except BridgeError α) :
    Parallel name start start' bound (ofExcept result) (ofExcept result) Same := by
  cases result with
  | error error => exact .throw error
  | ok value => exact .pure fun _ _ => rfl

protected theorem instr {instruction : Instr}
    (used : ∀ register ∈ instruction.operands, register < bound) :
    Parallel name start start' bound (instr instruction) (instr (instruction.rename name))
      (AllNamed name instruction.resultTypes.length) := by
  intro draft draft' inOrder renamed enough
  refine .inr ⟨_, _, _, _, rfl, rfl, ?_, renamed.append instruction, .append .., ?_, ?_, ?_⟩
  · exact inOrder.append fun register operand => Nat.lt_of_lt_of_le (used register operand) enough
  · rw [Instr.resultTypes_rename, renamed.fresh_eq]
  · rw [Draft.fresh, List.length_map, List.length_range]
  · intro register member
    obtain ⟨place, small, rfl⟩ := List.mem_map.mp member
    rw [Draft.append, List.length_append]
    exact Nat.add_lt_add_left (List.mem_range.mp small) _

protected theorem single {instruction : Instr} {type : IrType}
    (yields : instruction.resultTypes = [type])
    (used : ∀ register ∈ instruction.operands, register < bound) :
    Parallel name start start' bound (single instruction) (single (instruction.rename name))
      (Named name) := by
  refine .bind (.instr used) fun registers registers' grown _ named => .pure fun grown' larger => ?_
  obtain ⟨register, rfl⟩ := List.length_eq_one_iff.mp (named.length_eq.trans (by rw [yields]; rfl))
  rw [named.map_eq]
  exact ⟨rfl, Nat.lt_of_lt_of_le (named.used register List.mem_cons_self) larger⟩

protected theorem silent {instrs : List Instr}
    (used : ∀ instr ∈ instrs, ∀ register ∈ instr.operands, register < bound) :
    Parallel name start start' bound (silent instrs) (silent (instrs.map (Instr.rename name)))
      Same := by
  induction instrs generalizing bound with
  | nil => exact .pure fun _ _ => rfl
  | cons instr instrs induction =>
      refine .bind (.instr (used instr List.mem_cons_self)) fun _ _ grown larger _ => ?_
      exact induction fun other member register operand =>
        Nat.lt_of_lt_of_le (used other (List.mem_cons_of_mem _ member) register operand) larger

protected theorem retain (node : PlacedNode) :
    Parallel name start start' bound (modify (·.retain node)) (modify (·.retain node)) Same := by
  intro draft draft' inOrder renamed _
  refine .inr ⟨(), (), _, _, rfl, rfl, ⟨inOrder.types_eq, inOrder.used⟩, ?_,
    ⟨rfl, Nat.le_refl _⟩, rfl⟩
  exact ⟨renamed.signature_eq, congrArg (· ++ [node]) renamed.retained_eq, renamed.types,
    renamed.grown⟩

/-! ### Value operations -/

protected theorem const (type : IrType) (bits : UInt64) :
    Parallel name start start' bound (const type bits) (const type bits) (Named name) :=
  .single rfl nofun

protected theorem unary (operation : Operation) {operand : Register} (used : operand < bound) :
    Parallel name start start' bound (unary operation operand) (unary operation (name operand))
      (Named name) := by
  refine .bind .draft fun before before' grown larger read => ?_
  rw [read.typeOf_eq]
  exact .single rfl fun register member =>
    List.mem_singleton.mp member ▸ Nat.lt_of_lt_of_le used larger

/-- An operation on the value of an emission. -/
protected theorem unary_after (operation : Operation) {emission emission' : Emit Register}
    (first : Parallel name start start' bound emission emission' (Named name)) :
    Parallel name start start' bound (emission >>= unary operation)
      (emission' >>= unary operation) (Named name) := by
  refine .bind first fun register register' grown _ named => ?_
  rw [named.1]
  exact .unary operation named.2

variable {value : Register} (used : value < bound)
include used

protected theorem intToFixnum :
    Parallel name start start' bound (intToFixnum value) (intToFixnum (name value)) (Named name) :=
  .unary_after _ (.unary _ used)

protected theorem isFixnum :
    Parallel name start start' bound (isFixnum value) (isFixnum (name value)) (Named name) :=
  .unary_after _ (.unary _ used)

protected theorem truthy :
    Parallel name start start' bound (truthy value) (truthy (name value)) (Named name) :=
  .unary_after _ (.unary _ used)

protected theorem toBoolean (type : IrType) :
    Parallel name start start' bound (toBoolean value type) (toBoolean (name value) type)
      (Named name) := by
  refine .bind (.unary _ used) fun bit bit' grown _ named => ?_
  rw [named.1]
  exact .unary_after _ (.unary _ named.2)

omit used

/-! ### Calls -/

protected theorem call (target : Address) (signature : Signature) {args : List Register}
    (used : ∀ register ∈ args, register < bound) :
    Parallel name start start' bound (call target signature args)
      (call target signature (args.map name)) (AllNamed name signature.returns.length) :=
  .instr used

protected theorem leaveIfPending (framePending : Address) :
    Parallel name start start' bound (leaveIfPending framePending) (leaveIfPending framePending)
      Same := by
  refine .bind (.call framePending _ nofun) fun registers registers' grown _ named => ?_
  obtain ⟨status, rfl⟩ := List.length_eq_one_iff.mp named.length_eq
  refine .bind .draft fun before before' grown' larger read => ?_
  rw [named.map_eq, read.signature_eq]
  refine .silent fun instr member register operand => ?_
  obtain rfl := List.mem_singleton.mp member
  obtain rfl := List.mem_singleton.mp operand
  exact Nat.lt_of_lt_of_le (named.used _ List.mem_cons_self) larger

end Parallel

end Emit

/-! ## Operations of a bridge -/

namespace Bridge

open Emit

variable (bridge : Bridge) {name : Register → Register} {start start' : List Instr} {bound : Nat}

theorem parallel_checkPointer (register : Register) :
    Parallel name start start' bound (bridge.checkPointer register)
      (bridge.checkPointer (name register)) Same := by
  refine .bind .draft fun before before' grown _ read => ?_
  rw [read.typeOf_eq]
  split
  · exact .throw _
  · split
    · exact .throw _
    · exact .pure fun _ _ => rfl

theorem parallel_getMember (record member : String) {base : Register} (used : base < bound) :
    Parallel name start start' bound (bridge.getMember record member base)
      (bridge.getMember record member (name base)) (Named name) := by
  refine .bind (.ofExcept _) fun found found' grown larger same => ?_
  subst same
  refine .bind (bridge.parallel_checkPointer base) fun _ _ grown' larger' _ => ?_
  exact .single rfl fun register operand =>
    List.mem_singleton.mp operand ▸ Nat.lt_of_lt_of_le used (Nat.le_trans larger larger')

theorem parallel_setMember (record member : String) {base value : Register} (used : base < bound)
    (used' : value < bound) :
    Parallel name start start' bound (bridge.setMember record member base value)
      (bridge.setMember record member (name base) (name value)) Same := by
  refine .bind (.ofExcept _) fun found found' grown larger same => ?_
  subst same
  refine .bind (bridge.parallel_checkPointer base) fun _ _ grown' larger' _ => ?_
  refine .bind .draft fun before before' grown'' larger'' read => ?_
  rw [read.typeOf_eq]
  dsimp only
  split
  · exact .throw _
  · refine .silent fun instr last register operand => ?_
    obtain rfl := List.mem_singleton.mp last
    have enough := Nat.le_trans larger (Nat.le_trans larger' larger'')
    rcases List.mem_cons.mp operand with rfl | rest
    · exact Nat.lt_of_lt_of_le used' enough
    · exact List.mem_singleton.mp rest ▸ Nat.lt_of_lt_of_le used enough

theorem parallel_builtinType {object : Register} (used : object < bound) :
    Parallel name start start' bound (bridge.builtinType object)
      (bridge.builtinType (name object)) (Named name) := by
  refine .bind (bridge.parallel_checkPointer object) fun _ _ grown larger _ => ?_
  refine .bind (.ofExcept _) fun flags flags' grown' larger' same => ?_
  subst same
  exact .unary_after _ (.single rfl fun register operand =>
    List.mem_singleton.mp operand ▸ Nat.lt_of_lt_of_le used (Nat.le_trans larger larger'))

/-- The number of values of a call. -/
def returnCount (service : String) (signature : Option Signature) : Nat :=
  ((signature <|> Service.signature? service .pointer).map (·.returns.length)).getD 0

theorem parallel_callNative (service : String) (signature : Option Signature)
    {args : List Register} (used : ∀ register ∈ args, register < bound) :
    Parallel name start start' bound (bridge.callNative service signature args)
      (bridge.callNative service signature (args.map name))
      (AllNamed name (returnCount service signature)) := by
  refine .bind (.ofExcept _) fun address address' grown larger same => ?_
  subst same
  rw [returnCount]
  cases signature <|> Service.signature? service .pointer with
  | none => exact .throw _
  | some known =>
      exact .call address known fun register member =>
        Nat.lt_of_lt_of_le (used register member) larger

theorem parallel_exitCheck :
    Parallel name start start' bound bridge.exitCheck bridge.exitCheck Same := by
  refine .bind (.ofExcept _) fun address address' grown larger same => ?_
  subst same
  exact .leaveIfPending address

/-- An emission that is followed by an exit check. -/
def thenCheck {α : Type} (emission : Emit α) : Emit α := do
  let value ← emission
  bridge.exitCheck
  pure value

theorem parallel_thenCheck {α β : Type} {emission : Emit α} {emission' : Emit β}
    {related : Nat → α → β → Prop}
    (monotone : ∀ {value value' grown larger}, grown ≤ larger → related grown value value' →
      related larger value value')
    (first : Parallel name start start' bound emission emission' related) :
    Parallel name start start' bound (bridge.thenCheck emission) (bridge.thenCheck emission')
      related :=
  .bind first fun _ _ _ _ holds => .bind bridge.parallel_exitCheck fun _ _ _ larger _ =>
    .pure fun _ larger' => monotone (Nat.le_trans larger larger') holds

/-- Call a method with a block, without the check for an exit that the call leaves pending. -/
def callBlock (bound : Bool) (receiver : Register) (method : UInt64) (args block : Register) :
    Emit Register := do
  let name := (blockHelper bound).name
  let address ← Emit.ofExcept (bridge.functions.pointerOf name)
  match Service.signature? name .pointer with
  | none => throw (.unknownFunction name)
  | some signature => do
      let method ← Emit.pointer method
      match ← Emit.call address signature [receiver, method, args, block] with
      | [] => throw (.generation (.noResult name))
      | value :: _ => pure value

theorem callWithBlock_eq (bound : Bool) (receiver : Register) (method : UInt64)
    (args block : Register) :
    bridge.callWithBlock bound receiver method args block =
      bridge.thenCheck (bridge.callBlock bound receiver method args block) := by
  simp only [callWithBlock, thenCheck, callBlock, signature?_blockHelper, bind_assoc]
  refine bind_congr fun address => bind_congr fun method => bind_congr fun registers => ?_
  cases registers with
  | nil => rfl
  | cons value _ => rw [pure_bind, exitCheck, bind_assoc]

theorem parallel_callBlock (bound' : Bool) {receiver args block : Register} (method : UInt64)
    (used : receiver < bound) (used' : args < bound) (used'' : block < bound) :
    Parallel name start start' bound (bridge.callBlock bound' receiver method args block)
      (bridge.callBlock bound' (name receiver) method (name args) (name block)) (Named name) := by
  refine .bind (.ofExcept _) fun address address' grown larger same => ?_
  subst same
  rw [signature?_blockHelper]
  refine .bind (.const _ method) fun register register' grown' larger' named => ?_
  rw [named.1]
  have operands : ∀ operand ∈ [receiver, register, args, block], operand < grown' := by
    simp only [List.forall_mem_cons]
    have enough := Nat.le_trans larger larger'
    exact ⟨Nat.lt_of_lt_of_le used enough, named.2, Nat.lt_of_lt_of_le used' enough,
      Nat.lt_of_lt_of_le used'' enough, nofun⟩
  refine .bind (.call address blockSignature operands) fun values values' grown'' _ named => ?_
  obtain ⟨value, rfl⟩ := List.length_eq_one_iff.mp named.length_eq
  rw [named.map_eq]
  exact .pure fun _ larger =>
    ⟨rfl, Nat.lt_of_lt_of_le (named.used value List.mem_cons_self) larger⟩

theorem parallel_setSourceLocation (node : PlacedNode) :
    Parallel name start start' bound (bridge.setSourceLocation node)
      (bridge.setSourceLocation node) Same := by
  have unnamed : ((bridge.slots.parts bridge.config.abi node).map
      (Instr.locate bridge.slots.owner)).map (Instr.rename name) =
        (bridge.slots.parts bridge.config.abi node).map (.locate bridge.slots.owner) := by
    rw [List.map_map]
    rfl
  have silent : Parallel name start start' bound
      (Emit.silent ((bridge.slots.parts bridge.config.abi node).map (.locate bridge.slots.owner)))
      _ Same :=
    .silent fun instr member register operand => by
      obtain ⟨part, -, rfl⟩ := List.mem_map.mp member
      cases operand
  rw [unnamed] at silent
  exact .bind silent fun _ _ _ _ _ => .retain node

end Bridge

end HostBridge
