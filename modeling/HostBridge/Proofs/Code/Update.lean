import HostBridge.Proofs.Code.ExitCheck

/-!
# Emitted location updates

A location update is stored part by part, and every part is an instruction of its own. The parts of
one update follow each other directly, and nothing else that can be emitted stores a part. So the
code of a function is a line of whole updates, in the order of the operations that asked for them,
between instructions that leave locations alone; the function keeps the nodes of just these updates
alive.
-/

namespace HostBridge

namespace Instr

/-- The part of a location that an instruction stores. -/
def part? : Instr → Option Location.Part
  | .locate _ part => some part
  | _ => none

/-- Instructions that are whole updates to the given nodes, in this order, and that store no part of
a location between them. -/
inductive Updates (slots : LocationSlots) (abi : Abi) : List Instr → List PlacedNode → Prop
  | nil : Updates slots abi [] []
  | other {instr : Instr} {instrs : List Instr} {nodes : List PlacedNode}
      (plain : instr.part? = none) (rest : Updates slots abi instrs nodes) :
      Updates slots abi (instr :: instrs) nodes
  | update (placed : PlacedNode) {instrs : List Instr} {nodes : List PlacedNode}
      (rest : Updates slots abi instrs nodes) :
      Updates slots abi ((slots.parts abi placed).map (.locate slots.owner) ++ instrs)
        (placed :: nodes)

namespace Updates

variable {slots : LocationSlots} {abi : Abi} {instrs instrs' : List Instr}
  {nodes nodes' : List PlacedNode}

theorem append (first : Updates slots abi instrs nodes)
    (second : Updates slots abi instrs' nodes') :
    Updates slots abi (instrs ++ instrs') (nodes ++ nodes') := by
  induction first with
  | nil => exact second
  | other plain _ induction => exact induction.other plain
  | update placed _ induction =>
      rw [List.append_assoc, List.cons_append]
      exact induction.update placed

theorem of_plain (plain : ∀ instr ∈ instrs, instr.part? = none) : Updates slots abi instrs [] := by
  induction instrs with
  | nil => exact .nil
  | cons instr instrs induction =>
      exact (induction fun other mem => plain other (List.mem_cons_of_mem _ mem)).other
        (plain instr List.mem_cons_self)

theorem single (placed : PlacedNode) :
    Updates slots abi ((slots.parts abi placed).map (.locate slots.owner)) [placed] := by
  rw [← List.append_nil (List.map _ _)]
  exact Updates.nil.update placed

/-- The parts that the instructions store are those of the updates. -/
theorem filterMap_part? (updates : Updates slots abi instrs nodes) :
    instrs.filterMap part? = nodes.flatMap (slots.parts abi) := by
  induction updates with
  | nil => rfl
  | other plain _ induction => rw [List.filterMap_cons_none plain, induction]
  | update placed _ induction =>
      rw [List.filterMap_append, induction, List.filterMap_map, List.flatMap_cons]
      exact congrArg (· ++ _) List.filterMap_some

end Updates

end Instr

/-! ## Emissions without update -/

namespace Emit

variable {α β : Type} {emission : Emit α} {next : α → Emit β}

/-- Whether it succeeds or fails, the emission adds no instruction that stores a part of a location,
and keeps no node alive. -/
def Unlocated (emission : Emit α) : Prop :=
  ∀ draft, (emission.run.run draft).2.retained = draft.retained ∧
    ∃ added, (emission.run.run draft).2.instrs = draft.instrs ++ added ∧
      ∀ instr ∈ added, instr.part? = none

theorem Reads.unlocated (reads : emission.Reads) : emission.Unlocated := by
  intro draft
  rw [reads draft]
  exact ⟨rfl, [], (List.append_nil _).symm, List.forall_mem_nil _⟩

theorem instrs_silent (instrs : List Instr) (draft : Draft) :
    ((silent instrs).run.run draft).2.instrs = draft.instrs ++ instrs ∧
      ((silent instrs).run.run draft).2.retained = draft.retained := by
  induction instrs generalizing draft with
  | nil => exact ⟨(List.append_nil _).symm, rfl⟩
  | cons instr instrs induction =>
      obtain ⟨grown, kept⟩ := induction (draft.append instr)
      exact ⟨grown.trans (List.append_assoc ..), kept⟩

namespace Unlocated

protected theorem pure (value : α) : (pure value : Emit α).Unlocated := (Reads.pure value).unlocated

protected theorem throw (error : BridgeError) : (throw error : Emit α).Unlocated :=
  (Reads.throw error).unlocated

protected theorem ofExcept (result : Except BridgeError α) : (ofExcept result).Unlocated :=
  (Reads.ofExcept result).unlocated

protected theorem draft : draft.Unlocated := Reads.draft.unlocated

protected theorem bind (first : emission.Unlocated) (rest : ∀ value, (next value).Unlocated) :
    (emission >>= next).Unlocated := by
  intro draft
  obtain ⟨kept, added, grown, plain⟩ := first draft
  rcases emission.ends draft with ⟨value, reached, ended⟩ | ⟨error, reached, ended⟩
  · obtain ⟨kept', added', grown', plain'⟩ := rest value reached
    rw [ended] at kept grown
    rw [run_bind_of_ok ended]
    refine ⟨kept'.trans kept, added ++ added', ?_, ?_⟩
    · rw [grown', grown, List.append_assoc]
    · intro instr mem
      exact (List.mem_append.mp mem).elim (plain instr) (plain' instr)
  · rw [ended] at kept grown
    rw [run_bind_of_error ended]
    exact ⟨kept, added, grown, plain⟩

protected theorem instr {instruction : Instr} (plain : instruction.part? = none) :
    (instr instruction).Unlocated := fun _ =>
  ⟨rfl, [instruction], rfl, fun _ mem => List.mem_singleton.mp mem ▸ plain⟩

protected theorem single {instruction : Instr} (plain : instruction.part? = none) :
    (single instruction).Unlocated :=
  (Unlocated.instr plain).bind fun _ => .pure _

protected theorem silent {instrs : List Instr} (plain : ∀ instr ∈ instrs, instr.part? = none) :
    (silent instrs).Unlocated := by
  intro draft
  obtain ⟨grown, kept⟩ := instrs_silent instrs draft
  exact ⟨kept, instrs, grown, plain⟩

protected theorem unary (operation : Operation) (operand : Register) :
    (unary operation operand).Unlocated :=
  Unlocated.draft.bind fun _ => .single rfl

protected theorem call (target : Address) (signature : Signature) (args : List Register) :
    (call target signature args).Unlocated := .instr rfl

protected theorem leaveIfPending (framePending : Address) :
    (leaveIfPending framePending).Unlocated :=
  (Unlocated.call _ _ _).bind fun _ => Unlocated.draft.bind fun _ =>
    .silent fun _ mem => List.mem_singleton.mp mem ▸ rfl

end Unlocated

end Emit

namespace Bridge

open Emit

variable (bridge : Bridge)

theorem getMember_unlocated (record name : String) (base : Register) :
    (bridge.getMember record name base).Unlocated :=
  (Unlocated.ofExcept _).bind fun _ =>
    (bridge.checkPointer_reads base).unlocated.bind fun _ => .single rfl

theorem setMember_unlocated (record name : String) (base value : Register) :
    (bridge.setMember record name base value).Unlocated := by
  refine (Unlocated.ofExcept _).bind fun member => ?_
  refine (bridge.checkPointer_reads base).unlocated.bind fun _ => Unlocated.draft.bind fun _ => ?_
  dsimp only
  split
  · exact .throw _
  · exact .silent fun _ mem => List.mem_singleton.mp mem ▸ rfl

theorem builtinType_unlocated (object : Register) : (bridge.builtinType object).Unlocated :=
  (bridge.checkPointer_reads object).unlocated.bind fun _ =>
    (Unlocated.ofExcept _).bind fun _ =>
      (Unlocated.single rfl).bind fun word => .unary _ word

theorem callNative_unlocated (name : String) (signature : Option Signature)
    (args : List Register) : (bridge.callNative name signature args).Unlocated := by
  refine (Unlocated.ofExcept _).bind fun address => ?_
  split
  · exact .call _ _ _
  · exact .throw _

theorem exitCheck_unlocated : bridge.exitCheck.Unlocated :=
  (Unlocated.ofExcept _).bind fun address => .leaveIfPending address

theorem callWithBlock_unlocated (bound : Bool) (receiver : Register) (method : UInt64)
    (args block : Register) :
    (bridge.callWithBlock bound receiver method args block).Unlocated := by
  refine (Unlocated.ofExcept _).bind fun address => ?_
  split
  · exact .throw _
  · refine (Unlocated.single rfl).bind fun word => (Unlocated.call _ _ _).bind fun results => ?_
    split
    · exact .throw _
    · exact (Unlocated.ofExcept _).bind fun pending =>
        (Unlocated.leaveIfPending pending).bind fun _ => .pure _

end Bridge

/-! ## Functions -/

namespace Op

open Emit

/-- The node that an operation sets the location to. -/
def node? : Op → Option SourceNode
  | .location line file id => some { line, file, id }
  | _ => none

theorem emit_unlocated {op : Op} (other : op.node? = none) (bridge : Bridge) (linker : Linker)
    (values : List Register) : (op.emit bridge linker values).Unlocated := by
  have one {emission : Emit Register} (first : emission.Unlocated) :
      (emit.one emission).Unlocated := first.bind fun _ => .pure _
  have nothing {emission : Emit Unit} (first : emission.Unlocated) :
      (emit.nothing emission).Unlocated := first.bind fun _ => .pure _
  cases op with
  | const => exact one (.single rfl)
  | constPointer => exact one (.single rfl)
  | address pointer =>
      refine one ?_
      split
      · exact .single rfl
      · exact .ofExcept _
  | get record name base => exact one (bridge.getMember_unlocated _ _ _)
  | set record name base value => exact nothing (bridge.setMember_unlocated _ _ _ _)
  | intToFixnum value => exact one ((Unlocated.unary _ _).bind fun _ => .unary _ _)
  | fixnumToInt value => exact one (.unary _ _)
  | isFixnum value => exact one ((Unlocated.unary _ _).bind fun _ => .unary _ _)
  | truthy value => exact one ((Unlocated.unary _ _).bind fun _ => .unary _ _)
  | toBoolean value type =>
      exact one ((Unlocated.unary _ _).bind fun _ =>
        (Unlocated.unary _ _).bind fun _ => .unary _ _)
  | builtinType value => exact one (bridge.builtinType_unlocated _)
  | add value bits => exact one (.unary _ _)
  | call name args signature checked =>
      have called := bridge.callNative_unlocated name signature (args.map (register values))
      cases checked with
      | false => exact called
      | true => exact called.bind fun _ => bridge.exitCheck_unlocated.bind fun _ => .pure _
  | exitCheck => exact nothing bridge.exitCheck_unlocated
  | location => cases other
  | callWithBlock bound receiver method args block =>
      exact one (bridge.callWithBlock_unlocated _ _ _ _ _)

end Op

/-- A draft has grown by whole updates to nodes, which it keeps alive. -/
structure Draft.GrownBy (bridge : Bridge) (nodes : List PlacedNode) (draft reached : Draft) :
    Prop where
  retained_eq : reached.retained = draft.retained ++ nodes
  updates : ∃ added, reached.instrs = draft.instrs ++ added ∧
    Instr.Updates bridge.slots bridge.config.abi added nodes

namespace Draft.GrownBy

variable {bridge : Bridge} {nodes nodes' : List PlacedNode} {draft middle reached : Draft}

protected theorem refl (draft : Draft) : GrownBy bridge [] draft draft :=
  ⟨(List.append_nil _).symm, [], (List.append_nil _).symm, .nil⟩

protected theorem trans (first : GrownBy bridge nodes draft middle)
    (second : GrownBy bridge nodes' middle reached) :
    GrownBy bridge (nodes ++ nodes') draft reached := by
  obtain ⟨kept, added, grown, updates⟩ := first
  obtain ⟨kept', added', grown', updates'⟩ := second
  refine ⟨?_, added ++ added', ?_, updates.append updates'⟩
  · rw [kept', kept, List.append_assoc]
  · rw [grown', grown, List.append_assoc]

end Draft.GrownBy

theorem Bridge.run_setSourceLocation (bridge : Bridge) (placed : PlacedNode) (draft : Draft) :
    ∃ reached, (bridge.setSourceLocation placed).run.run draft = (.ok (), reached) ∧
      draft.GrownBy bridge [placed] reached := by
  let stores : List Instr :=
    (bridge.slots.parts bridge.config.abi placed).map (.locate bridge.slots.owner)
  obtain ⟨_, reached, ended⟩ := Emit.Succeeds.silent stores draft
  obtain ⟨grown, kept⟩ := Emit.instrs_silent stores draft
  rw [ended] at grown kept
  refine ⟨reached.retain placed, ?_, congrArg (· ++ [placed]) kept, stores, grown, .single placed⟩
  rw [setSourceLocation, Emit.run_bind_of_ok ended]
  rfl

theorem SourceNode.eq_of_create {line : Int32} {file : String} {id : UInt64} {node : SourceNode}
    (created : create line file id = .ok node) : node = { line, file, id } := by
  rw [create] at created
  split at created
  · cases created
  · exact (Except.ok.inj created).symm

namespace Op

variable {bridge : Bridge} {linker : Linker} {values yielded : List Register}
  {draft reached : Draft}

/-- The nodes of operations, each at the place that its number gives it. -/
def placedNodes (linker : Linker) (first : Nat) (ops : List Op) : List PlacedNode :=
  (ops.filterMap node?).mapIdx fun index => linker.place (first + index)

theorem placedNodes_append (linker : Linker) (first : Nat) (ops ops' : List Op) :
    placedNodes linker first (ops ++ ops') =
      placedNodes linker first ops ++
        placedNodes linker (first + (placedNodes linker first ops).length) ops' := by
  unfold placedNodes
  rw [List.filterMap_append, List.mapIdx_append, List.length_mapIdx]
  simp only [Nat.add_assoc, Nat.add_comm (List.length _)]

theorem grownBy_of_emit_location {line : Int32} {file : String} {id : UInt64}
    (emitted : ((Op.location line file id).emit bridge linker values).run.run draft =
      (.ok yielded, reached)) :
    draft.GrownBy bridge [linker.place draft.retained.length { line, file, id }] reached := by
  rw [emit, emit.nothing, bind_assoc] at emitted
  cases created : SourceNode.create line file id with
  | error error =>
      rw [created] at emitted
      cases emitted
  | ok node =>
      obtain rfl := SourceNode.eq_of_create created
      obtain ⟨final, ended, grown⟩ :=
        bridge.run_setSourceLocation (linker.place draft.retained.length { line, file, id }) draft
      rw [created, Emit.run_bind_of_ok (Emit.run_ofExcept_ok ..), bind_assoc,
        Emit.run_bind_of_ok (Emit.run_draft draft), Emit.run_bind_of_ok ended] at emitted
      obtain ⟨-, rfl⟩ := Prod.mk.inj emitted
      exact grown

theorem grownBy_of_emit {op : Op}
    (emitted : (op.emit bridge linker values).run.run draft = (.ok yielded, reached)) :
    draft.GrownBy bridge (placedNodes linker draft.retained.length [op]) reached := by
  cases node : op.node? with
  | none =>
      obtain ⟨kept, added, grown, plain⟩ := emit_unlocated node bridge linker values draft
      rw [emitted] at kept grown
      have nothing : placedNodes linker draft.retained.length [op] = [] := by
        rw [placedNodes, List.filterMap_cons_none node]
        rfl
      rw [nothing]
      exact ⟨kept.trans (List.append_nil _).symm, added, grown, .of_plain plain⟩
  | some =>
      cases op with
      | location => exact grownBy_of_emit_location emitted
      | _ => cases node

theorem grownBy_of_emitAll {ops : List Op}
    (emitted : (emitAll bridge linker values ops).run.run draft = (.ok yielded, reached)) :
    draft.GrownBy bridge (placedNodes linker draft.retained.length ops) reached := by
  induction ops generalizing values draft with
  | nil =>
      obtain ⟨-, rfl⟩ := Prod.mk.inj emitted
      exact .refl draft
  | cons op ops induction =>
      rw [emitAll] at emitted
      rcases (op.emit bridge linker values).ends draft with
        ⟨first, middle, ended⟩ | ⟨error, middle, ended⟩
      · rw [Emit.run_bind_of_ok ended] at emitted
        have grown := grownBy_of_emit ended
        have rest := induction emitted
        rw [grown.retained_eq, List.length_append] at rest
        have whole := grown.trans rest
        rwa [← placedNodes_append] at whole
      · rw [Emit.run_bind_of_error ended] at emitted
        cases emitted

end Op

/-- The code of a function is made of whole updates to the nodes that it keeps alive, and these are
the nodes of its operations. -/
theorem Compiler.updates_of_compile {compiler next : Compiler} {bridge : Bridge} {linker : Linker}
    {spec : FunctionSpec} {code : Code}
    (compiled : compiler.compile bridge linker spec = .ok (code, next)) :
    code.retained = (spec.body.filterMap Op.node?).mapIdx linker.place ∧
      Instr.Updates bridge.slots bridge.config.abi code.instrs code.retained := by
  obtain ⟨values, draft, emitted, -, rfl⟩ :=
    FunctionSpec.assemble_eq_ok (FunctionSpec.assemble_of_compile compiled)
  obtain ⟨kept, added, grown, updates⟩ := Op.grownBy_of_emitAll emitted
  have nodes : draft.retained = (spec.body.filterMap Op.node?).mapIdx linker.place := by
    rw [kept, Op.placedNodes]
    simp only [Draft.start, List.length_nil, Nat.zero_add, List.nil_append]
  refine ⟨nodes, ?_⟩
  rw [kept, grown]
  exact updates

end HostBridge
