import HostBridge.Proofs.Session.Trace

/-!
# The current location is that of the latest update

The trace of a session makes no difference to it, and shows that the location is never stale or
mixed: if all updates are for one runtime family, every location that is seen is that of the latest
update before. One relation between plain and traced states carries both facts through all bodies
and functions.
-/

namespace HostBridge

/-- The location that an update to a node leaves, and the unset location without an update. -/
def Location.ofUpdate (abi : Abi) : Option PlacedNode → Location
  | none => { line := 0, file := .unset, node := .unset }
  | some placed =>
      { line := placed.node.line
        file := .placed placed.node.file placed.fileAddress
        node := if abi.tracksNode then .placed placed.node placed.address else .unset }

/-- A function was generated for a runtime family, as far as it updates the bridge's location. -/
def Code.EmittedFor (abi : Abi) (code : Code) : Prop :=
  ∃ (compiler next : Compiler) (bridge : Bridge) (linker : Linker) (spec : FunctionSpec),
    compiler.compile bridge linker spec = .ok (code, next) ∧
      (bridge.slots.owner = .bridge → bridge.slots = .own ∧ bridge.config.abi = abi)

namespace Session

/-- The node of the latest update of a trace. -/
def latest (marks : List Mark) : Option PlacedNode := marks.findSome? Mark.update?

variable {abi used : Abi} {α : Type}

/-! ## Sound traces -/

/-- Every location that a trace has seen is that of the latest update before. -/
def Sound (abi : Abi) : List Mark → Prop
  | [] => True
  | .seen location :: older => location = .ofUpdate abi (latest older) ∧ Sound abi older
  | _ :: older => Sound abi older

theorem Sound.seen {newer older : List Mark} {location : Location}
    (sound : Sound abi (newer ++ .seen location :: older)) :
    location = .ofUpdate abi (latest older) := by
  induction newer with
  | nil => exact sound.1
  | cons mark newer induction =>
      cases mark with
      | seen => exact induction sound.2
      | set | stored | overwritten => exact induction sound

/-- If all updates are for the runtime family, the trace is sound, and the location is that of the
latest update. -/
def Faithful (abi : Abi) (traced : Traced) : Prop :=
  (∀ mark ∈ traced.marks, mark.Uses abi) →
    traced.location = .ofUpdate abi (latest traced.marks) ∧ Sound abi traced.marks

/-- A trace stays faithful while the location stays the same. -/
theorem Faithful.of_location_eq {traced : Traced} (faithful : Faithful abi traced) {world : World}
    (same : world.locations .bridge = traced.location) :
    Faithful abi { traced with world } := by
  intro uses
  obtain ⟨current, sound⟩ := faithful uses
  exact ⟨same.trans current, sound⟩

/-- A state without trace next to the same state with a faithful trace. -/
def Tied (abi : Abi) (left : State World) (right : State Traced) : Prop :=
  left = erase right ∧ Faithful abi right.world

theorem sameThread_tied : Act.SameThread (Tied abi) where
  thread_eq := fun states => congrArg State.thread states.1
  change := by
    rintro left right thread ⟨rfl, faithful⟩
    exact ⟨rfl, faithful⟩

theorem alike_look : Act.Alike (Tied abi) (pure ()) look := by
  rintro left right ⟨rfl, faithful⟩
  refine ⟨rfl, rfl, fun uses => ?_⟩
  obtain ⟨current, sound⟩ := faithful fun mark mem => uses mark (List.mem_cons_of_mem _ mem)
  exact ⟨current, current, sound⟩

/-! ## Actions that leave the location alone -/

/-- One state twice, in which the location is a given one. -/
def AtLocation (location : Location) (left right : State World) : Prop :=
  left = right ∧ left.world.locations .bridge = location

/-- The action leaves the bridge's location alone. -/
def Unmoved (action : Do α) : Prop := ∀ location, Act.Alike (AtLocation location) action action

namespace Unmoved

variable {β : Type}

theorem sameThread (location : Location) : Act.SameThread (AtLocation location) where
  thread_eq := fun states => congrArg State.thread states.1
  change := by
    rintro left right thread ⟨rfl, found⟩
    exact ⟨rfl, found⟩

protected theorem pure (value : α) : Unmoved (pure value) := fun _ => .pure value

protected theorem bind {action : Do α} {next : α → Do β} (first : Unmoved action)
    (rest : ∀ value, Unmoved (next value)) : Unmoved (action >>= next) :=
  fun location => .bind (first location) fun value => rest value location

protected theorem thread : Unmoved Act.thread := fun location => .thread (sameThread location)

protected theorem pushFrame (tag : OwnerTag) : Unmoved (Act.pushFrame tag) :=
  fun location => .pushFrame (sameThread location) tag

protected theorem popFrame (id : FrameId) (unwinding : Bool) :
    Unmoved (Act.popFrame id unwinding) :=
  fun location => .popFrame (sameThread location) id unwinding

protected theorem dropFrame (id : FrameId) (unwinding : Bool) :
    Unmoved (Act.dropFrame id unwinding) :=
  fun location => .dropFrame (sameThread location) id unwinding

protected theorem signalExit (kind : ExitKind) (target : OwnerTag) (value : UInt64) :
    Unmoved (Act.signalExit kind target value : Do α) :=
  fun location => .signalExit (sameThread location) kind target value

protected theorem parkExit (kind : ExitKind) (target : OwnerTag) (value : UInt64) :
    Unmoved (Act.parkExit kind target value) :=
  fun location => .parkExit (sameThread location) kind target value

protected theorem resumePending : Unmoved Act.resumePending :=
  fun location => .resumePending (sameThread location)

protected theorem frameSignal (kind : UInt32) (target : OwnerTag) (value : UInt64) :
    Unmoved (Act.frameSignal kind target value) :=
  fun location => .frameSignal (sameThread location) kind target value

protected theorem world : Unmoved (Act.world : Do World) := by
  rintro location left right ⟨rfl, found⟩
  exact ⟨rfl, rfl, found⟩

protected theorem get : Unmoved (Act.get : Do (State World)) := by
  rintro location left right ⟨rfl, found⟩
  exact ⟨rfl, rfl, found⟩

protected theorem onWorld {change : World → World}
    (kept : ∀ world, (change world).locations .bridge = world.locations .bridge) :
    Unmoved (Act.onWorld change) := by
  rintro location left right ⟨rfl, found⟩
  exact ⟨rfl, rfl, (kept _).trans found⟩

end Unmoved

/-- The statement runs no body and no code, and does not set the location. -/
def Stmt.isQuiet : Stmt → Bool
  | .protect .. | .exec .. | .scope .. | .native _ | .protectBody .. | .protectCode ..
  | .attempt _ | .sub _ | .invoke _ | .blockPass .. | .call .. | .setLocation .. => false
  | _ => true

namespace Context

theorem record_unmoved (entry : Entry) : Unmoved (record entry) := .onWorld fun _ => rfl

theorem setAcc_unmoved (bits : UInt64) : Unmoved (setAcc bits) := .onWorld fun _ => rfl

theorem finish_unmoved (result : Result) : Unmoved (finish result) := .pure _

theorem finishOutcome_unmoved (outcome : Outcome) : Unmoved (finishOutcome outcome) :=
  .bind (setAcc_unmoved _) fun _ => .pure _

theorem finishWord_unmoved (bits : UInt64) : Unmoved (finishWord bits) :=
  .bind (setAcc_unmoved _) fun _ => .pure _

theorem finishCall_unmoved (results : List UInt64) : Unmoved (finishCall results) := by
  cases results with
  | nil => exact .bind (setAcc_unmoved 0) fun _ => .pure _
  | cons value _ => exact finishWord_unmoved value

theorem finishInvoke_unmoved (answer : Except BridgeError HostValue) :
    Unmoved (finishInvoke answer) := by
  cases answer with
  | ok value => exact .bind (setAcc_unmoved _) fun _ => .pure _
  | error error => exact .pure _

theorem finishRegion_unmoved (silent : Bool) (value : UInt64) (code : Option UInt32) :
    Unmoved (finishRegion silent value code) :=
  .bind (setAcc_unmoved _) fun _ => .pure _

theorem recordFinished_unmoved (stmt : Stmt) (result : Result) :
    Unmoved (recordFinished stmt result) :=
  .bind .thread fun _ => record_unmoved _

theorem endScope_unmoved (id : FrameId) (unwinding : Bool) : Unmoved (endScope id unwinding) :=
  .bind (.popFrame id unwinding) fun _ => record_unmoved _

theorem release_unmoved (name : String) : Unmoved (Act.onWorld (·.release name)) :=
  .onWorld fun _ => rfl

theorem hold_unmoved (name : String) (id : FrameId) : Unmoved (hold name id) := by
  refine .bind .world fun world => .bind (.onWorld fun _ => rfl) fun _ => ?_
  cases world.guards.get? name with
  | none => exact .pure _
  | some earlier => exact .dropFrame earlier false

theorem operand_unmoved (value : Operand) : Unmoved (operand value) :=
  .bind .world fun _ => .pure _

theorem withKind_unmoved (code : UInt32) {next : ExitKind → Do Step}
    (rest : ∀ kind, Unmoved (next kind)) : Unmoved (withKind code next) := by
  unfold withKind
  split
  · exact rest _
  · exact .pure _

theorem guard?_unmoved (name : String) : Unmoved (guard? name) := .bind .world fun _ => .pure _

theorem withGuard_unmoved (name : String) {next : FrameId → Do Step}
    (rest : ∀ id, Unmoved (next id)) : Unmoved (withGuard name next) := by
  refine .bind (guard?_unmoved name) fun found => ?_
  cases found with
  | none => exact .pure _
  | some id => exact rest id

end Context

/-! ## Sessions next to their traced twins -/

theorem mem_of_codeNamed? {codes : List Code} {name : String} {entry : Nat × Code}
    (named : codeNamed? codes name = some entry) : entry.2 ∈ codes := by
  obtain ⟨found, first, rfl⟩ := Option.map_eq_some_iff.mp named
  exact List.fst_mem_of_mem_zipIdx (List.mem_reverse.mp (List.mem_of_find?_eq_some first))

/-- One level of a session that nobody looks at, and of the same session with a trace. -/
structure Twins where
  /-- The parts of the session. -/
  setup : Setup
  /-- The bridge of the session. -/
  bridge : Bridge
  /-- The compiled functions. -/
  codes : List Code
  /-- The runtime family that a function was generated for. -/
  abiOf : Code → Abi
  /-- Run a body one level deeper. -/
  run : Body → Do UInt64
  /-- Call the code at an address, one level deeper. -/
  enter : UInt64 → UInt64 → Do UInt64
  /-- Run a body one level deeper, with a trace. -/
  tracedRun : Body → Act Traced UInt64
  /-- Call the code at an address, one level deeper, with a trace. -/
  tracedEnter : UInt64 → UInt64 → Act Traced UInt64

namespace Twins

open Context

/-- What statements are run in when nobody looks. -/
def plain (twins : Twins) : Context World :=
  { setup := twins.setup, bridge := twins.bridge, codes := twins.codes, observer := .plain
    run := twins.run, enter := twins.enter }

/-- What statements are run in with a trace. -/
def traced (twins : Twins) : Context Traced :=
  { setup := twins.setup, bridge := twins.bridge, codes := twins.codes
    observer := tracing twins.abiOf, run := twins.tracedRun, enter := twins.tracedEnter }

/-- What is run with a trace one level deeper follows what is run there without, and every function
is generated for the runtime family that is noted for it. -/
structure Follow (abi : Abi) (twins : Twins) : Prop where
  run : ∀ body, Act.Alike (Tied abi) (twins.run body) (twins.tracedRun body)
  enter : ∀ address data,
    Act.Alike (Tied abi) (twins.enter address data) (twins.tracedEnter address data)
  emitted : ∀ code ∈ twins.codes, code.EmittedFor (twins.abiOf code)

variable {twins : Twins}

theorem codes_traced : twins.traced.codes = twins.plain.codes := rfl

theorem resolve?_traced (pointer : Pointer) :
    twins.traced.resolve? pointer = twins.plain.resolve? pointer := rfl

theorem argument?_traced : twins.traced.argument? = twins.plain.argument? := by
  funext argument
  cases argument <;> rfl

/-- An action of the session that leaves the location alone leaves no mark. -/
theorem alike_lift {action : Do α} (unmoved : Unmoved action) :
    Act.Alike (Tied abi) (twins.plain.lift action) (twins.traced.lift action) := by
  rintro left right ⟨rfl, faithful⟩
  obtain ⟨-, -, kept⟩ := unmoved _ _ _ ⟨rfl, rfl⟩
  exact ⟨rfl, rfl, faithful.of_location_eq kept⟩

/-! ### Location updates -/

/-- The parts of an update for another owner do not touch the bridge's location. -/
theorem alike_locateAll_of_ne {owner : LocationOwner} (other : owner ≠ .bridge)
    (parts : List Location.Part) :
    Act.Alike (Tied abi) (Act.onWorld (twins.plain.machine.locateAll owner parts))
      (Act.onWorld ((marking used twins.traced.machine).locateAll owner parts)) := by
  induction parts with
  | nil => exact fun _ _ states => ⟨rfl, states⟩
  | cons part parts induction =>
      rintro left right ⟨rfl, faithful⟩
      let first := twins.plain.machine.locate owner part right.world.world
      let second := (marking used twins.traced.machine).locate owner part right.world
      have unmarked : second = { right.world with world := first } := if_neg other
      have kept : first.locations .bridge = right.world.location := if_neg other.symm
      refine induction ⟨right.thread, first⟩ ⟨right.thread, second⟩ ?_
      rw [unmarked]
      exact ⟨rfl, faithful.of_location_eq kept⟩

/-- After all parts of an update for the bridge's own location, the location is that of the
update. -/
theorem alike_locateAll_own (placed : PlacedNode) :
    Act.Alike (Tied abi)
      (Act.onWorld (twins.plain.machine.locateAll .bridge (LocationSlots.own.parts used placed)))
      (Act.onWorld
        ((marking used twins.traced.machine).locateAll .bridge
          (LocationSlots.own.parts used placed))) := by
  rintro left right ⟨rfl, faithful⟩
  let first := twins.plain.machine.locateAll .bridge (LocationSlots.own.parts used placed)
    right.world.world
  let second := (marking used twins.traced.machine).locateAll .bridge
    (LocationSlots.own.parts used placed) right.world
  have same : first = second.world := by cases used <;> rfl
  have marks : second.marks =
      (if used.tracksNode then [.stored used (.node placed)] else []) ++
        .stored used (.file placed) :: .stored used (.line placed.node.line) ::
          right.world.marks := by
    cases used <;> rfl
  have newest : latest second.marks = some placed := by cases used <;> rfl
  have seen : Sound abi second.marks ↔ Sound abi right.world.marks := by cases used <;> rfl
  have found : second.location =
      { line := placed.node.line
        file := .placed placed.node.file placed.fileAddress
        node :=
          if used.tracksNode then .placed placed.node placed.address
          else right.world.location.node } := by
    cases used <;> rfl
  refine ⟨rfl, congrArg _ same, fun uses => ?_⟩
  change ∀ mark ∈ second.marks, mark.Uses abi at uses
  change second.location = .ofUpdate abi (latest second.marks) ∧ Sound abi second.marks
  rw [marks] at uses
  obtain rfl : used = abi := uses (.stored used (.file placed)) (by simp)
  obtain ⟨current, sound⟩ := faithful fun mark mem => uses mark (by simp [mem])
  refine ⟨?_, seen.mpr sound⟩
  rw [found, newest, current]
  -- for a family without nodes no node is stored, but then none was ever set
  cases tracks : used.tracksNode <;> cases latest right.world.marks <;>
    simp [Location.ofUpdate, tracks]

/-- An update of the host sets all parts of the location. -/
theorem alike_setLocation (line : Int32) (file : String) (id : UInt64) (name : String) :
    Act.Alike (Tied abi) (twins.plain.perform (.setLocation line file id name))
      (twins.traced.perform (.setLocation line file id name)) := by
  rintro left right ⟨rfl, faithful⟩
  simp only [Context.perform]
  cases SourceNode.create line file id with
  | error error => exact ⟨rfl, rfl, faithful⟩
  | ok node =>
      cases BuildRequest.abiNamed name with
      | error fault => exact ⟨rfl, rfl, faithful⟩
      | ok used =>
          refine ⟨rfl, rfl, fun uses => ?_⟩
          obtain rfl : used = abi := uses _ List.mem_cons_self
          obtain ⟨-, sound⟩ := faithful fun mark mem => uses mark (List.mem_cons_of_mem _ mem)
          exact ⟨rfl, sound⟩

/-! ### Code and evaluators -/

section Follow

variable (follow : twins.Follow abi)
include follow

theorem alike_routine (target : Address) (args : List UInt64) :
    Act.Alike (Tied abi) (twins.plain.routine target args) (twins.traced.routine target args) := by
  cases target with
  | raw bits => exact .abort _
  | helper helper => exact .pure _
  | routine which =>
      cases which with
      | sub => exact .runNative sameThread_tied (follow.run _)
      | subBody => exact follow.run _
      | log => exact .bind (alike_lift (record_unmoved _)) fun _ => .pure _
      | _ => exact .pure _

theorem alike_evaluator :
    Evaluator.Alike (Tied abi) twins.plain.evaluator twins.traced.evaluator where
  isSequence := fun _ => .pure _
  describe := fun _ => .pure _
  typeError := fun _ => .bind (alike_lift (record_unmoved _)) fun _ => .pure _
  evaluate := by
    intro tree self
    refine .bind (alike_lift (record_unmoved _)) fun _ => ?_
    dsimp only [plain, traced]
    cases tree.method?.bind fun method => twins.setup.evaluator.methods.lookup method with
    | none => exact .pure _
    | some body => exact .bind (follow.run body) fun _ => .pure _

theorem alike_machine (used : Abi) :
    Machine.Alike (Tied abi) twins.plain.machine (marking used twins.traced.machine) where
  memory := fun states => congrArg Space.view states.1
  store := by
    rintro address count bits left right ⟨rfl, faithful⟩
    dsimp only [marking]
    split
    · next same => exact ⟨rfl, faithful.of_location_eq same⟩
    -- a store that changes the location is no update, and nothing is said about such runs
    · exact ⟨rfl, fun uses => (uses .overwritten List.mem_cons_self).elim⟩
  routine := fun target args => .bind (alike_routine follow target args) fun _ => .pure _
  enter := follow.enter
  installed := fun states => congrArg (fun state => state.world.installed) states.1
  evaluator := alike_evaluator follow
  frameAddress := rfl
  locationAddress := rfl

theorem alike_call {code : Code} (known : code ∈ twins.codes) (args : List UInt64) :
    Act.Alike (Tied abi) (twins.plain.call code args) (twins.traced.call code args) := by
  obtain ⟨compiler, next, bridge, linker, spec, compiled, own⟩ := follow.emitted code known
  obtain ⟨-, updates⟩ := Compiler.updates_of_compile compiled
  refine Code.alike_watch updates sameThread_tied (alike_machine follow _) alike_look
    (fun placed => ?_) args
  by_cases owner : bridge.slots.owner = .bridge
  · obtain ⟨slots, family⟩ := own owner
    rw [slots, family]
    exact alike_locateAll_own placed
  · exact alike_locateAll_of_ne owner _

theorem alike_invoke (invocation : Invocation) :
    Act.Alike (Tied abi) (twins.bridge.invoke twins.plain.evaluator invocation)
      (twins.bridge.invoke twins.traced.evaluator invocation) := by
  unfold Bridge.invoke
  split
  · exact (alike_evaluator follow).invoke _ invocation
  · exact .pure _

/-! ### Statements -/

omit follow in
/-- Statements that run no body and no code. -/
theorem alike_quiet {stmt : Stmt} (quiet : stmt.isQuiet = true) :
    Act.Alike (Tied abi) (twins.plain.perform stmt) (twins.traced.perform stmt) := by
  cases stmt with
  | protect | exec | scope | native | protectBody | protectCode | attempt | sub | invoke
  | blockPass | call | setLocation => cases quiet
  | push name tag =>
      exact alike_lift (.bind .thread fun _ => .bind (.pushFrame tag) fun id =>
        .bind (hold_unmoved name id) fun _ => .pure _)
  | pop name =>
      refine alike_lift (withGuard_unmoved name fun id => .bind (release_unmoved name) fun _ => ?_)
      refine .bind (.popFrame id false) fun popped => ?_
      cases popped with
      | ok phase => exact .pure _
      | error error => exact .pure _
  | drop name =>
      exact alike_lift (withGuard_unmoved name fun id => .bind (release_unmoved name) fun _ =>
        .bind (.dropFrame id false) fun _ => .pure _)
  | frame name =>
      refine alike_lift (withGuard_unmoved name fun id => .bind .thread fun thread => ?_)
      cases thread.frame? id with
      | none => exact .pure _
      | some frame => exact .pure _
  | top =>
      refine alike_lift (.bind .thread fun thread => ?_)
      cases thread.top? with
      | none => exact .pure _
      | some frame => exact .pure _
  | topIsCurrent => exact alike_lift (.pure _)
  | state => exact alike_lift (.bind .thread fun _ => .pure _)
  | signal kind target value =>
      exact alike_lift (withKind_unmoved kind fun kind =>
        .bind (operand_unmoved value) fun _ => .signalExit kind target _)
  | park kind target value =>
      exact alike_lift (withKind_unmoved kind fun kind => .bind (operand_unmoved value) fun _ =>
        .bind (.parkExit kind target _) fun _ => .pure _)
  | resume => exact alike_lift (.bind .resumePending fun _ => .pure _)
  | pending => exact alike_lift (.bind .thread fun _ => .pure _)
  | resolve kind target =>
      refine alike_lift (withKind_unmoved kind fun kind => .bind .thread fun thread => ?_)
      cases thread.resolve kind target with
      | ok token => exact .pure _
      | error error => exact .pure _
  | signalNative kind target value =>
      exact alike_lift (.bind (operand_unmoved value) fun _ =>
        .bind (.frameSignal kind target _) fun _ => .pure _)
  | fail message => exact .unwind _
  | ret value => exact alike_lift (.bind (operand_unmoved value) fun _ => .pure _)
  | check =>
      refine alike_lift (.bind .thread fun thread => ?_)
      split
      · exact .pure _
      · exact .pure _
  | note => exact alike_lift (.bind .world fun _ => .pure _)
  | bytes buffer => exact alike_lift (.bind .world fun _ => .pure _)
  | frameMember name =>
      rw [perform, perform]
      dsimp only [plain, traced]
      cases twins.bridge.layouts.lookup Builtin.controlFrameName name with
      | error error => exact alike_lift (.pure _)
      | ok member =>
          refine alike_lift (.bind .get fun state => ?_)
          cases state.thread.top? with
          | none => exact .pure _
          | some frame => exact .pure _
  | location => exact alike_lift (.bind .world fun _ => .pure _)
  | locationFile =>
      refine alike_lift (.bind .world fun world => ?_)
      cases (world.locationReport .bridge).file with
      | none => exact .pure _
      | some file => exact .pure _
  | hostLocation => exact alike_lift (.bind .world fun _ => .pure _)
  | install request =>
      rw [perform, perform]
      cases request.resolve with
      | error fault => exact alike_lift (.pure _)
      | ok bridge =>
          refine alike_lift (.bind .world fun world => ?_)
          split
          · exact .pure _
          · exact .bind (.onWorld fun _ => rfl) fun _ => .pure _
  | installed =>
      refine alike_lift (.bind .world fun world => ?_)
      cases world.installed with
      | none => exact .pure _
      | some bridge => exact .pure _

theorem alike_perform (stmt : Stmt) :
    Act.Alike (Tied abi) (twins.plain.perform stmt) (twins.traced.perform stmt) := by
  have same := @sameThread_tied abi
  cases stmt with
  | protect tag body =>
      exact .bind (.protect same tag (follow.run body)) fun outcome =>
        alike_lift (finishOutcome_unmoved outcome)
  | exec name body =>
      refine .bind (alike_lift (guard?_unmoved name)) fun found => ?_
      cases found with
      | none => exact alike_lift (finish_unmoved _)
      | some id =>
          refine .bind (alike_lift (release_unmoved name)) fun _ => ?_
          refine .bind (.guarding same id (.exec same id (follow.run body))) fun outcome => ?_
          exact .bind (alike_lift (hold_unmoved name id)) fun _ =>
            alike_lift (finishOutcome_unmoved outcome)
  | scope tag body =>
      refine .bind (.pushFrame same tag) fun id => ?_
      refine .bind (.catching (follow.run body)) fun ended => ?_
      cases ended with
      | ok value =>
          exact .bind (alike_lift (endScope_unmoved id false)) fun _ =>
            alike_lift (finish_unmoved _)
      | error payload =>
          exact .bind (alike_lift (endScope_unmoved id true)) fun _ => .unwind payload
  | native body =>
      exact .bind (.runNative same (follow.run body)) fun value =>
        alike_lift (finishWord_unmoved value)
  | protectBody tag body silent =>
      exact .bind (.frameProtect same tag (follow.run body)) fun _ =>
        alike_lift (finishRegion_unmoved silent _ _)
  | protectCode tag function data silent =>
      rw [perform, perform, resolve?_traced, resolve?_traced]
      cases twins.plain.resolve? (.code function) with
      | none => exact alike_lift (finish_unmoved _)
      | some address =>
          cases twins.plain.resolve? data with
          | none => exact alike_lift (finish_unmoved _)
          | some data =>
              exact .bind (.frameProtect same tag (follow.enter address data)) fun _ =>
                alike_lift (finishRegion_unmoved silent _ _)
  | attempt body =>
      exact .bind (.catching (follow.run body)) fun ended => alike_lift (finish_unmoved _)
  | sub index => exact .bind (follow.run _) fun value => alike_lift (finish_unmoved _)
  | invoke invocation =>
      exact .bind (alike_invoke follow invocation) fun answer =>
        alike_lift (finishInvoke_unmoved answer)
  | blockPass bound receiver method args block =>
      -- a call with a block stores nothing by itself, so that no mark of the machine is missed
      exact .bind ((alike_machine follow twins.bridge.config.abi).blockPass same _) fun value =>
        alike_lift (finishWord_unmoved value)
  | call function args =>
      rw [perform, perform, argument?_traced, codes_traced]
      cases named : codeNamed? twins.plain.codes function with
      | none => exact alike_lift (finish_unmoved _)
      | some entry =>
          cases args.mapM twins.plain.argument? with
          | none => exact alike_lift (finish_unmoved _)
          | some args =>
              exact .bind (alike_call follow (mem_of_codeNamed? named) args) fun results =>
                alike_lift (finishCall_unmoved results)
  | setLocation line file id name => exact alike_setLocation line file id name
  | _ => exact alike_quiet rfl

theorem alike_runBody (body : Body) :
    Act.Alike (Tied abi) (twins.plain.runBody body) (twins.traced.runBody body) := by
  induction body with
  | nil => exact .after alike_look (.pure 0)
  | cons stmt body induction =>
      refine .after alike_look (.bind (alike_perform follow stmt) fun step => ?_)
      cases step with
      | finished result =>
          exact .bind (alike_lift (recordFinished_unmoved stmt result)) fun _ => induction
      | left value => exact .pure value

theorem alike_enterCode (address data : UInt64) :
    Act.Alike (Tied abi) (twins.plain.enterCode address data)
      (twins.traced.enterCode address data) := by
  rw [Context.enterCode, Context.enterCode]
  cases Space.codeIndex? address with
  | none =>
      cases Space.routineAt? address with
      | none => exact .abort _
      | some routine => exact alike_routine follow _ _
  | some index =>
      dsimp only [plain, traced]
      cases known : twins.codes[index]? with
      | none => exact .abort _
      | some code =>
          exact .bind (alike_call follow (List.mem_of_getElem? known) [data]) fun _ => .pure _

end Follow

end Twins

/-- A traced run follows the plain run, at all levels. -/
theorem alike_observeAt {codes : List Code} {abiOf : Code → Abi} (setup : Setup) (bridge : Bridge)
    (emitted : ∀ code ∈ codes, code.EmittedFor (abiOf code)) (levels : Nat) :
    (∀ body, Act.Alike (Tied abi) (observeAt .plain setup bridge codes levels body)
      (observeAt (tracing abiOf) setup bridge codes levels body)) ∧
    ∀ address data, Act.Alike (Tied abi)
      (observeEnterAt .plain setup bridge codes levels address data)
      (observeEnterAt (tracing abiOf) setup bridge codes levels address data) := by
  induction levels with
  | zero => exact ⟨fun _ => .abort _, fun _ _ => .abort _⟩
  | succ levels induction =>
      obtain ⟨run, enter⟩ := induction
      let twins : Twins :=
        { setup, bridge, codes, abiOf
          run := observeAt .plain setup bridge codes levels
          enter := observeEnterAt .plain setup bridge codes levels
          tracedRun := observeAt (tracing abiOf) setup bridge codes levels
          tracedEnter := observeEnterAt (tracing abiOf) setup bridge codes levels }
      have follow : twins.Follow abi := ⟨run, enter, emitted⟩
      exact ⟨Twins.alike_runBody follow, Twins.alike_enterCode follow⟩

/-- What a bridge compiles is generated for its runtime family. -/
theorem emittedFor_of_compileAll {bridge : Bridge}
    (own : bridge.slots.owner = .bridge → bridge.slots = .own)
    (buffers : Dictionary (List UInt8)) (compiler : Compiler) (codes : List Code)
    (specs : List FunctionSpec) (earlier : ∀ code ∈ codes, code.EmittedFor bridge.config.abi) :
    ∀ code ∈ (compileAll bridge buffers compiler codes specs).2,
      code.EmittedFor bridge.config.abi := by
  induction specs generalizing compiler codes with
  | nil => exact earlier
  | cons spec specs induction =>
      rw [compileAll]
      split
      · next code next compiled =>
          refine induction next (codes ++ [code]) fun other mem => ?_
          rcases List.mem_append.mp mem with mem | mem
          · exact earlier other mem
          · obtain rfl := List.mem_singleton.mp mem
            exact ⟨compiler, next, bridge, _, spec, compiled, fun owner => ⟨own owner, rfl⟩⟩
      · exact induction {} codes earlier

namespace LeavingEarly

/-- A function with two updates; the checked call between them runs a subprogram. -/
def function : FunctionSpec :=
  { name := "relocate"
    signature := { params := [], returns := [] }
    body :=
      [.location 3 "a.rb" 7, .constPointer 0,
        .call "step" [0] (some { params := [.pointer], returns := [.pointer] }) true,
        .location 4 "a.rb" 8]
    results := [] }

/-- The function is called in a protected region. The subprogram sets the location and parks an
exit, so that the function is left before its second update. -/
def setup : Setup :=
  { program := [.protect ⟨1⟩ [.call "relocate" []]]
    subs := [[.setLocation 9 "b.rb" 5 "frame-scope", .park ExitKind.break.code ⟨1⟩ (.word 2)]] }

/-- A bridge with the routine that runs subprograms. -/
def bridge : Bridge :=
  .build (.forAbi .frameScope) [.function "step" (.routine .sub)] .own false

/-- The compiled function. -/
def codes : List Code := (compileAll bridge [] {} [] [function]).2

/-- The traced run. -/
def ended : Ending UInt64 × State Traced :=
  traceAt setup bridge codes (fun _ => .frameScope) 4 setup.program
    (withTrace [] (start setup codes none))

end LeavingEarly

end Session

end HostBridge
