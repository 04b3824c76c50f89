import HostBridge.Proofs.Control.Program
import Mathlib.Logic.Relation

/-!
# The steps of a thread

Everything that a program can do to its thread is one of a few steps. A configuration says where
the guards are that the program does not hold: in the hands of an operation, or with a region that
is being executed. The run of every watched program is a sequence of steps, so whatever all steps
keep holds throughout all runs.
-/

namespace HostBridge

/-- How a thread is under way. -/
inductive Mode where
  /-- It runs the program. -/
  | running
  /-- It unwinds. -/
  | unwinding (payload : Payload)
  /-- Its process was aborted. -/
  | aborted (cause : Abort)

/-- A region that is being executed. -/
structure Activation where
  /-- The frame of the region. -/
  id : FrameId
  /-- The serial that the frame had when the execution began. -/
  serial : Nat

/-- Where a watched program stands. -/
structure Config where
  /-- Guards in the hands of operations, latest first. -/
  owned : List FrameId
  /-- Regions that are being executed, innermost first. -/
  active : List Activation
  /-- How the thread is under way. -/
  mode : Mode
  /-- The thread, the guards that the program holds, and the history. -/
  state : State Watch

namespace Config

/-- The control state. -/
abbrev thread (config : Config) : Thread := config.state.thread

/-- What has happened. -/
abbrev history (config : Config) : History := config.state.world.history

/-- The guards that the program holds. -/
abbrev held (config : Config) : List FrameId := config.state.world.guards.map (·.2)

/-- The frames of the regions that are being executed. -/
abbrev executing (config : Config) : List FrameId := config.active.map (·.id)

/-- Nothing has happened. -/
def initial : Config := { owned := [], active := [], mode := .running, state := Program.start }

end Config

open Watch

/-- One step. -/
inductive Step : Config → Config → Prop
  /-- Guards change hands between the program and its operations. -/
  | move {owned owned' active mode state} (guards : List (Handle × FrameId)) (issued : Handle)
      (moved : (guards.map (·.2) ++ owned').Perm (state.world.guards.map (·.2) ++ owned)) :
      Step ⟨owned, active, mode, state⟩
        ⟨owned', active, mode, { state with world := { state.world with guards, issued } }⟩
  /-- The program looks at the control state. -/
  | look {owned active state} :
      Step ⟨owned, active, .running, state⟩
        ⟨owned, active, .running, note .looked state.thread state⟩
  /-- A frame is pushed. -/
  | push {owned active state} (tag : OwnerTag) :
      Step ⟨owned, active, .running, state⟩
        ⟨state.thread.nextSerial :: owned, active, .running,
          note (.pushed state.thread.nextSerial) state.thread
            { state with thread := state.thread.push tag }⟩
  /-- A guard is popped. -/
  | pop {id owned active state} :
      Step ⟨id :: owned, active, .running, state⟩
        ⟨owned, active, .running,
          note (.popped id (state.thread.pop id false).1) state.thread
            { state with thread := (state.thread.pop id false).2 }⟩
  /-- A guard is dropped, also on the way of an unwind. -/
  | drop {id owned active mode state} (unwinding : Bool)
      (alive : ∀ cause, mode ≠ .aborted cause) :
      Step ⟨id :: owned, active, mode, state⟩
        ⟨owned, active, mode,
          note (.dropped id (state.thread.pop id unwinding).1) state.thread
            { state with thread := (state.thread.pop id unwinding).2 }⟩
  /-- The execution of a region begins. -/
  | enter {id owned active state} :
      Step ⟨id :: owned, active, .running, state⟩
        ⟨owned, ⟨id, state.thread.serialOf id⟩ :: active, .running,
          note (.entered id) state.thread
            { state with thread := state.thread.modify id Frame.arm }⟩
  /-- The execution of a region returns the value of its body. -/
  | complete {id serial owned active state} (value : UInt64) (thread : Thread)
      (calm : state.thread.pending = none)
      (after : thread =
        (state.thread.modify id Frame.disarm).modify id (Frame.complete value)) :
      Step ⟨owned, ⟨id, serial⟩ :: active, .running, state⟩
        ⟨id :: owned, active, .running,
          note (.returned id (.completed value)) thread { state with thread }⟩
  /-- An exit lands on the region that it is aimed at. -/
  | land {id serial owned active state} (kind : ExitKind) (thread : Thread)
      (after : thread = (state.thread.modify id Frame.disarm).modify id Frame.abandon) :
      Step ⟨owned, ⟨id, serial⟩ :: active, .unwinding (.exit serial kind), state⟩
        ⟨id :: owned, active, .running,
          note
            (.returned id
              (.unwound kind (((thread.frame? id).map (·.result)).getD HostValue.nil.bits)))
            thread { state with thread }⟩
  /-- An unwind leaves a region that it is not aimed at. -/
  | leave {id serial owned active state} (payload : Payload) (thread : Thread)
      (elsewhere : ∀ kind, payload ≠ .exit serial kind)
      (after : thread = (state.thread.modify id Frame.disarm).modify id Frame.abandon) :
      Step ⟨owned, ⟨id, serial⟩ :: active, .unwinding payload, state⟩
        ⟨id :: owned, active, .unwinding payload,
          note (.left id) thread { state with thread }⟩
  /-- An exit is aimed and starts to unwind. -/
  | raise {owned active state} (kind : ExitKind) (target : OwnerTag) (value : UInt64)
      (payload : Payload) (thread : Thread)
      (aimed : state.thread.aim kind target value = .ok (payload, thread)) :
      Step ⟨owned, active, .running, state⟩
        ⟨owned, active, .unwinding payload,
          { note (.raised kind target value) state.thread state with thread }⟩
  /-- An exit that no region accepts aborts the process. -/
  | abort {owned active state} (kind : ExitKind) (target : OwnerTag) (value : UInt64)
      (error : BridgeError) (unmatched : state.thread.aim kind target value = .error error) :
      Step ⟨owned, active, .running, state⟩
        ⟨owned, active, .aborted (.fatal error),
          note (.raised kind target value) state.thread state⟩
  /-- A foreign failure starts to unwind. -/
  | fail {owned active state} (message : String) :
      Step ⟨owned, active, .running, state⟩
        ⟨owned, active, .unwinding (.foreign message),
          note (.failed message) state.thread state⟩
  /-- An unwind is made to wait. -/
  | park {owned active state} (payload : Payload) :
      Step ⟨owned, active, .unwinding payload, state⟩
        ⟨owned, active, .running,
          note .parked state.thread { state with thread := state.thread.park payload }⟩
  /-- The unwind that waits goes on. -/
  | resume {owned active state} (payload : Payload)
      (waits : state.thread.pending = some payload) :
      Step ⟨owned, active, .running, state⟩
        ⟨owned, active, .unwinding payload, { state with thread := state.thread.clear }⟩

/-- Any number of steps. -/
abbrev Reaches : Config → Config → Prop := Relation.ReflTransGen Step

/-- A property of configurations that every step keeps holds wherever steps lead. -/
theorem Reaches.keeps {property : Config → Prop}
    (step : ∀ {before after}, Step before after → property before → property after)
    {before after : Config} (reaches : Reaches before after) (holds : property before) :
    property after := by
  induction reaches with
  | refl => exact holds
  | tail _ last induction => exact step last induction

/-- Histories only grow. -/
theorem Step.history_suffix {before after : Config} (taken : Step before after) :
    before.history <:+ after.history := by
  cases taken <;> first | exact List.suffix_rfl | exact List.suffix_cons _ _

/-! ## Runs are made of steps -/

variable {α β : Type}

/-- Steps lead from a configuration to the result of an action. The guards in hand depend on
whether the action returned or was left by an unwind. -/
def Follows (config : Config) (active : List Activation) (back : α → List FrameId)
    (away : List FrameId) : Ending α × State Watch → Prop
  | (.returned value, state) => Reaches config ⟨back value, active, .running, state⟩
  | (.unwinding payload, state) => Reaches config ⟨away, active, .unwinding payload, state⟩
  | (.aborted cause, state) => ∃ owned active, Reaches config ⟨owned, active, .aborted cause, state⟩

namespace Follows

variable {config : Config} {active : List Activation} {back : α → List FrameId}
  {back' : β → List FrameId} {away away' : List FrameId}

theorem after {middle : Config} {result : Ending α × State Watch} (reaches : Reaches config middle)
    (follows : Follows middle active back away result) :
    Follows config active back away result := by
  obtain ⟨value | payload | cause, state⟩ := result
  · exact reaches.trans follows
  · exact reaches.trans follows
  · obtain ⟨owned, active, rest⟩ := follows
    exact ⟨owned, active, reaches.trans rest⟩

/-- Whichever way an action ends, steps lead there. -/
theorem exists_reaches {result : Ending α × State Watch}
    (follows : Follows config active back away result) :
    ∃ owned active mode, Reaches config ⟨owned, active, mode, result.2⟩ := by
  obtain ⟨value | payload | cause, state⟩ := result
  · exact ⟨_, _, _, follows⟩
  · exact ⟨_, _, _, follows⟩
  · obtain ⟨owned, active, reaches⟩ := follows
    exact ⟨owned, active, _, reaches⟩

theorem bind {action : Act Watch α} {next : α → Act Watch β} {state : State Watch}
    (begins : Follows config active back away (action state))
    (goesOn : ∀ value reached,
      Follows ⟨back value, active, .running, reached⟩ active back' away (next value reached)) :
    Follows config active back' away ((action >>= next) state) := by
  rw [Act.bind_apply]
  generalize action state = result at begins
  obtain ⟨value | payload | cause, reached⟩ := result
  · exact after begins (goesOn value reached)
  · exact begins
  · exact begins

theorem catching {action : Act Watch α} {next : Except Payload α → Act Watch β}
    {state : State Watch} (begins : Follows config active back away (action state))
    (returned : ∀ value reached,
      Follows ⟨back value, active, .running, reached⟩ active back' away' (next (.ok value) reached))
    (caught : ∀ payload reached,
      Follows ⟨away, active, .unwinding payload, reached⟩ active back' away'
        (next (.error payload) reached)) :
    Follows config active back' away' ((Act.catching action >>= next) state) := by
  rw [Act.bind_apply, Act.catching_apply]
  generalize action state = result at begins
  obtain ⟨value | payload | cause, reached⟩ := result
  · exact after begins (returned value reached)
  · exact after begins (caught payload reached)
  · exact begins

protected theorem pure {owned : List FrameId} (value : α) (state : State Watch) :
    Follows ⟨owned, active, .running, state⟩ active (fun _ => owned) away
      ((pure value : Act Watch α) state) :=
  .refl

theorem look {owned : List FrameId} (state : State Watch) :
    Follows ⟨owned, active, .running, state⟩ active (fun _ => owned) away (Watch.look state) :=
  .single .look

theorem push {owned : List FrameId} (tag : OwnerTag) (state : State Watch) :
    Follows ⟨owned, active, .running, state⟩ active (· :: owned) away (Watch.push tag state) :=
  .single (.push tag)

theorem pop {id : FrameId} {owned : List FrameId} (state : State Watch) :
    Follows ⟨id :: owned, active, .running, state⟩ active (fun _ => owned) away
      (Watch.pop id state) :=
  .single .pop

theorem drop {id : FrameId} {owned : List FrameId} (state : State Watch) :
    Follows ⟨id :: owned, active, .running, state⟩ active (fun _ => owned) away
      (Watch.drop id false state) :=
  .single (.drop false nofun)

/-- A guard is dropped on the way of an unwind, which then goes on. -/
theorem drop_unwind {id : FrameId} (payload : Payload) (state : State Watch) :
    Follows ⟨id :: away, active, .unwinding payload, state⟩ active back away
      ((Watch.drop id true >>= fun _ => Act.unwind payload) state) :=
  .single (.drop true nofun)

theorem unwind (payload : Payload) (state : State Watch) :
    Follows ⟨away, active, .unwinding payload, state⟩ active back away
      (Act.unwind payload state) :=
  .refl

/-- An unwind is made to wait, and the program goes on. -/
theorem park {owned : List FrameId} (payload : Payload) {next : Unit → Act Watch α}
    (goesOn : ∀ reached, Follows ⟨owned, active, .running, reached⟩ active back away
      (next () reached)) (state : State Watch) :
    Follows ⟨owned, active, .unwinding payload, state⟩ active back away
      ((Watch.park payload >>= next) state) :=
  after (.single (.park payload)) (goesOn _)

/-- An exit is aimed: the thread aborts, or it unwinds and the payload says what to do next. -/
theorem raise {owned : List FrameId} (kind : ExitKind) (target : OwnerTag) (value : UInt64)
    {next : Payload → Act Watch α}
    (goesOn : ∀ payload reached, Follows ⟨owned, active, .unwinding payload, reached⟩ active back
      away (next payload reached)) (state : State Watch) :
    Follows ⟨owned, active, .running, state⟩ active back away
      ((Watch.raise kind target value >>= next) state) := by
  have raised : (Watch.raise kind target value) state =
      (Act.aimExit kind target value) (note (.raised kind target value) state.thread state) := rfl
  rw [Act.bind_apply, raised, Act.aimExit_apply]
  cases aimed : state.thread.aim kind target value with
  | error error =>
      simp only [note, aimed]
      exact ⟨owned, active, .single (.abort kind target value error aimed)⟩
  | ok result =>
      obtain ⟨payload, thread⟩ := result
      simp only [note, aimed]
      exact after (.single (.raise kind target value payload thread aimed)) (goesOn payload _)

theorem resume {owned : List FrameId} (state : State Watch) :
    Follows ⟨owned, active, .running, state⟩ active (fun _ => owned) owned
      (Act.resumePending state) := by
  rw [Act.resumePending_apply]
  cases waits : state.thread.pending with
  | none => exact .refl
  | some payload => exact .single (.resume payload waits)

end Follows

/-! ## Regions -/

namespace Watch

/-- The result of executing a region, with the moment of its end. -/
def noteEnd (id : FrameId) : Ending Outcome × State Watch → Ending Outcome × State Watch
  | (.returned outcome, state) =>
      (.returned outcome, note (.returned id outcome) state.thread state)
  | (.unwinding payload, state) => (.unwinding payload, note (.left id) state.thread state)
  | (.aborted cause, state) => (.aborted cause, state)

theorem exec_apply (id : FrameId) (body : Act Watch UInt64) (state : State Watch) :
    exec id body state =
      noteEnd id (Act.exec id (record (.entered id) state.thread >>= fun _ => body) state) := by
  simp only [exec, Act.bind_apply, Act.thread_apply, Act.catching_apply]
  rcases Act.exec id _ state with ⟨outcome | payload | cause, reached⟩ <;> rfl

end Watch

namespace Follows

variable {active : List Activation} {owned : List FrameId}

/-- Where the unwind of a body goes, one step tells. -/
theorem conclude (id : FrameId) (serial : Nat) (payload : Payload) (state : State Watch) :
    Follows ⟨owned, ⟨id, serial⟩ :: active, .unwinding payload, state⟩ active
      (fun _ => id :: owned) (id :: owned)
      (Watch.noteEnd id (Act.conclude id serial payload state)) := by
  cases payload with
  | foreign message => exact .single (.leave _ _ nofun rfl)
  | exit target kind =>
      by_cases own : target = serial
      · subst own
        simp only [Act.conclude, if_true]
        exact .single (.land kind _ rfl)
      · simp only [Act.conclude, own, if_false]
        refine .single (.leave _ _ (fun _ same => own ?_) rfl)
        exact (Payload.exit.inj same).1

theorem exec (id : FrameId) {body : Act Watch UInt64}
    (inner : ∀ serial reached,
      Follows ⟨owned, ⟨id, serial⟩ :: active, .running, reached⟩ (⟨id, serial⟩ :: active)
        (fun _ => owned) owned (body reached)) (state : State Watch) :
    Follows ⟨id :: owned, active, .running, state⟩ active (fun _ => id :: owned) (id :: owned)
      (Watch.exec id body state) := by
  refine after (.single .enter) ?_
  let entered : State Watch :=
    note (.entered id) state.thread { state with thread := state.thread.modify id Frame.arm }
  have begins : (Watch.record (.entered id) state.thread >>= fun _ => body)
      { state with thread := state.thread.modify id Frame.arm } = body entered := rfl
  have follows := inner (state.thread.serialOf id) entered
  rw [Watch.exec_apply, Act.exec_apply, begins]
  generalize body entered = result at follows
  obtain ⟨value | payload | cause, reached⟩ := result
  · cases waits : reached.thread.pending with
    | none =>
        simp only [waits]
        exact after follows (.single (.complete value _ waits rfl))
    | some payload =>
        simp only [waits]
        exact after (follows.tail (.resume payload waits)) (conclude ..)
  · exact after follows (conclude ..)
  · exact follows

theorem protect (tag : OwnerTag) {body : Act Watch UInt64}
    (inner : ∀ id serial reached,
      Follows ⟨owned, ⟨id, serial⟩ :: active, .running, reached⟩ (⟨id, serial⟩ :: active)
        (fun _ => owned) owned (body reached)) (state : State Watch) :
    Follows ⟨owned, active, .running, state⟩ active (fun _ => owned) owned
      (Watch.protect tag body state) := by
  refine bind (push tag state) fun id reached => ?_
  refine catching (exec id (inner id) reached) (fun outcome reached => ?_) fun payload reached => ?_
  · exact bind (pop reached) fun _ => .pure outcome
  · exact drop_unwind payload reached

theorem frameProtect (tag : OwnerTag) {body : Act Watch UInt64}
    (inner : ∀ id serial reached,
      Follows ⟨owned, ⟨id, serial⟩ :: active, .running, reached⟩ (⟨id, serial⟩ :: active)
        (fun _ => owned) owned (body reached)) (state : State Watch) :
    Follows ⟨owned, active, .running, state⟩ active (fun _ => owned) owned
      (Watch.frameProtect tag body state) := by
  refine catching (protect tag inner state) (fun outcome => ?_) fun payload => ?_
  · exact .pure (outcome.value, some outcome.code)
  · exact Follows.park payload (.pure (0, none))

theorem native {body : Act Watch UInt64} {state : State Watch}
    (inner : Follows ⟨owned, active, .running, state⟩ active (fun _ => owned) owned
      (body state)) :
    Follows ⟨owned, active, .running, state⟩ active (fun _ => owned) owned
      (Watch.native body state) := by
  refine catching inner (fun value => ?_) fun payload => ?_
  · exact .pure value
  · exact Follows.park payload (.pure 0)

/-! ## Guards that change hands -/

theorem issue (id : FrameId) (state : State Watch) :
    Follows ⟨id :: owned, active, .running, state⟩ active (fun _ => owned) owned
      (Watch.issue id state) := by
  refine .single (.move _ _ ?_)
  simpa using List.perm_middle.symm

theorem put {mode : Mode} (guard : Handle) (id : FrameId) (state : State Watch) :
    Step ⟨id :: owned, active, mode, state⟩
      ⟨owned, active, mode, (Watch.put guard id state).2⟩ := by
  refine .move _ _ ?_
  simpa using List.perm_middle.symm

/-- A guard that is taken was held. -/
theorem perm_of_lookup {guards : List (Handle × FrameId)} {guard : Handle} {id : FrameId}
    (found : guards.lookup guard = some id) :
    ((guards.eraseP fun held => guard == held.1).map (·.2) ++ id :: owned).Perm
      (guards.map (·.2) ++ owned) := by
  induction guards with
  | nil => simp at found
  | cons held guards induction =>
      obtain ⟨handle, frame⟩ := held
      by_cases own : guard = handle
      · subst own
        obtain rfl : frame = id := by simpa using found
        simp
      · have other : (guard == handle) = false := by simpa using own
        have rest : guards.lookup guard = some id := by simpa [List.lookup_cons, other] using found
        simpa [other] using induction rest

/-- A guard is taken from the program, if it holds one, in whatever mode the thread is. -/
theorem take {mode : Mode} (guard : Handle) {next : Option FrameId → Act Watch α}
    {back : α → List FrameId} {away : List FrameId} (state : State Watch)
    (missing : Follows ⟨owned, active, mode, state⟩ active back away (next none state))
    (found : ∀ id reached,
      Follows ⟨id :: owned, active, mode, reached⟩ active back away (next (some id) reached)) :
    Follows ⟨owned, active, mode, state⟩ active back away ((Watch.take guard >>= next) state) := by
  rw [Act.bind_apply, Watch.take_apply]
  cases held : state.world.guards.lookup guard with
  | none => exact missing
  | some id => exact after (.single (.move _ _ (perm_of_lookup held))) (found id _)

end Follows

/-- The run of a watched program is made of steps. -/
theorem Program.follows_watch (program : Program) (owned : List FrameId)
    (active : List Activation) (state : State Watch) :
    Follows ⟨owned, active, .running, state⟩ active (fun _ => owned) owned
      (program.watch state) := by
  induction program generalizing owned active state with
  | done value => exact .refl
  | look next induction =>
      exact Follows.bind (Follows.look state) fun thread => induction thread owned active
  | push tag next induction =>
      refine Follows.bind (Follows.push tag state) fun id reached => ?_
      exact Follows.bind (Follows.issue id reached) fun guard reached =>
        induction guard owned active reached
  | exec guard body next body_induction next_induction =>
      rw [watch]
      refine Follows.take guard state (next_induction none owned active state) fun id reached => ?_
      have executed := Follows.exec id
        (fun serial => body_induction owned (⟨id, serial⟩ :: active)) reached
      refine executed.catching (fun outcome reached => ?_) fun payload reached => ?_
      · exact Follows.after (.single (Follows.put guard id reached))
          (next_induction (some outcome) owned active _)
      · exact Follows.after (.single (Follows.put guard id reached)) (Follows.unwind payload _)
  | pop guard next induction =>
      rw [watch]
      refine Follows.take guard state (induction none owned active state) fun id reached => ?_
      exact Follows.bind (Follows.pop reached) fun result reached =>
        induction (some result) owned active reached
  | drop guard next induction =>
      refine Follows.take guard state (induction owned active state) fun id reached => ?_
      exact Follows.bind (Follows.drop reached) fun _ reached => induction owned active reached
  | owning guard body next body_induction next_induction =>
      rw [watch]
      refine Follows.catching (body_induction owned active state)
        (fun value reached => next_induction value owned active reached) fun payload reached => ?_
      exact Follows.take guard reached (Follows.unwind payload reached) fun id reached =>
        Follows.drop_unwind payload reached
  | protect tag body next body_induction next_induction =>
      refine Follows.bind (Follows.protect tag (fun id serial => ?_) state) fun outcome reached =>
        next_induction outcome owned active reached
      exact body_induction owned (⟨id, serial⟩ :: active)
  | frameProtect tag body next body_induction next_induction =>
      refine Follows.bind (Follows.frameProtect tag (fun id serial => ?_) state) fun result =>
        next_induction result.1 result.2 owned active
      exact body_induction owned (⟨id, serial⟩ :: active)
  | signal kind target value =>
      exact Follows.raise kind target value (fun payload => Follows.unwind payload) state
  | park kind target value next induction =>
      refine Follows.raise kind target value (fun payload reached => ?_) state
      exact Follows.park payload (induction owned active) reached
  | resume next induction =>
      exact Follows.bind (Follows.resume state) fun _ => induction owned active
  | native body next body_induction next_induction =>
      exact Follows.bind (body_induction owned active state).native fun value =>
        next_induction value owned active
  | fail message => exact .single (.fail message)

/-- The mode that a thread is in when its program has ended. -/
def Ending.mode {α : Type} : Ending α → Mode
  | .returned _ => .running
  | .unwinding payload => .unwinding payload
  | .aborted cause => .aborted cause

/-- Steps lead from the start of a program to its end. Unless the process was aborted, no region is
being executed then. -/
theorem Program.reaches_end (program : Program) :
    ∃ owned active, Reaches .initial
        ⟨owned, active, (program.watch start).1.mode, (program.watch start).2⟩ ∧
      ((∃ cause, (program.watch start).1 = .aborted cause) ∨ active = []) := by
  have follows := program.follows_watch [] [] start
  generalize program.watch start = result at follows
  obtain ⟨value | payload | cause, state⟩ := result
  · exact ⟨[], [], follows, .inr rfl⟩
  · exact ⟨[], [], follows, .inr rfl⟩
  · obtain ⟨owned, active, reaches⟩ := follows
    exact ⟨owned, active, reaches, .inl ⟨cause, rfl⟩⟩

end HostBridge
