import HostBridge.Proofs.Control.Action
import Mathlib.Control.Monad.Basic

/-!
# Programs of a thread

A program is any sequence and nesting of the operations on frames and regions, and may choose how
to go on by what they return and by the state that it finds. A guard belongs to one place at a time:
to the program, which calls it by a handle, or to the operation that uses it. So no program can pop
a guard twice, or use it inside the region that it executes.

The same program can be watched. Then every operation leaves a moment behind: what happened, and
the thread before and after it. Watching changes nothing, which is the theorem at the end.
-/

namespace HostBridge

/-- What a program calls a guard; the guards are numbered in the order in which they are pushed. -/
abbrev Handle := Nat

/-- A program of a thread. -/
inductive Program where
  /-- End with a value. -/
  | done (value : UInt64)
  /-- Go on by what the control state is. -/
  | look (next : Thread → Program)
  /-- Push a frame and hold its guard. -/
  | push (tag : OwnerTag) (next : Handle → Program)
  /-- Execute a body in the region of a guard. -/
  | exec (guard : Handle) (body : Program) (next : Option Outcome → Program)
  /-- Pop the frame of a guard. -/
  | pop (guard : Handle) (next : Option (Except BridgeError Phase) → Program)
  /-- Drop a guard. -/
  | drop (guard : Handle) (next : Program)
  /-- Run a body that owns a guard: should the body unwind, the guard is dropped. -/
  | owning (guard : Handle) (body : Program) (next : UInt64 → Program)
  /-- Run a body under a frame of its own. -/
  | protect (tag : OwnerTag) (body : Program) (next : Outcome → Program)
  /-- Run a body under a frame of its own, as generated code does. -/
  | frameProtect (tag : OwnerTag) (body : Program) (next : UInt64 → Option UInt32 → Program)
  /-- Leave by an exit. -/
  | signal (kind : ExitKind) (target : OwnerTag) (value : UInt64)
  /-- Let an exit wait. -/
  | park (kind : ExitKind) (target : OwnerTag) (value : UInt64) (next : Program)
  /-- Resume what waits. -/
  | resume (next : Program)
  /-- Run a body as a helper of generated code. -/
  | native (body : Program) (next : UInt64 → Program)
  /-- Fail in a way that is foreign to control flow. -/
  | fail (message : String)

/-- What happens in a run. -/
inductive Event where
  /-- The program looked at the control state. -/
  | looked
  /-- A frame was pushed. -/
  | pushed (id : FrameId)
  /-- The execution of a region began. -/
  | entered (id : FrameId)
  /-- The execution of a region returned an outcome. -/
  | returned (id : FrameId) (outcome : Outcome)
  /-- The execution of a region was left by an unwind and did not return. -/
  | left (id : FrameId)
  /-- A guard was popped. -/
  | popped (id : FrameId) (result : Except BridgeError Phase)
  /-- A guard was dropped. -/
  | dropped (id : FrameId) (result : Except BridgeError Phase)
  /-- An exit is about to be aimed, to unwind or to wait. -/
  | raised (kind : ExitKind) (target : OwnerTag) (value : UInt64)
  /-- An unwind was made to wait. -/
  | parked
  /-- A foreign failure is about to unwind. -/
  | failed (message : String)
deriving DecidableEq

/-- An event with the thread before and after it. -/
structure Moment where
  /-- What happened. -/
  event : Event
  /-- The thread before. -/
  before : Thread
  /-- The thread after. -/
  after : Thread

/-- Moments, newest first. -/
abbrev History := List Moment

/-- What a program runs in. -/
structure Watch where
  /-- The number of guards that the program was given. -/
  issued : Handle := 0
  /-- The guards that the program holds. -/
  guards : List (Handle × FrameId) := []
  /-- What has happened so far, if the program is watched. -/
  history : History := []

namespace Watch

/-! ## Guards -/

/-- Hand a new guard to the program. -/
def issue (id : FrameId) : Act Watch Handle := do
  let world ← Act.world
  Act.onWorld fun world =>
    { world with issued := world.issued + 1, guards := (world.issued, id) :: world.guards }
  pure world.issued

/-- Take a guard from the program, if it holds one of this handle. -/
def take (guard : Handle) : Act Watch (Option FrameId) := do
  let world ← Act.world
  match world.guards.lookup guard with
  | some id => do
      Act.onWorld fun world =>
        { world with guards := world.guards.eraseP fun held => guard == held.1 }
      pure (some id)
  | none => pure none

theorem take_apply (guard : Handle) (state : State Watch) :
    take guard state =
      match state.world.guards.lookup guard with
      | some id =>
          (.returned (some id),
            { state with
              world :=
                { state.world with
                  guards := state.world.guards.eraseP fun held => guard == held.1 } })
      | none => (.returned none, state) := by
  simp only [take, Act.bind_apply, Act.world_apply]
  cases state.world.guards.lookup guard <;> rfl

/-- Give a guard back to the program. -/
def put (guard : Handle) (id : FrameId) : Act Watch Unit :=
  Act.onWorld fun world => { world with guards := (guard, id) :: world.guards }

end Watch

namespace Program

/-- Run a program. -/
def run : Program → Act Watch UInt64
  | .done value => pure value
  | .look next => do
      let thread ← Act.thread
      (next thread).run
  | .push tag next => do
      let id ← Act.pushFrame tag
      let guard ← Watch.issue id
      (next guard).run
  | .exec guard body next => do
      match ← Watch.take guard with
      | none => (next none).run
      | some id => do
          let ended ← Act.catching (Act.exec id body.run)
          Watch.put guard id
          match ended with
          | .ok outcome => (next (some outcome)).run
          | .error payload => Act.unwind payload
  | .pop guard next => do
      match ← Watch.take guard with
      | none => (next none).run
      | some id => do
          let result ← Act.popFrame id false
          (next (some result)).run
  | .drop guard next => do
      match ← Watch.take guard with
      | none => next.run
      | some id => do
          Act.dropFrame id false
          next.run
  | .owning guard body next => do
      match ← Act.catching body.run with
      | .ok value => (next value).run
      | .error payload => do
          match ← Watch.take guard with
          | none => Act.unwind payload
          | some id => do
              Act.dropFrame id true
              Act.unwind payload
  | .protect tag body next => do
      let outcome ← Act.protect tag body.run
      (next outcome).run
  | .frameProtect tag body next => do
      let (value, code) ← Act.frameProtect tag body.run
      (next value code).run
  | .signal kind target value => Act.signalExit kind target value
  | .park kind target value next => do
      Act.parkExit kind target value
      next.run
  | .resume next => do
      Act.resumePending
      next.run
  | .native body next => do
      let value ← Act.runNative body.run
      (next value).run
  | .fail message => Act.unwind (.foreign message)

/-- The state that a program starts in on a fresh thread. -/
def start : State Watch := { thread := .fresh, world := {} }

end Program

namespace Watch

/-! ## Watched operations -/

/-- The state with one more moment. -/
def note (event : Event) (before : Thread) (state : State Watch) : State Watch :=
  { state with
    world :=
      { state.world with
        history := { event, before, after := state.thread } :: state.world.history } }

/-- Leave a moment behind. -/
def record (event : Event) (before : Thread) : Act Watch Unit :=
  Act.update (note event before)

/-- Look at the control state. -/
def look : Act Watch Thread := do
  let thread ← Act.thread
  record .looked thread
  pure thread

/-- Push a frame. -/
def push (tag : OwnerTag) : Act Watch FrameId := do
  let before ← Act.thread
  let id ← Act.pushFrame tag
  record (.pushed id) before
  pure id

/-- Pop a guard. -/
def pop (id : FrameId) : Act Watch (Except BridgeError Phase) := do
  let before ← Act.thread
  let result ← Act.popFrame id false
  record (.popped id result) before
  pure result

/-- Drop a guard. -/
def drop (id : FrameId) (unwinding : Bool) : Act Watch Unit := do
  let before ← Act.thread
  let result ← Act.popFrame id unwinding
  record (.dropped id result) before

/-- Execute a region. -/
def exec (id : FrameId) (body : Act Watch UInt64) : Act Watch Outcome := do
  let before ← Act.thread
  let ended ← Act.catching (Act.exec id do
    record (.entered id) before
    body)
  let after ← Act.thread
  match ended with
  | .ok outcome => do
      record (.returned id outcome) after
      pure outcome
  | .error payload => do
      record (.left id) after
      Act.unwind payload

/-- Run a body under a frame of its own. -/
def protect (tag : OwnerTag) (body : Act Watch UInt64) : Act Watch Outcome := do
  let id ← push tag
  match ← Act.catching (exec id body) with
  | .ok outcome => do
      let _ ← pop id
      pure outcome
  | .error payload => do
      drop id true
      Act.unwind payload

/-- Aim an exit. -/
def raise (kind : ExitKind) (target : OwnerTag) (value : UInt64) : Act Watch Payload := do
  let before ← Act.thread
  record (.raised kind target value) before
  Act.aimExit kind target value

/-- Let an unwind wait. -/
def park (payload : Payload) : Act Watch Unit := do
  let before ← Act.thread
  Act.onThread (·.park payload)
  record .parked before

/-- Run a body as a helper of generated code. -/
def native (body : Act Watch UInt64) : Act Watch UInt64 := do
  match ← Act.catching body with
  | .ok value => pure value
  | .error payload => do
      park payload
      pure 0

/-- Run a body under a frame of its own, as generated code does. -/
def frameProtect (tag : OwnerTag) (body : Act Watch UInt64) :
    Act Watch (UInt64 × Option UInt32) := do
  match ← Act.catching (protect tag body) with
  | .ok outcome => pure (outcome.value, some outcome.code)
  | .error payload => do
      park payload
      pure (0, none)

/-- Fail in a way that is foreign to control flow. -/
def fail (message : String) : Act Watch UInt64 := do
  let before ← Act.thread
  record (.failed message) before
  Act.unwind (.foreign message)

end Watch

namespace Program

/-- Run a program and watch it. -/
def watch : Program → Act Watch UInt64
  | .done value => pure value
  | .look next => do
      let thread ← Watch.look
      (next thread).watch
  | .push tag next => do
      let id ← Watch.push tag
      let guard ← Watch.issue id
      (next guard).watch
  | .exec guard body next => do
      match ← Watch.take guard with
      | none => (next none).watch
      | some id => do
          let ended ← Act.catching (Watch.exec id body.watch)
          Watch.put guard id
          match ended with
          | .ok outcome => (next (some outcome)).watch
          | .error payload => Act.unwind payload
  | .pop guard next => do
      match ← Watch.take guard with
      | none => (next none).watch
      | some id => do
          let result ← Watch.pop id
          (next (some result)).watch
  | .drop guard next => do
      match ← Watch.take guard with
      | none => next.watch
      | some id => do
          Watch.drop id false
          next.watch
  | .owning guard body next => do
      match ← Act.catching body.watch with
      | .ok value => (next value).watch
      | .error payload => do
          match ← Watch.take guard with
          | none => Act.unwind payload
          | some id => do
              Watch.drop id true
              Act.unwind payload
  | .protect tag body next => do
      let outcome ← Watch.protect tag body.watch
      (next outcome).watch
  | .frameProtect tag body next => do
      let (value, code) ← Watch.frameProtect tag body.watch
      (next value code).watch
  | .signal kind target value => do
      let payload ← Watch.raise kind target value
      Act.unwind payload
  | .park kind target value next => do
      let payload ← Watch.raise kind target value
      Watch.park payload
      next.watch
  | .resume next => do
      Act.resumePending
      next.watch
  | .native body next => do
      let value ← Watch.native body.watch
      (next value).watch
  | .fail message => Watch.fail message

/-- What happens when a program runs on a fresh thread. -/
def history (program : Program) : History := (program.watch start).2.world.history

end Program

/-! ## Watching changes nothing -/

namespace Watch

/-- States that differ at most in what was watched. -/
def SameRun (left right : State Watch) : Prop :=
  left.thread = right.thread ∧ left.world.issued = right.world.issued ∧
    left.world.guards = right.world.guards

theorem sameRun_sameThread : Act.SameThread SameRun where
  thread_eq states := states.1
  change _ states := ⟨rfl, states.2⟩

/-- Two actions that differ at most in what they leave to the watch. -/
abbrev Unchanged {α : Type} (plain watched : Act Watch α) : Prop :=
  Act.Alike SameRun plain watched

namespace Unchanged

variable {α : Type}

theorem record {plain watched : Act Watch α} (event : Event) (before : Thread)
    (unchanged : Unchanged plain watched) :
    Unchanged plain (Watch.record event before >>= fun _ => watched) :=
  fun left right states => unchanged left (note event before right) states

theorem thread {plain : Act Watch α} {watched : Thread → Act Watch α}
    (unchanged : ∀ thread, Unchanged plain (watched thread)) :
    Unchanged plain (Act.thread >>= watched) :=
  fun left right states => unchanged right.thread left right states

theorem issue (id : FrameId) : Unchanged (Watch.issue id) (Watch.issue id) := by
  rintro left right ⟨thread_eq, issued_eq, guards_eq⟩
  simp only [Watch.issue, Act.bind_apply, Act.world_apply, Act.onWorld_apply, Act.pure_apply]
  exact ⟨by rw [issued_eq], thread_eq, by rw [issued_eq], by rw [issued_eq, guards_eq]⟩

theorem take (guard : Handle) : Unchanged (Watch.take guard) (Watch.take guard) := by
  rintro left right ⟨thread_eq, issued_eq, guards_eq⟩
  simp only [take_apply, guards_eq]
  cases right.world.guards.lookup guard with
  | none => exact ⟨rfl, thread_eq, issued_eq, guards_eq⟩
  | some id => exact ⟨rfl, thread_eq, issued_eq, rfl⟩

theorem put (guard : Handle) (id : FrameId) :
    Unchanged (Watch.put guard id) (Watch.put guard id) := by
  rintro left right ⟨thread_eq, issued_eq, guards_eq⟩
  exact ⟨rfl, thread_eq, issued_eq, congrArg ((guard, id) :: ·) guards_eq⟩

theorem look : Unchanged Act.thread Watch.look :=
  fun _ _ states => ⟨congrArg Ending.returned states.1, states⟩

theorem push (tag : OwnerTag) : Unchanged (Act.pushFrame tag) (Watch.push tag) := by
  refine thread fun _ => ?_
  rw [← bind_pure (Act.pushFrame tag)]
  exact .bind (.pushFrame sameRun_sameThread tag) fun id => record _ _ (.pure id)

theorem pop (id : FrameId) : Unchanged (Act.popFrame id false) (Watch.pop id) := by
  refine thread fun _ => ?_
  rw [← bind_pure (Act.popFrame id false)]
  exact .bind (.popFrame sameRun_sameThread id false) fun result => record _ _ (.pure result)

theorem drop (id : FrameId) (unwinding : Bool) :
    Unchanged (Act.dropFrame id unwinding) (Watch.drop id unwinding) :=
  thread fun _ => .bind (.popFrame sameRun_sameThread id unwinding) fun _ => record _ _ (.pure _)

theorem exec (id : FrameId) {plain watched : Act Watch UInt64}
    (unchanged : Unchanged plain watched) :
    Unchanged (Act.exec id plain) (Watch.exec id watched) := by
  refine thread fun before => ?_
  rw [← Act.catching_bind_unwind (Act.exec id plain)]
  refine .bind (.catching (.exec sameRun_sameThread id (record _ _ unchanged))) fun ended => ?_
  refine thread fun after => ?_
  cases ended with
  | ok outcome => exact record _ _ (.pure outcome)
  | error payload => exact record _ _ (.unwind payload)

theorem protect (tag : OwnerTag) {plain watched : Act Watch UInt64}
    (unchanged : Unchanged plain watched) :
    Unchanged (Act.protect tag plain) (Watch.protect tag watched) := by
  refine .bind (push tag) fun id => ?_
  simp only [Act.guarding, bind_assoc]
  refine .bind (.catching (exec id unchanged)) fun ended => ?_
  cases ended with
  | error payload => exact .bind (drop id true) fun _ => .unwind payload
  | ok outcome =>
      simp only [pure_bind, Act.dropFrame, bind_assoc]
      exact .bind (pop id) fun _ => .pure outcome

theorem park (payload : Payload) :
    Unchanged (Act.onThread (·.park payload)) (Watch.park payload) := by
  refine thread fun _ => ?_
  rw [← bind_pure (Act.onThread _)]
  exact .bind (.onThread sameRun_sameThread _) fun _ => record _ _ (.pure _)

theorem raise (kind : ExitKind) (target : OwnerTag) (value : UInt64) :
    Unchanged (Act.aimExit kind target value) (Watch.raise kind target value) :=
  thread fun _ => record _ _ (.aimExit sameRun_sameThread kind target value)

theorem native {plain watched : Act Watch UInt64} (unchanged : Unchanged plain watched) :
    Unchanged (Act.runNative plain) (Watch.native watched) := by
  refine .bind (.catching unchanged) fun ended => ?_
  cases ended with
  | ok value => exact .pure value
  | error payload => exact .bind (park payload) fun _ => .pure _

theorem frameProtect (tag : OwnerTag) {plain watched : Act Watch UInt64}
    (unchanged : Unchanged plain watched) :
    Unchanged (Act.frameProtect tag plain) (Watch.frameProtect tag watched) := by
  refine .bind (.catching (protect tag unchanged)) fun ended => ?_
  cases ended with
  | ok outcome => exact .pure _
  | error payload => exact .bind (park payload) fun _ => .pure _

end Unchanged

end Watch

namespace Program

open Watch

theorem unchanged_watch (program : Program) : Unchanged program.run program.watch := by
  induction program with
  | done value => exact .pure value
  | look next induction => exact .bind Unchanged.look induction
  | push tag next induction =>
      exact .bind (Unchanged.push tag) fun id => .bind (Unchanged.issue id) induction
  | exec guard body next body_induction next_induction =>
      rw [run, watch]
      refine .bind (Unchanged.take guard) fun taken => ?_
      cases taken with
      | none => exact next_induction none
      | some id =>
          refine .bind (.catching (Unchanged.exec id body_induction)) fun ended => ?_
          refine .bind (Unchanged.put guard id) fun _ => ?_
          cases ended with
          | ok outcome => exact next_induction (some outcome)
          | error payload => exact .unwind payload
  | pop guard next induction =>
      rw [run, watch]
      refine .bind (Unchanged.take guard) fun taken => ?_
      cases taken with
      | none => exact induction none
      | some id => exact .bind (Unchanged.pop id) fun result => induction (some result)
  | drop guard next induction =>
      refine .bind (Unchanged.take guard) fun taken => ?_
      cases taken with
      | none => exact induction
      | some id => exact .bind (Unchanged.drop id false) fun _ => induction
  | owning guard body next body_induction next_induction =>
      rw [run, watch]
      refine .bind (.catching body_induction) fun ended => ?_
      cases ended with
      | ok value => exact next_induction value
      | error payload =>
          refine .bind (Unchanged.take guard) fun taken => ?_
          cases taken with
          | none => exact .unwind payload
          | some id => exact .bind (Unchanged.drop id true) fun _ => .unwind payload
  | protect tag body next body_induction next_induction =>
      exact .bind (Unchanged.protect tag body_induction) next_induction
  | frameProtect tag body next body_induction next_induction =>
      exact .bind (Unchanged.frameProtect tag body_induction) fun result =>
        next_induction result.1 result.2
  | signal kind target value =>
      exact .bind (Unchanged.raise kind target value) fun payload => .unwind payload
  | park kind target value next induction =>
      simp only [run, Act.parkExit, bind_assoc]
      exact .bind (Unchanged.raise kind target value) fun payload =>
        .bind (Unchanged.park payload) fun _ => induction
  | resume next induction =>
      exact .bind (.resumePending sameRun_sameThread) fun _ => induction
  | native body next body_induction next_induction =>
      exact .bind (Unchanged.native body_induction) next_induction
  | fail message => exact Unchanged.thread fun _ => Unchanged.record _ _ (.unwind _)

/-- Watching a program changes neither how it ends nor the thread that it leaves. -/
theorem watch_eq_run (program : Program) :
    (program.watch start).1 = (program.run start).1 ∧
      (program.watch start).2.thread = (program.run start).2.thread := by
  obtain ⟨ending_eq, thread_eq, -⟩ := program.unchanged_watch start start ⟨rfl, rfl, rfl⟩
  exact ⟨ending_eq.symm, thread_eq.symm⟩

end Program

end HostBridge
