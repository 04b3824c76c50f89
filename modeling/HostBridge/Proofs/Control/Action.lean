import HostBridge.Control.Region

/-!
# Equations of actions

What the operations on regions come to in a given state. An action in a state is a pair of an ending
and a state, so every operation is opened once, here, and later proofs only follow the endings of
the bodies. The last section compares two actions that run in different worlds.
-/

namespace HostBridge

/-! ## Pops and aims -/

theorem Thread.pop_pending (id : FrameId) (unwinding : Bool) (thread : Thread) :
    (thread.pop id unwinding).2.pending = thread.pending := by
  rw [Thread.pop]
  split
  · rfl
  · split <;> rfl

theorem Thread.pop_nextSerial (id : FrameId) (unwinding : Bool) (thread : Thread) :
    (thread.pop id unwinding).2.nextSerial = thread.nextSerial := by
  rw [Thread.pop]
  split
  · rfl
  · split <;> rfl

/-- An exit that is aimed carries the serial of the frame that accepts it, and leaves its value
there. -/
theorem Thread.aim_eq_ok {thread aimed : Thread} {kind : ExitKind} {target : OwnerTag}
    {value : UInt64} {payload : Payload}
    (success : thread.aim kind target value = .ok (payload, aimed)) :
    ∃ frame, thread.target? kind target = some frame ∧
      payload = .exit frame.token.serial kind ∧
      aimed = thread.modify frame.id (Frame.aim kind value) := by
  rw [Thread.aim] at success
  split at success
  · next frame found =>
      cases success
      exact ⟨frame, found, rfl, rfl⟩
  · cases success

theorem Thread.aim_eq_error {thread : Thread} {kind : ExitKind} {target : OwnerTag}
    {value : UInt64} {error : BridgeError}
    (failure : thread.aim kind target value = .error error) :
    thread.target? kind target = none ∧ error = .unmatchedExit kind target := by
  rw [Thread.aim] at failure
  split at failure
  · cases failure
  · next missing =>
      cases failure
      exact ⟨missing, rfl⟩

namespace Act

variable {ε δ α β : Type}

/-! ## Single steps -/

@[simp]
theorem pure_apply (value : α) (state : State ε) :
    (pure value : Act ε α) state = (.returned value, state) := rfl

theorem bind_apply (action : Act ε α) (next : α → Act ε β) (state : State ε) :
    (action >>= next) state =
      match action state with
      | (.returned value, reached) => next value reached
      | (.unwinding payload, reached) => (.unwinding payload, reached)
      | (.aborted cause, reached) => (.aborted cause, reached) := rfl

instance : LawfulMonad (Act ε) := by
  refine LawfulMonad.mk' _ ?_ ?_ ?_
  · intro _ action
    funext state
    change (action >>= pure) state = action state
    rw [bind_apply]
    rcases action state with ⟨_ | _ | _, reached⟩ <;> rfl
  · intros
    rfl
  · intro _ _ _ action next last
    funext state
    simp only [bind_apply]
    rcases action state with ⟨_ | _ | _, reached⟩ <;> rfl

theorem catching_apply (action : Act ε α) (state : State ε) :
    catching action state =
      match action state with
      | (.returned value, reached) => (.returned (.ok value), reached)
      | (.unwinding payload, reached) => (.returned (.error payload), reached)
      | (.aborted cause, reached) => (.aborted cause, reached) := rfl

/-- Catching an unwind only to let it go on is the same as not catching it. -/
theorem catching_bind_unwind (action : Act ε α) :
    (catching action >>= fun ended =>
      match ended with
      | .ok value => pure value
      | .error payload => unwind payload) = action := by
  funext state
  rw [bind_apply, catching_apply]
  rcases action state with ⟨_ | _ | _, reached⟩ <;> rfl

@[simp]
theorem thread_apply (state : State ε) :
    (thread : Act ε Thread) state = (.returned state.thread, state) := rfl

@[simp]
theorem world_apply (state : State ε) :
    (world : Act ε ε) state = (.returned state.world, state) := rfl

@[simp]
theorem onThread_apply (change : Thread → Thread) (state : State ε) :
    (onThread change : Act ε Unit) state =
      (.returned (), { state with thread := change state.thread }) := rfl

@[simp]
theorem onWorld_apply (change : ε → ε) (state : State ε) :
    (onWorld change : Act ε Unit) state =
      (.returned (), { state with world := change state.world }) := rfl

@[simp]
theorem pushFrame_apply (tag : OwnerTag) (state : State ε) :
    (pushFrame tag : Act ε FrameId) state =
      (.returned state.thread.nextSerial,
        { state with thread := state.thread.push tag }) := rfl

theorem resumePending_apply (state : State ε) :
    (resumePending : Act ε Unit) state =
      match state.thread.pending with
      | some payload => (.unwinding payload, { state with thread := state.thread.clear })
      | none => (.returned (), state) := by
  simp only [resumePending, bind_apply, thread_apply]
  cases state.thread.pending <;> rfl

theorem aimExit_apply (kind : ExitKind) (target : OwnerTag) (value : UInt64) (state : State ε) :
    (aimExit kind target value : Act ε Payload) state =
      match state.thread.aim kind target value with
      | .ok (payload, thread) => (.returned payload, { state with thread })
      | .error error => (.aborted (.fatal error), state) := by
  simp only [aimExit, bind_apply, thread_apply]
  cases state.thread.aim kind target value <;> rfl

theorem signalExit_apply (kind : ExitKind) (target : OwnerTag) (value : UInt64)
    (state : State ε) :
    (signalExit kind target value : Act ε α) state =
      match state.thread.aim kind target value with
      | .ok (payload, thread) => (.unwinding payload, { state with thread })
      | .error error => (.aborted (.fatal error), state) := by
  simp only [signalExit, bind_apply, aimExit_apply]
  cases state.thread.aim kind target value <;> rfl

theorem parkExit_apply (kind : ExitKind) (target : OwnerTag) (value : UInt64)
    (state : State ε) :
    (parkExit kind target value : Act ε Unit) state =
      match state.thread.aim kind target value with
      | .ok (payload, thread) => (.returned (), { state with thread := thread.park payload })
      | .error error => (.aborted (.fatal error), state) := by
  simp only [parkExit, bind_apply, aimExit_apply]
  cases state.thread.aim kind target value <;> rfl

theorem runNative_apply (body : Act ε UInt64) (state : State ε) :
    runNative body state =
      match body state with
      | (.returned value, reached) => (.returned value, reached)
      | (.unwinding payload, reached) =>
          (.returned 0, { reached with thread := reached.thread.park payload })
      | (.aborted cause, reached) => (.aborted cause, reached) := by
  simp only [runNative, bind_apply, catching_apply]
  rcases body state with ⟨_ | _ | _, reached⟩ <;> rfl

/-! ## Regions -/

/-- Where an unwind out of the body of a region goes: it lands if it carries the serial of the
region, and otherwise goes on. -/
def conclude (id : FrameId) (serial : Nat) (payload : Payload) (state : State ε) :
    Ending Outcome × State ε :=
  let thread := (state.thread.modify id Frame.disarm).modify id Frame.abandon
  match payload with
  | .exit target kind =>
      if target = serial then
        (.returned
            (.unwound kind (((thread.frame? id).map (·.result)).getD HostValue.nil.bits)),
          { state with thread })
      else (.unwinding payload, { state with thread })
  | .foreign _ => (.unwinding payload, { state with thread })

theorem conclude_eq (id : FrameId) (serial : Nat) (payload : Payload) (state : State ε) :
    (do
      onThread (·.modify id Frame.abandon)
      match payload with
      | .exit target kind =>
          if target = serial then do
            let value ← resultOf id
            pure (.unwound kind value)
          else unwind payload
      | .foreign _ => unwind payload : Act ε Outcome)
        { state with thread := state.thread.modify id Frame.disarm } =
      conclude id serial payload state := by
  cases payload with
  | foreign message => rfl
  | exit target kind =>
      by_cases own : target = serial
      · simp only [conclude, own, if_true]
        rfl
      · simp only [conclude, own, if_false]
        rfl

theorem exec_apply (id : FrameId) (body : Act ε UInt64) (state : State ε) :
    exec id body state =
      match body { state with thread := state.thread.modify id Frame.arm } with
      | (.returned value, reached) =>
          match reached.thread.pending with
          | some payload =>
              conclude id (state.thread.serialOf id) payload
                { reached with thread := reached.thread.clear }
          | none =>
              (.returned (.completed value),
                { reached with
                  thread :=
                    (reached.thread.modify id Frame.disarm).modify id (Frame.complete value) })
      | (.unwinding payload, reached) => conclude id (state.thread.serialOf id) payload reached
      | (.aborted cause, reached) => (.aborted cause, reached) := by
  simp only [exec, bind_apply, thread_apply, onThread_apply, catching_apply]
  rcases body { state with thread := state.thread.modify id Frame.arm } with
    ⟨value | payload | cause, reached⟩
  · simp only [resumePending_apply]
    cases reached.thread.pending with
    | none => rfl
    | some payload => exact conclude_eq ..
  · exact conclude_eq ..
  · rfl

theorem protect_apply (tag : OwnerTag) (body : Act ε UInt64) (state : State ε) :
    protect tag body state =
      match exec state.thread.nextSerial body { state with thread := state.thread.push tag } with
      | (.returned outcome, reached) =>
          (.returned outcome,
            { reached with thread := (reached.thread.pop state.thread.nextSerial false).2 })
      | (.unwinding payload, reached) =>
          (.unwinding payload,
            { reached with thread := (reached.thread.pop state.thread.nextSerial true).2 })
      | (.aborted cause, reached) => (.aborted cause, reached) := by
  simp only [protect, guarding, bind_apply, pushFrame_apply, catching_apply]
  rcases exec state.thread.nextSerial body { state with thread := state.thread.push tag } with
    ⟨_ | _ | _, reached⟩ <;> rfl

theorem frameProtect_apply (tag : OwnerTag) (body : Act ε UInt64) (state : State ε) :
    frameProtect tag body state =
      match protect tag body state with
      | (.returned outcome, reached) => (.returned (outcome.value, some outcome.code), reached)
      | (.unwinding payload, reached) =>
          (.returned (0, none), { reached with thread := reached.thread.park payload })
      | (.aborted cause, reached) => (.aborted cause, reached) := by
  simp only [frameProtect, bind_apply, catching_apply]
  rcases protect tag body state with ⟨_ | _ | _, reached⟩ <;> rfl

/-! ## Actions in two worlds -/

/-- From tied states two actions end the same way, and in tied states. -/
def Alike (tied : State ε → State δ → Prop) (first : Act ε α) (second : Act δ α) : Prop :=
  ∀ left right, tied left right →
    (first left).1 = (second right).1 ∧ tied (first left).2 (second right).2

/-- Tied states have the same control state, and stay tied when it changes alike. -/
structure SameThread (tied : State ε → State δ → Prop) : Prop where
  thread_eq : ∀ {left right}, tied left right → left.thread = right.thread
  change : ∀ {left right} (thread : Thread), tied left right →
    tied { left with thread } { right with thread }

namespace Alike

variable {tied : State ε → State δ → Prop}

protected theorem pure (value : α) : Alike tied (pure value) (pure value) :=
  fun _ _ states => ⟨rfl, states⟩

protected theorem unwind (payload : Payload) :
    Alike tied (unwind payload : Act ε α) (unwind payload) :=
  fun _ _ states => ⟨rfl, states⟩

protected theorem abort (cause : Abort) : Alike tied (abort cause : Act ε α) (abort cause) :=
  fun _ _ states => ⟨rfl, states⟩

protected theorem fatal (error : BridgeError) :
    Alike tied (fatal error : Act ε α) (fatal error) := .abort _

protected theorem bind {first : Act ε α} {second : Act δ α} {next : α → Act ε β}
    {next' : α → Act δ β} (begins : Alike tied first second)
    (goesOn : ∀ value, Alike tied (next value) (next' value)) :
    Alike tied (first >>= next) (second >>= next') := by
  intro left right states
  obtain ⟨same, after⟩ := begins left right states
  rw [bind_apply, bind_apply]
  generalize first left = result at same after
  generalize second right = result' at same after
  obtain ⟨ending, reached⟩ := result
  obtain ⟨ending', reached'⟩ := result'
  obtain rfl : ending = ending' := same
  cases ending with
  | returned value => exact goesOn value reached reached' after
  | unwinding payload => exact ⟨rfl, after⟩
  | aborted cause => exact ⟨rfl, after⟩

/-- What the first world does not notice may come before an action of the second. -/
theorem after {unnoticed : Act δ Unit} {first : Act ε α} {second : Act δ α}
    (nothing : Alike tied (pure ()) unnoticed) (alike : Alike tied first second) :
    Alike tied first (unnoticed >>= fun _ => second) := by
  rw [← pure_bind () fun _ => first]
  exact .bind nothing fun _ => alike

protected theorem catching {first : Act ε α} {second : Act δ α} (alike : Alike tied first second) :
    Alike tied (catching first) (catching second) := by
  intro left right states
  obtain ⟨same, after⟩ := alike left right states
  rw [catching_apply, catching_apply]
  generalize first left = result at same after
  generalize second right = result' at same after
  obtain ⟨ending, reached⟩ := result
  obtain ⟨ending', reached'⟩ := result'
  obtain rfl : ending = ending' := same
  cases ending with
  | returned value => exact ⟨rfl, after⟩
  | unwinding payload => exact ⟨rfl, after⟩
  | aborted cause => exact ⟨rfl, after⟩

section SameThread

variable (same : SameThread tied)
include same

protected theorem thread : Alike tied (thread : Act ε Thread) thread :=
  fun _ _ states => ⟨congrArg _ (same.thread_eq states), states⟩

protected theorem onThread (change : Thread → Thread) :
    Alike tied (onThread change : Act ε Unit) (onThread change) := by
  intro left right states
  refine ⟨rfl, ?_⟩
  simp only [onThread_apply]
  rw [same.thread_eq states]
  exact same.change _ states

protected theorem pushFrame (tag : OwnerTag) :
    Alike tied (pushFrame tag : Act ε FrameId) (pushFrame tag) :=
  .bind (.thread same) fun _ => .bind (.onThread same _) fun _ => .pure _

protected theorem popFrame (id : FrameId) (unwinding : Bool) :
    Alike tied (popFrame id unwinding : Act ε _) (popFrame id unwinding) :=
  .bind (.thread same) fun _ => .bind (.onThread same _) fun _ => .pure _

protected theorem resumePending : Alike tied (resumePending : Act ε Unit) resumePending := by
  refine .bind (.thread same) fun thread => ?_
  cases thread.pending with
  | none => exact .pure _
  | some payload => exact .bind (.onThread same _) fun _ => .unwind payload

protected theorem aimExit (kind : ExitKind) (target : OwnerTag) (value : UInt64) :
    Alike tied (aimExit kind target value : Act ε Payload) (aimExit kind target value) := by
  refine .bind (.thread same) fun thread => ?_
  cases thread.aim kind target value with
  | error error => exact .fatal error
  | ok aimed => exact .bind (.onThread same _) fun _ => .pure _

protected theorem exec (id : FrameId) {first : Act ε UInt64} {second : Act δ UInt64}
    (alike : Alike tied first second) : Alike tied (exec id first) (exec id second) := by
  refine .bind (.thread same) fun before => .bind (.onThread same _) fun _ => ?_
  refine .bind (.catching (.bind alike fun value =>
    .bind (.resumePending same) fun _ => .pure value)) fun ended => ?_
  refine .bind (.onThread same _) fun _ => ?_
  cases ended with
  | ok value => exact .bind (.onThread same _) fun _ => .pure _
  | error payload =>
      refine .bind (.onThread same _) fun _ => ?_
      cases payload with
      | foreign message => exact .unwind _
      | exit target kind =>
          by_cases own : target = before.serialOf id
          · simp only [own, if_true]
            exact .bind (.bind (.thread same) fun _ => .pure _) fun _ => .pure _
          · simp only [own, if_false]
            exact .unwind _

protected theorem dropFrame (id : FrameId) (unwinding : Bool) :
    Alike tied (dropFrame id unwinding : Act ε Unit) (dropFrame id unwinding) :=
  .bind (.popFrame same id unwinding) fun _ => .pure _

protected theorem guarding (id : FrameId) {first : Act ε α} {second : Act δ α}
    (alike : Alike tied first second) : Alike tied (guarding id first) (guarding id second) := by
  refine .bind (.catching alike) fun ended => ?_
  cases ended with
  | ok value => exact .pure value
  | error payload => exact .bind (.dropFrame same id true) fun _ => .unwind payload

protected theorem protect (tag : OwnerTag) {first : Act ε UInt64} {second : Act δ UInt64}
    (alike : Alike tied first second) : Alike tied (protect tag first) (protect tag second) :=
  .bind (.pushFrame same tag) fun id =>
    .bind (.guarding same id (.exec same id alike)) fun outcome =>
      .bind (.dropFrame same id false) fun _ => .pure outcome

protected theorem runNative {first : Act ε UInt64} {second : Act δ UInt64}
    (alike : Alike tied first second) : Alike tied (runNative first) (runNative second) := by
  refine .bind (.catching alike) fun ended => ?_
  cases ended with
  | ok value => exact .pure value
  | error payload => exact .bind (.onThread same _) fun _ => .pure _

protected theorem frameProtect (tag : OwnerTag) {first : Act ε UInt64} {second : Act δ UInt64}
    (alike : Alike tied first second) :
    Alike tied (frameProtect tag first) (frameProtect tag second) := by
  refine .bind (.catching (.protect same tag alike)) fun ended => ?_
  cases ended with
  | ok outcome => exact .pure _
  | error payload => exact .bind (.onThread same _) fun _ => .pure _

protected theorem signalExit (kind : ExitKind) (target : OwnerTag) (value : UInt64) :
    Alike tied (signalExit kind target value : Act ε α) (signalExit kind target value) :=
  .bind (.aimExit same kind target value) fun payload => .unwind payload

protected theorem parkExit (kind : ExitKind) (target : OwnerTag) (value : UInt64) :
    Alike tied (parkExit kind target value : Act ε Unit) (parkExit kind target value) :=
  .bind (.aimExit same kind target value) fun _ => .onThread same _

protected theorem frameSignal (code : UInt32) (target : OwnerTag) (value : UInt64) :
    Alike tied (frameSignal code target value : Act ε Unit) (frameSignal code target value) := by
  unfold frameSignal
  split
  · exact .parkExit same _ target value
  · exact .fatal _

end SameThread

end Alike

end Act

end HostBridge
