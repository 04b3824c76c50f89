import HostBridge.Proofs.Control.Parking

/-!
# Crossing generated code

A body that is called through generated code does not unwind through it. The unwind is parked, the
code returns early, and the region around the code resumes the unwind. The region then ends as if
the body had been executed in it directly, and in the same state, unless the body unwinds while
something else waits to be resumed: parking forgets what waited before.
-/

namespace HostBridge

/-- The state in which the body of a region starts. -/
def State.entered {ε : Type} (tag : OwnerTag) (state : State ε) : State ε :=
  { state with thread := (state.thread.push tag).modify state.thread.nextSerial Frame.arm }

namespace Act

variable {ε α β : Type} {tag : OwnerTag} {body : Act ε UInt64} {state : State ε}

/-! ## Calm actions -/

/-- If the action unwinds from this state, it leaves nothing that waits to be resumed. -/
def CalmAt (action : Act ε α) (state : State ε) : Prop :=
  ∀ payload reached, action state = (.unwinding payload, reached) → reached.thread.pending = none

namespace CalmAt

protected theorem pure (value : α) (state : State ε) : (pure value : Act ε α).CalmAt state :=
  nofun

protected theorem bind {action : Act ε α} {next : α → Act ε β} (begins : action.CalmAt state)
    (goesOn : ∀ value reached, action state = (.returned value, reached) →
      (next value).CalmAt reached) : (action >>= next).CalmAt state := by
  intro payload final unwound
  rw [bind_apply] at unwound
  rcases first : action state with ⟨value | other | cause, reached⟩ <;> rw [first] at unwound
  · exact goesOn value reached first payload final unwound
  · cases unwound
    exact begins _ _ first
  · cases unwound

protected theorem signalExit (calm : state.thread.pending = none) (kind : ExitKind)
    (target : OwnerTag) (value : UInt64) :
    (signalExit kind target value : Act ε α).CalmAt state := by
  intro payload reached unwound
  rw [signalExit_apply] at unwound
  rcases aimed : state.thread.aim kind target value with error | ⟨launched, thread⟩ <;>
    rw [aimed] at unwound
  · cases unwound
  · cases unwound
    exact (Parking.aim_pending aimed).trans calm

end CalmAt

/-! ## Regions around a call -/

/-- Call something and return zero instead of its value if it left an unwind waiting. -/
def returningEarly (action : Act ε UInt64) : Act ε UInt64 := do
  let value ← action
  let thread ← thread
  pure (if thread.exitPending then 0 else value)

theorem exec_returningEarly {id : FrameId}
    (calm : body.CalmAt { state with thread := state.thread.modify id Frame.arm }) :
    exec id (returningEarly (runNative body)) state = exec id body state := by
  rw [exec_apply, exec_apply, returningEarly, bind_apply, runNative_apply]
  rcases ended : body { state with thread := state.thread.modify id Frame.arm } with
    ⟨value | payload | cause, reached⟩
  · -- The value only counts where nothing waits.
    simp only [bind_apply, thread_apply, pure_apply]
    rcases waiting : reached.thread.pending with _ | payload
    · simp [Thread.exitPending, waiting]
    · rfl
  · have resumed := Parking.clear_park (calm payload reached ended) payload
    simp only [bind_apply, thread_apply, pure_apply]
    change conclude id _ payload { reached with thread := (reached.thread.park payload).clear } = _
    rw [resumed]
  · rfl

theorem protect_returningEarly (calm : body.CalmAt (state.entered tag)) :
    protect tag (returningEarly (runNative body)) state = protect tag body state := by
  rw [protect_apply, protect_apply, exec_returningEarly calm]

/-- A region depends on its body only in the state that it enters it in. -/
theorem protect_congr {other : Act ε UInt64}
    (same : body (state.entered tag) = other (state.entered tag)) :
    protect tag body state = protect tag other state := by
  have executed : exec state.thread.nextSerial body { state with thread := state.thread.push tag } =
      exec state.thread.nextSerial other { state with thread := state.thread.push tag } := by
    rw [exec_apply, exec_apply]
    rw [State.entered] at same
    simp only [same]
  rw [protect_apply, protect_apply, executed]

/-! ## The world of a region -/

theorem world_conclude (id : FrameId) (serial : Nat) (payload : Payload) (state : State ε) :
    (conclude id serial payload state).2.world = state.world := by
  cases payload with
  | foreign message => rfl
  | exit target kind =>
      rw [conclude]
      split <;> rfl

/-- A region leaves the world as its body does. -/
theorem world_protect (tag : OwnerTag) (body : Act ε UInt64) (state : State ε) :
    (protect tag body state).2.world = (body (state.entered tag)).2.world := by
  have executed : (exec state.thread.nextSerial body
      { state with thread := state.thread.push tag }).2.world =
        (body (state.entered tag)).2.world := by
    rw [exec_apply]
    change _ = (body { state with thread := (state.thread.push tag).modify _ Frame.arm }).2.world
    rcases body { state with thread := (state.thread.push tag).modify _ Frame.arm } with
      ⟨value | payload | cause, reached⟩
    · dsimp only
      split
      · exact world_conclude ..
      · rfl
    · exact world_conclude ..
    · rfl
  rw [protect_apply, ← executed]
  rcases exec state.thread.nextSerial body { state with thread := state.thread.push tag } with
    ⟨_ | _ | _, reached⟩ <;> rfl

end Act

end HostBridge
