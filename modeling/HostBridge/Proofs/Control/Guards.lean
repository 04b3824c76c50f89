import HostBridge.Proofs.Control.Step
import Mathlib.Data.List.Nodup

/-!
# The guards of a run

A guard is spent when it is popped or dropped, whatever comes of it. Until then it is in one place:
with the program, with an operation, or with the region that it executes. This holds wherever a run
starts, since a new guard has a number that no guard had before.
-/

namespace HostBridge

/-- The guards that were neither popped nor dropped, whatever came of it. -/
def History.unspent : History → List FrameId
  | [] => []
  | ⟨.pushed id, _, _⟩ :: earlier => id :: unspent earlier
  | ⟨.popped id _, _, _⟩ :: earlier => (unspent earlier).filter (· ≠ id)
  | ⟨.dropped id _, _, _⟩ :: earlier => (unspent earlier).filter (· ≠ id)
  | _ :: earlier => unspent earlier

/-- An event that neither brings a frame nor spends a guard. -/
def Event.Quiet : Event → Prop
  | .pushed _ | .popped _ _ | .dropped _ _ => False
  | _ => True

/-- The guard that an event spends. -/
def Event.spent? : Event → Option FrameId
  | .popped id _ | .dropped id _ => some id
  | _ => none

namespace History

theorem unspent_spent {moment : Moment} {id : FrameId} (spent : moment.event.spent? = some id)
    (earlier : History) : unspent (moment :: earlier) = (unspent earlier).filter (· ≠ id) := by
  obtain ⟨event, _, _⟩ := moment
  cases event with
  | popped | dropped =>
      cases spent
      rfl
  | _ => cases spent

/-- The guard that was pushed last is spent. -/
theorem filter_latest {id : FrameId} {others : List FrameId}
    (older : ∀ other ∈ others, other < id) : (id :: others).filter (· ≠ id) = others := by
  rw [List.filter_cons_of_neg (by simp), List.filter_eq_self]
  intro other member
  simpa using Nat.ne_of_lt (older other member)

end History

/-- All guards that are not spent, wherever they are. -/
def Config.guards (config : Config) : List FrameId :=
  config.held ++ config.owned ++ config.executing

/-- What is known of the guards of a configuration. -/
structure Guarded (config : Config) : Prop where
  /-- A guard is in one place. -/
  apart : config.guards.Nodup
  /-- A guard is not spent before it is popped or dropped. -/
  unspent : ∀ id ∈ config.guards, id ∈ config.history.unspent
  /-- Guards have the higher numbers the later they were pushed. -/
  decreasing : config.history.unspent.Pairwise (· > ·)
  /-- The next number is above them all. -/
  next : ∀ id ∈ config.history.unspent, id < config.thread.nextSerial

namespace Guarded

variable {before after : Config}

/-- A step that neither brings a frame nor spends a guard. -/
theorem quiet (guarded : Guarded before) (perm : after.guards.Perm before.guards)
    (unspent_eq : after.history.unspent = before.history.unspent)
    (next_eq : after.thread.nextSerial = before.thread.nextSerial) : Guarded after where
  apart := perm.nodup_iff.mpr guarded.apart
  unspent id member := by
    rw [unspent_eq]
    exact guarded.unspent id (perm.mem_iff.mp member)
  decreasing := by
    rw [unspent_eq]
    exact guarded.decreasing
  next := by
    rw [unspent_eq, next_eq]
    exact guarded.next

/-- A step that pops or drops a guard. -/
theorem spend (guarded : Guarded before) {id : FrameId}
    (perm : before.guards.Perm (id :: after.guards))
    (unspent_eq : after.history.unspent = before.history.unspent.filter (· ≠ id))
    (next_eq : after.thread.nextSerial = before.thread.nextSerial) : Guarded after := by
  have apart := perm.nodup_iff.mp guarded.apart
  refine ⟨(List.nodup_cons.mp apart).2, fun other member => ?_, ?_, ?_⟩
  · rw [unspent_eq, List.mem_filter]
    have different : other ≠ id := ne_of_mem_of_not_mem member (List.nodup_cons.mp apart).1
    have known := guarded.unspent other (perm.mem_iff.mpr (List.mem_cons_of_mem _ member))
    exact ⟨known, by simpa using different⟩
  · rw [unspent_eq]
    exact guarded.decreasing.filter _
  · rw [unspent_eq, next_eq]
    exact fun other member => guarded.next other (List.mem_of_mem_filter member)

/-- The number of the next frame is not that of a guard. -/
theorem nextSerial_notMem (guarded : Guarded before) : before.thread.nextSerial ∉ before.guards :=
  fun guard => Nat.lt_irrefl _ (guarded.next _ (guarded.unspent _ guard))

/-- A guard in hand, put in front of all others. -/
theorem perm_in_hand (id : FrameId) (held owned executing : List FrameId) :
    (held ++ id :: owned ++ executing).Perm (id :: (held ++ owned ++ executing)) := by
  simp

/-- The guard of a region that is being executed is otherwise in hand. -/
theorem perm_executed (id : FrameId) (held owned executing : List FrameId) :
    (held ++ owned ++ id :: executing).Perm (held ++ id :: owned ++ executing) := by
  simpa using List.perm_middle.append_left held

/-- A step that pushes a frame. -/
theorem push {owned : List FrameId} {active : List Activation} {state : State Watch}
    (guarded : Guarded ⟨owned, active, .running, state⟩) (tag : OwnerTag) :
    Guarded ⟨state.thread.nextSerial :: owned, active, .running,
      Watch.note (.pushed state.thread.nextSerial) state.thread
        { state with thread := state.thread.push tag }⟩ := by
  have perm := perm_in_hand state.thread.nextSerial (state.world.guards.map (·.2)) owned
    (active.map (·.id))
  refine ⟨?_, fun id member => ?_, List.pairwise_cons.mpr ⟨guarded.next, guarded.decreasing⟩, ?_⟩
  · exact perm.nodup_iff.mpr (List.nodup_cons.mpr ⟨guarded.nextSerial_notMem, guarded.apart⟩)
  · rcases List.mem_cons.mp (perm.mem_iff.mp member) with rfl | older
    · exact List.mem_cons_self
    · exact List.mem_cons_of_mem _ (guarded.unspent id older)
  · intro id member
    rcases List.mem_cons.mp member with rfl | older
    · exact Nat.lt_succ_self _
    · exact Nat.lt_succ_of_lt (guarded.next id older)

theorem step (taken : Step before after) (guarded : Guarded before) : Guarded after := by
  cases taken with
  | move guards issued moved => exact guarded.quiet (moved.append_right _) rfl rfl
  | push tag => exact guarded.push tag
  | @pop id owned active state =>
      exact guarded.spend (perm_in_hand ..) rfl (state.thread.pop_nextSerial id false)
  | @drop id owned active mode state unwinding alive =>
      exact guarded.spend (perm_in_hand ..) rfl (state.thread.pop_nextSerial id unwinding)
  | enter => exact guarded.quiet (perm_executed ..) rfl rfl
  | complete value thread calm thread_eq =>
      subst thread_eq
      exact guarded.quiet (perm_executed ..).symm rfl rfl
  | land kind thread thread_eq =>
      subst thread_eq
      exact guarded.quiet (perm_executed ..).symm rfl rfl
  | leave payload thread elsewhere thread_eq =>
      subst thread_eq
      exact guarded.quiet (perm_executed ..).symm rfl rfl
  | raise kind target value payload thread aimed =>
      obtain ⟨frame, -, -, rfl⟩ := Thread.aim_eq_ok aimed
      exact guarded.quiet (.refl _) rfl rfl
  | look | abort | fail | park | resume => exact guarded.quiet (.refl _) rfl rfl

end Guarded

end HostBridge
