import HostBridge.Proofs.Control.Stack
import Mathlib.Data.List.Find

/-!
# Regions that are being executed

A frame says whether its region is being executed, and an exit only looks at frames that say so.
What the frames say is what happened: a frame is armed from the moment its region is entered to the
moment it returns or is left. So an exit is aimed at the first frame, from the innermost one, whose
region is being executed and which the kind and target of the exit allow.
-/

namespace HostBridge

namespace History

/-- The regions that were entered and neither returned nor were left since, innermost first. -/
def executing : History → List FrameId
  | [] => []
  | ⟨.entered id, _, _⟩ :: earlier => id :: executing earlier
  | ⟨.returned _ _, _, _⟩ :: earlier => (executing earlier).tail
  | ⟨.left _, _, _⟩ :: earlier => (executing earlier).tail
  | _ :: earlier => executing earlier

end History

/-- The frame that an exit goes to, while these regions are being executed: the first one, from the
innermost, that is among them and answers the target. An error answers to no target in particular,
and any frame answers a target that names none. -/
def Thread.accepting (executing : List FrameId) (kind : ExitKind) (target : OwnerTag)
    (thread : Thread) : Option Frame :=
  thread.chain.find? fun frame =>
    frame.id ∈ executing ∧
      (kind = .raise ∨ kind = .fatal ∨ target = .any ∨ frame.tag = target)

theorem Thread.mem_modify {thread : Thread} {id : FrameId} {change : Frame → Frame}
    {frame : Frame} (member : frame ∈ (thread.modify id change).frames) :
    ∃ old ∈ thread.frames, frame = if old.id = id then change old else old := by
  obtain ⟨old, old_member, rfl⟩ := List.mem_map.mp member
  exact ⟨old, old_member, rfl⟩

theorem Thread.mem_modify_own {thread : Thread} {id : FrameId} {change : Frame → Frame}
    {frame : Frame} (member : frame ∈ thread.frames) (own : frame.id = id) :
    change frame ∈ (thread.modify id change).frames :=
  List.mem_map.mpr ⟨frame, member, if_pos own⟩

theorem Thread.mem_of_mem_pop {thread : Thread} {id : FrameId} {unwinding : Bool} {frame : Frame}
    (member : frame ∈ (thread.pop id unwinding).2.frames) : frame ∈ thread.frames := by
  rw [Thread.pop] at member
  split at member
  · exact member
  · split at member
    · exact List.mem_of_mem_filter member
    · exact member

theorem Sound.executing_nodup {config : Config} (sound : Sound config) :
    config.executing.Nodup :=
  (List.nodup_append.mp sound.apart).2.1

/-- The frames of a configuration are armed as its regions are being executed. -/
structure Armed (config : Config) : Prop where
  /-- The history tells which regions are being executed. -/
  executing : config.history.executing = config.executing
  /-- An execution waits for the serial that is the number of its frame. -/
  serials : ∀ activation ∈ config.active, activation.serial = activation.id
  /-- A frame is armed exactly while its region is being executed. -/
  armed : ∀ frame ∈ config.thread.frames, frame.armed = true ↔ frame.id ∈ config.executing

namespace Armed

theorem initial : Armed .initial := ⟨rfl, nofun, nofun⟩

variable {before after : Config}

theorem accepting_eq (armed : Armed before) (kind : ExitKind) (target : OwnerTag) :
    before.thread.target? kind target =
      before.thread.accepting before.history.executing kind target := by
  rw [armed.executing]
  refine List.find?_congr fun frame member => ?_
  have same := armed.armed frame (Thread.mem_of_mem_chain member)
  rw [Bool.eq_iff_iff]
  cases kind <;> simp [Frame.accepts, ExitKind.ignoresTarget, same]

/-- A step after which the same regions are being executed. -/
theorem same (armed : Armed before)
    (history_eq : after.history.executing = before.history.executing)
    (active_eq : after.active = before.active)
    (frames : ∀ frame ∈ after.thread.frames,
      (∃ old ∈ before.thread.frames, frame.id = old.id ∧ frame.armed = old.armed) ∨
        frame.armed = false ∧ frame.id ∉ before.executing) : Armed after where
  executing := by rw [history_eq, armed.executing, Config.executing, Config.executing, active_eq]
  serials := by
    rw [active_eq]
    exact armed.serials
  armed frame member := by
    rw [Config.executing, active_eq]
    rcases frames frame member with ⟨old, old_member, id_eq, armed_eq⟩ | ⟨idle, elsewhere⟩
    · rw [id_eq, armed_eq]
      exact armed.armed old old_member
    · simp [idle, elsewhere]

/-- A step that changes no frame. -/
theorem same_frames (armed : Armed before)
    (history_eq : after.history.executing = before.history.executing)
    (active_eq : after.active = before.active)
    (frames : ∀ frame ∈ after.thread.frames, frame ∈ before.thread.frames) : Armed after :=
  armed.same history_eq active_eq fun frame member =>
    .inl ⟨frame, frames frame member, rfl, rfl⟩

/-- The execution of a region begins. -/
theorem enter {id : FrameId} {owned : List FrameId} {active : List Activation}
    {state : State Watch} (armed : Armed ⟨id :: owned, active, .running, state⟩)
    (sound : Sound ⟨id :: owned, active, .running, state⟩) :
    Armed ⟨owned, ⟨id, state.thread.serialOf id⟩ :: active, .running,
      Watch.note (.entered id) state.thread
        { state with thread := state.thread.modify id Frame.arm }⟩ where
  executing := congrArg (id :: ·) armed.executing
  serials activation member := by
    rcases List.mem_cons.mp member with rfl | older
    · have guard : id ∈ Config.guards ⟨id :: owned, active, .running, state⟩ := by
        simp [Config.guards]
      obtain ⟨frame, on_stack, rfl⟩ := List.mem_map.mp (sound.mem_frames guard)
      have serial := sound.stack.linked.serialOf_eq on_stack
      exact serial.trans (sound.stack.serial_eq_id on_stack)
    · exact armed.serials activation older
  armed frame member := by
    obtain ⟨old, old_member, rfl⟩ := Thread.mem_modify member
    have same := armed.armed old old_member
    by_cases own : old.id = id
    · simp [own, Frame.arm, Frame.armed]
    · simpa [own, Ne.symm own] using same

/-- The execution of a region ends, whichever way. -/
theorem ends {id : FrameId} {serial : Nat} {owned : List FrameId} {active : List Activation}
    {mode : Mode} {state : State Watch} (armed : Armed ⟨owned, ⟨id, serial⟩ :: active, mode, state⟩)
    (sound : Sound ⟨owned, ⟨id, serial⟩ :: active, mode, state⟩)
    (active_eq : after.active = active)
    (history_eq : after.history.executing = state.world.history.executing.tail)
    {change : Frame → Frame} (keeps : Frame.Keeps change)
    (disarmed : ∀ frame : Frame, (change frame.disarm).armed = false)
    (thread_eq : after.thread = (state.thread.modify id Frame.disarm).modify id change) :
    Armed after where
  executing := by
    have executing := armed.executing
    rw [history_eq, executing, Config.executing, Config.executing, active_eq]
    rfl
  serials activation member := by
    rw [active_eq] at member
    exact armed.serials activation (List.mem_cons_of_mem _ member)
  armed frame member := by
    have once : id ∉ active.map (·.id) := (List.nodup_cons.mp sound.executing_nodup).1
    rw [thread_eq] at member
    obtain ⟨middle, middle_member, rfl⟩ := Thread.mem_modify member
    obtain ⟨old, old_member, rfl⟩ := Thread.mem_modify middle_member
    have same := armed.armed old old_member
    rw [Config.executing, active_eq]
    by_cases own : old.id = id
    · have idle := disarmed old
      have id_eq : old.disarm.id = id := own
      have kept : (change old.disarm).id = id := (keeps.id_eq _).trans own
      simpa [own, id_eq, idle, kept] using once
    · simpa [own, Ne.symm own] using same

theorem step (taken : Step before after) (sound : Sound before) (armed : Armed before) :
    Armed after := by
  cases taken with
  | move guards issued moved => exact armed.same_frames rfl rfl fun _ => id
  | look => exact armed.same_frames rfl rfl fun _ => id
  | push tag =>
      refine armed.same rfl rfl fun frame member => ?_
      rcases List.mem_cons.mp member with rfl | older
      · exact .inr ⟨rfl, fun executed => sound.nextSerial_notMem (List.mem_append_right _ executed)⟩
      · exact .inl ⟨frame, older, rfl, rfl⟩
  | pop => exact armed.same_frames rfl rfl fun _ => Thread.mem_of_mem_pop
  | drop unwinding alive => exact armed.same_frames rfl rfl fun _ => Thread.mem_of_mem_pop
  | enter => exact armed.enter sound
  | complete value thread calm thread_eq =>
      exact armed.ends sound rfl rfl (.complete value) (fun _ => rfl) thread_eq
  | land kind thread thread_eq =>
      exact armed.ends sound rfl rfl .abandon (fun _ => rfl) thread_eq
  | leave payload thread elsewhere thread_eq =>
      exact armed.ends sound rfl rfl .abandon (fun _ => rfl) thread_eq
  | raise kind target value payload thread aimed =>
      refine armed.same rfl rfl fun frame member => .inl ?_
      obtain ⟨chosen, -, -, rfl⟩ := Thread.aim_eq_ok aimed
      obtain ⟨old, old_member, rfl⟩ := Thread.mem_modify member
      refine ⟨old, old_member, ?_⟩
      by_cases own : old.id = chosen.id
      · simp [own, Frame.aim, Frame.armed]
      · simp [own]
  | abort kind target value error unmatched => exact armed.same_frames rfl rfl fun _ => id
  | fail message => exact armed.same_frames rfl rfl fun _ => id
  | park payload => exact armed.same_frames rfl rfl fun _ => id
  | resume payload waits => exact armed.same_frames rfl rfl fun _ => id

end Armed

end HostBridge
