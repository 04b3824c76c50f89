import HostBridge.Proofs.Control.Step
import Mathlib.Data.List.Nodup

/-!
# The numbers of frames and the links between them

Frames are numbered in the order in which they are pushed, and a number is not given twice. A frame
is linked to the one that was innermost when it was pushed. No step changes the number or the link
of a frame, and only the innermost frame is ever taken away.

Of a thread that is numbered the frames can be told apart, wherever its links lead: generated code
can write to links as well. On a linked thread, as all threads of runs are, following the links
meets all frames, newest first.
-/

namespace HostBridge

/-! ## Links -/

/-- Following the links from one link on meets these frames, and comes to another link. -/
def Chained : Link → List Frame → Link → Prop
  | link, [], last => link = last
  | link, frame :: frames, last => link = .frame frame.id ∧ Chained frame.prev frames last

/-- A change of a frame that keeps its place and what it is known by. -/
structure Frame.Keeps (change : Frame → Frame) : Prop where
  id_eq : ∀ frame, (change frame).id = frame.id
  token_eq : ∀ frame, (change frame).token = frame.token
  prev_eq : ∀ frame, (change frame).prev = frame.prev

namespace Frame.Keeps

theorem arm : Keeps Frame.arm := ⟨fun _ => rfl, fun _ => rfl, fun _ => rfl⟩

theorem disarm : Keeps Frame.disarm := ⟨fun _ => rfl, fun _ => rfl, fun _ => rfl⟩

theorem complete (value : UInt64) : Keeps (Frame.complete value) :=
  ⟨fun _ => rfl, fun _ => rfl, fun _ => rfl⟩

theorem abandon : Keeps Frame.abandon := ⟨fun _ => rfl, fun _ => rfl, fun _ => rfl⟩

theorem aim (kind : ExitKind) (value : UInt64) : Keeps (Frame.aim kind value) :=
  ⟨fun _ => rfl, fun _ => rfl, fun _ => rfl⟩

/-- The change is made to one frame only. -/
theorem at_id {change : Frame → Frame} (keeps : Keeps change) (id : FrameId) :
    Keeps fun frame => if frame.id = id then change frame else frame where
  id_eq frame := by
    split
    · exact keeps.id_eq frame
    · rfl
  token_eq frame := by
    split
    · exact keeps.token_eq frame
    · rfl
  prev_eq frame := by
    split
    · exact keeps.prev_eq frame
    · rfl

end Frame.Keeps

/-- Links stay where they lead if every frame keeps its own. -/
theorem Chained.map {link last : Link} {frames : List Frame} {change : Frame → Frame}
    (keeps : Frame.Keeps change) (chained : Chained link frames last) :
    Chained link (frames.map change) last := by
  induction frames generalizing link with
  | nil => exact chained
  | cons frame frames induction =>
      refine ⟨?_, ?_⟩
      · rw [keeps.id_eq]
        exact chained.1
      · rw [keeps.prev_eq]
        exact induction chained.2

namespace Thread

variable {thread after : Thread}

theorem mem_of_follow? {link : Link} {frame : Frame} (found : thread.follow? link = some frame) :
    frame ∈ thread.frames := by
  cases link with
  | frame id => exact List.mem_of_find?_eq_some found
  | none | wild => cases found

/-- Walking along the links meets only frames that exist. -/
theorem mem_of_mem_chainFrom {frame : Frame} {count : Nat} {link : Link}
    (member : frame ∈ thread.chainFrom count link) : frame ∈ thread.frames := by
  induction count generalizing link with
  | zero => exact absurd member List.not_mem_nil
  | succ count induction =>
      rw [chainFrom] at member
      split at member
      · next first found =>
          rcases List.mem_cons.mp member with rfl | further
          · exact mem_of_follow? found
          · exact induction further
      · exact absurd member List.not_mem_nil

theorem mem_of_mem_chain {frame : Frame} (member : frame ∈ thread.chain) :
    frame ∈ thread.frames :=
  mem_of_mem_chainFrom member

theorem mem_of_target? {kind : ExitKind} {target : OwnerTag} {frame : Frame}
    (found : thread.target? kind target = some frame) : frame ∈ thread.frames :=
  mem_of_mem_chain (List.mem_of_find?_eq_some found)

/-- Walking along links that lead through these frames meets them first. -/
theorem chainFrom_eq {link last : Link} {frames : List Frame} (chained : Chained link frames last)
    (known : ∀ frame ∈ frames, thread.frame? frame.id = some frame) (count : Nat) :
    thread.chainFrom (frames.length + count) link = frames ++ thread.chainFrom count last := by
  induction frames generalizing link with
  | nil =>
      rw [show link = last from chained, List.length_nil, Nat.zero_add]
      rfl
  | cons frame frames induction =>
      have here : thread.follow? link = some frame := by
        rw [chained.1]
        exact known frame List.mem_cons_self
      have further := induction chained.2 fun other member =>
        known other (List.mem_cons_of_mem _ member)
      rw [List.length_cons, Nat.add_right_comm, chainFrom, here]
      exact congrArg (frame :: ·) further

/-! ## Pops -/

/-- Without an innermost frame there is nothing to pop. -/
theorem pop_none (found : thread.top? = none) (id : FrameId) (unwinding : Bool) :
    thread.pop id unwinding = (.error (.frameOrder (thread.serialOf id) 0), thread) := by
  rw [pop, found]

section Top

variable {top : Frame} (found : thread.top? = some top)
include found

/-- Popping the innermost frame takes it away. -/
theorem pop_top (unwinding : Bool) :
    thread.pop top.id unwinding =
      (.ok (top.finalPhase unwinding),
        { thread with
          current := top.prev
          frames := thread.frames.filter (·.id != top.id) }) := by
  rw [pop, found]
  exact if_pos rfl

/-- Popping another frame takes nothing away. -/
theorem pop_other {id : FrameId} (other : top.id ≠ id) (unwinding : Bool) :
    thread.pop id unwinding =
      (.error (.frameOrder (thread.serialOf id) top.token.serial), thread) := by
  rw [pop, found]
  exact if_neg other

end Top

/-! ## Frames told apart by their numbers -/

/-- The numbers of all frames that exist. -/
def ids (thread : Thread) : List FrameId := thread.frames.map (·.id)

/-- Frames have numbers of their own, counted from one, and the next number is above them all. -/
structure Numbered (thread : Thread) : Prop where
  distinct : thread.ids.Nodup
  positive : ∀ id ∈ thread.ids, 0 < id
  below : ∀ id ∈ thread.ids, id < thread.nextSerial
  next : 0 < thread.nextSerial

theorem ids_modify {change : Frame → Frame} (keeps : Frame.Keeps change) (id : FrameId)
    (thread : Thread) : (thread.modify id change).ids = thread.ids := by
  rw [ids, modify, mapFrames, List.map_map, ids]
  exact List.map_congr_left fun frame _ => (keeps.at_id id).id_eq frame

theorem ids_pop_sublist (id : FrameId) (unwinding : Bool) (thread : Thread) :
    (thread.pop id unwinding).2.ids.Sublist thread.ids := by
  cases found : thread.top? with
  | none => rw [pop_none found]
  | some top =>
      by_cases own : top.id = id
      · subst own
        rw [pop_top found]
        exact List.filter_sublist.map _
      · rw [pop_other found own]

namespace Numbered

theorem frame_lt (numbered : thread.Numbered) {frame : Frame} (member : frame ∈ thread.frames) :
    frame.id < thread.nextSerial :=
  numbered.below _ (List.mem_map_of_mem member)

theorem frame_unique (numbered : thread.Numbered) {first second : Frame}
    (here : first ∈ thread.frames) (there : second ∈ thread.frames) (same : first.id = second.id) :
    first = second :=
  List.inj_on_of_nodup_map numbered.distinct here there same

theorem frame?_eq (numbered : thread.Numbered) {frame : Frame} (member : frame ∈ thread.frames) :
    thread.frame? frame.id = some frame := by
  rw [frame?]
  cases found : thread.frames.find? (·.id == frame.id) with
  | none =>
      have missing := List.find?_eq_none.mp found frame member
      simp at missing
  | some other =>
      have same : other.id = frame.id := by simpa using List.find?_some found
      rw [numbered.frame_unique (List.mem_of_find?_eq_some found) member same]

theorem serialOf_eq (numbered : thread.Numbered) {frame : Frame} (member : frame ∈ thread.frames) :
    thread.serialOf frame.id = frame.token.serial := by
  rw [serialOf, numbered.frame?_eq member]
  rfl

theorem top?_of_current (numbered : thread.Numbered) {frame : Frame}
    (member : frame ∈ thread.frames) (innermost : thread.current = .frame frame.id) :
    thread.top? = some frame := by
  rw [top?, innermost]
  exact numbered.frame?_eq member

/-- Popping the innermost frame takes it away, and no other has its number. -/
theorem pop_head (numbered : thread.Numbered) {top : Frame} {rest : List Frame}
    (frames_eq : thread.frames = top :: rest) (innermost : thread.current = .frame top.id)
    (unwinding : Bool) :
    thread.pop top.id unwinding =
      (.ok (top.finalPhase unwinding), { thread with current := top.prev, frames := rest }) := by
  have member : top ∈ thread.frames := frames_eq ▸ List.mem_cons_self
  have distinct := numbered.distinct
  rw [ids, frames_eq, List.map_cons, List.nodup_cons] at distinct
  have others : thread.frames.filter (·.id != top.id) = rest := by
    rw [frames_eq, List.filter_cons_of_neg (by simp), List.filter_eq_self]
    intro frame other
    simpa using ne_of_mem_of_not_mem (List.mem_map_of_mem (f := Frame.id) other) distinct.1
  rw [pop_top (numbered.top?_of_current member innermost), others]

/-! ### Steps -/

/-- Frames are at most taken away. -/
theorem of_sublist (numbered : thread.Numbered) (sublist : after.ids.Sublist thread.ids)
    (next_eq : after.nextSerial = thread.nextSerial) : after.Numbered where
  distinct := numbered.distinct.sublist sublist
  positive id member := numbered.positive id (sublist.subset member)
  below id member := next_eq ▸ numbered.below id (sublist.subset member)
  next := next_eq ▸ numbered.next

theorem pop (numbered : thread.Numbered) (id : FrameId) (unwinding : Bool) :
    (thread.pop id unwinding).2.Numbered :=
  numbered.of_sublist (ids_pop_sublist ..) (pop_nextSerial ..)

/-- Nothing depends on what waits to be resumed. -/
theorem withPending (numbered : thread.Numbered) (pending : Option Payload) :
    Numbered { thread with pending } :=
  numbered.of_sublist (.refl _) rfl

theorem modify {change : Frame → Frame} (numbered : thread.Numbered) (id : FrameId)
    (keeps : Frame.Keeps change) : (thread.modify id change).Numbered := by
  refine numbered.of_sublist ?_ rfl
  rw [ids_modify keeps]

theorem push (numbered : thread.Numbered) (tag : OwnerTag) : (thread.push tag).Numbered := by
  have ids_eq : (thread.push tag).ids = thread.nextSerial :: thread.ids := rfl
  refine ⟨?_, ?_, ?_, Nat.succ_pos _⟩
  · rw [ids_eq, List.nodup_cons]
    exact ⟨fun member => Nat.lt_irrefl _ (numbered.below _ member), numbered.distinct⟩
  · rw [ids_eq, List.forall_mem_cons]
    exact ⟨numbered.next, numbered.positive⟩
  · rw [ids_eq, List.forall_mem_cons]
    exact ⟨Nat.lt_succ_self _, fun id member => Nat.lt_succ_of_lt (numbered.below id member)⟩

theorem step {before after : Config} (taken : Step before after)
    (numbered : before.thread.Numbered) : after.thread.Numbered := by
  cases taken with
  | push tag => exact numbered.push tag
  | pop => exact numbered.pop ..
  | drop => exact numbered.pop ..
  | enter => exact numbered.modify _ .arm
  | complete value thread calm thread_eq =>
      subst thread_eq
      exact (numbered.modify _ .disarm).modify _ (.complete value)
  | land kind thread thread_eq =>
      subst thread_eq
      exact (numbered.modify _ .disarm).modify _ .abandon
  | leave payload thread elsewhere thread_eq =>
      subst thread_eq
      exact (numbered.modify _ .disarm).modify _ .abandon
  | raise kind target value payload thread aimed =>
      obtain ⟨frame, -, -, rfl⟩ := Thread.aim_eq_ok aimed
      exact numbered.modify _ (.aim kind value)
  | park | resume => exact numbered.withPending _
  | move | look | abort | fail => exact numbered

end Numbered

/-! ## Frames linked in order -/

/-- Frames have numbers of their own, and following the links from the innermost one meets them
all, newest first, and ends. -/
structure Linked (thread : Thread) : Prop extends Numbered thread where
  chained : Chained thread.current thread.frames .none

namespace Linked

theorem fresh : Thread.fresh.Linked where
  distinct := List.nodup_nil
  positive := List.forall_mem_nil _
  below := List.forall_mem_nil _
  next := Nat.one_pos
  chained := rfl

/-! ### The chain is the list of frames -/

theorem chain_eq (linked : thread.Linked) : thread.chain = thread.frames :=
  (chainFrom_eq linked.chained (fun _ member => linked.frame?_eq member) 0).trans
    (List.append_nil _)

theorem tags_eq (linked : thread.Linked) : thread.tags = thread.frames.map (·.tag) := by
  rw [tags, linked.chain_eq]

theorem current_eq (linked : thread.Linked) {top : Frame} {rest : List Frame}
    (frames_eq : thread.frames = top :: rest) : thread.current = .frame top.id := by
  have chained := linked.chained
  rw [frames_eq] at chained
  exact chained.1

theorem top?_eq (linked : thread.Linked) : thread.top? = thread.frames.head? := by
  cases frames_eq : thread.frames with
  | nil =>
      have chained := linked.chained
      rw [frames_eq] at chained
      rw [top?, show thread.current = .none from chained]
      rfl
  | cons frame frames =>
      exact linked.top?_of_current (frames_eq ▸ List.mem_cons_self) (linked.current_eq frames_eq)

theorem depth_eq (linked : thread.Linked) :
    thread.depth = (thread.frames.head?.map (·.token.depth)).getD 0 := by
  rw [depth, linked.top?_eq]

/-! ### Steps -/

/-- What is left when the innermost frame is taken away. -/
theorem tail (linked : thread.Linked) {top : Frame} {rest : List Frame}
    (frames_eq : thread.frames = top :: rest) :
    Linked { thread with current := top.prev, frames := rest } := by
  have chained := linked.chained
  have sublist : (rest.map (·.id)).Sublist thread.ids := by
    rw [ids, frames_eq, List.map_cons]
    exact List.sublist_cons_self ..
  rw [frames_eq] at chained
  exact ⟨linked.toNumbered.of_sublist sublist rfl, chained.2⟩

theorem pop (linked : thread.Linked) (id : FrameId) (unwinding : Bool) :
    (thread.pop id unwinding).2.Linked := by
  have found := linked.top?_eq
  cases frames_eq : thread.frames with
  | nil =>
      rw [frames_eq] at found
      rw [pop_none found]
      exact linked
  | cons top rest =>
      rw [frames_eq] at found
      by_cases own : top.id = id
      · subst own
        rw [linked.pop_head frames_eq (linked.current_eq frames_eq)]
        exact linked.tail frames_eq
      · rw [pop_other found own]
        exact linked

theorem modify {change : Frame → Frame} (linked : thread.Linked) (id : FrameId)
    (keeps : Frame.Keeps change) : (thread.modify id change).Linked :=
  ⟨linked.toNumbered.modify id keeps, linked.chained.map (keeps.at_id id)⟩

theorem push (linked : thread.Linked) (tag : OwnerTag) : (thread.push tag).Linked :=
  ⟨linked.toNumbered.push tag, rfl, linked.chained⟩

theorem aim (linked : thread.Linked) {kind : ExitKind} {target : OwnerTag} {value : UInt64}
    {payload : Payload} (success : thread.aim kind target value = .ok (payload, after)) :
    after.Linked := by
  obtain ⟨frame, -, -, rfl⟩ := Thread.aim_eq_ok success
  exact linked.modify _ (.aim kind value)

theorem withPending (linked : thread.Linked) (pending : Option Payload) :
    Linked { thread with pending } :=
  ⟨linked.toNumbered.withPending pending, linked.chained⟩

end Linked

end Thread

end HostBridge
