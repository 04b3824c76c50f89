import HostBridge.Proofs.Control.Stack
import Mathlib.Data.List.Forall2

/-!
# Stack balance

A protected region leaves the stack as it found it, whichever way it ends, if its body spends the
guards that are pushed in it and spends the latest first.

No guard of the frames below the region is at hand. All that can happen to them is that an exit is
aimed at one that is being executed.
-/

namespace HostBridge

/-! ## Frames that were there before -/

/-- A frame is as it was before. Only if it was armed, exits may have been aimed at it since. -/
structure Frame.Upheld (before after : Frame) : Prop where
  id_eq : after.id = before.id
  token_eq : after.token = before.token
  tag_eq : after.tag = before.tag
  prev_eq : after.prev = before.prev
  phase_eq : after.phaseCode = before.phaseCode
  armed_eq : after.armedWord = before.armedWord
  idle : before.armed = false → after.result = before.result ∧ after.exitCode = before.exitCode

namespace Frame.Upheld

variable {first second third : Frame}

theorem refl (frame : Frame) : Upheld frame frame :=
  ⟨rfl, rfl, rfl, rfl, rfl, rfl, fun _ => ⟨rfl, rfl⟩⟩

theorem armed (upheld : Upheld first second) : second.armed = first.armed := by
  rw [Frame.armed, Frame.armed, upheld.armed_eq]

/-- An exit is aimed at a frame that is armed. -/
theorem aim (upheld : Upheld first second) (armed : second.armed = true) (kind : ExitKind)
    (value : UInt64) : Upheld first (second.aim kind value) where
  id_eq := upheld.id_eq
  token_eq := upheld.token_eq
  tag_eq := upheld.tag_eq
  prev_eq := upheld.prev_eq
  phase_eq := upheld.phase_eq
  armed_eq := upheld.armed_eq
  idle was_idle := by
    rw [upheld.armed, was_idle] at armed
    cases armed

/-- Frames that are upheld are found under the numbers that they had before. -/
theorem find? {before after : List Frame} (upheld : List.Forall₂ Upheld before after)
    (id : FrameId) :
    Option.Rel Upheld (before.find? (·.id == id)) (after.find? (·.id == id)) := by
  induction upheld with
  | nil => exact .none
  | cons first _ induction =>
      rw [List.find?_cons, List.find?_cons, first.id_eq]
      split
      · exact .some first
      · exact induction

end Frame.Upheld

/-- Links lead through frames that are upheld as they did before. -/
theorem Thread.chainFrom_upheld {before after : Thread}
    (upheld : List.Forall₂ Frame.Upheld before.frames after.frames) (count : Nat) (link : Link) :
    List.Forall₂ Frame.Upheld (before.chainFrom count link) (after.chainFrom count link) := by
  induction count generalizing link with
  | zero => exact .nil
  | succ count induction =>
      have found : Option.Rel Frame.Upheld (before.follow? link) (after.follow? link) := by
        cases link with
        | frame id => exact Frame.Upheld.find? upheld id
        | none | wild => exact .none
      rw [chainFrom, chainFrom]
      generalize before.follow? link = was at found
      generalize after.follow? link = is at found
      cases found with
      | none => exact .nil
      | some first =>
          refine .cons first ?_
          rw [first.prev_eq]
          exact induction _

theorem Thread.chain_upheld {before after : Thread}
    (upheld : List.Forall₂ Frame.Upheld before.frames after.frames)
    (current_eq : after.current = before.current) :
    List.Forall₂ Frame.Upheld before.chain after.chain := by
  rw [chain, chain, current_eq, ← upheld.length_eq]
  exact chainFrom_upheld upheld _ _

/-! ## Frames of its own above those from before -/

/-- The frames of a thread are those with the numbers `own`, and below them the frames that were
there before. The links lead through the former to the one that was innermost then. -/
structure Layered (base : Thread) (own : List FrameId) (thread : Thread) : Prop where
  numbered : thread.Numbered
  frames : ∃ new old, thread.frames = new ++ old ∧ new.map (·.id) = own ∧
    List.Forall₂ Frame.Upheld base.frames old ∧ Chained thread.current new base.current
  above : ∀ id ∈ own, base.nextSerial ≤ id
  next : base.nextSerial ≤ thread.nextSerial

namespace Layered

variable {base thread : Thread} {own : List FrameId}

theorem refl (numbered : base.Numbered) : Layered base [] base where
  numbered := numbered
  frames := ⟨[], base.frames, rfl, rfl, List.forall₂_same.mpr fun frame _ => .refl frame, rfl⟩
  above := nofun
  next := Nat.le_refl _

/-- Nothing is left above the frames from before. -/
theorem upheld (layered : Layered base [] thread) :
    List.Forall₂ Frame.Upheld base.frames thread.frames ∧ thread.current = base.current ∧
      List.Forall₂ Frame.Upheld base.chain thread.chain := by
  obtain ⟨new, old, frames_eq, ids, upheld, chained⟩ := layered.frames
  obtain rfl : new = [] := List.map_eq_nil_iff.mp ids
  obtain rfl : thread.frames = old := frames_eq
  exact ⟨upheld, chained, Thread.chain_upheld upheld chained⟩

theorem push (layered : Layered base own thread) (tag : OwnerTag) :
    Layered base (thread.nextSerial :: own) (thread.push tag) := by
  obtain ⟨new, old, frames_eq, ids, upheld, chained⟩ := layered.frames
  refine ⟨layered.numbered.push tag,
    ⟨_ :: new, old, congrArg _ frames_eq, congrArg _ ids, upheld, rfl, chained⟩, ?_,
    Nat.le_succ_of_le layered.next⟩
  intro id member
  rcases List.mem_cons.mp member with rfl | older
  · exact layered.next
  · exact layered.above id older

/-- The latest guard is popped with success. -/
theorem pop {id : FrameId} (layered : Layered base (id :: own) thread) (unwinding : Bool) :
    Layered base own (thread.pop id unwinding).2 := by
  obtain ⟨new, old, frames_eq, ids, upheld, chained⟩ := layered.frames
  obtain ⟨top, rest, rfl, top_id, rest_ids⟩ := List.map_eq_cons_iff.mp ids
  subst top_id
  have numbered := layered.numbered.pop top.id unwinding
  rw [layered.numbered.pop_head frames_eq chained.1] at numbered ⊢
  exact ⟨numbered, ⟨rest, old, rfl, rest_ids, upheld, chained.2⟩,
    fun other member => layered.above other (List.mem_cons_of_mem _ member), layered.next⟩

/-- What waits to be resumed is no part of the stack. -/
theorem withPending (layered : Layered base own thread) (pending : Option Payload) :
    Layered base own { thread with pending } :=
  ⟨layered.numbered.withPending pending, layered.frames, layered.above, layered.next⟩

/-- A change of a frame that leaves it upheld, if it was there before. -/
theorem modify {id : FrameId} {change : Frame → Frame} (layered : Layered base own thread)
    (keeps : Frame.Keeps change)
    (upholds : ∀ before ∈ base.frames, ∀ frame ∈ thread.frames, frame.id = id →
      before.Upheld frame → before.Upheld (change frame)) :
    Layered base own (thread.modify id change) := by
  obtain ⟨new, old, frames_eq, ids, upheld, chained⟩ := layered.frames
  refine ⟨layered.numbered.modify id keeps,
    ⟨_, _, (congrArg (List.map _) frames_eq).trans List.map_append, ?_, ?_,
      chained.map (keeps.at_id id)⟩, layered.above, layered.next⟩
  · rw [← ids, List.map_map]
    exact List.map_congr_left fun frame _ => (keeps.at_id id).id_eq frame
  · obtain ⟨length_eq, each⟩ := List.forall₂_iff_zip.mp upheld
    rw [List.forall₂_map_right_iff, List.forall₂_iff_zip]
    refine ⟨length_eq, fun {before frame} mem => ?_⟩
    obtain ⟨before_mem, frame_mem⟩ := List.of_mem_zip mem
    have on_stack : frame ∈ thread.frames := by
      rw [frames_eq]
      exact List.mem_append_right _ frame_mem
    by_cases own : frame.id = id
    · rw [if_pos own]
      exact upholds before before_mem frame on_stack own (each mem)
    · rw [if_neg own]
      exact each mem

/-- A change of a frame of its own. -/
theorem modify_own {id : FrameId} {change : Frame → Frame} (layered : Layered base own thread)
    (numbered : base.Numbered) (member : id ∈ own) (keeps : Frame.Keeps change) :
    Layered base own (thread.modify id change) := by
  refine layered.modify keeps fun before before_mem frame _ same upheld => ?_
  have below := numbered.frame_lt before_mem
  rw [← upheld.id_eq, same] at below
  exact absurd below (Nat.not_lt.mpr (layered.above id member))

theorem modify_modify_own {id : FrameId} {change change' : Frame → Frame}
    (layered : Layered base own thread) (numbered : base.Numbered) (member : id ∈ own)
    (keeps : Frame.Keeps change) (keeps' : Frame.Keeps change') :
    Layered base own ((thread.modify id change).modify id change') :=
  (layered.modify_own numbered member keeps).modify_own numbered member keeps'

/-- A frame is one of its own, or it is one from before. -/
theorem above_or_upheld (layered : Layered base own thread) {frame : Frame}
    (member : frame ∈ thread.frames) :
    base.nextSerial ≤ frame.id ∨ ∃ before ∈ base.frames, before.Upheld frame := by
  obtain ⟨new, old, frames_eq, ids, upheld, -⟩ := layered.frames
  rw [frames_eq] at member
  rcases List.mem_append.mp member with is_new | is_old
  · refine .inl (layered.above _ ?_)
    rw [← ids]
    exact List.mem_map_of_mem is_new
  · obtain ⟨index, bound, rfl⟩ := List.mem_iff_getElem.mp is_old
    have bound' : index < base.frames.length := upheld.length_eq ▸ bound
    exact .inr ⟨base.frames[index], List.getElem_mem bound', upheld.get bound' bound⟩

/-- An exit is aimed at a frame of its own, or at one from before that is armed. -/
theorem aim (layered : Layered base own thread) (numbered : base.Numbered) {kind : ExitKind}
    {target : OwnerTag} {value : UInt64} {payload : Payload} {aimed : Thread}
    (success : thread.aim kind target value = .ok (payload, aimed)) :
    Layered base own aimed := by
  obtain ⟨chosen, found, -, rfl⟩ := Thread.aim_eq_ok success
  have origin := layered.above_or_upheld (Thread.mem_of_target? found)
  have armed : chosen.armed = true := by
    have accepts := List.find?_some found
    rw [Frame.accepts, Bool.and_eq_true] at accepts
    exact accepts.1
  refine layered.modify (.aim kind value) fun before before_mem frame _ same upheld => ?_
  refine upheld.aim ?_ kind value
  rcases origin with above | ⟨other, other_mem, other_upheld⟩
  · have below := numbered.frame_lt before_mem
    rw [← upheld.id_eq, same] at below
    exact absurd below (Nat.not_lt.mpr above)
  · have same_id : before.id = other.id := by rw [← upheld.id_eq, same, other_upheld.id_eq]
    obtain rfl := numbered.frame_unique before_mem other_mem same_id
    rw [upheld.armed, ← other_upheld.armed, armed]

theorem conclude {ε : Type} {state : State ε} (layered : Layered base own state.thread)
    (numbered : base.Numbered) {id : FrameId} (member : id ∈ own) (serial : Nat)
    (payload : Payload) : Layered base own (Act.conclude id serial payload state).2.thread := by
  have after := layered.modify_modify_own numbered member .disarm .abandon
  unfold Act.conclude
  split
  · split <;> exact after
  · exact after

/-- A region of its own is executed. -/
theorem exec {ε : Type} {body : Act ε UInt64} {state : State ε} {id : FrameId}
    (inner : Layered base own
      (body { state with thread := state.thread.modify id Frame.arm }).2.thread)
    (numbered : base.Numbered) (member : id ∈ own) :
    Layered base own (Act.exec id body state).2.thread := by
  rw [Act.exec_apply]
  generalize body _ = result at inner
  obtain ⟨value | payload | cause, reached⟩ := result
  · cases waits : reached.thread.pending with
    | none =>
        simp only [waits]
        exact inner.modify_modify_own numbered member .disarm (.complete value)
    | some payload =>
        simp only [waits]
        exact conclude (inner.withPending none) numbered member _ payload
  · exact inner.conclude numbered member _ payload
  · exact inner

end Layered

/-! ## Guards that are spent in order -/

namespace History

/-- Whenever a guard was spent, it was the latest of those that were not. -/
def LatestFirst : History → Prop
  | [] => True
  | moment :: earlier =>
      (∀ id ∈ moment.event.spent?, (unspent earlier).head? = some id) ∧ LatestFirst earlier

instance LatestFirst.decide : DecidablePred LatestFirst
  | [] => isTrue trivial
  | _ :: earlier =>
      have := LatestFirst.decide earlier
      inferInstanceAs (Decidable (_ ∧ _))

theorem LatestFirst.of_suffix {earlier later : History} (suffix : earlier <:+ later)
    (ordered : later.LatestFirst) : earlier.LatestFirst := by
  obtain ⟨since, rfl⟩ := suffix
  induction since with
  | nil => exact ordered
  | cons moment since induction => exact induction ordered.2

end History

/-- The stack of a configuration: the frames of the guards that are not spent, and under them the
frames that were there when the run began, `below` being the numbers of those that may change. -/
structure Rests (base : Thread) (below : List FrameId) (config : Config) : Prop
    extends Guarded config where
  layered : Layered base (config.history.unspent ++ below) config.thread

theorem Config.mem_guards_executing (id : FrameId) (serial : Nat) (owned : List FrameId)
    (active : List Activation) (mode : Mode) (state : State Watch) :
    id ∈ Config.guards ⟨owned, ⟨id, serial⟩ :: active, mode, state⟩ :=
  List.mem_append_right _ List.mem_cons_self

namespace Rests

variable {base : Thread} {below : List FrameId} {before after : Config}

/-- The latest guard is spent. -/
theorem spend (rests : Rests base below before) {id : FrameId}
    (latest : before.history.unspent.head? = some id) (unwinding : Bool) :
    Layered base (before.history.unspent.filter (· ≠ id) ++ below)
      (before.thread.pop id unwinding).2 := by
  obtain ⟨others, unspent_eq⟩ := List.head?_eq_some_iff.mp latest
  have layered := rests.layered
  have decreasing := rests.decreasing
  rw [unspent_eq] at layered decreasing ⊢
  rw [History.filter_latest (List.pairwise_cons.mp decreasing).1]
  exact layered.pop unwinding

/-- The frame of a guard is one of those that may change. -/
theorem mem_own (rests : Rests base below before) {id : FrameId} (guard : id ∈ before.guards) :
    id ∈ before.history.unspent ++ below :=
  List.mem_append_left _ (rests.unspent id guard)

theorem step (numbered : base.Numbered) (taken : Step before after)
    (ordered : after.history.LatestFirst) (rests : Rests base below before) :
    Rests base below after := by
  refine ⟨rests.toGuarded.step taken, ?_⟩
  have layered := rests.layered
  cases taken with
  | push tag => exact layered.push tag
  | pop => exact rests.spend (ordered.1 _ rfl) false
  | drop unwinding => exact rests.spend (ordered.1 _ rfl) unwinding
  | enter => exact layered.modify_own numbered (rests.mem_own (by simp [Config.guards])) .arm
  | @complete id _ _ _ _ value thread calm thread_eq =>
      subst thread_eq
      have own := rests.mem_own (Config.mem_guards_executing id ..)
      exact layered.modify_modify_own numbered own .disarm (.complete value)
  | @land id _ _ _ _ kind thread thread_eq =>
      subst thread_eq
      have own := rests.mem_own (Config.mem_guards_executing id ..)
      exact layered.modify_modify_own numbered own .disarm .abandon
  | @leave id _ _ _ _ payload thread elsewhere thread_eq =>
      subst thread_eq
      have own := rests.mem_own (Config.mem_guards_executing id ..)
      exact layered.modify_modify_own numbered own .disarm .abandon
  | raise kind target value payload thread aimed => exact layered.aim numbered aimed
  | park | resume => exact layered.withPending _
  | move | look | abort | fail => exact layered

theorem reaches (numbered : base.Numbered) (reaches : Reaches before after)
    (rests : Rests base below before) (ordered : after.history.LatestFirst) :
    Rests base below after := by
  induction reaches with
  | refl => exact rests
  | tail _ last induction =>
      exact step numbered last ordered (induction (ordered.of_suffix last.history_suffix))

end Rests

/-! ## Tidy programs -/

/-- What happens when a program runs on a thread, with no guard to begin with. -/
def Program.historyOn (program : Program) (thread : Thread) : History :=
  (program.watch ⟨thread, {}⟩).2.world.history

/-- A program spends all guards that are pushed in its run on a thread, the latest first. The frames
of regions in it count too, since a guard must not outlive the region that it was pushed in. -/
structure Program.Tidy (program : Program) (thread : Thread) : Prop where
  ordered : (program.historyOn thread).LatestFirst
  spent : (program.historyOn thread).unspent = []

/-- A tidy program leaves a stack as it found it. -/
theorem Layered.run {base thread : Thread} {own : List FrameId} {program : Program}
    (layered : Layered base own thread) (numbered : base.Numbered) (tidy : program.Tidy thread) :
    Layered base own (program.run ⟨thread, {}⟩).2.thread := by
  obtain ⟨-, thread_eq, -⟩ := program.unchanged_watch ⟨thread, {}⟩ ⟨thread, {}⟩ ⟨rfl, rfl, rfl⟩
  obtain ⟨owned, active, mode, reaches⟩ := (program.follows_watch [] [] ⟨thread, {}⟩).exists_reaches
  have begins : Rests base own ⟨[], [], .running, ⟨thread, {}⟩⟩ :=
    ⟨⟨List.nodup_nil, nofun, .nil, nofun⟩, layered⟩
  have rests := Rests.reaches numbered reaches begins tidy.ordered
  have spent : (program.watch ⟨thread, {}⟩).2.world.history.unspent = [] := tidy.spent
  have ends := rests.layered
  rw [thread_eq]
  rwa [Config.history, spent] at ends

/-! ## Regions spend their own guards -/

/-- Between two states, all guards that were pushed were spent, the latest first. -/
structure Paired (before after : State Watch) : Prop where
  ordered : after.world.history.LatestFirst
  unspent_eq : after.world.history.unspent = before.world.history.unspent
  next_le : before.thread.nextSerial ≤ after.thread.nextSerial

/-- Unless an action aborts, it spends the guards that are pushed in it, the latest first. -/
def Pairs {α : Type} (action : Act Watch α) : Prop :=
  ∀ state : State Watch, state.world.history.LatestFirst →
    (∀ id ∈ state.world.history.unspent, id < state.thread.nextSerial) →
      (∃ cause, (action state).1 = .aborted cause) ∨ Paired state (action state).2

namespace Paired

variable {first second third : State Watch}

theorem trans (begins : Paired first second) (goesOn : Paired second third) :
    Paired first third where
  ordered := goesOn.ordered
  unspent_eq := goesOn.unspent_eq.trans begins.unspent_eq
  next_le := Nat.le_trans begins.next_le goesOn.next_le

theorem below (paired : Paired first second)
    (below : ∀ id ∈ first.world.history.unspent, id < first.thread.nextSerial) :
    ∀ id ∈ second.world.history.unspent, id < second.thread.nextSerial := by
  rw [paired.unspent_eq]
  exact fun id member => Nat.lt_of_lt_of_le (below id member) paired.next_le

/-- The history stays as it is. -/
theorem silent (ordered : first.world.history.LatestFirst)
    (history_eq : second.world.history = first.world.history)
    (next_eq : second.thread.nextSerial = first.thread.nextSerial) : Paired first second :=
  ⟨history_eq ▸ ordered, congrArg _ history_eq, Nat.le_of_eq next_eq.symm⟩

/-- An event that neither brings a frame nor spends a guard. -/
theorem note {event : Event} {before : Thread} (paired : Paired first second)
    (quiet : event.Quiet) : Paired first (Watch.note event before second) := by
  cases event with
  | pushed | popped | dropped => exact quiet.elim
  | _ => exact ⟨⟨nofun, paired.ordered⟩, paired.unspent_eq, paired.next_le⟩

/-- The latest guard is spent. -/
theorem spend {state reached : State Watch} {tag : OwnerTag} {event : Event} {before : Thread}
    (paired : Paired (Watch.note (.pushed state.thread.nextSerial) state.thread
      { state with thread := state.thread.push tag }) reached)
    (below : ∀ id ∈ state.world.history.unspent, id < state.thread.nextSerial)
    (spent : event.spent? = some state.thread.nextSerial) (unwinding : Bool) :
    Paired state (Watch.note event before
      { reached with thread := (reached.thread.pop state.thread.nextSerial unwinding).2 }) := by
  have unspent_eq : reached.world.history.unspent =
    state.thread.nextSerial :: state.world.history.unspent := paired.unspent_eq
  refine ⟨⟨?_, paired.ordered⟩, ?_, ?_⟩
  · intro id member
    rw [unspent_eq, List.head?_cons]
    exact spent ▸ member
  · exact (History.unspent_spent spent _).trans (by rw [unspent_eq, History.filter_latest below])
  · have kept := Thread.pop_nextSerial state.thread.nextSerial unwinding reached.thread
    exact Nat.le_trans (Nat.le_succ _) (Nat.le_trans paired.next_le (Nat.le_of_eq kept.symm))

end Paired

namespace Pairs

variable {α β : Type} {action : Act Watch α}

protected theorem pure (value : α) : Pairs (pure value) :=
  fun _ ordered _ => .inr (.silent ordered rfl rfl)

protected theorem unwind (payload : Payload) : Pairs (Act.unwind payload : Act Watch α) :=
  fun _ ordered _ => .inr (.silent ordered rfl rfl)

protected theorem bind {next : α → Act Watch β} (begins : Pairs action)
    (goesOn : ∀ value, Pairs (next value)) : Pairs (action >>= next) := by
  intro state ordered below
  have first := begins state ordered below
  rw [Act.bind_apply]
  generalize action state = result at first
  obtain ⟨value | payload | cause, reached⟩ := result
  · obtain ⟨_, wrong⟩ | paired := first
    · cases wrong
    · exact (goesOn value reached paired.ordered (paired.below below)).imp id paired.trans
  · exact first.imp nofun id
  · exact .inl ⟨cause, rfl⟩

protected theorem catching (pairs : Pairs action) : Pairs (Act.catching action) := by
  intro state ordered below
  have first := pairs state ordered below
  rw [Act.catching_apply]
  generalize action state = result at first
  obtain ⟨value | payload | cause, reached⟩ := result
  · exact first.imp nofun id
  · exact first.imp nofun id
  · exact .inl ⟨cause, rfl⟩

theorem record (event : Event) (quiet : event.Quiet) (before : Thread) :
    Pairs (Watch.record event before) :=
  fun _ ordered _ => .inr ((Paired.silent ordered rfl rfl).note quiet)

theorem onThread {change : Thread → Thread}
    (next_eq : ∀ thread, (change thread).nextSerial = thread.nextSerial) :
    Pairs (Act.onThread change) :=
  fun state ordered _ => .inr (.silent ordered rfl (next_eq state.thread))

theorem thread : Pairs Act.thread := fun _ ordered _ => .inr (.silent ordered rfl rfl)

theorem look : Pairs Watch.look :=
  .bind thread fun before => .bind (record .looked trivial before) fun _ => .pure before

theorem resumePending : Pairs Act.resumePending := by
  refine .bind thread fun before => ?_
  cases before.pending with
  | none => exact .pure ()
  | some payload => exact .bind (onThread fun _ => rfl) fun _ => .unwind payload

theorem aimExit (kind : ExitKind) (target : OwnerTag) (value : UInt64) :
    Pairs (Act.aimExit kind target value) := by
  intro state ordered _
  rw [Act.aimExit_apply]
  cases aimed : state.thread.aim kind target value with
  | error error => exact .inl ⟨_, rfl⟩
  | ok result =>
      obtain ⟨payload, thread⟩ := result
      obtain ⟨frame, -, -, rfl⟩ := Thread.aim_eq_ok aimed
      exact .inr (.silent ordered rfl rfl)

theorem exec {body : Act Watch UInt64} (id : FrameId) (pairs : Pairs body) :
    Pairs (Act.exec id body) := by
  refine .bind thread fun before => .bind (onThread fun _ => rfl) fun _ => ?_
  refine .bind (.catching (.bind pairs fun value =>
    .bind resumePending fun _ => .pure value)) fun ended => ?_
  refine .bind (onThread fun _ => rfl) fun _ => ?_
  cases ended with
  | ok value => exact .bind (onThread fun _ => rfl) fun _ => .pure _
  | error payload =>
      refine .bind (onThread fun _ => rfl) fun _ => ?_
      cases payload with
      | foreign message => exact .unwind _
      | exit target kind =>
          by_cases own : target = before.serialOf id
          · simp only [own, if_true]
            exact .bind (.bind thread fun _ => .pure _) fun _ => .pure _
          · simp only [own, if_false]
            exact .unwind _

theorem watched_exec {body : Act Watch UInt64} (id : FrameId) (pairs : Pairs body) :
    Pairs (Watch.exec id body) := by
  refine .bind thread fun before => ?_
  refine .bind (.catching (exec id (.bind (record (.entered id) trivial _) fun _ => pairs)))
    fun ended => ?_
  refine .bind thread fun after => ?_
  cases ended with
  | ok outcome => exact .bind (record (.returned id outcome) trivial _) fun _ => .pure outcome
  | error payload => exact .bind (record (.left id) trivial _) fun _ => .unwind payload

/-- A region spends its guard when all guards from within it are spent. -/
theorem protect {body : Act Watch UInt64} (tag : OwnerTag) (pairs : Pairs body) :
    Pairs (Watch.protect tag body) := by
  intro state ordered below
  let pushed : State Watch := Watch.note (.pushed state.thread.nextSerial) state.thread
    { state with thread := state.thread.push tag }
  have below_pushed : ∀ id ∈ pushed.world.history.unspent, id < pushed.thread.nextSerial := by
    intro id member
    rcases List.mem_cons.mp member with rfl | older
    · exact Nat.lt_succ_self _
    · exact Nat.lt_succ_of_lt (below id older)
  have executed := watched_exec state.thread.nextSerial pairs pushed ⟨nofun, ordered⟩ below_pushed
  have push_eq : Watch.push tag state = (.returned state.thread.nextSerial, pushed) := rfl
  simp only [Watch.protect, Act.bind_apply, push_eq, Act.catching_apply]
  generalize Watch.exec state.thread.nextSerial body pushed = result at executed
  obtain ⟨outcome | payload | cause, reached⟩ := result
  · rcases executed with ⟨_, wrong⟩ | paired
    · cases wrong
    · exact .inr (paired.spend below rfl false)
  · rcases executed with ⟨_, wrong⟩ | paired
    · cases wrong
    · exact .inr (paired.spend below rfl true)
  · exact .inl ⟨cause, rfl⟩

theorem raise (kind : ExitKind) (target : OwnerTag) (value : UInt64) :
    Pairs (Watch.raise kind target value) :=
  .bind thread fun before => .bind (record (.raised kind target value) trivial before) fun _ =>
    aimExit kind target value

theorem park (payload : Payload) : Pairs (Watch.park payload) :=
  .bind thread fun before => .bind (onThread fun _ => rfl) fun _ => record .parked trivial before

theorem native {body : Act Watch UInt64} (pairs : Pairs body) :
    Pairs (Watch.native body) := by
  refine .bind (.catching pairs) fun ended => ?_
  cases ended with
  | ok value => exact .pure value
  | error payload => exact .bind (park payload) fun _ => .pure 0

theorem frameProtect {body : Act Watch UInt64} (tag : OwnerTag) (pairs : Pairs body) :
    Pairs (Watch.frameProtect tag body) := by
  refine .bind (.catching (protect tag pairs)) fun ended => ?_
  cases ended with
  | ok outcome => exact .pure _
  | error payload => exact .bind (park payload) fun _ => .pure _

end Pairs

namespace Program

/-- A program that has no guards of its own: all its frames are those of regions. -/
def Guardless : Program → Prop
  | .done _ | .signal _ _ _ | .fail _ => True
  | .push _ _ | .exec _ _ _ | .pop _ _ | .drop _ _ | .owning _ _ _ => False
  | .look next => ∀ thread, (next thread).Guardless
  | .protect _ body next => body.Guardless ∧ ∀ outcome, (next outcome).Guardless
  | .frameProtect _ body next => body.Guardless ∧ ∀ value code, (next value code).Guardless
  | .park _ _ _ next | .resume next => next.Guardless
  | .native body next => body.Guardless ∧ ∀ value, (next value).Guardless

theorem Guardless.pairs {program : Program} (guardless : program.Guardless) :
    Pairs program.watch := by
  induction program with
  | done value => exact .pure value
  | push | exec | pop | drop | owning => exact guardless.elim
  | look next induction =>
      exact .bind .look fun thread => induction thread (guardless thread)
  | protect tag body next body_induction next_induction =>
      exact .bind (.protect tag (body_induction guardless.1)) fun outcome =>
        next_induction outcome (guardless.2 outcome)
  | frameProtect tag body next body_induction next_induction =>
      exact .bind (.frameProtect tag (body_induction guardless.1)) fun result =>
        next_induction result.1 result.2 (guardless.2 result.1 result.2)
  | signal kind target value =>
      exact .bind (.raise kind target value) fun payload => .unwind payload
  | park kind target value next induction =>
      refine .bind (.raise kind target value) fun payload => ?_
      exact .bind (.park payload) fun _ => induction guardless
  | resume next induction => exact .bind .resumePending fun _ => induction guardless
  | native body next body_induction next_induction =>
      exact .bind (.native (body_induction guardless.1)) fun value =>
        next_induction value (guardless.2 value)
  | fail message =>
      exact .bind .thread fun before => .bind (.record (.failed message) trivial before) fun _ =>
        .unwind (.foreign message)

/-- Regions spend their own guards in order, so a program without others is tidy on every thread. -/
theorem Guardless.tidy {program : Program} (guardless : program.Guardless) (thread : Thread)
    (alive : ∀ cause, (program.watch ⟨thread, {}⟩).1 ≠ .aborted cause) : program.Tidy thread := by
  rcases guardless.pairs ⟨thread, {}⟩ trivial nofun with ⟨cause, aborted⟩ | paired
  · exact absurd aborted (alive cause)
  · exact ⟨paired.ordered, paired.unspent_eq⟩

end Program

/-! ## Protected regions -/

/-- The thread on which the body of a protected region begins. -/
def Thread.entered (tag : OwnerTag) (thread : Thread) : Thread :=
  (thread.push tag).modify thread.nextSerial Frame.arm

/-- The region has a frame of its own above those from before until it is popped. -/
theorem Layered.protect {thread : Thread} (numbered : thread.Numbered) (tag : OwnerTag)
    {body : Program} (tidy : body.Tidy (thread.entered tag))
    (alive : ∀ cause, (Act.protect tag body.run ⟨thread, {}⟩).1 ≠ .aborted cause) :
    Layered thread [] (Act.protect tag body.run ⟨thread, {}⟩).2.thread := by
  have own : thread.nextSerial ∈ [thread.nextSerial] := List.mem_singleton_self _
  have entered : Layered thread [thread.nextSerial] (thread.entered tag) :=
    ((Layered.refl numbered).push tag).modify_own numbered own .arm
  have executed : Layered thread [thread.nextSerial]
      (Act.exec thread.nextSerial body.run ⟨thread.push tag, {}⟩).2.thread :=
    .exec (entered.run numbered tidy) numbered own
  rw [Act.protect_apply] at alive ⊢
  generalize Act.exec thread.nextSerial body.run ⟨thread.push tag, {}⟩ = result at executed alive ⊢
  obtain ⟨outcome | payload | cause, reached⟩ := result
  · exact executed.pop false
  · exact executed.pop true
  · exact absurd rfl (alive cause)

/-- A protected region whose body is tidy leaves the stack as it found it, whichever way the region
ends short of an abort: the same frames in the same order and, but for exits aimed at those that
were armed, in the same state. So are frames that no link leads to. -/
theorem protect_upholds_frames {thread : Thread} (numbered : thread.Numbered) (tag : OwnerTag)
    {body : Program} (tidy : body.Tidy (thread.entered tag))
    (alive : ∀ cause, (Act.protect tag body.run ⟨thread, {}⟩).1 ≠ .aborted cause) :
    let after := (Act.protect tag body.run ⟨thread, {}⟩).2.thread
    List.Forall₂ Frame.Upheld thread.frames after.frames ∧ after.current = thread.current ∧
      List.Forall₂ Frame.Upheld thread.chain after.chain :=
  (Layered.protect numbered tag tidy alive).upheld

/-- A frame that is being executed, and above it one that is not. -/
def Thread.crossed : Thread where
  current := .frame 2
  frames := [{ id := 2, token := ⟨2, 2⟩, tag := ⟨20⟩, prev := .frame 1 },
    { id := 1, token := ⟨1, 1⟩, tag := ⟨10⟩, armedWord := 1 }]
  nextSerial := 3

/-- A program that leaves a guard of its own and a region of its own by an exit. -/
def Program.crossing : Program :=
  .push ⟨20⟩ fun guard =>
    .owning guard (.protect ⟨30⟩ (.signal .throw ⟨10⟩ 7) fun _ => .done 0) fun _ => .done 0

/-- The exit crosses the region, and what it leaves in the frame that it goes to is all that has
changed. -/
theorem protect_upholds_frames_crossing :
    let result := Act.protect ⟨40⟩ Program.crossing.run ⟨.crossed, {}⟩
    result.1 = .unwinding (.exit 1 .throw) ∧
      result.2.thread.frames.map (·.result) = [HostValue.nil.bits, 7] ∧
      List.Forall₂ Frame.Upheld Thread.crossed.frames result.2.thread.frames ∧
      result.2.thread.current = .frame 2 ∧
      List.Forall₂ Frame.Upheld Thread.crossed.chain result.2.thread.chain := by
  have ending : (Act.protect ⟨40⟩ Program.crossing.run ⟨.crossed, {}⟩).1 =
      .unwinding (.exit 1 .throw) := by
    decide +kernel
  refine ⟨ending, by decide +kernel, protect_upholds_frames ?_ _ ?_ ?_⟩
  · exact ⟨by decide, by decide, by decide, by decide⟩
  · exact ⟨by decide +kernel, by decide +kernel⟩
  · rw [ending]
    exact nofun

/-! ## Regions made of regions -/

/-- A region does not end if its body aborts. -/
theorem Act.alive_of_protect {ε : Type} {body : Act ε UInt64} {tag : OwnerTag} {state : State ε}
    (alive : ∀ cause, (Act.protect tag body state).1 ≠ .aborted cause) (cause : Abort) :
    (body { state with thread := state.thread.entered tag }).1 ≠ .aborted cause := by
  intro aborted
  apply alive cause
  have exec_eq : (Act.exec state.thread.nextSerial body
      { state with thread := state.thread.push tag }).1 = .aborted cause := by
    rw [Act.exec_apply]
    change (body { state with thread := (state.thread.push tag).modify _ Frame.arm }).1 = _
      at aborted
    generalize body _ = result at aborted
    obtain ⟨ending, reached⟩ := result
    subst aborted
    rfl
  rw [Act.protect_apply]
  generalize Act.exec _ body _ = result at exec_eq
  obtain ⟨ending, reached⟩ := result
  subst exec_eq
  rfl

/-- A region whose body is made of regions leaves the stack as it found it, on every thread that a
run comes to. -/
theorem Thread.Reachable.protect_upholds {thread : Thread} (reachable : thread.Reachable)
    (tag : OwnerTag) {body : Program} (guardless : body.Guardless)
    (alive : ∀ cause, (Act.protect tag body.run ⟨thread, {}⟩).1 ≠ .aborted cause) :
    let after := (Act.protect tag body.run ⟨thread, {}⟩).2.thread
    List.Forall₂ Frame.Upheld thread.frames after.frames ∧ after.current = thread.current ∧
      List.Forall₂ Frame.Upheld thread.chain after.chain := by
  have tidy : body.Tidy (thread.entered tag) := by
    refine guardless.tidy _ fun cause aborted => Act.alive_of_protect alive cause ?_
    obtain ⟨ending_eq, -⟩ :=
      body.unchanged_watch ⟨thread.entered tag, {}⟩ ⟨thread.entered tag, {}⟩ ⟨rfl, rfl, rfl⟩
    exact ending_eq.trans aborted
  exact (Layered.protect reachable.linked.toNumbered tag tidy alive).upheld

end HostBridge
