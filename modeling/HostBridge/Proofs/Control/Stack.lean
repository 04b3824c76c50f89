import HostBridge.Proofs.Control.Guards
import HostBridge.Proofs.Control.Numbering

/-!
# The stack of frames

A frame is linked to the frame that was innermost when it was pushed, and the link never changes.
Guards are popped and dropped in any order, at any time, and by unwinds too. Still, following the
links from the innermost frame meets exactly the frames that were pushed and not yet popped with
success: a guard that is popped out of order is spent, and its frame stays where it is.
-/

namespace HostBridge

/-! ## What a history says about frames -/

namespace History

/-- The frames that were pushed and not popped with success since, newest first. -/
def standing : History → List FrameId
  | [] => []
  | ⟨.pushed id, _, _⟩ :: earlier => id :: standing earlier
  | ⟨.popped id (.ok _), _, _⟩ :: earlier => (standing earlier).filter (· ≠ id)
  | ⟨.dropped id (.ok _), _, _⟩ :: earlier => (standing earlier).filter (· ≠ id)
  | _ :: earlier => standing earlier

/-- How many frames were pushed. -/
def pushes : History → Nat
  | [] => 0
  | ⟨.pushed _, _, _⟩ :: earlier => pushes earlier + 1
  | _ :: earlier => pushes earlier

end History

/-- The representation invariant of a stack, as the history tells it. -/
structure StackOf (history : History) (thread : Thread) : Prop where
  /-- Following the links from the innermost frame visits all frames, each once, and ends. -/
  linked : thread.Linked
  /-- The frames are those that were pushed and not popped with success, newest first. -/
  ids : thread.frames.map (·.id) = history.standing
  /-- Serials are given out in order, from one on. So they all fit in 64 bits, and so does the next
  one, as long as fewer than `2 ^ 64 - 1` frames were pushed. -/
  next : thread.nextSerial = history.pushes + 1
  /-- A frame keeps the serial that it was pushed with. -/
  serials : thread.frames.map (·.token.serial) = history.standing
  /-- Serials decrease along the links, so that each frame is met once. -/
  decreasing : (thread.frames.map (·.token.serial)).Pairwise (· > ·)
  /-- The next serial is above them all. -/
  below : ∀ frame ∈ thread.frames, frame.token.serial < thread.nextSerial
  /-- Depths count from one at the bottom, as words. -/
  depths : thread.frames.reverse.map (·.token.depth) =
    (List.range thread.frames.length).map fun below => (below + 1) % UInt32.size
  /-- The frame of every guard that is not spent is on the stack. -/
  guards : ∀ id ∈ history.unspent, id ∈ thread.frames.map (·.id)

namespace StackOf

variable {history : History} {thread : Thread}

theorem nodup (stack : StackOf history thread) : history.standing.Nodup := by
  rw [← stack.serials]
  exact stack.decreasing.imp fun above => Nat.ne_of_gt above

theorem serial_eq_id (stack : StackOf history thread) {frame : Frame}
    (member : frame ∈ thread.frames) : frame.token.serial = frame.id := by
  have same : thread.frames.map (·.token.serial) = thread.frames.map (·.id) := by
    rw [stack.serials, stack.ids]
  exact List.map_inj_left.mp same frame member

/-- The depth that a thread reports is the number of its frames, as a word. -/
theorem depth_eq (stack : StackOf history thread) :
    thread.depth = thread.tags.length % UInt32.size := by
  have depths := stack.depths
  rw [stack.linked.depth_eq, stack.linked.tags_eq, List.length_map]
  cases frames_eq : thread.frames with
  | nil => rfl
  | cons frame frames =>
      rw [frames_eq] at depths
      have last := congrArg List.getLast? depths
      simpa [List.range_succ] using last

/-- With fewer frames than a word can count, the frame at a place from the bottom has that place
for its depth. -/
theorem depths_exact (stack : StackOf history thread)
    (few : thread.frames.length < UInt32.size) :
    thread.frames.reverse.map (·.token.depth) = List.range' 1 thread.frames.length := by
  rw [stack.depths, List.range'_eq_map_range]
  refine List.map_congr_left fun below member => ?_
  have small : below < thread.frames.length := List.mem_range.mp member
  rw [Nat.mod_eq_of_lt (by omega)]
  omega

/-- The serials of the first frames fit in 64 bits. -/
theorem serial_lt (stack : StackOf history thread) (few : history.pushes < UInt64.size)
    {frame : Frame} (member : frame ∈ thread.frames) : frame.token.serial < UInt64.size := by
  have below := stack.below frame member
  rw [stack.next] at below
  omega

end StackOf

/-! ## Changes that leave the stack alone -/

/-- Two threads with the same frames on their stacks, whatever state those are in. -/
structure SameStack (before after : Thread) : Prop where
  ids : after.frames.map (·.id) = before.frames.map (·.id)
  tokens : after.frames.map (·.token) = before.frames.map (·.token)
  linked : before.Linked → after.Linked
  nextSerial : after.nextSerial = before.nextSerial

namespace SameStack

variable {first second third : Thread}

theorem refl (thread : Thread) : SameStack thread thread := ⟨rfl, rfl, id, rfl⟩

theorem trans (begins : SameStack first second) (goesOn : SameStack second third) :
    SameStack first third where
  ids := goesOn.ids.trans begins.ids
  tokens := goesOn.tokens.trans begins.tokens
  linked := goesOn.linked ∘ begins.linked
  nextSerial := goesOn.nextSerial.trans begins.nextSerial

theorem modify (id : FrameId) {change : Frame → Frame} (keeps : Frame.Keeps change)
    (thread : Thread) : SameStack thread (thread.modify id change) where
  ids := Thread.ids_modify keeps id thread
  tokens := by
    rw [Thread.modify, Thread.mapFrames, List.map_map]
    exact List.map_congr_left fun frame _ => (keeps.at_id id).token_eq frame
  linked linked := linked.modify id keeps
  nextSerial := rfl

theorem modify_modify (id : FrameId) {change change' : Frame → Frame}
    (keeps : Frame.Keeps change) (keeps' : Frame.Keeps change') (thread : Thread) :
    SameStack thread ((thread.modify id change).modify id change') :=
  (modify id keeps thread).trans (modify id keeps' _)

theorem park (payload : Payload) (thread : Thread) : SameStack thread (thread.park payload) :=
  ⟨rfl, rfl, fun linked => linked.withPending _, rfl⟩

theorem clear (thread : Thread) : SameStack thread thread.clear :=
  ⟨rfl, rfl, fun linked => linked.withPending _, rfl⟩

theorem aim {kind : ExitKind} {target : OwnerTag} {value : UInt64} {payload : Payload}
    {thread aimed : Thread} (success : thread.aim kind target value = .ok (payload, aimed)) :
    SameStack thread aimed := by
  obtain ⟨frame, -, -, rfl⟩ := Thread.aim_eq_ok success
  exact modify frame.id (.aim kind value) thread

theorem length_eq (same : SameStack first second) :
    second.frames.length = first.frames.length := by
  simpa using congrArg List.length same.ids

theorem serials (same : SameStack first second) :
    second.frames.map (·.token.serial) = first.frames.map (·.token.serial) := by
  simpa [Function.comp_def] using congrArg (List.map Token.serial) same.tokens

theorem depths (same : SameStack first second) :
    second.frames.reverse.map (·.token.depth) = first.frames.reverse.map (·.token.depth) := by
  simpa [Function.comp_def] using
    congrArg (List.map Token.depth) (congrArg List.reverse same.tokens)

end SameStack

theorem StackOf.of_sameStack {history : History} {before after : Thread}
    (stack : StackOf history before) (same : SameStack before after) : StackOf history after where
  linked := same.linked stack.linked
  ids := by rw [same.ids, stack.ids]
  next := by rw [same.nextSerial, stack.next]
  serials := by rw [same.serials, stack.serials]
  decreasing := by
    rw [same.serials]
    exact stack.decreasing
  below := by
    intro frame member
    have serial : frame.token.serial ∈ before.frames.map (·.token.serial) := by
      rw [← same.serials]
      exact List.mem_map_of_mem member
    obtain ⟨old, old_member, serial_eq⟩ := List.mem_map.mp serial
    rw [← serial_eq, same.nextSerial]
    exact stack.below old old_member
  depths := by rw [same.depths, same.length_eq, stack.depths]
  guards := by
    rw [same.ids]
    exact stack.guards

theorem StackOf.quiet {earlier : History} {thread : Thread} (stack : StackOf earlier thread)
    {moment : Moment} (quiet : moment.event.Quiet) : StackOf (moment :: earlier) thread := by
  obtain ⟨event, before, after⟩ := moment
  -- a quiet moment is skipped by everything that the invariant reads off a history
  cases event <;>
    first
    | exact quiet.elim
    | exact ⟨stack.linked, stack.ids, stack.next, stack.serials, stack.decreasing,
        stack.below, stack.depths, stack.guards⟩

/-! ## Pushing -/

theorem StackOf.push {earlier : History} {thread : Thread} (stack : StackOf earlier thread)
    (tag : OwnerTag) (after : Thread) :
    StackOf (⟨.pushed thread.nextSerial, thread, after⟩ :: earlier) (thread.push tag) where
  linked := stack.linked.push tag
  ids := congrArg (thread.nextSerial :: ·) stack.ids
  next := congrArg (· + 1) stack.next
  serials := congrArg (thread.nextSerial :: ·) stack.serials
  decreasing := by
    refine List.pairwise_cons.mpr ⟨fun serial member => ?_, stack.decreasing⟩
    obtain ⟨frame, on_stack, rfl⟩ := List.mem_map.mp member
    exact stack.below frame on_stack
  below := by
    intro frame member
    rcases List.mem_cons.mp member with rfl | older
    · exact Nat.lt_succ_self _
    · exact Nat.lt_succ_of_lt (stack.below frame older)
  depths := by
    have depth : thread.nextToken.depth = (thread.frames.length + 1) % UInt32.size := by
      rw [Thread.nextToken, stack.depth_eq, stack.linked.tags_eq, List.length_map,
        Nat.mod_add_mod]
    simp [Thread.push, stack.depths, depth, List.range_succ]
  guards := by
    intro id member
    rcases List.mem_cons.mp member with rfl | older
    · exact List.mem_cons_self
    · exact List.mem_cons_of_mem _ (stack.guards id older)

/-! ## Popping and dropping -/

/-- What popping or dropping a guard comes to: its frame is on the stack; if it is the innermost
one, it is removed and the frame that it is linked to is innermost, and otherwise the thread stays
as it is and the error names both serials. -/
def PopLaw (id : FrameId) (result : Except BridgeError Phase) (before after : Thread) : Prop :=
  ∃ frame ∈ before.frames, frame.id = id ∧ ∃ top ∈ before.top?,
    if top.id = id then
      (∃ phase, result = .ok phase) ∧
        after = { before with current := top.prev, frames := before.frames.tail }
    else
      result = .error (.frameOrder frame.token.serial top.token.serial) ∧ after = before

theorem StackOf.popLaw {history : History} {thread : Thread} (stack : StackOf history thread)
    {id : FrameId} (guard : id ∈ history.unspent) (unwinding : Bool) :
    PopLaw id (thread.pop id unwinding).1 thread (thread.pop id unwinding).2 := by
  obtain ⟨frame, member, rfl⟩ := List.mem_map.mp (stack.guards id guard)
  refine ⟨frame, member, rfl, ?_⟩
  cases frames_eq : thread.frames with
  | nil => simp [frames_eq] at member
  | cons top rest =>
      have found : thread.top? = some top := by
        rw [stack.linked.top?_eq, frames_eq, List.head?_cons]
      refine ⟨top, found, ?_⟩
      by_cases own : top.id = frame.id
      · rw [if_pos own, ← own, stack.linked.pop_head frames_eq (stack.linked.current_eq frames_eq)]
        exact ⟨⟨_, rfl⟩, rfl⟩
      · rw [if_neg own, Thread.pop_other found own, stack.linked.serialOf_eq member]
        exact ⟨rfl, rfl⟩

/-- Removing the innermost frame, with the history that tells so. -/
theorem StackOf.tail {earlier later : History} {thread : Thread} (stack : StackOf earlier thread)
    {top : Frame} {rest : List Frame} (frames_eq : thread.frames = top :: rest)
    (standing_eq : later.standing = earlier.standing.filter (· ≠ top.id))
    (unspent_eq : later.unspent = earlier.unspent.filter (· ≠ top.id))
    (pushes_eq : later.pushes = earlier.pushes) :
    StackOf later { thread with current := top.prev, frames := rest } := by
  have ids := stack.ids
  have serials := stack.serials
  have decreasing := stack.decreasing
  have depths := stack.depths
  rw [frames_eq] at ids serials decreasing depths
  have distinct := stack.nodup
  rw [← ids, List.map_cons, List.nodup_cons] at distinct
  have rest_eq : later.standing = rest.map (·.id) := by
    rw [standing_eq, ← ids, List.map_cons, List.filter_cons_of_neg (by simp)]
    refine List.filter_eq_self.mpr fun id member => ?_
    simpa using ne_of_mem_of_not_mem member distinct.1
  refine
    { linked := stack.linked.tail frames_eq, ids := rest_eq.symm
      next := stack.next.trans (congrArg (· + 1) pushes_eq.symm), serials := ?_
      decreasing := (List.pairwise_cons.mp decreasing).2, below := ?_, depths := ?_, guards := ?_ }
  · have same : top.token.serial :: rest.map (·.token.serial) = top.id :: rest.map (·.id) :=
      serials.trans ids.symm
    rw [rest_eq]
    exact (List.cons.inj same).2
  · intro frame member
    refine stack.below frame ?_
    rw [frames_eq]
    exact List.mem_cons_of_mem _ member
  · simp only [List.reverse_cons, List.map_append, List.length_cons, List.range_succ] at depths
    exact List.append_inj_left' depths rfl
  · intro id member
    rw [unspent_eq, List.mem_filter] at member
    have on_stack := stack.guards id member.1
    rw [frames_eq, List.map_cons, List.mem_cons] at on_stack
    exact on_stack.resolve_left (by simpa using member.2)

theorem StackOf.pop {earlier : History} {thread : Thread} (stack : StackOf earlier thread)
    {id : FrameId} (guard : id ∈ earlier.unspent) (unwinding : Bool) {moment : Moment}
    (spent : moment.event = .popped id (thread.pop id unwinding).1 ∨
      moment.event = .dropped id (thread.pop id unwinding).1) :
    StackOf (moment :: earlier) (thread.pop id unwinding).2 := by
  obtain ⟨event, before, after⟩ := moment
  obtain ⟨frame, member, -, top, top_eq, law⟩ := stack.popLaw guard unwinding
  by_cases own : top.id = id
  · rw [if_pos own] at law
    obtain ⟨⟨phase, result_eq⟩, thread_eq⟩ := law
    obtain ⟨rest, frames_eq⟩ : ∃ rest, thread.frames = top :: rest :=
      List.head?_eq_some_iff.mp (stack.linked.top?_eq ▸ top_eq)
    rw [result_eq] at spent
    rw [thread_eq, frames_eq]
    subst own
    rcases spent with rfl | rfl <;> exact stack.tail frames_eq rfl rfl rfl
  · rw [if_neg own] at law
    obtain ⟨result_eq, thread_eq⟩ := law
    rw [result_eq] at spent
    rw [thread_eq]
    -- the guard is spent, and its frame stays
    have guards : ∀ other ∈ earlier.unspent.filter (· ≠ id), other ∈ thread.frames.map (·.id) :=
      fun other kept => stack.guards other (List.mem_filter.mp kept).1
    rcases spent with rfl | rfl <;>
      exact ⟨stack.linked, stack.ids, stack.next, stack.serials, stack.decreasing,
        stack.below, stack.depths, guards⟩

/-! ## Every step keeps the stack -/

/-- The guard that an event is about. -/
def Event.guard? : Event → Option FrameId
  | .entered id | .returned id _ | .left id | .popped id _ | .dropped id _ => some id
  | _ => none

/-- What the invariant says about a moment and the history before it. -/
structure Moment.Kept (moment : Moment) (earlier : History) : Prop where
  /-- The invariant holds before. -/
  before : StackOf earlier moment.before
  /-- The invariant holds after. -/
  after : StackOf (moment :: earlier) moment.after
  /-- A guard is only used while its frame is on the stack. -/
  used : ∀ id ∈ moment.event.guard?, id ∈ moment.before.frames.map (·.id)
  /-- Popping and dropping obey their law. -/
  law : ∀ id result, moment.event = .popped id result ∨ moment.event = .dropped id result →
    PopLaw id result moment.before moment.after

/-- What the invariant says about all moments of a history. -/
def History.Kept : History → Prop
  | [] => True
  | moment :: earlier => moment.Kept earlier ∧ Kept earlier

theorem History.Kept.split {later : History} {moment : Moment} {earlier : History}
    (kept : History.Kept (later ++ moment :: earlier)) : moment.Kept earlier := by
  induction later with
  | nil => exact kept.1
  | cons _ _ induction => exact induction kept.2

/-- The invariant of all configurations. -/
structure Sound (config : Config) : Prop extends Guarded config where
  /-- The stack is as the history tells. -/
  stack : StackOf config.history config.thread
  /-- It has always been so. -/
  kept : config.history.Kept

namespace Sound

theorem initial : Sound .initial where
  stack := ⟨.fresh, rfl, rfl, rfl, .nil, nofun, rfl, nofun⟩
  apart := .nil
  unspent := nofun
  decreasing := .nil
  next := nofun
  kept := trivial

variable {before after : Config}

theorem mem_frames (sound : Sound before) {id : FrameId} (guard : id ∈ before.guards) :
    id ∈ before.thread.frames.map (·.id) :=
  sound.stack.guards id (sound.unspent id guard)

/-- A step that leaves no moment behind. -/
theorem silent (sound : Sound before) (guarded : Guarded after)
    (history_eq : after.history = before.history) (same : SameStack before.thread after.thread) :
    Sound after where
  toGuarded := guarded
  stack := by
    rw [history_eq]
    exact sound.stack.of_sameStack same
  kept := by
    rw [history_eq]
    exact sound.kept

/-- A step that leaves a moment behind and neither brings a frame nor spends a guard. -/
theorem quiet (sound : Sound before) (guarded : Guarded after) {moment : Moment}
    (history_eq : after.history = moment :: before.history) (quiet : moment.event.Quiet)
    (same : SameStack before.thread after.thread)
    (same_before : SameStack before.thread moment.before)
    (same_after : SameStack before.thread moment.after)
    (used : ∀ id ∈ moment.event.guard?, id ∈ before.guards) : Sound after where
  toGuarded := guarded
  stack := by
    rw [history_eq]
    exact (sound.stack.of_sameStack same).quiet quiet
  kept := by
    rw [history_eq]
    refine ⟨⟨sound.stack.of_sameStack same_before,
      (sound.stack.of_sameStack same_after).quiet quiet, fun id member => ?_, ?_⟩, sound.kept⟩
    · rw [same_before.ids]
      exact sound.mem_frames (used id member)
    · rintro id result (event_eq | event_eq) <;>
      · rw [event_eq] at quiet
        exact quiet.elim

/-- A step that pops or drops a guard. -/
theorem spend (sound : Sound before) (guarded : Guarded after) {id : FrameId} {moment : Moment}
    (unwinding : Bool) (history_eq : after.history = moment :: before.history)
    (spent : moment.event = .popped id (before.thread.pop id unwinding).1 ∨
      moment.event = .dropped id (before.thread.pop id unwinding).1)
    (before_eq : moment.before = before.thread)
    (after_eq : moment.after = (before.thread.pop id unwinding).2)
    (thread_eq : after.thread = (before.thread.pop id unwinding).2)
    (member : id ∈ before.guards) : Sound after := by
  have guard := sound.unspent id member
  have stack := sound.stack.pop guard unwinding spent
  have law := sound.stack.popLaw guard unwinding
  refine ⟨guarded, ?_, ?_⟩
  · rw [history_eq, thread_eq]
    exact stack
  · rw [history_eq]
    refine ⟨⟨?_, ?_, ?_, ?_⟩, sound.kept⟩
    · rw [before_eq]
      exact sound.stack
    · rw [after_eq]
      exact stack
    · rw [before_eq]
      intro other about
      have same : other = id := by
        rcases spent with event_eq | event_eq <;>
          simpa [event_eq, Event.guard?, eq_comm] using about
      rw [same]
      exact sound.stack.guards id guard
    · rw [before_eq, after_eq]
      rintro other result event_eq
      rcases spent with spent | spent <;> rw [spent] at event_eq <;>
        rcases event_eq with same | same <;> cases same <;> exact law

/-- A step that pushes a frame. -/
theorem push {owned : List FrameId} {active : List Activation} {state : State Watch}
    (sound : Sound ⟨owned, active, .running, state⟩) (tag : OwnerTag) :
    Sound ⟨state.thread.nextSerial :: owned, active, .running,
      Watch.note (.pushed state.thread.nextSerial) state.thread
        { state with thread := state.thread.push tag }⟩ := by
  have stack := sound.stack.push tag (state.thread.push tag)
  refine ⟨sound.toGuarded.push tag, stack, ⟨⟨sound.stack, stack, nofun, ?_⟩, sound.kept⟩⟩
  rintro id result (event_eq | event_eq) <;> cases event_eq

theorem step (taken : Step before after) (sound : Sound before) : Sound after := by
  have guarded := sound.toGuarded.step taken
  cases taken with
  | move guards issued moved => exact sound.silent guarded rfl (.refl _)
  | look => exact sound.quiet guarded rfl trivial (.refl _) (.refl _) (.refl _) nofun
  | push tag => exact sound.push tag
  | pop =>
      exact sound.spend guarded false rfl (.inl rfl) rfl rfl rfl (by simp [Config.guards])
  | drop unwinding alive =>
      exact sound.spend guarded unwinding rfl (.inr rfl) rfl rfl rfl (by simp [Config.guards])
  | @enter id owned active state =>
      have armed := SameStack.modify id .arm state.thread
      refine sound.quiet guarded rfl trivial armed (.refl _) armed ?_
      simp [Event.guard?, Config.guards]
  | @complete id serial owned active state value thread calm thread_eq =>
      subst thread_eq
      have ended := SameStack.modify_modify id .disarm (.complete value) state.thread
      refine sound.quiet guarded rfl trivial ended ended ended ?_
      simp [Event.guard?, Config.guards]
  | @land id serial owned active state kind thread thread_eq =>
      subst thread_eq
      have ended := SameStack.modify_modify id .disarm .abandon state.thread
      refine sound.quiet guarded rfl trivial ended ended ended ?_
      simp [Event.guard?, Config.guards]
  | @leave id serial owned active state payload thread elsewhere thread_eq =>
      subst thread_eq
      have ended := SameStack.modify_modify id .disarm .abandon state.thread
      refine sound.quiet guarded rfl trivial ended ended ended ?_
      simp [Event.guard?, Config.guards]
  | raise kind target value payload thread aimed =>
      exact sound.quiet guarded rfl trivial (.aim aimed) (.refl _) (.refl _) nofun
  | abort kind target value error unmatched =>
      exact sound.quiet guarded rfl trivial (.refl _) (.refl _) (.refl _) nofun
  | fail message => exact sound.quiet guarded rfl trivial (.refl _) (.refl _) (.refl _) nofun
  | @park owned active state payload =>
      have parked := SameStack.park payload state.thread
      exact sound.quiet guarded rfl trivial parked (.refl _) parked nofun
  | resume payload waits => exact sound.silent guarded rfl (.clear _)

theorem reached (reaches : Reaches .initial after) : Sound after :=
  reaches.keeps step initial

end Sound

/-! ## Every state of every run -/

/-- The depth that a thread reports counts the frames that its links lead to, as a word, and so do
the depths of the frames from the bottom up. -/
structure Thread.Counted (thread : Thread) : Prop where
  /-- The links lead to all frames, newest first. -/
  chain_eq : thread.chain = thread.frames
  /-- As words, always. -/
  depth_eq : thread.depth = thread.tags.length % UInt32.size
  /-- As numbers, while a word can count the frames. -/
  exact : thread.frames.length < UInt32.size →
    thread.frames.reverse.map (·.token.depth) = List.range' 1 thread.frames.length ∧
      thread.depth = thread.tags.length

theorem StackOf.counted {history : History} {thread : Thread} (stack : StackOf history thread) :
    thread.Counted where
  chain_eq := stack.linked.chain_eq
  depth_eq := stack.depth_eq
  exact few := by
    refine ⟨stack.depths_exact few, ?_⟩
    rw [stack.depth_eq, Nat.mod_eq_of_lt]
    rwa [stack.linked.tags_eq, List.length_map]

/-- A thread that some run finds, or leaves, when something happens in it. -/
def Thread.Reachable (thread : Thread) : Prop :=
  ∃ program : Program, ∃ moment ∈ program.history, thread = moment.before ∨ thread = moment.after

namespace Program

theorem sound_end (program : Program) :
    program.history.Kept ∧ StackOf program.history (program.watch start).2.thread := by
  obtain ⟨owned, active, reaches, -⟩ := program.reaches_end
  have sound := Sound.reached reaches
  exact ⟨sound.kept, sound.stack⟩

theorem kept_of_mem (program : Program) {moment : Moment} (member : moment ∈ program.history) :
    ∃ earlier, moment.Kept earlier := by
  have kept := program.sound_end.1
  obtain ⟨later, earlier, split⟩ := List.append_of_mem member
  rw [split] at kept
  exact ⟨earlier, kept.split⟩

/-- The representation invariant of the stack. It holds before and after everything that happens in
a run, wherever the program looks, and of the thread that the run leaves behind. -/
theorem stack_represented (program : Program) :
    (∀ later moment earlier, program.history = later ++ moment :: earlier →
      moment.Kept earlier ∧ moment.before.Counted ∧ moment.after.Counted) ∧
      StackOf program.history (program.run start).2.thread ∧
      (program.run start).2.thread.Counted ∧
      (program.history.pushes < UInt64.size →
        ∀ frame ∈ (program.run start).2.thread.frames, frame.token.serial < UInt64.size) := by
  obtain ⟨kept, stack⟩ := program.sound_end
  rw [program.watch_eq_run.2] at stack
  refine ⟨fun later moment earlier split => ?_, stack, stack.counted,
    fun few frame => stack.serial_lt few⟩
  rw [split] at kept
  have moment_kept := kept.split
  exact ⟨moment_kept, moment_kept.before.counted, moment_kept.after.counted⟩

/-- Two frames whose guards are popped in the order in which they were pushed. -/
def misordered : Program :=
  .push ⟨1⟩ fun outer => .push ⟨2⟩ fun inner => .pop outer fun _ => .pop inner fun _ => .done 0

theorem misordered_events :
    misordered.history.map (·.event) =
      [.popped 2 (.ok .completed), .popped 1 (.error (.frameOrder 1 2)), .pushed 2, .pushed 1] := by
  decide +kernel

/-- The first pop fails and leaves both frames; the second succeeds, and the frame of the spent
guard is the innermost one in the end. -/
theorem stack_represented_misordered :
    ∃ later moment earlier, misordered.history = later ++ moment :: earlier ∧
      moment.event = .popped 1 (.error (.frameOrder 1 2)) ∧ moment.Kept earlier ∧
      (misordered.run start).2.thread.tags = [⟨1⟩] ∧
      ∀ frame ∈ (misordered.run start).2.thread.frames, frame.token.serial < UInt64.size := by
  obtain ⟨last, rest, history_eq, -, events⟩ := List.map_eq_cons_iff.mp misordered_events
  obtain ⟨moment, earlier, rfl, event_eq, -⟩ := List.map_eq_cons_iff.mp events
  have kept := (misordered.stack_represented.1 [last] moment earlier history_eq).1
  exact ⟨[last], moment, earlier, history_eq, event_eq, kept, by decide +kernel,
    misordered.stack_represented.2.2.2 (by decide +kernel)⟩

/-! ### More frames than a word can count -/

/-- Push a number of frames, one on the other. -/
def pushing (tag : OwnerTag) : Nat → Program
  | 0 => .done 0
  | count + 1 => .push tag fun _ => pushing tag count

theorem length_frames_pushing (tag : OwnerTag) (count : Nat) (state : State Watch) :
    ((pushing tag count).run state).2.thread.frames.length =
      state.thread.frames.length + count := by
  induction count generalizing state with
  | zero => rfl
  | succ count induction =>
      exact (induction _).trans (Nat.succ_add_eq_add_succ state.thread.frames.length count)

/-- One frame more than a word can count: the depth starts again from zero. -/
theorem depth_pushing_wraps :
    ((pushing .any UInt32.size).run start).2.thread.tags.length = UInt32.size ∧
      ((pushing .any UInt32.size).run start).2.thread.depth = 0 := by
  generalize size_eq : UInt32.size = size
  have stack := ((pushing .any size).sound_end).2
  rw [(pushing .any size).watch_eq_run.2] at stack
  have length : ((pushing .any size).run start).2.thread.tags.length = size := by
    rw [stack.linked.tags_eq, List.length_map, length_frames_pushing]
    exact Nat.zero_add size
  refine ⟨length, ?_⟩
  rw [stack.depth_eq, length, size_eq, Nat.mod_self]

end Program

theorem Thread.Reachable.linked {thread : Thread} (reachable : thread.Reachable) :
    thread.Linked := by
  obtain ⟨program, moment, member, place⟩ := reachable
  obtain ⟨earlier, kept⟩ := program.kept_of_mem member
  rcases place with rfl | rfl
  · exact kept.before.linked
  · exact kept.after.linked

end HostBridge
