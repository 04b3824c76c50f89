import HostBridge.Proofs.Control.Landing

/-!
# What a frame says about its last execution

A frame holds a phase, a value and the code of an exit. The phase is written when the execution of
its region ends; the code is written earlier, by whatever exit is resolved to the frame, and nothing
takes it back. So after a region has returned, phase and value are those of the outcome, and the
code is that of the last exit that was ever resolved to the frame, which need not be the outcome's.
-/

namespace HostBridge

/-- The kind of the exit that landed, if one did. -/
def Outcome.kind? : Outcome → Option ExitKind
  | .completed _ => none
  | .unwound kind _ => some kind

namespace ExitKind

/-- The code of an exit that may be missing: zero if it is. -/
def codeOf (kind? : Option ExitKind) : UInt32 := kind?.elim 0 code

/-- No kind has the code zero, and no two kinds have the same code. -/
theorem codeOf_injective : Function.Injective codeOf := by
  rintro (_ | first) (_ | second) same
  · rfl
  · cases second <;> exact absurd same (by decide)
  · cases first <;> exact absurd same (by decide)
  · cases first <;> cases second <;> first | rfl | exact absurd same (by decide)

end ExitKind

theorem Outcome.code_eq (outcome : Outcome) : outcome.code = ExitKind.codeOf outcome.kind? := by
  cases outcome <;> rfl

namespace History

/-- The kind of the last exit that was resolved to a frame. -/
def aimed : History → FrameId → Option ExitKind
  | [], _ => none
  | ⟨.raised kind target _, before, _⟩ :: earlier, id =>
      if (before.accepting (executing earlier) kind target).map (·.id) = some id then some kind
      else aimed earlier id
  | _ :: earlier, id => aimed earlier id

/-- The kind of the last exit that landed on a frame. -/
def landed : History → FrameId → Option ExitKind
  | [], _ => none
  | ⟨.returned target (.unwound kind _), _, _⟩ :: earlier, id =>
      if target = id then some kind else landed earlier id
  | _ :: earlier, id => landed earlier id

theorem aimed_quiet {moment : Moment} (quiet : ¬moment.event.Starts) (earlier : History) :
    aimed (moment :: earlier) = earlier.aimed := by
  obtain ⟨event, _, _⟩ := moment
  cases event <;> first | rfl | exact (quiet trivial).elim

end History

/-! ## The code of a frame -/

/-- The codes of all frames are those of the last exits that were resolved to them. -/
structure Coded (config : Config) : Prop where
  /-- A frame has the code of the last exit that was resolved to it. -/
  codes : ∀ frame ∈ config.thread.frames,
    frame.exitCode = ExitKind.codeOf (config.history.aimed frame.id)
  /-- An exit is only resolved to frames that were pushed before. -/
  known : ∀ id, config.history.aimed id ≠ none → id < config.thread.nextSerial

namespace Coded

theorem initial : Coded .initial := ⟨nofun, fun _ aimed => (aimed rfl).elim⟩

variable {before after : Config}

/-- A step in which no exit is resolved and no frame is pushed. -/
theorem same (coded : Coded before) (aimed_eq : after.history.aimed = before.history.aimed)
    (next_eq : after.thread.nextSerial = before.thread.nextSerial)
    (frames : ∀ frame ∈ after.thread.frames,
      ∃ old ∈ before.thread.frames, frame.id = old.id ∧ frame.exitCode = old.exitCode) :
    Coded after where
  codes frame member := by
    obtain ⟨old, old_member, id_eq, code_eq⟩ := frames frame member
    rw [aimed_eq, id_eq, code_eq]
    exact coded.codes old old_member
  known := by
    rw [aimed_eq, next_eq]
    exact coded.known

/-- A step that changes no frame. -/
theorem same_frames (coded : Coded before) (aimed_eq : after.history.aimed = before.history.aimed)
    (next_eq : after.thread.nextSerial = before.thread.nextSerial)
    (frames : ∀ frame ∈ after.thread.frames, frame ∈ before.thread.frames) : Coded after :=
  coded.same aimed_eq next_eq fun frame member => ⟨frame, frames frame member, rfl, rfl⟩

/-- A step in which the execution of a region begins or ends. -/
theorem modify (coded : Coded before) {id : FrameId} {change change' : Frame → Frame}
    (aimed_eq : after.history.aimed = before.history.aimed)
    (thread_eq : after.thread = (before.thread.modify id change).modify id change')
    (ids : ∀ frame, (change frame).id = frame.id ∧ (change' frame).id = frame.id)
    (codes : ∀ frame, (change frame).exitCode = frame.exitCode ∧
      (change' frame).exitCode = frame.exitCode) : Coded after := by
  refine coded.same aimed_eq (by rw [thread_eq]; rfl) fun frame member => ?_
  rw [thread_eq] at member
  obtain ⟨middle, middle_member, rfl⟩ := Thread.mem_modify member
  obtain ⟨old, old_member, rfl⟩ := Thread.mem_modify middle_member
  refine ⟨old, old_member, ?_⟩
  by_cases own : old.id = id <;> simp [own, ids, codes]

theorem push {owned : List FrameId} {active : List Activation} {state : State Watch}
    (coded : Coded ⟨owned, active, .running, state⟩) (tag : OwnerTag) :
    Coded ⟨state.thread.nextSerial :: owned, active, .running,
      Watch.note (.pushed state.thread.nextSerial) state.thread
        { state with thread := state.thread.push tag }⟩ where
  codes frame member := by
    rcases List.mem_cons.mp member with rfl | older
    · have untouched : state.world.history.aimed state.thread.nextSerial = none :=
        not_not.mp fun aimed => Nat.lt_irrefl _ (coded.known _ aimed)
      exact congrArg ExitKind.codeOf untouched.symm
    · exact coded.codes frame older
  known id aimed := Nat.lt_succ_of_lt (coded.known id aimed)

theorem raise {owned : List FrameId} {active : List Activation} {state : State Watch}
    (coded : Coded ⟨owned, active, .running, state⟩)
    (sound : Sound ⟨owned, active, .running, state⟩)
    (armed : Armed ⟨owned, active, .running, state⟩) {kind : ExitKind} {target : OwnerTag}
    {value : UInt64} {payload : Payload} {thread : Thread}
    (aimed : state.thread.aim kind target value = .ok (payload, thread)) :
    Coded ⟨owned, active, .unwinding payload,
      { Watch.note (.raised kind target value) state.thread state with thread }⟩ := by
  obtain ⟨chosen, found, -, rfl⟩ := Thread.aim_eq_ok aimed
  have on_stack : chosen ∈ state.thread.frames := Thread.mem_of_target? found
  rw [armed.accepting_eq] at found
  have aimed_eq (id : FrameId) : History.aimed
      (⟨.raised kind target value, state.thread, state.thread⟩ :: state.world.history) id =
        if chosen.id = id then some kind else state.world.history.aimed id := by
    simp only [History.aimed, found, Option.map_some, Option.some.injEq]
  refine ⟨fun frame member => ?_, fun id known => ?_⟩
  · obtain ⟨old, old_member, rfl⟩ := Thread.mem_modify member
    refine Eq.trans ?_ (congrArg ExitKind.codeOf (aimed_eq _)).symm
    by_cases own : old.id = chosen.id
    · simp [own, Frame.aim, ExitKind.codeOf]
    · simpa [own, Ne.symm own] using coded.codes old old_member
  · have known := ne_of_eq_of_ne (aimed_eq id).symm known
    by_cases own : chosen.id = id
    · subst own
      rw [← sound.stack.serial_eq_id on_stack]
      exact sound.stack.below chosen on_stack
    · rw [if_neg own] at known
      exact coded.known id known

theorem step (taken : Step before after) (sound : Sound before) (armed : Armed before)
    (coded : Coded before) : Coded after := by
  cases taken with
  | push tag => exact coded.push tag
  | @pop id _ _ state =>
      exact coded.same_frames rfl (state.thread.pop_nextSerial id false) fun _ =>
        Thread.mem_of_mem_pop
  | @drop id _ _ _ state unwinding alive =>
      exact coded.same_frames rfl (state.thread.pop_nextSerial id unwinding) fun _ =>
        Thread.mem_of_mem_pop
  | @enter id owned active state =>
      refine coded.same rfl rfl fun frame member => ?_
      obtain ⟨old, old_member, rfl⟩ := Thread.mem_modify member
      refine ⟨old, old_member, ?_⟩
      by_cases own : old.id = id <;> simp [own, Frame.arm]
  | complete value thread calm thread_eq =>
      exact coded.modify rfl thread_eq (fun _ => ⟨rfl, rfl⟩) fun _ => ⟨rfl, rfl⟩
  | land kind thread thread_eq =>
      exact coded.modify rfl thread_eq (fun _ => ⟨rfl, rfl⟩) fun _ => ⟨rfl, rfl⟩
  | leave payload thread elsewhere thread_eq =>
      exact coded.modify rfl thread_eq (fun _ => ⟨rfl, rfl⟩) fun _ => ⟨rfl, rfl⟩
  | raise kind target value payload thread aimed => exact coded.raise sound armed aimed
  | @abort owned active state kind target value error unmatched =>
      have missing := (Thread.aim_eq_error unmatched).1
      rw [armed.accepting_eq] at missing
      refine coded.same_frames (funext fun id => ?_) rfl fun _ => id
      simp [Watch.note, History.aimed, missing]
  | move | look | fail | park | resume => exact coded.same_frames rfl rfl fun _ => id

theorem reached (reaches : Reaches .initial after) : Coded after := by
  induction reaches with
  | refl => exact initial
  | tail begins last induction =>
      have settled := Settled.reached begins
      exact induction.step last settled.sound settled.armed

end Coded

/-! ## The exits of an orderly run -/

/-- The kind of an exit that is on its way to a frame. -/
def Transit.kindAt? (id : FrameId) : Transit → Option ExitKind
  | .exit target kind _ => if target = id then some kind else none
  | .foreign _ => none

/-- In a lawful history, the last exit that was resolved to a frame is on its way there, or else
has landed. -/
theorem History.Lawful.aimed_eq {history : History} (lawful : history.Lawful) (id : FrameId) :
    history.aimed id = (history.transit.bind (Transit.kindAt? id)).or (history.landed id) := by
  induction history with
  | nil => rfl
  | cons moment earlier induction =>
      obtain ⟨⟨allowed, -, -⟩, rest⟩ := lawful
      have earlier_eq := induction rest
      obtain ⟨event, before, after⟩ := moment
      cases event with
      | raised kind target value =>
          have nothing : transit earlier = none := allowed
          rw [nothing] at earlier_eq
          cases accepted : before.accepting (executing earlier) kind target with
          | none => simp [aimed, transit, landed, accepted, earlier_eq]
          | some frame =>
              by_cases own : frame.id = id <;>
                simp [aimed, transit, landed, accepted, earlier_eq, own, Transit.kindAt?]
      | failed message =>
          have nothing : transit earlier = none := allowed
          simpa [aimed, transit, landed, nothing, Transit.kindAt?] using earlier_eq
      | returned target outcome =>
          cases outcome with
          | completed value =>
              have nothing : transit earlier = none := allowed.2
              simpa [aimed, transit, landed, nothing] using earlier_eq
          | unwound kind value =>
              rw [allowed.2] at earlier_eq
              by_cases own : target = id <;>
                simpa [aimed, transit, landed, own, Transit.kindAt?] using earlier_eq
      | _ => exact earlier_eq

/-- Once a region has returned, nothing is on its way any more. -/
theorem History.Lawful.aimed_eq_landed {moment : Moment} {earlier : History}
    (lawful : Lawful (moment :: earlier)) (returns : moment.event.Returns) (id : FrameId) :
    aimed (moment :: earlier) id = landed (moment :: earlier) id := by
  rw [lawful.aimed_eq]
  obtain ⟨event, _, _⟩ := moment
  cases event with
  | returned target outcome => rfl
  | _ => exact returns.elim

/-! ## The record of an outcome -/

/-- If a region has returned, its frame has the phase, the value and the code of the outcome. -/
def Moment.matchesOutcome (moment : Moment) : Bool :=
  match moment.event with
  | .returned id outcome =>
      (moment.after.frame? id).map (fun frame => (frame.phase, frame.result, frame.exitCode)) ==
        some (outcome.phase, outcome.value, outcome.code)
  | _ => true

/-- Everything that happens is one step of a run. -/
theorem Reaches.happens {config : Config} (reaches : Reaches .initial config) {later : History}
    {moment : Moment} {earlier : History} (split : config.history = later ++ moment :: earlier) :
    ∃ before after, Reaches .initial before ∧ Step before after ∧ before.history = earlier ∧
      after.history = moment :: earlier := by
  induction reaches generalizing later with
  | refl => exact absurd split (List.append_ne_nil_of_right_ne_nil _ (List.cons_ne_nil _ _)).symm
  | @tail before after begins last induction =>
      have grown : after.history = before.history ∨
          ∃ newest, after.history = newest :: before.history := by
        cases last <;> first | exact .inl rfl | exact .inr ⟨_, rfl⟩
      rcases grown with same | ⟨newest, history_eq⟩
      · exact induction (same.symm.trans split)
      · cases later with
        | nil =>
            have here := history_eq.symm.trans split
            exact ⟨before, after, begins, last, (List.cons.inj here).2, split⟩
        | cons first later => exact induction (List.cons.inj (history_eq.symm.trans split)).2

/-- The step in which a region returns leaves its frame with the phase and the value of the
outcome. -/
theorem Step.frame_returned {before after : Config} (taken : Step before after)
    (sound : Sound before) {moment : Moment} (happens : after.history = moment :: before.history)
    {id : FrameId} {outcome : Outcome} (returned : moment.event = .returned id outcome) :
    moment.after = after.thread ∧ ∃ frame ∈ after.thread.frames,
      frame.id = id ∧ frame.phase = outcome.phase ∧ frame.result = outcome.value := by
  cases taken with
  | @complete id serial owned active state value thread calm thread_eq =>
      obtain ⟨rfl, -⟩ := List.cons.inj happens
      cases returned
      subst thread_eq
      obtain ⟨frame, on_stack, id_eq⟩ := List.mem_map.mp
        (sound.mem_frames (List.mem_append_right _ List.mem_cons_self))
      have disarmed : frame.disarm ∈ (state.thread.modify id Frame.disarm).frames :=
        Thread.mem_modify_own on_stack id_eq
      have recorded : frame.disarm.complete value ∈
          ((state.thread.modify id Frame.disarm).modify id (Frame.complete value)).frames :=
        Thread.mem_modify_own disarmed id_eq
      exact ⟨rfl, frame.disarm.complete value, recorded, id_eq, rfl, rfl⟩
  | @land id serial owned active state kind thread thread_eq =>
      obtain ⟨rfl, -⟩ := List.cons.inj happens
      cases returned
      subst thread_eq
      obtain ⟨frame, on_stack, id_eq⟩ := List.mem_map.mp
        (sound.mem_frames (List.mem_append_right _ List.mem_cons_self))
      have disarmed : frame.disarm ∈ (state.thread.modify id Frame.disarm).frames :=
        Thread.mem_modify_own on_stack id_eq
      have recorded : frame.disarm.abandon ∈
          ((state.thread.modify id Frame.disarm).modify id Frame.abandon).frames :=
        Thread.mem_modify_own disarmed id_eq
      refine ⟨rfl, frame.disarm.abandon, recorded, id_eq, rfl, ?_⟩
      have ended := SameStack.modify_modify id .disarm .abandon state.thread
      have found := (sound.stack.of_sameStack ended).linked.frame?_eq recorded
      subst id_eq
      exact (congrArg (fun frame? => (frame?.map (·.result)).getD HostValue.nil.bits) found).symm
  | move | resume => exact absurd happens.symm (List.cons_ne_self _ _)
  | _ =>
      obtain ⟨rfl, -⟩ := List.cons.inj happens
      cases returned

namespace Program

/-- When a region has returned, its frame has the phase and the value of the outcome, and the code
of the last exit that was resolved to it. That is the code of the outcome only if the exit is the
one that has just landed, or if there was none and the region was completed. In a run that starts
nothing while something waits, it is the code of the last exit that landed on the frame: it is right
after an exit, and after a completed execution only if no exit has landed on the frame before. -/
theorem frame_after_return (program : Program) {later earlier : History} {moment : Moment}
    (split : program.history = later ++ moment :: earlier) {id : FrameId} {outcome : Outcome}
    (returned : moment.event = .returned id outcome) :
    ∃ frame, moment.after.frame? id = some frame ∧
      frame.phase = outcome.phase ∧ frame.result = outcome.value ∧
      frame.exitCode = ExitKind.codeOf (earlier.aimed id) ∧
      (frame.exitCode = outcome.code ↔ earlier.aimed id = outcome.kind?) ∧
      (History.Orderly (moment :: earlier) →
        frame.exitCode = ExitKind.codeOf (History.landed (moment :: earlier) id) ∧
        (frame.exitCode = outcome.code ↔
          outcome.phase = .unwound ∨ earlier.landed id = none)) := by
  obtain ⟨owned, active, reaches, -⟩ := program.reaches_end
  obtain ⟨before, after, begins, taken, rfl, happens⟩ := reaches.happens split
  have sound := Sound.reached begins
  obtain ⟨after_eq, frame, on_stack, rfl, phase_eq, result_eq⟩ :=
    taken.frame_returned sound happens returned
  have ends := begins.tail taken
  have found := (Sound.reached ends).stack.linked.frame?_eq on_stack
  have quiet : ¬moment.event.Starts := by
    rw [returned]
    exact id
  have aimed_eq := congrFun (History.aimed_quiet quiet before.history) frame.id
  have code_eq := (Coded.reached ends).codes frame on_stack
  rw [happens, aimed_eq] at code_eq
  rw [after_eq]
  refine ⟨frame, found, phase_eq, result_eq, code_eq, ?_, fun orderly => ?_⟩
  · rw [code_eq, outcome.code_eq, ExitKind.codeOf_injective.eq_iff]
  · have returns : moment.event.Returns := by
      rw [returned]
      trivial
    rw [← happens] at orderly
    have lawful := ((Settled.reached ends).carries orderly).lawful
    rw [happens] at lawful
    rw [← aimed_eq, lawful.aimed_eq_landed returns] at code_eq
    refine ⟨code_eq, ?_⟩
    rw [code_eq, outcome.code_eq, ExitKind.codeOf_injective.eq_iff]
    obtain ⟨event, _, _⟩ := moment
    obtain rfl : event = .returned frame.id outcome := returned
    cases outcome <;> simp [History.landed, Outcome.phase, Outcome.kind?]

/-- A frame is executed twice: an exit lands on it, and then its region is completed. -/
def reused : Program :=
  .push ⟨1⟩ fun guard =>
    .exec guard (.signal .break ⟨1⟩ 7) fun _ =>
      .exec guard (.done 5) fun _ => .pop guard fun _ => .done 0

/-- An exit that waits to be resumed is displaced by another one, which lands on a region inside. -/
def displaced : Program :=
  .push ⟨1⟩ fun guard =>
    .exec guard
      (.park .break ⟨1⟩ 9 (.protect ⟨2⟩ (.park .next ⟨2⟩ 1 (.done 0)) fun _ => .done 0))
      fun _ => .pop guard fun _ => .done 0

theorem reused_events :
    reused.history.map (·.event) =
      [.popped 1 (.ok .completed)] ++ .returned 1 (.completed 5) ::
        [.entered 1, .returned 1 (.unwound .break 7), .raised .break ⟨1⟩ 7, .entered 1,
          .pushed 1] := by
  decide +kernel

/-- The second execution is completed with 5, and the frame still has the code of the exit that
ended the first. -/
theorem frame_after_return_reused :
    ∃ later moment earlier, reused.history = later ++ moment :: earlier ∧
      moment.event = .returned 1 (.completed 5) ∧ History.Orderly (moment :: earlier) ∧
      ∃ frame, moment.after.frame? 1 = some frame ∧ frame.phase = .completed ∧ frame.result = 5 ∧
        frame.exitCode = ExitKind.break.code := by
  obtain ⟨later, rest, split, later_events, rest_events⟩ := List.map_eq_append_iff.mp reused_events
  obtain ⟨moment, earlier, rfl, returned, -⟩ := List.map_eq_cons_iff.mp rest_events
  have orderly : History.Orderly (moment :: earlier) := by
    have all_orderly : reused.history.Orderly := by decide +kernel
    rw [split] at all_orderly
    exact fun moment member => all_orderly moment (List.mem_append_right _ member)
  refine ⟨later, moment, earlier, split, returned, orderly, ?_⟩
  obtain ⟨frame, found, phase_eq, result_eq, code_eq, -, -⟩ :=
    reused.frame_after_return split returned
  refine ⟨frame, found, phase_eq, result_eq, ?_⟩
  have one : later.length = 1 := by simpa using congrArg List.length later_events
  have earlier_eq : earlier = reused.history.drop 2 := by
    rw [split, List.drop_append, one]
    simp [List.drop_eq_nil_of_le, one]
  have aimed_eq : History.aimed (reused.history.drop 2) 1 = some .break := by decide +kernel
  rw [code_eq, earlier_eq, aimed_eq]
  rfl

/-- The frame that is executed again keeps the code of the earlier exit, and so does the frame whose
exit was displaced before it could land. -/
theorem frame_keeps_code :
    (reused.history.Orderly ∧ ¬∀ moment ∈ reused.history, moment.matchesOutcome) ∧
      ¬∀ moment ∈ displaced.history, moment.matchesOutcome := by
  decide +kernel

end Program

end HostBridge
