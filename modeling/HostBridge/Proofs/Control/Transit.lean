import HostBridge.Proofs.Control.Execution

/-!
# What is on its way

An exit or a foreign failure travels in two ways: it unwinds, or it waits to be resumed. In a run
that starts nothing while something waits, at most one thing is on its way at a time. What a thread
carries is then known from its history alone: it is what started last, until a region returns.
-/

namespace HostBridge

/-- What is on its way. -/
inductive Transit where
  /-- An exit to a frame. -/
  | exit (target : FrameId) (kind : ExitKind) (value : UInt64)
  /-- A foreign failure, which no frame stops. -/
  | foreign (message : String)

namespace Transit

/-- What an unwind carries for it. -/
def payload : Transit → Payload
  | .exit target kind _ => .exit target kind
  | .foreign message => .foreign message

/-- It is on its way to a frame. -/
def AimedAt (id : FrameId) (transit : Transit) : Prop := ∃ kind, transit.payload = .exit id kind

end Transit

/-- An exit or a foreign failure starts. -/
def Event.Starts : Event → Prop
  | .raised _ _ _ | .failed _ => True
  | _ => False

instance : DecidablePred Event.Starts
  | .raised _ _ _ | .failed _ => isTrue trivial
  | .looked | .pushed _ | .entered _ | .returned _ _ | .left _ | .popped _ _ | .dropped _ _
  | .parked => isFalse id

/-- The execution of a region returns. -/
def Event.Returns : Event → Prop
  | .returned _ _ => True
  | _ => False

namespace History

/-- What is on its way: what started last, until a region returns. -/
def transit : History → Option Transit
  | [] => none
  | ⟨.raised kind target value, before, _⟩ :: earlier =>
      (before.accepting (executing earlier) kind target).map fun frame => .exit frame.id kind value
  | ⟨.failed message, _, _⟩ :: _ => some (.foreign message)
  | ⟨.returned _ _, _, _⟩ :: _ => none
  | _ :: earlier => transit earlier

/-- Nothing starts while something waits to be resumed. -/
def Orderly (history : History) : Prop :=
  ∀ moment ∈ history, moment.event.Starts → moment.before.pending = none

instance (history : History) : Decidable history.Orderly :=
  inferInstanceAs (Decidable (∀ moment ∈ history, _ → _))

/-- The last thing that happened is an exit that no frame accepts. -/
def Unmatched (kind : ExitKind) (target : OwnerTag) : History → Prop
  | ⟨.raised kind' target' _, before, _⟩ :: earlier =>
      kind' = kind ∧ target' = target ∧ before.accepting (executing earlier) kind target = none
  | _ => False

/-- What may happen, as far as exits are concerned: what is on its way is left alone, passes the
regions that it is not aimed at, and ends with the return of the one that it is aimed at. -/
def Allows (earlier : History) : Event → Prop
  | .entered id => id ∉ earlier.executing
  | .returned id (.completed _) => earlier.executing.head? = some id ∧ earlier.transit = none
  | .returned id (.unwound kind value) =>
      earlier.executing.head? = some id ∧ earlier.transit = some (.exit id kind value)
  | .left id =>
      earlier.executing.head? = some id ∧ ∃ passing ∈ earlier.transit, ¬passing.AimedAt id
  | .raised _ _ _ | .failed _ => earlier.transit = none
  | _ => True

/-- A moment as it should be, after the history before it. -/
structure Fits (moment : Moment) (earlier : History) : Prop where
  /-- What happens is allowed. -/
  allowed : Allows earlier moment.event
  /-- An exit is resolved to the frame that accepts it. -/
  resolved : ∀ kind target value, moment.event = .raised kind target value →
    moment.before.target? kind target = moment.before.accepting (executing earlier) kind target
  /-- Nothing happens after an exit that no frame accepts. -/
  matched : ∀ kind target, ¬Unmatched kind target earlier

/-- Every moment is as it should be. -/
def Lawful : History → Prop
  | [] => True
  | moment :: earlier => Fits moment earlier ∧ Lawful earlier

theorem transit_quiet {moment : Moment} {earlier : History} (quiet : ¬moment.event.Starts)
    (inside : ¬moment.event.Returns) : transit (moment :: earlier) = earlier.transit := by
  obtain ⟨event, _, _⟩ := moment
  cases event <;> first | rfl | exact (quiet trivial).elim | exact (inside trivial).elim

theorem not_raised {event : Event} (quiet : ¬event.Starts) {kind : ExitKind} {target : OwnerTag}
    {value : UInt64} (raised : event = .raised kind target value) : False := by
  rw [raised] at quiet
  exact quiet trivial

theorem not_unmatched {moment : Moment} {earlier : History} (quiet : ¬moment.event.Starts)
    (kind : ExitKind) (target : OwnerTag) : ¬Unmatched kind target (moment :: earlier) := by
  obtain ⟨event, _, _⟩ := moment
  cases event <;> first | exact id | exact (quiet trivial).elim

end History

/-- What a configuration carries: what unwinds, or else what waits. -/
def Config.carried (config : Config) : Option Payload :=
  match config.mode with
  | .running => config.thread.pending
  | .unwinding payload => some payload
  | .aborted _ => none

/-- What is on its way is what the configuration carries. -/
structure Carries (config : Config) : Prop where
  /-- The history is lawful. -/
  lawful : config.history.Lawful
  /-- The unwind, or what waits, is what is on its way. -/
  carried : config.carried = config.history.transit.map Transit.payload
  /-- Nothing waits during an unwind. -/
  calm : ∀ payload, config.mode = .unwinding payload → config.thread.pending = none
  /-- An exit is on its way to a region that is being executed, and its value is there already. -/
  aimed : ∀ target kind value, config.history.transit = some (.exit target kind value) →
    target ∈ config.executing ∧
      ∀ frame ∈ config.thread.frames, frame.id = target → frame.result = value
  /-- An exit that no frame accepts aborts the process. -/
  unmatched : ∀ kind target, config.history.Unmatched kind target →
    config.mode = .aborted (.fatal (.unmatchedExit kind target))

namespace Carries

theorem initial : Carries .initial := ⟨trivial, rfl, nofun, nofun, nofun⟩

variable {before after : Config}

theorem matched (carries : Carries before) (alive : ∀ cause, before.mode ≠ .aborted cause)
    (kind : ExitKind) (target : OwnerTag) : ¬before.history.Unmatched kind target :=
  fun unmatched => alive _ (carries.unmatched kind target unmatched)

/-- A frame of the new thread is one of the old thread, as far as results are concerned, unless no
exit can be aimed at it. -/
abbrev KeepsResults (before after : Config) : Prop :=
  ∀ frame ∈ after.thread.frames,
    (∃ old ∈ before.thread.frames, frame.id = old.id ∧ frame.result = old.result) ∨
      frame.id ∉ before.executing

theorem aimed_kept (carries : Carries before) (results : KeepsResults before after)
    {target : FrameId} {kind : ExitKind} {value : UInt64}
    (transit : before.history.transit = some (.exit target kind value)) :
    ∀ frame ∈ after.thread.frames, frame.id = target → frame.result = value := by
  obtain ⟨executed, value_there⟩ := carries.aimed target kind value transit
  rintro frame member rfl
  rcases results frame member with ⟨old, old_member, id_eq, result_eq⟩ | elsewhere
  · rw [result_eq]
    exact value_there old old_member id_eq.symm
  · exact (elsewhere executed).elim

/-- A step that leaves no moment behind. -/
theorem silent (carries : Carries before) (history_eq : after.history = before.history)
    (carried_eq : after.carried = before.carried)
    (calm : ∀ payload, after.mode = .unwinding payload → after.thread.pending = none)
    (executing_eq : after.executing = before.executing) (results : KeepsResults before after)
    (aborted : ∀ cause, before.mode = .aborted cause → after.mode = .aborted cause) :
    Carries after where
  lawful := by
    rw [history_eq]
    exact carries.lawful
  carried := by rw [carried_eq, history_eq, carries.carried]
  calm := calm
  aimed target kind value transit := by
    rw [history_eq] at transit
    rw [executing_eq]
    exact ⟨(carries.aimed target kind value transit).1, carries.aimed_kept results transit⟩
  unmatched kind target unmatched := by
    rw [history_eq] at unmatched
    exact aborted _ (carries.unmatched kind target unmatched)

/-- A step in which nothing starts and no region returns. -/
theorem quiet (carries : Carries before) {moment : Moment}
    (history_eq : after.history = moment :: before.history)
    (alive : ∀ cause, before.mode ≠ .aborted cause)
    (quiet : ¬moment.event.Starts) (inside : ¬moment.event.Returns)
    (allowed : before.history.Allows moment.event)
    (carried_eq : after.carried = before.carried)
    (calm : ∀ payload, after.mode = .unwinding payload → after.thread.pending = none)
    (stays : ∀ target kind value, before.history.transit = some (.exit target kind value) →
      target ∈ before.executing → target ∈ after.executing)
    (results : KeepsResults before after) : Carries after where
  lawful := by
    rw [history_eq]
    exact ⟨⟨allowed, fun _ _ _ raised => (History.not_raised quiet raised).elim,
      carries.matched alive⟩, carries.lawful⟩
  carried := by rw [carried_eq, history_eq, History.transit_quiet quiet inside, carries.carried]
  calm := calm
  aimed target kind value transit := by
    rw [history_eq, History.transit_quiet quiet inside] at transit
    have executed := (carries.aimed target kind value transit).1
    exact ⟨stays target kind value transit executed, carries.aimed_kept results transit⟩
  unmatched kind target unmatched := by
    rw [history_eq] at unmatched
    exact (History.not_unmatched quiet kind target unmatched).elim

/-- A step in which a region returns, after which nothing is on its way. -/
theorem returns (carries : Carries before) {id : FrameId} {outcome : Outcome}
    {earlier later : Thread}
    (history_eq : after.history = ⟨.returned id outcome, earlier, later⟩ :: before.history)
    (alive : ∀ cause, before.mode ≠ .aborted cause)
    (allowed : before.history.Allows (.returned id outcome))
    (mode_eq : after.mode = .running) (calm : after.thread.pending = none) : Carries after where
  lawful := by
    rw [history_eq]
    exact ⟨⟨allowed, nofun, carries.matched alive⟩, carries.lawful⟩
  carried := by
    rw [history_eq, Config.carried, mode_eq]
    exact calm
  calm payload unwinding := by
    rw [mode_eq] at unwinding
    cases unwinding
  aimed target kind value transit := by
    rw [history_eq] at transit
    cases transit
  unmatched kind target unmatched := by
    rw [history_eq] at unmatched
    exact unmatched.elim

theorem keeps_frames (frames : ∀ frame ∈ after.thread.frames, frame ∈ before.thread.frames) :
    KeepsResults before after :=
  fun frame member => .inl ⟨frame, frames frame member, rfl, rfl⟩

theorem keeps_modify {id : FrameId} {change : Frame → Frame} (keeps : Frame.Keeps change)
    (result_eq : ∀ frame, (change frame).result = frame.result)
    (thread_eq : after.thread = before.thread.modify id change) : KeepsResults before after := by
  intro frame member
  rw [thread_eq] at member
  obtain ⟨old, old_member, rfl⟩ := Thread.mem_modify member
  refine .inl ⟨old, old_member, ?_⟩
  by_cases own : old.id = id
  · simp [own, keeps.id_eq, result_eq]
  · simp [own]

theorem push (sound : Sound before) {tag : OwnerTag}
    (thread_eq : after.thread = before.thread.push tag) : KeepsResults before after := by
  intro frame member
  rw [thread_eq] at member
  rcases List.mem_cons.mp member with rfl | older
  · exact .inr fun executed => sound.nextSerial_notMem (List.mem_append_right _ executed)
  · exact .inl ⟨frame, older, rfl, rfl⟩

/-- A step that pops or drops a guard. -/
theorem spend {id : FrameId} {owned : List FrameId} {active : List Activation} {mode : Mode}
    {state : State Watch} (carries : Carries ⟨id :: owned, active, mode, state⟩)
    (alive : ∀ cause, mode ≠ .aborted cause) (unwinding : Bool) {event : Event}
    (quiet : ¬event.Starts) (inside : ¬event.Returns)
    (allowed : state.world.history.Allows event) :
    Carries ⟨owned, active, mode, Watch.note event state.thread
      { state with thread := (state.thread.pop id unwinding).2 }⟩ := by
  have pending_eq := state.thread.pop_pending id unwinding
  refine carries.quiet rfl alive quiet inside allowed ?_ (fun payload same => ?_)
    (fun _ _ _ _ executed => executed) (keeps_frames fun _ => Thread.mem_of_mem_pop)
  · cases mode with
    | running => exact pending_eq
    | unwinding payload => rfl
    | aborted cause => rfl
  · exact pending_eq.trans (carries.calm payload same)

/-- Nothing is on its way while the program runs and nothing waits. -/
theorem transit_eq_none {owned : List FrameId} {active : List Activation} {state : State Watch}
    (carries : Carries ⟨owned, active, .running, state⟩) (calm : state.thread.pending = none) :
    state.world.history.transit = none := by
  have carried : state.thread.pending = state.world.history.transit.map Transit.payload :=
    carries.carried
  rw [calm] at carried
  exact Option.map_eq_none_iff.mp carried.symm

/-! ### Regions -/

section Region

variable {id : FrameId} {serial : Nat} {owned : List FrameId} {active : List Activation}
  {state : State Watch}

theorem enter (carries : Carries ⟨id :: owned, active, .running, state⟩)
    (sound : Sound ⟨id :: owned, active, .running, state⟩)
    (armed : Armed ⟨id :: owned, active, .running, state⟩) :
    Carries ⟨owned, ⟨id, state.thread.serialOf id⟩ :: active, .running,
      Watch.note (.entered id) state.thread
        { state with thread := state.thread.modify id Frame.arm }⟩ := by
  have idle : id ∉ state.world.history.executing := by
    have executing_eq := armed.executing
    have apart := (List.nodup_append.mp sound.apart).2.2
    intro executed
    rw [executing_eq] at executed
    exact apart id (List.mem_append_right _ List.mem_cons_self) id executed rfl
  exact carries.quiet rfl nofun (fun starts => starts) (fun returns => returns) idle rfl nofun
    (fun _ _ _ _ executed => List.mem_cons_of_mem _ executed) (keeps_modify .arm (fun _ => rfl) rfl)

theorem complete (carries : Carries ⟨owned, ⟨id, serial⟩ :: active, .running, state⟩)
    (armed : Armed ⟨owned, ⟨id, serial⟩ :: active, .running, state⟩) (value : UInt64)
    (calm : state.thread.pending = none) :
    Carries ⟨id :: owned, active, .running,
      let thread := (state.thread.modify id Frame.disarm).modify id (Frame.complete value)
      Watch.note (.returned id (.completed value)) thread { state with thread }⟩ := by
  have executing_eq := armed.executing
  refine carries.returns rfl nofun ⟨?_, carries.transit_eq_none calm⟩ rfl calm
  rw [executing_eq]
  rfl

theorem land {kind : ExitKind}
    (carries : Carries ⟨owned, ⟨id, serial⟩ :: active, .unwinding (.exit serial kind), state⟩)
    (sound : Sound ⟨owned, ⟨id, serial⟩ :: active, .unwinding (.exit serial kind), state⟩)
    (armed : Armed ⟨owned, ⟨id, serial⟩ :: active, .unwinding (.exit serial kind), state⟩) :
    Carries ⟨id :: owned, active, .running,
      let thread := (state.thread.modify id Frame.disarm).modify id Frame.abandon
      Watch.note
        (.returned id
          (.unwound kind (((thread.frame? id).map (·.result)).getD HostValue.nil.bits)))
        thread { state with thread }⟩ := by
  have executing_eq := armed.executing
  have serial_eq : serial = id := armed.serials ⟨id, serial⟩ List.mem_cons_self
  -- what unwinds is what is on its way, so the exit is aimed at this region
  obtain ⟨value, transit⟩ : ∃ value,
      state.world.history.transit = some (.exit id kind value) := by
    obtain ⟨passing, transit, payload_eq⟩ := Option.map_eq_some_iff.mp carries.carried.symm
    cases passing with
    | foreign message => cases payload_eq
    | exit target kind' value =>
        cases payload_eq
        rw [← serial_eq]
        exact ⟨value, transit⟩
  have guard : id ∈ Config.guards
      ⟨owned, ⟨id, serial⟩ :: active, .unwinding (.exit serial kind), state⟩ :=
    List.mem_append_right _ List.mem_cons_self
  obtain ⟨frame, on_stack, id_eq⟩ := List.mem_map.mp (sound.mem_frames guard)
  have value_there := (carries.aimed id kind value transit).2 frame on_stack id_eq
  have ended := SameStack.modify_modify id .disarm .abandon state.thread
  have found := (sound.stack.of_sameStack ended).linked.frame?_eq
    (Thread.mem_modify_own (Thread.mem_modify_own on_stack id_eq) id_eq)
  have result_eq : (((state.thread.modify id Frame.disarm).modify id Frame.abandon).frame? id).map
      (·.result) = some value := by
    subst id_eq value_there
    exact congrArg (Option.map (·.result)) found
  refine carries.returns rfl nofun ⟨?_, ?_⟩ rfl (carries.calm _ rfl)
  · rw [executing_eq]
    rfl
  · rw [result_eq]
    exact transit

theorem leave {payload : Payload}
    (carries : Carries ⟨owned, ⟨id, serial⟩ :: active, .unwinding payload, state⟩)
    (armed : Armed ⟨owned, ⟨id, serial⟩ :: active, .unwinding payload, state⟩)
    (elsewhere : ∀ kind, payload ≠ .exit serial kind) :
    Carries ⟨id :: owned, active, .unwinding payload,
      let thread := (state.thread.modify id Frame.disarm).modify id Frame.abandon
      Watch.note (.left id) thread { state with thread }⟩ := by
  have executing_eq := armed.executing
  have serial_eq : serial = id := armed.serials ⟨id, serial⟩ List.mem_cons_self
  obtain ⟨passing, transit, payload_eq⟩ := Option.map_eq_some_iff.mp carries.carried.symm
  have passes : ¬passing.AimedAt id := by
    rintro ⟨kind, aimed⟩
    rw [← serial_eq, payload_eq] at aimed
    exact elsewhere kind aimed
  refine carries.quiet rfl nofun (fun starts => starts) (fun returns => returns)
    ⟨?_, passing, transit, passes⟩ rfl (fun _ _ => carries.calm payload rfl)
    (fun target kind value aimed executed => ?_) ?_
  · rw [executing_eq]
    rfl
  · cases transit.symm.trans aimed
    refine (List.mem_cons.mp executed).resolve_left fun same => passes ⟨kind, ?_⟩
    rw [same]
    rfl
  · intro frame member
    obtain ⟨middle, middle_member, rfl⟩ := Thread.mem_modify member
    obtain ⟨old, old_member, rfl⟩ := Thread.mem_modify middle_member
    refine .inl ⟨old, old_member, ?_⟩
    by_cases own : old.id = id
    · simp [own, Frame.disarm, Frame.abandon]
    · simp [own]

end Region

/-! ### Exits and failures -/

section Start

variable {owned : List FrameId} {active : List Activation} {state : State Watch}

theorem raise (carries : Carries ⟨owned, active, .running, state⟩)
    (sound : Sound ⟨owned, active, .running, state⟩)
    (armed : Armed ⟨owned, active, .running, state⟩) (calm : state.thread.pending = none)
    {kind : ExitKind} {target : OwnerTag} {value : UInt64} {payload : Payload} {thread : Thread}
    (aimed : state.thread.aim kind target value = .ok (payload, thread)) :
    Carries ⟨owned, active, .unwinding payload,
      { Watch.note (.raised kind target value) state.thread state with thread }⟩ := by
  obtain ⟨frame, found, rfl, rfl⟩ := Thread.aim_eq_ok aimed
  have on_stack : frame ∈ state.thread.frames := Thread.mem_of_target? found
  have serial_eq := sound.stack.serial_eq_id on_stack
  have executed : frame.id ∈ active.map (·.id) := by
    have accepts : frame.accepts kind target = true := List.find?_some found
    rw [Frame.accepts, Bool.and_eq_true] at accepts
    exact (armed.armed frame on_stack).mp accepts.1
  rw [armed.accepting_eq] at found
  have transit : History.transit
      (⟨.raised kind target value, state.thread, state.thread⟩ :: state.world.history) =
        some (.exit frame.id kind value) := by
    rw [History.transit, found]
    rfl
  have alive : ∀ cause, Mode.running ≠ .aborted cause := by
    intro cause same
    cases same
  refine ⟨⟨⟨carries.transit_eq_none calm, ?_, carries.matched alive⟩, carries.lawful⟩, ?_,
    fun _ _ => calm, fun target' kind' value' aimed' => ?_, ?_⟩
  · exact fun kind' target' _ _ => armed.accepting_eq kind' target'
  · refine Eq.trans ?_ (congrArg (Option.map Transit.payload) transit).symm
    rw [serial_eq]
    rfl
  · cases transit.symm.trans aimed'
    refine ⟨executed, fun other member id_eq => ?_⟩
    obtain ⟨old, -, rfl⟩ := Thread.mem_modify member
    by_cases own : old.id = frame.id
    · simp [own, Frame.aim]
    · simp [own] at id_eq
  · rintro kind' target' ⟨rfl, rfl, missing⟩
    rw [found] at missing
    cases missing

theorem abort (carries : Carries ⟨owned, active, .running, state⟩)
    (armed : Armed ⟨owned, active, .running, state⟩) (calm : state.thread.pending = none)
    {kind : ExitKind} {target : OwnerTag} {value : UInt64} {error : BridgeError}
    (unmatched : state.thread.aim kind target value = .error error) :
    Carries ⟨owned, active, .aborted (.fatal error),
      Watch.note (.raised kind target value) state.thread state⟩ := by
  obtain ⟨missing, rfl⟩ := Thread.aim_eq_error unmatched
  rw [armed.accepting_eq] at missing
  have transit : History.transit
      (⟨.raised kind target value, state.thread, state.thread⟩ :: state.world.history) = none := by
    rw [History.transit, missing]
    rfl
  refine ⟨⟨⟨carries.transit_eq_none calm, ?_, carries.matched nofun⟩, carries.lawful⟩,
    (congrArg (Option.map Transit.payload) transit).symm, nofun, fun _ _ _ aimed => ?_, ?_⟩
  · exact fun kind' target' _ _ => armed.accepting_eq kind' target'
  · cases transit.symm.trans aimed
  · rintro kind' target' ⟨rfl, rfl, -⟩
    rfl

theorem fail (carries : Carries ⟨owned, active, .running, state⟩)
    (calm : state.thread.pending = none) (message : String) :
    Carries ⟨owned, active, .unwinding (.foreign message),
      Watch.note (.failed message) state.thread state⟩ :=
  ⟨⟨⟨carries.transit_eq_none calm, nofun, carries.matched nofun⟩, carries.lawful⟩, rfl,
    fun _ _ => calm, nofun, fun _ _ unmatched => unmatched.elim⟩

end Start

theorem step (taken : Step before after) (sound : Sound before) (armed : Armed before)
    (orderly : after.history.Orderly) (carries : Carries before) : Carries after := by
  cases taken with
  | move guards issued moved =>
      exact carries.silent rfl rfl carries.calm rfl (keeps_frames fun _ => id) fun _ => id
  | look =>
      exact carries.quiet rfl nofun id id trivial rfl nofun (fun _ _ _ _ => id)
        (keeps_frames fun _ => id)
  | push tag =>
      exact carries.quiet rfl nofun id id trivial rfl nofun (fun _ _ _ _ => id) (push sound rfl)
  | pop => exact carries.spend nofun false id id trivial
  | drop unwinding alive => exact carries.spend alive unwinding id id trivial
  | enter => exact carries.enter sound armed
  | complete value thread calm thread_eq =>
      subst thread_eq
      exact carries.complete armed value calm
  | land kind thread thread_eq =>
      subst thread_eq
      exact carries.land sound armed
  | leave payload thread elsewhere thread_eq =>
      subst thread_eq
      exact carries.leave armed elsewhere
  | raise kind target value payload thread aimed =>
      exact carries.raise sound armed (orderly _ List.mem_cons_self trivial) aimed
  | abort kind target value error unmatched =>
      exact carries.abort armed (orderly _ List.mem_cons_self trivial) unmatched
  | fail message => exact carries.fail (orderly _ List.mem_cons_self trivial) message
  | park payload =>
      exact carries.quiet rfl nofun id id trivial rfl nofun (fun _ _ _ _ => id)
        (keeps_frames fun _ => id)
  | resume payload waits =>
      exact carries.silent rfl waits.symm (fun _ _ => rfl) rfl (keeps_frames fun _ => id) nofun

end Carries

/-- All that holds of every configuration that steps lead to. -/
structure Settled (config : Config) : Prop where
  sound : Sound config
  armed : Armed config
  carries : config.history.Orderly → Carries config

namespace Settled

theorem initial : Settled .initial := ⟨.initial, .initial, fun _ => .initial⟩

theorem step {before after : Config} (taken : Step before after) (settled : Settled before) :
    Settled after where
  sound := settled.sound.step taken
  armed := settled.armed.step taken settled.sound
  carries orderly := by
    have before_orderly : before.history.Orderly := fun moment member =>
      orderly moment (taken.history_suffix.subset member)
    exact (settled.carries before_orderly).step taken settled.sound settled.armed orderly

theorem reached {after : Config} (reaches : Reaches .initial after) : Settled after :=
  reaches.keeps step initial

end Settled

end HostBridge
