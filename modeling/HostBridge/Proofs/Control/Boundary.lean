import HostBridge.Proofs.Code.Accessor
import HostBridge.Proofs.Control.Balance
import HostBridge.Proofs.Control.Crossing
import HostBridge.Proofs.Control.Transit
import HostBridge.Proofs.Memory

/-!
# The boundary of generated code

Generated code enters a protected region through a helper that never unwinds into it. Whatever
leaves the region is parked instead. The helper loses nothing by that: the code that called it finds
the outcome of the region, or else finds pending what would have unwound, and the stack is the same
in both cases.

What leaves a region is aimed at a frame that was armed before it. To see this, the run of its body
is followed from a thread that may have frames already, armed ones among them.
-/

namespace HostBridge

/-! ## Frames that exits are aimed at -/

/-- A frame with this serial is armed. -/
def Thread.ArmedAt (thread : Thread) (serial : Nat) : Prop :=
  ∃ frame ∈ thread.frames, frame.armed = true ∧ frame.token.serial = serial

theorem Frame.armed_of_accepts {frames : List Frame} {kind : ExitKind} {target : OwnerTag}
    {frame : Frame} (found : frames.find? (·.accepts kind target) = some frame) :
    frame.armed = true := by
  have accepts := List.find?_some found
  rw [Frame.accepts, Bool.and_eq_true] at accepts
  exact accepts.1

/-- A frame is armed only while its region is being executed, or because it was armed before. -/
def Frame.Rooted (base : Thread) (active : List Activation) (frame : Frame) : Prop :=
  frame.armed = true →
    (∃ activation ∈ active, activation.id = frame.id ∧ activation.serial = frame.token.serial) ∨
      base.ArmedAt frame.token.serial

/-- The frames of a configuration, seen from the thread that it began with. -/
structure Rooted (base : Thread) (config : Config) : Prop where
  numbered : config.thread.Numbered
  frames : ∀ frame ∈ config.thread.frames, frame.Rooted base config.active

namespace Rooted

variable {base : Thread} {before after : Config}

/-- The execution of a region begins. -/
theorem enter {id : FrameId} {owned : List FrameId} {active : List Activation}
    {state : State Watch} (rooted : Rooted base ⟨id :: owned, active, .running, state⟩)
    {frame : Frame} (member : frame ∈ (state.thread.modify id Frame.arm).frames) :
    frame.Rooted base (⟨id, state.thread.serialOf id⟩ :: active) := by
  obtain ⟨old, old_member, rfl⟩ := Thread.mem_modify member
  by_cases own : old.id = id
  · subst own
    rw [if_pos rfl]
    have serial_eq := rooted.numbered.serialOf_eq old_member
    exact fun _ => .inl ⟨_, List.mem_cons_self, rfl, serial_eq⟩
  · rw [if_neg own]
    intro armed
    rcases rooted.frames old old_member armed with ⟨activation, executed, same⟩ | older
    · exact .inl ⟨activation, List.mem_cons_of_mem _ executed, same⟩
    · exact .inr older

/-- The execution of a region ends, whichever way. -/
theorem ends {id : FrameId} {serial : Nat} {owned : List FrameId} {active : List Activation}
    {mode : Mode} {state : State Watch}
    (rooted : Rooted base ⟨owned, ⟨id, serial⟩ :: active, mode, state⟩) {change : Frame → Frame}
    (disarmed : ∀ frame : Frame, (change frame.disarm).armed = false) {frame : Frame}
    (member : frame ∈ ((state.thread.modify id Frame.disarm).modify id change).frames) :
    frame.Rooted base active := by
  obtain ⟨middle, middle_member, rfl⟩ := Thread.mem_modify member
  obtain ⟨old, old_member, rfl⟩ := Thread.mem_modify middle_member
  by_cases own : old.id = id
  · have id_eq : old.disarm.id = id := own
    rw [if_pos own, if_pos id_eq, Frame.Rooted, disarmed]
    exact nofun
  · rw [if_neg own, if_neg own]
    intro armed
    rcases rooted.frames old old_member armed with ⟨activation, executed, id_eq, serial_eq⟩ | older
    · rcases List.mem_cons.mp executed with rfl | outer
      · exact absurd id_eq.symm own
      · exact .inl ⟨activation, outer, id_eq, serial_eq⟩
    · exact .inr older

theorem step (taken : Step before after) (rooted : Rooted base before) : Rooted base after := by
  refine ⟨rooted.numbered.step taken, fun frame member => ?_⟩
  cases taken with
  | push tag =>
      rcases List.mem_cons.mp member with rfl | older
      · exact nofun
      · exact rooted.frames frame older
  | pop => exact rooted.frames frame (Thread.mem_of_mem_pop member)
  | drop => exact rooted.frames frame (Thread.mem_of_mem_pop member)
  | enter => exact rooted.enter member
  | complete value thread calm thread_eq =>
      subst thread_eq
      exact rooted.ends (fun _ => rfl) member
  | land kind thread thread_eq =>
      subst thread_eq
      exact rooted.ends (fun _ => rfl) member
  | leave payload thread elsewhere thread_eq =>
      subst thread_eq
      exact rooted.ends (fun _ => rfl) member
  | raise kind target value payload thread aimed =>
      obtain ⟨chosen, -, -, rfl⟩ := Thread.aim_eq_ok aimed
      obtain ⟨old, old_member, rfl⟩ := Thread.mem_modify member
      have rooted := rooted.frames old old_member
      by_cases own : old.id = chosen.id
      · rw [if_pos own]
        exact rooted
      · rw [if_neg own]
        exact rooted
  | move | look | abort | fail | park | resume => exact rooted.frames frame member

end Rooted

/-! ## What is on its way -/

/-- Something waits for an exit with this serial: a region that is being executed, or else a frame
that was armed before. -/
def Thread.Awaits (base : Thread) (active : List Activation) (serial : Nat) : Prop :=
  (∃ activation ∈ active, activation.serial = serial) ∨ base.ArmedAt serial

/-- What is on its way, in a configuration that began with a thread on which nothing was. -/
structure Bounded (base : Thread) (config : Config) : Prop where
  rooted : Rooted base config
  /-- An exit is on its way to something that waits for it. -/
  aimed : ∀ serial kind, config.carried = some (.exit serial kind) →
    base.Awaits config.active serial
  /-- Nothing waits during an unwind. -/
  calm : ∀ payload, config.mode = .unwinding payload → config.thread.pending = none

namespace Bounded

variable {base : Thread} {before after : Config}

/-- A step after which the same is on its way, and no region has ended. -/
theorem same (bounded : Bounded base before) (rooted : Rooted base after)
    (carried_eq : after.carried = before.carried)
    (active : ∀ activation ∈ before.active, activation ∈ after.active)
    (calm : ∀ payload, after.mode = .unwinding payload → after.thread.pending = none) :
    Bounded base after where
  rooted := rooted
  aimed serial kind carried := by
    rw [carried_eq] at carried
    rcases bounded.aimed serial kind carried with ⟨activation, member, serial_eq⟩ | older
    · exact .inl ⟨activation, active activation member, serial_eq⟩
    · exact .inr older
  calm := calm

/-- A step after which nothing is on its way. -/
theorem settled (rooted : Rooted base after) (mode_eq : after.mode = .running)
    (calm : after.thread.pending = none) : Bounded base after where
  rooted := rooted
  aimed serial kind carried := by
    rw [Config.carried, mode_eq] at carried
    cases calm.symm.trans carried
  calm payload unwinding := by
    rw [mode_eq] at unwinding
    cases unwinding

/-- An unwind leaves a region that it is not aimed at. -/
theorem leave {id : FrameId} {serial : Nat} {owned : List FrameId} {active : List Activation}
    {state : State Watch} {payload : Payload}
    (bounded : Bounded base ⟨owned, ⟨id, serial⟩ :: active, .unwinding payload, state⟩)
    (elsewhere : ∀ kind, payload ≠ .exit serial kind) (target : Nat) (kind : ExitKind)
    (carried : payload = .exit target kind) : base.Awaits active target := by
  rcases bounded.aimed target kind (congrArg some carried) with ⟨activation, member, rfl⟩ | older
  · rcases List.mem_cons.mp member with rfl | outer
    · exact (elsewhere kind carried).elim
    · exact .inl ⟨activation, outer, rfl⟩
  · exact .inr older

theorem step (taken : Step before after) (orderly : after.history.Orderly)
    (bounded : Bounded base before) : Bounded base after := by
  have rooted := bounded.rooted.step taken
  cases taken with
  | move | look | push => exact bounded.same rooted rfl (fun _ => id) bounded.calm
  | @pop id _ _ state =>
      exact bounded.same rooted (state.thread.pop_pending id false) (fun _ member => member) nofun
  | @drop id _ _ mode state unwinding alive =>
      have pending_eq := state.thread.pop_pending id unwinding
      refine bounded.same rooted ?_ (fun _ member => member) fun payload same =>
        pending_eq.trans (bounded.calm payload same)
      cases mode with
      | running => exact pending_eq
      | unwinding payload => rfl
      | aborted cause => rfl
  | enter => exact bounded.same rooted rfl (fun _ => List.mem_cons_of_mem _) nofun
  | complete value thread calm thread_eq =>
      subst thread_eq
      exact settled rooted rfl calm
  | land kind thread thread_eq =>
      subst thread_eq
      exact settled rooted rfl (bounded.calm _ rfl)
  | leave payload thread elsewhere thread_eq =>
      subst thread_eq
      refine ⟨rooted, fun serial kind carried => ?_, fun _ _ => bounded.calm _ rfl⟩
      exact bounded.leave elsewhere serial kind (Option.some.inj carried)
  | @raise _ _ state kind target value payload thread aimed =>
      obtain ⟨chosen, found, rfl, rfl⟩ := Thread.aim_eq_ok aimed
      refine ⟨rooted, fun serial kind' carried => ?_, fun _ _ => ?_⟩
      · obtain ⟨rfl, rfl⟩ := Payload.exit.inj (Option.some.inj carried)
        have on_stack : chosen ∈ state.thread.frames := Thread.mem_of_target? found
        -- only armed frames accept exits
        rcases bounded.rooted.frames chosen on_stack (Frame.armed_of_accepts found) with
          ⟨activation, executed, -, serial_eq⟩ | older
        · exact .inl ⟨activation, executed, serial_eq⟩
        · exact .inr older
      · exact orderly _ List.mem_cons_self trivial
  | abort kind target value error unmatched => exact ⟨rooted, nofun, nofun⟩
  | fail message => exact ⟨rooted, nofun, fun _ _ => orderly _ List.mem_cons_self trivial⟩
  | park payload => exact bounded.same rooted rfl (fun _ => id) nofun
  | resume payload waits => exact bounded.same rooted waits.symm (fun _ => id) fun _ _ => rfl

theorem reaches (reaches : Reaches before after) (orderly : after.history.Orderly)
    (bounded : Bounded base before) : Bounded base after := by
  induction reaches with
  | refl => exact bounded
  | tail _ last induction =>
      exact step last orderly (induction fun moment member =>
        orderly moment (last.history_suffix.subset member))

/-- With one region being executed, an exit goes to that region or to a frame from before. -/
theorem awaits {owned : List FrameId} {activation : Activation} {mode : Mode} {state : State Watch}
    (bounded : Bounded base ⟨owned, [activation], mode, state⟩) {serial : Nat} {kind : ExitKind}
    (carried : Config.carried ⟨owned, [activation], mode, state⟩ = some (.exit serial kind)) :
    serial = activation.serial ∨ base.ArmedAt serial := by
  rcases bounded.aimed serial kind carried with ⟨only, member, rfl⟩ | armed
  · rw [List.mem_singleton.mp member]
    exact .inl rfl
  · exact .inr armed

end Bounded

/-! ## Bodies of regions -/

/-- The serial that the next region waits for. -/
def Thread.regionSerial (tag : OwnerTag) (thread : Thread) : Nat :=
  (thread.push tag).serialOf thread.nextSerial

/-- How a body ends, for the region around it: nothing waits during an unwind, and an exit that
unwinds, or else waits, goes to the region or to a frame that was armed before. -/
structure Contained (base : Thread) (tag : OwnerTag) (ending : Ending UInt64) (thread : Thread) :
    Prop where
  calm : ∀ payload, ending = .unwinding payload → thread.pending = none
  unwinds : ∀ serial kind, ending = .unwinding (.exit serial kind) →
    serial = base.regionSerial tag ∨ base.ArmedAt serial
  waits : ∀ value serial kind, ending = .returned value →
    thread.pending = some (.exit serial kind) →
      serial = base.regionSerial tag ∨ base.ArmedAt serial

/-- A body that starts nothing while something waits is contained, on a thread on which nothing
waits. -/
theorem Program.contained_run (program : Program) {base : Thread} (numbered : base.Numbered)
    (calm : base.pending = none) (tag : OwnerTag) (held : Watch)
    (orderly : (program.watch ⟨base.entered tag, held⟩).2.world.history.Orderly) :
    Contained base tag (program.run ⟨base.entered tag, held⟩).1
      (program.run ⟨base.entered tag, held⟩).2.thread := by
  have begins : Rooted base ⟨[], [], .running, ⟨base, held⟩⟩ :=
    ⟨numbered, fun frame member armed => .inr ⟨frame, member, armed, rfl⟩⟩
  have entered := (begins.step (.push tag)).step .enter
  have bounded : Bounded base
      ⟨[], [⟨base.nextSerial, base.regionSerial tag⟩], .running, ⟨base.entered tag, held⟩⟩ :=
    .settled ⟨entered.numbered, entered.frames⟩ rfl calm
  have follows := program.follows_watch [] [⟨base.nextSerial, base.regionSerial tag⟩]
    ⟨base.entered tag, held⟩
  obtain ⟨ending_eq, thread_eq, -⟩ := program.unchanged_watch ⟨base.entered tag, held⟩
    ⟨base.entered tag, held⟩ ⟨rfl, rfl, rfl⟩
  rw [ending_eq, thread_eq]
  generalize program.watch ⟨base.entered tag, held⟩ = result at follows orderly
  obtain ⟨value | payload | cause, reached⟩ := result
  · have ends := bounded.reaches follows orderly
    exact ⟨nofun, nofun, fun _ _ _ _ pending => ends.awaits pending⟩
  · have ends := bounded.reaches follows orderly
    refine ⟨fun _ _ => ends.calm payload rfl, fun serial kind unwinds => ?_, nofun⟩
    cases unwinds
    exact ends.awaits rfl
  · exact ⟨nofun, nofun, nofun⟩

/-! ## Regions -/

/-- How a region ends: nothing waits, and an exit that unwinds goes to a frame that was armed
before. -/
def Departs {ε : Type} (base : Thread) : Ending Outcome × State ε → Prop
  | (.returned _, reached) => reached.thread.pending = none
  | (.unwinding payload, reached) =>
      reached.thread.pending = none ∧
        ∀ serial kind, payload = .exit serial kind → base.ArmedAt serial
  | (.aborted _, _) => True

namespace Departs

variable {ε : Type} {base : Thread} {tag : OwnerTag} {state : State ε}

theorem conclude (id : FrameId) {serial : Nat} {payload : Payload}
    (calm : state.thread.pending = none)
    (aimed : ∀ target kind, payload = .exit target kind → target = serial ∨ base.ArmedAt target) :
    Departs base (Act.conclude id serial payload state) := by
  cases payload with
  | foreign message => exact ⟨calm, nofun⟩
  | exit target kind =>
      rw [Act.conclude]
      split
      case isTrue own => exact calm
      case isFalse other =>
        refine ⟨calm, fun _ _ same => ?_⟩
        cases same
        exact (aimed target kind rfl).resolve_left other

theorem exec {body : Act ε UInt64}
    (contained : Contained state.thread tag (body (state.entered tag)).1
      (body (state.entered tag)).2.thread) :
    Departs state.thread
      (Act.exec state.thread.nextSerial body { state with thread := state.thread.push tag }) := by
  rw [Act.exec_apply]
  rw [State.entered] at contained
  generalize body _ = result at contained
  obtain ⟨value | payload | cause, reached⟩ := result
  · cases pending : reached.thread.pending with
    | none =>
        simp only [pending]
        exact pending
    | some payload =>
        simp only [pending]
        refine conclude _ rfl fun target kind same => ?_
        rw [same] at pending
        exact contained.waits value target kind rfl pending
  · refine conclude _ (contained.calm payload rfl) fun target kind same => ?_
    rw [same] at contained
    exact contained.unwinds target kind rfl
  · exact trivial

/-- A region whose body is contained. -/
theorem protect {body : Act ε UInt64}
    (contained : Contained state.thread tag (body (state.entered tag)).1
      (body (state.entered tag)).2.thread) :
    Departs state.thread (Act.protect tag body state) := by
  have executed := exec contained
  rw [Act.protect_apply]
  generalize Act.exec _ body _ = result at executed
  obtain ⟨outcome | payload | cause, reached⟩ := result
  · exact (reached.thread.pop_pending _ false).trans executed
  · exact ⟨(reached.thread.pop_pending _ true).trans executed.1, executed.2⟩
  · exact trivial

end Departs

/-! ## The helper -/

variable {ε : Type}

/-- From this state, the action does to its thread what a program does that holds these guards. -/
structure Act.Performs (action : Act ε UInt64) (program : Program) (held : Watch)
    (state : State ε) : Prop where
  ending_eq : (action state).1 = (program.run ⟨state.thread, held⟩).1
  thread_eq : (action state).2.thread = (program.run ⟨state.thread, held⟩).2.thread

namespace Machine

/-- In this state, four bytes of memory from an address on are a word that belongs to no frame. -/
structure HoldsWord (machine : Machine ε) (address : UInt64) (state : State ε) : Prop where
  room : address.toNat + 4 ≤ 2 ^ 64
  plain : machine.PlainAt state address 4
  thread_eq : ∀ bits, (machine.store address 4 bits state).thread = state.thread
  parked : ∀ payload,
    (machine.memory { state with thread := state.thread.park payload }).load address 4 =
      (machine.memory state).load address 4

/-- The state after the code of an outcome was written to an address, unless that is zero. -/
def withCode (machine : Machine ε) (address : UInt64) (code : UInt32) (state : State ε) :
    State ε :=
  if address = 0 then state else machine.store address 4 code.toUInt64 state

theorem HoldsWord.load_store {machine : Machine ε} {address : UInt64} {state : State ε}
    (holds : machine.HoldsWord address state) (code : UInt32) :
    (machine.memory (machine.store address 4 code.toUInt64 state)).load address 4 =
      code.toUInt64 := by
  have short : code.toUInt64.toNat < 2 ^ (8 * 4) := by
    rw [UInt32.toNat_toUInt64]
    exact code.toNat_lt
  rw [holds.plain address 4 _ (by decide) (Nat.le_refl _) (Nat.le_refl _)]
  apply UInt64.toNat_inj.mp
  rw [Memory.toNat_load_store holds.room (by decide), Nat.mod_eq_of_lt short]

theorem thread_withCode {machine : Machine ε} {address : UInt64} {state : State ε}
    (writable : address = 0 ∨ machine.HoldsWord address state) (code : UInt32) :
    (machine.withCode address code state).thread = state.thread := by
  rw [withCode]
  split
  case isTrue => rfl
  case isFalse nonzero => exact (writable.resolve_left nonzero).thread_eq _

theorem frameProtect_apply (machine : Machine ε) (tag body data out : UInt64) (state : State ε) :
    machine.callHelper .frameProtect [tag, body, data, out] state =
      match Act.protect ⟨tag⟩ (machine.enter body data) state with
      | (.returned outcome, reached) =>
          (.returned outcome.value, machine.withCode out outcome.code reached)
      | (.unwinding payload, reached) =>
          (.returned 0, { reached with thread := reached.thread.park payload })
      | (.aborted cause, reached) => (.aborted cause, reached) := by
  have called : machine.callHelper .frameProtect [tag, body, data, out] state =
      (do
        let answer ← Act.frameProtect ⟨tag⟩ (machine.enter body data)
        machine.storeCode out answer.2
        pure answer.1) state := rfl
  rw [called, Act.bind_apply, Act.frameProtect_apply]
  rcases Act.protect ⟨tag⟩ (machine.enter body data) state with
    ⟨outcome | payload | cause, reached⟩
  · by_cases nowhere : out = 0
    · simp [storeCode, withCode, nowhere]
    · simp only [storeCode, withCode, nowhere, if_false]
      rfl
  · rfl
  · rfl

/-- The helper is a lossless boundary. Unless the process is aborted, it returns, and then there are
two cases. Nothing is pending: the region returned an outcome, whose value is returned and whose
code is written. Or something is pending: it is what the region would have unwound with, an exit to
a frame that was armed before or a foreign failure; zero is returned, nothing is written, and
resuming it is the unwind of the region. In both cases the stack is the one that the region
leaves. -/
theorem frameProtect_lossless (machine : Machine ε) (tag body data out : UInt64) {state : State ε}
    (calm : state.thread.pending = none) (numbered : state.thread.Numbered) {program : Program}
    {held : Watch}
    (performs : (machine.enter body data).Performs program held (state.entered ⟨tag⟩))
    (orderly : (program.watch ⟨state.thread.entered ⟨tag⟩, held⟩).2.world.history.Orderly)
    (writable : out = 0 ∨
      machine.HoldsWord out (Act.protect ⟨tag⟩ (machine.enter body data) state).2)
    (alive : ∀ cause,
      (machine.callHelper .frameProtect [tag, body, data, out] state).1 ≠ .aborted cause) :
    let region := Act.protect ⟨tag⟩ (machine.enter body data) state
    ∃ value reached,
      machine.callHelper .frameProtect [tag, body, data, out] state = (.returned value, reached) ∧
      reached.thread.frames = region.2.thread.frames ∧
      reached.thread.current = region.2.thread.current ∧
      ((reached.thread.pending = none ∧ ∃ outcome, region.1 = .returned outcome ∧
          value = outcome.value ∧ reached = machine.withCode out outcome.code region.2 ∧
          (out ≠ 0 → (machine.memory reached).load out 4 = outcome.code.toUInt64)) ∨
        ∃ payload, reached.thread.pending = some payload ∧ region.1 = .unwinding payload ∧
          value = 0 ∧ reached.world = region.2.world ∧
          (out ≠ 0 → (machine.memory reached).load out 4 = (machine.memory region.2).load out 4) ∧
          (∀ serial kind, payload = .exit serial kind → state.thread.ArmedAt serial) ∧
          Act.resumePending reached = (.unwinding payload, region.2)) := by
  have contained := program.contained_run numbered calm ⟨tag⟩ held orderly
  have departs : Departs state.thread (Act.protect ⟨tag⟩ (machine.enter body data) state) := by
    refine .protect ?_
    rw [performs.ending_eq, performs.thread_eq]
    exact contained
  rw [frameProtect_apply] at alive ⊢
  generalize Act.protect ⟨tag⟩ (machine.enter body data) state = region at departs writable alive ⊢
  obtain ⟨outcome | payload | cause, reached⟩ := region
  · have thread_eq := thread_withCode writable outcome.code
    refine ⟨_, _, rfl, congrArg Thread.frames thread_eq, congrArg Thread.current thread_eq,
      .inl ?_⟩
    refine ⟨(congrArg Thread.pending thread_eq).trans departs, outcome, rfl, rfl, rfl, ?_⟩
    intro nonzero
    rw [withCode, if_neg nonzero]
    exact (writable.resolve_left nonzero).load_store outcome.code
  · refine ⟨_, _, rfl, rfl, rfl, .inr ⟨payload, rfl, rfl, rfl, rfl, ?_, departs.2, ?_⟩⟩
    · intro nonzero
      exact (writable.resolve_left nonzero).parked payload
    · have resumed := Parking.clear_park departs.1 payload
      rw [Act.resumePending_apply]
      exact congrArg (fun thread => (_, State.mk thread reached.world)) resumed
  · exact (alive cause rfl).elim

/-- A machine whose world is its memory. The body at address 1 leaves a region by an exit to the tag
10, and all other bodies leave by an exit to the tag 40. -/
def signalling : Machine Memory :=
  { Machine.idle with
    memory := fun state => state.world
    store := fun address count bits state =>
      { state with world := state.world.store address count bits }
    enter := fun body _ =>
      if body = 1 then do
        let outcome ← Act.protect ⟨30⟩ (Act.signalExit .throw ⟨10⟩ 7)
        pure outcome.value
      else Act.signalExit .break ⟨40⟩ 9 }

theorem signalling_holdsWord {address : UInt64} (room : address.toNat + 4 ≤ 2 ^ 64)
    (state : State Memory) : signalling.HoldsWord address state :=
  ⟨room, fun _ _ _ _ _ _ => rfl, fun _ => rfl, fun _ => rfl⟩

/-- The exit to the tag 10 crosses two regions and is pending then. The exit to the tag 40 lands on
the region of the helper, which returns its value and writes its code. -/
theorem frameProtect_lossless_signalling :
    (∃ reached, signalling.callHelper .frameProtect [40, 1, 0, 8] ⟨.crossed, .zero⟩ =
        (.returned 0, reached) ∧
      reached.thread.pending = some (.exit 1 .throw) ∧ Thread.crossed.ArmedAt 1) ∧
    ∃ reached, signalling.callHelper .frameProtect [40, 2, 0, 8] ⟨.crossed, .zero⟩ =
        (.returned 9, reached) ∧
      reached.thread.pending = none ∧ reached.world.load 8 4 = ExitKind.break.code.toUInt64 := by
  have numbered : Thread.crossed.Numbered :=
    ⟨by decide, by decide, by decide, by decide⟩
  have slot (state) : signalling.HoldsWord 8 state := signalling_holdsWord (by decide) state
  constructor
  · have returns : (signalling.callHelper .frameProtect [40, 1, 0, 8] ⟨.crossed, .zero⟩).1 =
        .returned 0 := by
      decide +kernel
    have unwinds : (Act.protect ⟨40⟩ (signalling.enter 1 0) ⟨.crossed, .zero⟩).1 =
        .unwinding (.exit 1 .throw) := by
      decide +kernel
    have performs : (signalling.enter 1 0).Performs
        (.protect ⟨30⟩ (.signal .throw ⟨10⟩ 7) fun outcome => .done outcome.value) {}
        (State.entered ⟨40⟩ ⟨.crossed, .zero⟩) :=
      ⟨by decide +kernel, by decide +kernel⟩
    obtain ⟨value, reached, called, -, -, ⟨-, outcome, completes, -⟩ | ⟨payload, pending, leaves,
        rfl, -, -, armed, -⟩⟩ :=
      signalling.frameProtect_lossless 40 1 0 8 rfl numbered performs (by decide +kernel)
        (.inr (slot _)) (by rw [returns]; exact nofun)
    · cases completes.symm.trans unwinds
    · cases leaves.symm.trans unwinds
      exact ⟨reached, called, pending, armed 1 .throw rfl⟩
  · have returns : (signalling.callHelper .frameProtect [40, 2, 0, 8] ⟨.crossed, .zero⟩).1 =
        .returned 9 := by
      decide +kernel
    have lands : (Act.protect ⟨40⟩ (signalling.enter 2 0) ⟨.crossed, .zero⟩).1 =
        .returned (.unwound .break 9) := by
      decide +kernel
    have performs : (signalling.enter 2 0).Performs (.signal .break ⟨40⟩ 9) {}
        (State.entered ⟨40⟩ ⟨.crossed, .zero⟩) :=
      ⟨by decide +kernel, by decide +kernel⟩
    obtain ⟨value, reached, called, -, -, ⟨pending, outcome, completes, rfl, -, written⟩ | ⟨payload,
        -, leaves, -⟩⟩ :=
      signalling.frameProtect_lossless 40 2 0 8 rfl numbered performs (by decide +kernel)
        (.inr (slot _)) (by rw [returns]; exact nofun)
    · cases completes.symm.trans lands
      exact ⟨reached, called, pending, written (by decide)⟩
    · cases leaves.symm.trans lands

end Machine

end HostBridge
