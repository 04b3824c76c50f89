import HostBridge.Proofs.Code.Accessor
import HostBridge.Proofs.Memory
import HostBridge.Session.Run

/-!
# Stores beside frames and location

A session keeps frames and its location as such and makes their bytes when they are loaded. A store
that reaches neither of them is a plain store to the bytes that generated code sees.
-/

namespace HostBridge

theorem Thread.mapFrames_eq_self {thread : Thread} {change : Frame → Frame}
    (same : ∀ frame ∈ thread.frames, change frame = frame) : thread.mapFrames change = thread := by
  rw [mapFrames, (List.map_congr_left same).trans (List.map_id' thread.frames)]

namespace Session

namespace Space

variable {state : State World} {address base span other : UInt64} {count size : Nat}

/-! ## Ranges -/

theorem reaches_eq_false (short : count < 2 ^ 64) :
    reaches address count base span = false ↔
      span.toNat ≤ (address - base).toNat ∧ count ≤ (base - address).toNat := by
  rw [reaches, Bool.or_eq_false_iff, decide_eq_false_iff_not, decide_eq_false_iff_not,
    UInt64.not_lt, UInt64.not_lt, UInt64.le_iff_toNat_le, UInt64.le_iff_toNat_le,
    UInt64.toNat_ofNat', Nat.mod_eq_of_lt short]

/-- A part of a range reaches no further than the whole. -/
theorem reaches_part (room : base.toNat + size ≤ 2 ^ 64) (short : size < 2 ^ 64)
    (apart : reaches base size other span = false) (positive : 0 < count)
    (low : base.toNat ≤ address.toNat) (high : address.toNat + count ≤ base.toNat + size) :
    reaches address count other span = false := by
  rw [reaches_eq_false short] at apart
  rw [reaches_eq_false (by omega)]
  rw [UInt64.toNat_sub, UInt64.toNat_sub] at *
  have other_lt := other.toNat_lt
  have span_lt := span.toNat_lt
  omega

/-- A byte of a range is far from the start of what the range does not reach. -/
theorem span_le_distance (room : address.toNat + count ≤ 2 ^ 64) (short : count < 2 ^ 64)
    (apart : reaches address count base span = false) (low : address.toNat ≤ other.toNat)
    (high : other.toNat < address.toNat + count) : span.toNat ≤ (other - base).toNat := by
  have part := reaches_part room short apart Nat.one_pos low high
  exact ((reaches_eq_false (by decide)).mp part).1

theorem inMember_eq_false {distance : UInt64} (far : 64 ≤ distance.toNat) :
    inMember distance = false := by
  have early : ¬distance < 12 := fun less => by
    have less : distance.toNat < 12 := UInt64.lt_iff_toNat_lt.mp less
    omega
  have late : ¬distance < 52 := fun less => by
    have less : distance.toNat < 52 := UInt64.lt_iff_toNat_lt.mp less
    omega
  simp [inMember, early, late]

theorem inPart_eq_false {distance : UInt64} (far : 24 ≤ distance.toNat) :
    Location.inPart distance = false := by
  have early : ¬distance < 4 := fun less => by
    have less : distance.toNat < 4 := UInt64.lt_iff_toNat_lt.mp less
    omega
  have late : ¬distance < 24 := fun less => by
    have less : distance.toNat < 24 := UInt64.lt_iff_toNat_lt.mp less
    omega
  simp [Location.inPart, early, late]

/-! ## Frames -/

theorem frameByte?_eq_none {frames : List Frame}
    (outside : ∀ frame ∈ frames, inMember (other - frameAddress frame.id) = false) :
    frameByte? other frames = none := by
  induction frames with
  | nil => rfl
  | cons frame frames induction =>
      rw [frameByte?, outside frame List.mem_cons_self]
      exact induction fun frame mem => outside frame (List.mem_cons_of_mem _ mem)

theorem storeFrames_eq {thread : Thread}
    (apart : ∀ frame ∈ thread.frames,
      reaches address count (frameAddress frame.id) frameStride = false) (memory : Memory) :
    storeFrames address count memory thread = thread := by
  apply Thread.mapFrames_eq_self
  intro frame mem
  rw [apart frame mem]
  rfl

/-! ## Bytes -/

theorem view_apply (state : State World) (other : UInt64) :
    view state other =
      (frameByte? other state.thread.frames).getD
        (if Location.inPart (other - locationBase) then
          (state.world.locations .bridge).image (other - locationBase)
        else state.world.heap other) := by
  rw [view]
  cases frameByte? other state.thread.frames <;> rfl

/-- A store that reaches neither a frame nor the location is a plain store. -/
theorem view_store (room : address.toNat + count ≤ 2 ^ 64) (short : count < 2 ^ 64)
    (frames_apart : ∀ frame ∈ state.thread.frames,
      reaches address count (frameAddress frame.id) frameStride = false)
    (location_apart : reaches address count locationBase Location.size = false) (bits : UInt64) :
    view (store address count bits state) = (view state).store address count bits := by
  funext other
  have stored : view (store address count bits state) other =
      (frameByte? other state.thread.frames).getD
        (if Location.inPart (other - locationBase) then
          (state.world.locations .bridge).image (other - locationBase)
        else state.world.heap.store address count bits other) := by
    simp only [view_apply, store, storeFrames_eq frames_apart, location_apart,
      Bool.false_eq_true, if_false]
  rw [stored]
  by_cases inside : address.toNat ≤ other.toNat ∧ other.toNat < address.toNat + count
  · have no_frame : frameByte? other state.thread.frames = none := by
      apply frameByte?_eq_none
      intro frame mem
      have apart := frames_apart frame mem
      exact inMember_eq_false (span_le_distance room short apart inside.1 inside.2)
    have no_part : Location.inPart (other - locationBase) = false :=
      inPart_eq_false (span_le_distance room short location_apart inside.1 inside.2)
    simp only [no_frame, no_part, Bool.false_eq_true, if_false, Option.getD_none]
    exact Memory.store_inside room bits inside.1 inside.2 _
  · rw [Memory.store_outside room bits (by omega), Memory.store_outside room bits (by omega),
      view_apply]

end Space

/-- What is put into the larger world is found there. -/
def Observer.Lawful {ε : Type} (observer : Observer ε) : Prop :=
  ∀ inner outer, observer.world (observer.put inner outer) = inner

theorem Observer.lawful_plain : Observer.plain.Lawful := fun _ _ => rfl

/-- Generated code of a session finds plain memory in every range that no frame and no part of the
location reaches into. -/
theorem machine_plainAt {ε : Type} {context : Context ε} (lawful : context.observer.Lawful)
    {state : State ε} {base : UInt64} {size : Nat} (room : base.toNat + size ≤ 2 ^ 64)
    (short : size < 2 ^ 64)
    (frames_apart : ∀ frame ∈ state.thread.frames,
      Space.reaches base size (Space.frameAddress frame.id) Space.frameStride = false)
    (location_apart : Space.reaches base size Space.locationBase Location.size = false) :
    context.machine.PlainAt state base size := by
  intro address count bits positive low high
  have found (inner : State World) :
      context.observer.state (context.observer.putState inner state) = inner :=
    congrArg (State.mk inner.thread) (lawful inner.world state.world)
  refine (congrArg Space.view (found _)).trans (Space.view_store (by omega) (by omega) ?_ ?_ bits)
  · intro frame mem
    exact Space.reaches_part room short (frames_apart frame mem) positive low high
  · exact Space.reaches_part room short location_apart positive low high

end Session

end HostBridge
