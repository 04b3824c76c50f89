import HostBridge.Proofs.Control.Stack

/-!
# Procedures do not depend on their context

A procedure is a program that learns about its thread only what its own operations return. It can be
run alone, on a fresh thread, or in a context: on a thread that has frames already, armed ones and
ones with the tags of the procedure among them. Unless it aborts alone, the procedure does in the
context what it does alone, under the next free numbers, and the frames of the context stay as they
are.

The two runs are compared step by step. At each, the thread in the context is the thread of the run
alone, put into the context.
-/

namespace HostBridge

/-- A procedure: the operations of a program that do not look at the control state, and effects on
an environment. -/
inductive Procedure (ε : Type) where
  | done (value : UInt64)
  /-- Change the environment, and go on by what it is then. -/
  | effect (change : ε → ε) (next : ε → Procedure ε)
  /-- Go on by whether something waits. -/
  | waiting (next : Bool → Procedure ε)
  | push (tag : OwnerTag) (next : Handle → Procedure ε)
  | exec (guard : Handle) (body : Procedure ε) (next : Option Outcome → Procedure ε)
  /-- Pop the frame of a guard. An error is seen as such, without the serials that it names. -/
  | pop (guard : Handle) (next : Option (Option Phase) → Procedure ε)
  | drop (guard : Handle) (next : Procedure ε)
  | owning (guard : Handle) (body : Procedure ε) (next : UInt64 → Procedure ε)
  | protect (tag : OwnerTag) (body : Procedure ε) (next : Outcome → Procedure ε)
  | signal (kind : ExitKind) (target : OwnerTag) (value : UInt64)
  | park (kind : ExitKind) (target : OwnerTag) (value : UInt64) (next : Procedure ε)
  | resume (next : Procedure ε)
  | native (body : Procedure ε) (next : UInt64 → Procedure ε)
  | fail (message : String)

/-- What can be seen of the run of a procedure. -/
inductive Sight (ε : Type) where
  /-- The environment after an effect. -/
  | effect (env : ε)
  /-- The execution of a region returned. -/
  | returned (outcome : Outcome)
  /-- The execution of a region was left by an unwind. -/
  | left (payload : Payload)
deriving DecidableEq

/-- What a procedure runs in. -/
structure Scene (ε : Type) where
  /-- The environment. -/
  env : ε
  /-- The number of guards that the procedure was given. -/
  issued : Handle := 0
  /-- The guards that the procedure holds. -/
  guards : List (Handle × FrameId) := []
  /-- What was seen, newest first. -/
  journal : List (Sight ε) := []

variable {ε α β : Type}

namespace Scene

/-- See something. -/
def see (sight : Sight ε) : Act (Scene ε) Unit :=
  Act.onWorld fun world => { world with journal := sight :: world.journal }

/-- Change the environment. -/
def perform (change : ε → ε) : Act (Scene ε) ε := do
  let world ← Act.world
  Act.onWorld fun world => { world with env := change world.env }
  see (.effect (change world.env))
  pure (change world.env)

/-- See how the execution of a region ends. -/
def watching (execution : Act (Scene ε) Outcome) : Act (Scene ε) Outcome := do
  match ← Act.catching execution with
  | .ok outcome => do
      see (.returned outcome)
      pure outcome
  | .error payload => do
      see (.left payload)
      Act.unwind payload

/-- Hand a new guard to the procedure. -/
def issue (id : FrameId) : Act (Scene ε) Handle := do
  let world ← Act.world
  Act.onWorld fun world =>
    { world with issued := world.issued + 1, guards := (world.issued, id) :: world.guards }
  pure world.issued

/-- Take a guard from the procedure, if it holds one of this handle. -/
def take (guard : Handle) : Act (Scene ε) (Option FrameId) := do
  let world ← Act.world
  Act.onWorld fun world =>
    { world with guards := world.guards.eraseP fun held => guard == held.1 }
  pure (world.guards.lookup guard)

/-- Pop a frame. -/
def pop (id : FrameId) : Act (Scene ε) (Option Phase) := do
  let result ← Act.popFrame id false
  pure result.toOption

/-- Ask whether something waits. -/
def waiting : Act (Scene ε) Bool := do
  let thread ← Act.thread
  pure thread.exitPending

/-- Give a guard back to the procedure. -/
def put (guard : Handle) (id : FrameId) : Act (Scene ε) Unit :=
  Act.onWorld fun world => { world with guards := (guard, id) :: world.guards }

end Scene

/-- Run a procedure. -/
def Procedure.run : Procedure ε → Act (Scene ε) UInt64
  | .done value => pure value
  | .effect change next => do
      let env ← Scene.perform change
      (next env).run
  | .waiting next => do
      let waits ← Scene.waiting
      (next waits).run
  | .push tag next => do
      let id ← Act.pushFrame tag
      let guard ← Scene.issue id
      (next guard).run
  | .exec guard body next => do
      match ← Scene.take guard with
      | none => (next none).run
      | some id => do
          let ended ← Act.catching (Scene.watching (Act.exec id body.run))
          Scene.put guard id
          match ended with
          | .ok outcome => (next (some outcome)).run
          | .error payload => Act.unwind payload
  | .pop guard next => do
      match ← Scene.take guard with
      | none => (next none).run
      | some id => do
          let phase ← Scene.pop id
          (next (some phase)).run
  | .drop guard next => do
      match ← Scene.take guard with
      | none => next.run
      | some id => do
          Act.dropFrame id false
          next.run
  | .owning guard body next => do
      match ← Act.catching body.run with
      | .ok value => (next value).run
      | .error payload => do
          match ← Scene.take guard with
          | none => Act.unwind payload
          | some id => do
              Act.dropFrame id true
              Act.unwind payload
  | .protect tag body next => do
      let outcome ← Scene.watching (Act.protect tag body.run)
      (next outcome).run
  | .signal kind target value => Act.signalExit kind target value
  | .park kind target value next => do
      Act.parkExit kind target value
      next.run
  | .resume next => do
      Act.resumePending
      next.run
  | .native body next => do
      let value ← Act.runNative body.run
      (next value).run
  | .fail message => Act.unwind (.foreign message)

/-! ## Threads put into a context -/

/-- The number in a context of the frame that alone has a given number. Numbers count from one, and
zero is left to stand for no frame. -/
def Thread.renumber (context : Thread) (number : Nat) : Nat :=
  if number = 0 then 0 else number + (context.nextSerial - 1)

/-- A token put into a context. Its depth is on top of the depth of the context, as a word. -/
def Token.inside (token : Token) (context : Thread) : Token where
  serial := context.renumber token.serial
  depth := (token.depth + context.depth) % UInt32.size

/-- A link put into a context. Where there was no frame, there is the innermost one of the context
then. -/
def Link.inside (link : Link) (context : Thread) : Link :=
  match link with
  | .none => context.current
  | .frame id => .frame (context.renumber id)
  | .wild bits => .wild bits

/-- A frame put into a context. -/
def Frame.inside (frame : Frame) (context : Thread) : Frame :=
  { frame with
    id := context.renumber frame.id
    token := frame.token.inside context
    prev := frame.prev.inside context }

/-- A change of a frame that is the same change in every context. -/
def Frame.Movable (change : Frame → Frame) : Prop :=
  ∀ (frame : Frame) (context : Thread),
    change (frame.inside context) = (change frame).inside context

namespace Frame.Movable

theorem arm : Movable Frame.arm := fun _ _ => rfl

theorem disarm : Movable Frame.disarm := fun _ _ => rfl

theorem complete (value : UInt64) : Movable (Frame.complete value) := fun _ _ => rfl

theorem abandon : Movable Frame.abandon := fun _ _ => rfl

theorem aim (kind : ExitKind) (value : UInt64) : Movable (Frame.aim kind value) := fun _ _ => rfl

end Frame.Movable

/-- An unwind put into a context. -/
def Payload.inside (payload : Payload) (context : Thread) : Payload :=
  match payload with
  | .exit serial kind => .exit (context.renumber serial) kind
  | .foreign message => .foreign message

/-- A way of ending put into a context. -/
def Ending.inside (ending : Ending α) (context : Thread) : Ending α :=
  match ending with
  | .returned value => .returned value
  | .unwinding payload => .unwinding (payload.inside context)
  | .aborted cause => .aborted cause

/-- Something seen, put into a context. -/
def Sight.inside (sight : Sight ε) (context : Thread) : Sight ε :=
  match sight with
  | .left payload => .left (payload.inside context)
  | other => other

/-- A thread put into a context: its frames come above those that are there. -/
def Thread.inside (thread context : Thread) : Thread where
  current := thread.current.inside context
  frames := thread.frames.map (·.inside context) ++ context.frames
  nextSerial := context.renumber thread.nextSerial
  pending := thread.pending.map (·.inside context)

/-- What a procedure runs in, put into a context. -/
def Scene.inside (scene : Scene ε) (context : Thread) : Scene ε :=
  { scene with
    guards := scene.guards.map fun held => (held.1, context.renumber held.2)
    journal := scene.journal.map (·.inside context) }

def State.inside (state : State (Scene ε)) (context : Thread) : State (Scene ε) where
  thread := state.thread.inside context
  world := state.world.inside context

namespace Thread

variable {context thread : Thread}

theorem renumber_injective (context : Thread) : Function.Injective context.renumber := by
  intro first second same
  grind [renumber]

theorem renumber_succ {number : Nat} (positive : 0 < number) :
    context.renumber (number + 1) = context.renumber number + 1 := by
  grind [renumber]

/-- No number of a frame in the context is taken again. -/
theorem Numbered.ne_renumber (numbered : context.Numbered) {id : FrameId}
    (member : id ∈ context.ids) (number : Nat) : id ≠ context.renumber number := by
  have positive := numbered.positive id member
  have below := numbered.below id member
  grind [renumber]

theorem Numbered.frame_ne_renumber (numbered : context.Numbered) {frame : Frame}
    (member : frame ∈ context.frames) (number : Nat) : frame.id ≠ context.renumber number :=
  numbered.ne_renumber (List.mem_map_of_mem member) number

theorem fresh_inside (numbered : context.Numbered) (calm : context.pending = none) :
    fresh.inside context = context := by
  have next : context.renumber 1 = context.nextSerial := by
    have positive := numbered.next
    grind [renumber]
  obtain ⟨current, frames, nextSerial, pending⟩ := context
  obtain rfl : pending = none := calm
  simp [inside, Link.inside, fresh, next]

theorem ids_inside (thread context : Thread) :
    (thread.inside context).ids = thread.ids.map context.renumber ++ context.ids := by
  rw [ids, inside, List.map_append, List.map_map, ids, List.map_map]
  rfl

end Thread

/-- Links that end with the procedure go on with the context. -/
theorem Chained.inside {link : Link} {frames : List Frame} (chained : Chained link frames .none)
    (context : Thread) :
    Chained (link.inside context) (frames.map (·.inside context)) context.current := by
  induction frames generalizing link with
  | nil =>
      rw [show link = .none from chained]
      rfl
  | cons frame frames induction =>
      rw [chained.1]
      exact ⟨rfl, induction chained.2⟩

namespace Thread

variable {context thread : Thread}

theorem Numbered.inside (numbered : context.Numbered) (ordered : thread.Numbered) :
    (thread.inside context).Numbered := by
  have next := ordered.next
  refine ⟨?_, ?_, ?_, ?_⟩
  · rw [ids_inside, List.nodup_append]
    refine ⟨ordered.distinct.map context.renumber_injective, numbered.distinct, ?_⟩
    rintro id moved other around rfl
    obtain ⟨number, -, same⟩ := List.mem_map.mp moved
    exact numbered.ne_renumber around number same.symm
  · rw [ids_inside, List.forall_mem_append, List.forall_mem_map]
    refine ⟨fun id member => ?_, numbered.positive⟩
    have positive := ordered.positive id member
    grind [renumber]
  · rw [ids_inside, List.forall_mem_append, List.forall_mem_map]
    refine ⟨fun id member => ?_, fun id member => ?_⟩
    · have below := ordered.below id member
      grind [renumber, Thread.inside]
    · have below := numbered.below id member
      grind [renumber, Thread.inside]
  · grind [renumber, Thread.inside]

theorem frame?_inside (numbered : context.Numbered) (id : FrameId) (thread : Thread) :
    (thread.inside context).frame? (context.renumber id) =
      (thread.frame? id).map (·.inside context) := by
  have elsewhere : context.frames.find? (·.id == context.renumber id) = none := by
    rw [List.find?_eq_none]
    intro frame member
    simpa using numbered.frame_ne_renumber member id
  have alike : (fun frame : Frame => (frame.inside context).id == context.renumber id) =
      fun frame => frame.id == id := by
    funext frame
    exact Bool.eq_iff_iff.mpr (by simp [Frame.inside, context.renumber_injective.eq_iff])
  rw [frame?, inside, List.find?_append, elsewhere, Option.or_none, List.find?_map,
    Function.comp_def, alike, frame?]

theorem serialOf_inside (numbered : context.Numbered) (id : FrameId) (thread : Thread) :
    (thread.inside context).serialOf (context.renumber id) =
      context.renumber (thread.serialOf id) := by
  rw [serialOf, frame?_inside numbered, serialOf]
  cases thread.frame? id <;> rfl

/-- The innermost frame of the procedure is innermost in the context, and the innermost one of the
context is where the procedure has none. -/
theorem top?_inside (numbered : context.Numbered) (linked : thread.Linked) :
    (thread.inside context).top? = (thread.top?.map (·.inside context)).or context.top? := by
  cases frames_eq : thread.frames with
  | nil =>
      have chained := linked.chained
      rw [frames_eq] at chained
      have around : (thread.inside context).frames = context.frames := by
        rw [inside, frames_eq]
        rfl
      have outward : (thread.inside context).current = context.current := by
        rw [inside, show thread.current = .none from chained]
        rfl
      rw [linked.top?_eq, frames_eq, top?, top?, outward]
      cases context.current with
      | frame id => exact congrArg (List.find? _) around
      | none | wild => rfl
  | cons top rest =>
      have found : thread.frame? top.id = some top :=
        linked.frame?_eq (frames_eq ▸ List.mem_cons_self)
      have within : (thread.inside context).current = .frame (context.renumber top.id) :=
        congrArg (·.inside context) (linked.current_eq frames_eq)
      rw [linked.top?_eq, frames_eq, top?, within]
      exact (frame?_inside numbered top.id thread).trans (congrArg _ found)

/-- The depth in the context is on top of the depth of the context, as a word. -/
theorem depth_inside (numbered : context.Numbered) (linked : thread.Linked) :
    (thread.inside context).depth % UInt32.size =
      (thread.depth + context.depth) % UInt32.size := by
  rw [depth, top?_inside numbered linked, depth]
  cases thread.top? with
  | none => simp [depth]
  | some top => simp [Frame.inside, Token.inside]

theorem nextToken_inside (numbered : context.Numbered) (linked : thread.Linked) :
    (thread.inside context).nextToken = thread.nextToken.inside context := by
  have depth_eq : ((thread.inside context).depth + 1) % UInt32.size =
      ((thread.depth + 1) % UInt32.size + context.depth) % UInt32.size := by
    rw [Nat.mod_add_mod, ← Nat.mod_add_mod, depth_inside numbered linked, Nat.mod_add_mod,
      Nat.add_right_comm]
  rw [nextToken, depth_eq]
  rfl

theorem push_inside (numbered : context.Numbered) (linked : thread.Linked) (tag : OwnerTag) :
    (thread.inside context).push tag = (thread.push tag).inside context := by
  rw [push, nextToken_inside numbered linked]
  simp [push, inside, Frame.inside, Link.inside, renumber_succ linked.next]

/-- A change of a frame of the procedure, in the context. -/
theorem modify_inside (numbered : context.Numbered) {change : Frame → Frame}
    (movable : Frame.Movable change) (id : FrameId) (thread : Thread) :
    (thread.inside context).modify (context.renumber id) change =
      (thread.modify id change).inside context := by
  have kept : (context.frames.map fun frame =>
      if frame.id = context.renumber id then change frame else frame) = context.frames := by
    refine Eq.trans ?_ (List.map_id' _)
    exact List.map_congr_left fun frame member =>
      if_neg (numbered.frame_ne_renumber member id)
  have own : (thread.frames.map (·.inside context)).map (fun frame =>
      if frame.id = context.renumber id then change frame else frame) =
        (thread.frames.map fun frame =>
          if frame.id = id then change frame else frame).map (·.inside context) := by
    rw [List.map_map, List.map_map]
    refine List.map_congr_left fun frame _ => ?_
    by_cases same : frame.id = id
    · have here : (frame.inside context).id = context.renumber id :=
        congrArg context.renumber same
      simp [same, here, movable frame context]
    · have other : (frame.inside context).id ≠ context.renumber id :=
        fun equal => same (context.renumber_injective equal)
      simp [same, other]
  simp [modify, mapFrames, inside, own, kept]

theorem modify_modify_inside (numbered : context.Numbered) {change change' : Frame → Frame}
    (movable : Frame.Movable change) (movable' : Frame.Movable change') (id : FrameId)
    (thread : Thread) :
    ((thread.inside context).modify (context.renumber id) change).modify (context.renumber id)
        change' =
      ((thread.modify id change).modify id change').inside context := by
  rw [modify_inside numbered movable, modify_inside numbered movable']

theorem pop_inside (numbered : context.Numbered) (linked : thread.Linked) (id : FrameId)
    (unwinding : Bool) :
    ((thread.inside context).pop (context.renumber id) unwinding).1.toOption =
        (thread.pop id unwinding).1.toOption ∧
      ((thread.inside context).pop (context.renumber id) unwinding).2 =
        (thread.pop id unwinding).2.inside context := by
  have found := top?_inside numbered linked
  cases frames_eq : thread.frames with
  | cons top rest =>
      have innermost := linked.current_eq frames_eq
      have alone : thread.top? = some top := by rw [linked.top?_eq, frames_eq, List.head?_cons]
      rw [alone] at found
      by_cases own : top.id = id
      · subst own
        have frames_inside : (thread.inside context).frames =
            top.inside context :: (rest.map (·.inside context) ++ context.frames) := by
          rw [inside, frames_eq]
          rfl
        have popped := (numbered.inside linked.toNumbered).pop_head frames_inside
          (congrArg (·.inside context) innermost) unwinding
        rw [show (top.inside context).id = context.renumber top.id from rfl] at popped
        rw [popped, linked.pop_head frames_eq innermost]
        exact ⟨rfl, rfl⟩
      · have other : (top.inside context).id ≠ context.renumber id :=
          fun equal => own (context.renumber_injective equal)
        rw [pop_other found other, pop_other alone own]
        exact ⟨rfl, rfl⟩
  | nil =>
      -- the innermost frame, if there is one, is one of the context
      have alone : thread.top? = none := by rw [linked.top?_eq, frames_eq, List.head?_nil]
      rw [alone, Option.map_none, Option.none_or] at found
      rw [pop_none alone]
      cases around : context.top? with
      | none =>
          rw [pop_none (found.trans around)]
          exact ⟨rfl, rfl⟩
      | some top =>
          have other : top.id ≠ context.renumber id :=
            numbered.frame_ne_renumber (mem_of_follow? around) id
          rw [pop_other (found.trans around) other]
          exact ⟨rfl, rfl⟩

/-- In the context, links lead through the frames of the procedure first. -/
theorem chain_inside (numbered : context.Numbered) (linked : thread.Linked) :
    (thread.inside context).chain =
      thread.chain.map (·.inside context) ++
        (thread.inside context).chainFrom context.frames.length context.current := by
  have within := numbered.inside linked.toNumbered
  have known : ∀ frame ∈ thread.frames.map (·.inside context),
      (thread.inside context).frame? frame.id = some frame :=
    fun frame member => within.frame?_eq (List.mem_append_left _ member)
  have length_eq : (thread.inside context).frames.length =
      (thread.frames.map (·.inside context)).length + context.frames.length := List.length_append
  rw [linked.chain_eq, chain, length_eq]
  exact chainFrom_eq (linked.chained.inside context) known _

theorem aim_inside (numbered : context.Numbered) (linked : thread.Linked) {kind : ExitKind}
    {target : OwnerTag} {value : UInt64} {payload : Payload} {aimed : Thread}
    (success : thread.aim kind target value = .ok (payload, aimed)) :
    (thread.inside context).aim kind target value =
      .ok (payload.inside context, aimed.inside context) := by
  obtain ⟨frame, found, rfl, rfl⟩ := Thread.aim_eq_ok success
  have alike : (fun frame : Frame => (frame.inside context).accepts kind target) =
      fun frame => frame.accepts kind target := rfl
  have found_inside :
      (thread.inside context).target? kind target = some (frame.inside context) := by
    rw [target?] at found
    rw [target?, chain_inside numbered linked, List.find?_append, List.find?_map,
      Function.comp_def, alike, found]
    rfl
  rw [aim, found_inside, ← modify_inside numbered (.aim kind value)]
  rfl

end Thread

/-! ## Runs put into a context -/

/-- The result of a run in a context is that of the run alone, put into the context. Of a run that
aborts alone, nothing is said. -/
inductive Relocated (context : Thread) (move : α → β) :
    Ending α × State (Scene ε) → Ending β × State (Scene ε) → Prop
  | returned {state} (value : α) (linked : state.thread.Linked) :
      Relocated context move (.returned value, state) (.returned (move value), state.inside context)
  | unwinding {state} (payload : Payload) (linked : state.thread.Linked) :
      Relocated context move (.unwinding payload, state)
        (.unwinding (payload.inside context), state.inside context)
  | aborted {state result} (cause : Abort) : Relocated context move (.aborted cause, state) result

theorem Relocated.of_eq {context : Thread} {move : α → β} {value : α} {value' : β}
    {state state' : State (Scene ε)} (linked : state.thread.Linked)
    (value_eq : value' = move value) (thread_eq : state'.thread = state.thread.inside context)
    (world_eq : state'.world = state.world.inside context) :
    Relocated context move (.returned value, state) (.returned value', state') := by
  obtain ⟨thread', world'⟩ := state'
  obtain rfl : thread' = _ := thread_eq
  obtain rfl : world' = _ := world_eq
  rw [value_eq]
  exact .returned value linked

/-- An action does in a context what an action does alone, and returns a value moved there. -/
def Relocates (context : Thread) (move : α → β) (alone : Act (Scene ε) α)
    (within : Act (Scene ε) β) : Prop :=
  ∀ state : State (Scene ε), state.thread.Linked →
    Relocated context move (alone state) (within (state.inside context))

namespace Relocates

variable {γ δ : Type} {context : Thread} {move : α → β} {move' : γ → δ}
  {alone : Act (Scene ε) α} {within : Act (Scene ε) β}

protected theorem pure (move : α → β) (value : α) :
    Relocates (ε := ε) context move (pure value) (pure (move value)) :=
  fun _ linked => .returned value linked

protected theorem unwind (payload : Payload) :
    Relocates (ε := ε) context move (Act.unwind payload) (Act.unwind (payload.inside context)) :=
  fun _ linked => .unwinding payload linked

protected theorem bind {next : α → Act (Scene ε) γ} {next' : β → Act (Scene ε) δ}
    (begins : Relocates context move alone within)
    (goesOn : ∀ value, Relocates context move' (next value) (next' (move value))) :
    Relocates context move' (alone >>= next) (within >>= next') := by
  intro state linked
  have relocated := begins state linked
  rw [Act.bind_apply, Act.bind_apply]
  generalize alone state = result at relocated
  generalize within (state.inside context) = result' at relocated
  cases relocated with
  | returned value linked => exact goesOn value _ linked
  | unwinding payload linked => exact .unwinding payload linked
  | aborted cause => exact .aborted cause

protected theorem catching {next : Except Payload α → Act (Scene ε) γ}
    {next' : Except Payload β → Act (Scene ε) δ} (begins : Relocates context move alone within)
    (returned : ∀ value, Relocates context move' (next (.ok value)) (next' (.ok (move value))))
    (caught : ∀ payload,
      Relocates context move' (next (.error payload)) (next' (.error (payload.inside context)))) :
    Relocates context move' (Act.catching alone >>= next) (Act.catching within >>= next') := by
  intro state linked
  have relocated := begins state linked
  rw [Act.bind_apply, Act.bind_apply, Act.catching_apply, Act.catching_apply]
  generalize alone state = result at relocated
  generalize within (state.inside context) = result' at relocated
  cases relocated with
  | returned value linked => exact returned value _ linked
  | unwinding payload linked => exact caught payload _ linked
  | aborted cause => exact .aborted cause

/-! ### What a procedure holds and sees -/

section Scene

theorem see (sight : Sight ε) :
    Relocates context id (Scene.see sight) (Scene.see (sight.inside context)) :=
  fun _ linked => .returned () linked

theorem perform (change : ε → ε) :
    Relocates context id (Scene.perform change) (Scene.perform change) :=
  fun state linked => .returned (change state.world.env) linked

theorem waiting : Relocates (ε := ε) context id Scene.waiting Scene.waiting := by
  intro state linked
  have same : (state.inside context).thread.exitPending = state.thread.exitPending := by
    simp [State.inside, Thread.inside, Thread.exitPending]
  simp only [Scene.waiting, Act.bind_apply, Act.thread_apply, Act.pure_apply, same]
  exact .returned _ linked

theorem issue (number : FrameId) :
    Relocates (ε := ε) context id (Scene.issue number) (Scene.issue (context.renumber number)) :=
  fun state linked => .returned state.world.issued linked

theorem put (guard : Handle) (number : FrameId) :
    Relocates (ε := ε) context id (Scene.put guard number)
      (Scene.put guard (context.renumber number)) :=
  fun _ linked => .returned () linked

theorem lookup_inside (guards : List (Handle × FrameId)) (guard : Handle) :
    (guards.map fun held => (held.1, context.renumber held.2)).lookup guard =
      (guards.lookup guard).map context.renumber := by
  induction guards with
  | nil => rfl
  | cons held guards induction =>
      obtain ⟨handle, number⟩ := held
      simp only [List.map_cons, List.lookup_cons, induction]
      cases guard == handle <;> rfl

theorem take (guard : Handle) :
    Relocates (ε := ε) context (Option.map context.renumber) (Scene.take guard)
      (Scene.take guard) := by
  intro state linked
  refine .of_eq linked (lookup_inside state.world.guards guard) rfl ?_
  simp only [Scene.inside, State.inside, List.eraseP_map, Function.comp_def]

theorem watching {alone within : Act (Scene ε) Outcome}
    (relocates : Relocates context id alone within) :
    Relocates context id (Scene.watching alone) (Scene.watching within) := by
  refine .catching relocates (fun outcome => ?_) fun payload => ?_
  · exact .bind (see (.returned outcome)) fun _ => .pure id outcome
  · exact .bind (see (.left payload)) fun _ => .unwind payload

end Scene

/-! ### Operations on frames -/

section Frames

theorem parkPayload (payload : Payload) :
    Relocates (ε := ε) context id (Act.onThread (·.park payload))
      (Act.onThread (·.park (payload.inside context))) :=
  fun _ linked => .of_eq (linked.withPending _) rfl rfl rfl

theorem resumePending : Relocates (ε := ε) context id Act.resumePending Act.resumePending := by
  intro state linked
  have pending_eq : (state.inside context).thread.pending =
    state.thread.pending.map (·.inside context) := rfl
  rw [Act.resumePending_apply, Act.resumePending_apply, pending_eq]
  cases state.thread.pending with
  | none => exact .returned () linked
  | some payload =>
      have resumed : ({ state with thread := state.thread.clear } :
        State (Scene ε)).thread.Linked := linked.withPending none
      exact .unwinding payload resumed

theorem runNative {body body' : Act (Scene ε) UInt64}
    (relocates : Relocates context id body body') :
    Relocates context id (Act.runNative body) (Act.runNative body') := by
  refine .catching relocates (fun value => .pure id value) fun payload => ?_
  exact .bind (parkPayload payload) fun _ => .pure id 0

variable (numbered : context.Numbered)
include numbered

theorem pushFrame (tag : OwnerTag) :
    Relocates (ε := ε) context context.renumber (Act.pushFrame tag) (Act.pushFrame tag) :=
  fun _ linked => .of_eq (linked.push tag) rfl (Thread.push_inside numbered linked tag) rfl

theorem pop (number : FrameId) :
    Relocates (ε := ε) context id (Scene.pop number) (Scene.pop (context.renumber number)) := by
  intro state linked
  obtain ⟨phase_eq, thread_eq⟩ := Thread.pop_inside numbered linked number false
  exact .of_eq (linked.pop number false) phase_eq thread_eq rfl

theorem dropFrame (number : FrameId) (unwinding : Bool) :
    Relocates (ε := ε) context id (Act.dropFrame number unwinding)
      (Act.dropFrame (context.renumber number) unwinding) := by
  intro state linked
  have thread_eq := (Thread.pop_inside numbered linked number unwinding).2
  exact .of_eq (linked.pop number unwinding) rfl thread_eq rfl

theorem aimExit (kind : ExitKind) (target : OwnerTag) (value : UInt64) :
    Relocates (ε := ε) context (·.inside context) (Act.aimExit kind target value)
      (Act.aimExit kind target value) := by
  intro state linked
  rw [Act.aimExit_apply, Act.aimExit_apply]
  cases aimed : state.thread.aim kind target value with
  | error error => exact .aborted _
  | ok result =>
      obtain ⟨payload, thread⟩ := result
      have inside : (state.inside context).thread.aim kind target value = _ :=
        Thread.aim_inside numbered linked aimed
      simp only [inside]
      exact .of_eq (linked.aim aimed) rfl rfl rfl

theorem parkExit (kind : ExitKind) (target : OwnerTag) (value : UInt64) :
    Relocates (ε := ε) context id (Act.parkExit kind target value)
      (Act.parkExit kind target value) :=
  .bind (aimExit numbered kind target value) parkPayload

theorem conclude {state : State (Scene ε)} (linked : state.thread.Linked) (number : FrameId)
    (serial : Nat) (payload : Payload) :
    Relocated context id (Act.conclude number serial payload state)
      (Act.conclude (context.renumber number) (context.renumber serial) (payload.inside context)
        (state.inside context)) := by
  have ended : (state.thread.modify number Frame.disarm |>.modify number Frame.abandon).Linked :=
    (linked.modify number .disarm).modify number .abandon
  have thread_eq := Thread.modify_modify_inside numbered .disarm .abandon number state.thread
  have inside_thread : (state.inside context).thread = state.thread.inside context := rfl
  cases payload with
  | foreign message =>
      simp only [Act.conclude, Payload.inside, inside_thread, thread_eq]
      exact .unwinding (.foreign message) ended
  | exit target kind =>
      by_cases own : target = serial
      · simp only [Act.conclude, Payload.inside, inside_thread, thread_eq, own, if_true,
          Thread.frame?_inside numbered, Option.map_map, Function.comp_def, Frame.inside]
        exact .of_eq ended rfl rfl rfl
      · have other : context.renumber target ≠ context.renumber serial :=
          fun equal => own (context.renumber_injective equal)
        simp only [Act.conclude, Payload.inside, inside_thread, thread_eq, own, other, if_false]
        exact .unwinding (.exit target kind) ended

theorem exec (number : FrameId) {body body' : Act (Scene ε) UInt64}
    (relocates : Relocates context id body body') :
    Relocates context id (Act.exec number body) (Act.exec (context.renumber number) body') := by
  intro state linked
  let entered : State (Scene ε) := { state with thread := state.thread.modify number Frame.arm }
  have entered_inside : ({ state.inside context with
      thread := (state.inside context).thread.modify (context.renumber number) Frame.arm } :
        State (Scene ε)) = entered.inside context :=
    congrArg (State.mk · _) (Thread.modify_inside numbered .arm number state.thread)
  have serial_eq : (state.inside context).thread.serialOf (context.renumber number) = _ :=
    Thread.serialOf_inside numbered number state.thread
  have relocated := relocates entered (linked.modify number .arm)
  rw [Act.exec_apply, Act.exec_apply, entered_inside, serial_eq]
  generalize body entered = result at relocated
  generalize body' (entered.inside context) = result' at relocated
  cases relocated with
  | unwinding payload after => exact conclude numbered after ..
  | aborted cause => exact .aborted cause
  | @returned reached value after =>
      have pending_eq : (reached.inside context).thread.pending =
        reached.thread.pending.map (·.inside context) := rfl
      cases waits : reached.thread.pending with
      | some payload =>
          simp only [waits, pending_eq, Option.map_some]
          have resumed : ({ reached with thread := reached.thread.clear } :
            State (Scene ε)).thread.Linked := after.withPending none
          exact conclude numbered resumed ..
      | none =>
          simp only [waits, pending_eq, Option.map_none]
          have ended := (after.modify number .disarm).modify number (.complete value)
          refine .of_eq ended rfl ?_ rfl
          exact Thread.modify_modify_inside numbered .disarm (.complete value) number reached.thread

theorem guarding (number : FrameId) {action action' : Act (Scene ε) α}
    (relocates : Relocates context id action action') :
    Relocates context id (Act.guarding number action)
      (Act.guarding (context.renumber number) action') := by
  refine .catching relocates (fun value => .pure id value) fun payload => ?_
  exact .bind (dropFrame numbered number true) fun _ => .unwind payload

theorem protect (tag : OwnerTag) {body body' : Act (Scene ε) UInt64}
    (relocates : Relocates context id body body') :
    Relocates context id (Act.protect tag body) (Act.protect tag body') := by
  refine .bind (pushFrame numbered tag) fun number => ?_
  refine .bind (guarding numbered number (exec numbered number relocates)) fun outcome => ?_
  exact .bind (dropFrame numbered number false) fun _ => .pure id outcome

end Frames

end Relocates

/-- A procedure does in a context what it does alone. -/
theorem Procedure.relocates_run (procedure : Procedure ε) {context : Thread}
    (numbered : context.Numbered) :
    Relocates context id procedure.run procedure.run := by
  induction procedure with
  | done value => exact .pure id value
  | effect change next induction => exact .bind (.perform change) induction
  | waiting next induction => exact .bind .waiting induction
  | push tag next induction =>
      refine .bind (.pushFrame numbered tag) fun number => ?_
      exact .bind (.issue number) induction
  | exec guard body next body_induction next_induction =>
      rw [run]
      refine .bind (.take guard) fun taken => ?_
      cases taken with
      | none => exact next_induction none
      | some number =>
          refine .catching (.watching (.exec numbered number body_induction)) (fun outcome => ?_)
            fun payload => ?_
          · exact .bind (.put guard number) fun _ => next_induction (some outcome)
          · exact .bind (.put guard number) fun _ => .unwind payload
  | pop guard next induction =>
      rw [run]
      refine .bind (.take guard) fun taken => ?_
      cases taken with
      | none => exact induction none
      | some number => exact .bind (.pop numbered number) fun phase => induction (some phase)
  | drop guard next induction =>
      refine .bind (.take guard) fun taken => ?_
      cases taken with
      | none => exact induction
      | some number => exact .bind (.dropFrame numbered number false) fun _ => induction
  | owning guard body next body_induction next_induction =>
      rw [run]
      refine .catching body_induction next_induction fun payload => ?_
      refine .bind (.take guard) fun taken => ?_
      cases taken with
      | none => exact .unwind payload
      | some number => exact .bind (.dropFrame numbered number true) fun _ => .unwind payload
  | protect tag body next body_induction next_induction =>
      exact .bind (.watching (.protect numbered tag body_induction)) next_induction
  | signal kind target value =>
      exact .bind (.aimExit numbered kind target value) fun payload => .unwind payload
  | park kind target value next induction =>
      exact .bind (.parkExit numbered kind target value) fun _ => induction
  | resume next induction => exact .bind .resumePending fun _ => induction
  | native body next body_induction next_induction =>
      exact .bind (.runNative body_induction) next_induction
  | fail message => exact .unwind (.foreign message)

theorem Procedure.relocated_run (procedure : Procedure ε) (env : ε) {context : Thread}
    (numbered : context.Numbered) (calm : context.pending = none) :
    Relocated context id (procedure.run ⟨.fresh, { env }⟩) (procedure.run ⟨context, { env }⟩) := by
  have begins : State.inside ⟨.fresh, { env }⟩ context = ⟨context, { env }⟩ :=
    congrArg (fun thread => (⟨thread, { env }⟩ : State (Scene ε)))
      (Thread.fresh_inside numbered calm)
  rw [← begins]
  exact procedure.relocates_run numbered ⟨.fresh, { env }⟩ .fresh

/-- On a thread that a run comes to with nothing waiting, a procedure that returns alone returns the
same value, and all that it leaves behind is what it leaves alone, put into the context. -/
theorem Thread.Reachable.run_procedure {context : Thread} (reachable : context.Reachable)
    (calm : context.pending = none) {procedure : Procedure ε} {env : ε} {value : UInt64}
    {alone : State (Scene ε)}
    (returns : procedure.run ⟨.fresh, { env }⟩ = (.returned value, alone)) :
    procedure.run ⟨context, { env }⟩ = (.returned value, alone.inside context) := by
  have relocated := procedure.relocated_run env reachable.linked.toNumbered calm
  rw [returns] at relocated
  generalize procedure.run ⟨context, { env }⟩ = result at relocated
  cases relocated with
  | returned value linked => rfl

/-- Procedures do not depend on their context: unless a procedure aborts alone, it does in a context
what it does alone, under other numbers, and leaves the frames of the context as they were. -/
theorem Procedure.run_in_context (procedure : Procedure ε) (env : ε) (context : Thread)
    (numbered : context.Numbered) (calm : context.pending = none)
    (alive : ∀ cause, (procedure.run ⟨.fresh, { env }⟩).1 ≠ .aborted cause) :
    let alone := procedure.run ⟨.fresh, { env }⟩
    let within := procedure.run ⟨context, { env }⟩
    -- the same way of ending, the same effects and outcomes, and the same waits
    within.1 = alone.1.inside context ∧
      within.2.world.env = alone.2.world.env ∧
      within.2.world.journal = alone.2.world.journal.map (·.inside context) ∧
      within.2.thread.pending = alone.2.thread.pending.map (·.inside context) ∧
      -- the frames of the procedure that are left, above those of the context
      within.2.thread.frames =
        alone.2.thread.frames.map (·.inside context) ++ context.frames ∧
      within.2.thread.current = alone.2.thread.current.inside context := by
  intro alone within
  have relocated := procedure.relocated_run env numbered calm
  change Relocated context id alone within at relocated
  change ∀ cause, alone.1 ≠ .aborted cause at alive
  generalize alone = result at relocated alive
  generalize within = result' at relocated
  cases relocated with
  | returned value linked => exact ⟨rfl, rfl, rfl, rfl, rfl, rfl⟩
  | unwinding payload linked => exact ⟨rfl, rfl, rfl, rfl, rfl, rfl⟩
  | aborted cause => exact absurd rfl (alive cause)

/-- An exit leaves one region for another, and then a failure is left to wait. -/
def Procedure.wandering : Procedure Nat :=
  .push ⟨10⟩ fun guard =>
    .exec guard
      (.protect ⟨20⟩ (.effect (· + 1) fun _ => .signal .throw ⟨10⟩ 7) fun _ => .done 0)
      fun _ => .pop guard fun _ => .native (.fail "lost") fun _ => .done 5

/-- A frame with the tag of the outer region is being executed, and one with the tag of the inner
region is not. -/
def Thread.lookalike : Thread where
  current := .frame 4
  frames := [{ id := 4, token := ⟨4, 2⟩, tag := ⟨20⟩, prev := .frame 2 },
    { id := 2, token := ⟨2, 1⟩, tag := ⟨10⟩, armedWord := 1 }]
  nextSerial := 6

theorem Procedure.wandering_journal :
    (wandering.run ⟨.fresh, { env := 0 }⟩).2.world.journal =
      [.returned (.unwound .throw 7), .left (.exit 1 .throw), .effect 1] := by
  decide +kernel

/-- The exit lands on the frame of the procedure, not on the one that has its tag. -/
theorem Procedure.run_in_context_lookalike :
    let within := wandering.run ⟨.lookalike, { env := 0 }⟩
    within.1 = .returned 5 ∧
      within.2.world.journal =
        [.returned (.unwound .throw 7), .left (.exit 6 .throw), .effect 1] ∧
      within.2.thread.pending = some (.foreign "lost") ∧
      within.2.thread.frames = Thread.lookalike.frames := by
  have ending : (wandering.run ⟨.fresh, { env := 0 }⟩).1 = .returned 5 := by decide +kernel
  have waits : (wandering.run ⟨.fresh, { env := 0 }⟩).2.thread.pending =
      some (.foreign "lost") := by
    decide +kernel
  have spent : (wandering.run ⟨.fresh, { env := 0 }⟩).2.thread.frames = [] := by decide +kernel
  obtain ⟨ending_eq, -, journal_eq, pending_eq, frames_eq, -⟩ := wandering.run_in_context 0
    .lookalike ⟨by decide, by decide, by decide, by decide⟩ rfl (by simp [ending])
  rw [ending] at ending_eq
  rw [wandering_journal] at journal_eq
  rw [waits] at pending_eq
  rw [spent] at frames_eq
  exact ⟨ending_eq, journal_eq, pending_eq, frames_eq⟩

end HostBridge
