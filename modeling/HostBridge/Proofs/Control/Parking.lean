import HostBridge.Proofs.Control.Action

/-!
# Parking refines unwinding

A script of nested regions can be run in two ways. Plainly: regions are protected, exits unwind, and
so do failures of helpers. Or as generated code runs, which must not be unwound: exits and failures
are parked, and after every call the body returns zero while something waits. The two are the same
to an observer. Only the calls of regions that something passes through are seen in the second way
alone; they return zero and leave the cell for the outcome's code as it was.
-/

namespace HostBridge

/-- A script of nested regions, with effects on an environment. -/
inductive Script (ε : Type) where
  /-- Return a value. -/
  | done (value : UInt64)
  /-- Change the environment, and go on by what it is then. -/
  | effect (change : ε → ε) (next : ε → Script ε)
  /-- Exit. What follows is not run. -/
  | signal (kind : ExitKind) (target : OwnerTag) (value : UInt64) (next : Script ε)
  /-- Enter a region, and go on by its value and its code. -/
  | region (tag : OwnerTag) (body : Script ε) (next : UInt64 → UInt32 → Script ε)
  /-- Call a helper, which is run plainly in either way, and go on by its value. -/
  | call (helper : Script ε) (next : UInt64 → Script ε)
  /-- Fail, as a helper may. -/
  | fail (message : String)

/-- What an observer sees. -/
inductive Entry (ε : Type) where
  /-- The environment after an effect. -/
  | effect (env : ε)
  /-- The call of a region returned with nothing waiting: its value, and what it wrote to the cell
  for the code. -/
  | returned (value : UInt64) (code : Option UInt32)
  /-- The call of a region returned while something waited. -/
  | passed (value : UInt64) (code : Option UInt32)
deriving DecidableEq

/-- Whether something passed through a region. -/
def Entry.isPassed {ε : Type} : Entry ε → Bool
  | .passed _ _ => true
  | _ => false

/-- An environment under observation. -/
structure Observed (ε : Type) where
  /-- The environment. -/
  env : ε
  /-- What was seen, newest first. -/
  journal : List (Entry ε) := []

namespace Script

variable {ε : Type}

/-- Change the environment, before the eyes of the observer. -/
def perform (change : ε → ε) : Act (Observed ε) ε := do
  Act.onWorld fun world =>
    { env := change world.env, journal := .effect (change world.env) :: world.journal }
  let world ← Act.world
  pure world.env

/-- Let the observer see how the call of a region returned. -/
def observe (value : UInt64) (code : Option UInt32) : Act (Observed ε) Unit := do
  let thread ← Act.thread
  Act.onWorld fun world =>
    { world with
      journal :=
        (if thread.exitPending then .passed value code else .returned value code)
          :: world.journal }

/-- Return zero while something waits, and otherwise go on. -/
def checked (next : Act (Observed ε) UInt64) : Act (Observed ε) UInt64 := do
  let thread ← Act.thread
  if thread.exitPending then pure 0 else next

/-- Run a script plainly. -/
def unwinding : Script ε → Act (Observed ε) UInt64
  | .done value => pure value
  | .effect change next => do
      let env ← perform change
      (next env).unwinding
  | .signal kind target value _ => Act.signalExit kind target value
  | .region tag body next => do
      let outcome ← Act.protect tag body.unwinding
      observe outcome.value (some outcome.code)
      (next outcome.value outcome.code).unwinding
  | .call helper next => do
      let value ← helper.unwinding
      (next value).unwinding
  | .fail message => Act.unwind (.foreign message)

/-- Run a script as generated code runs. -/
def parking : Script ε → Act (Observed ε) UInt64
  | .done value => pure value
  | .effect change next => do
      let env ← perform change
      (next env).parking
  | .signal kind target value next => do
      Act.frameSignal kind.code target value
      checked next.parking
  | .region tag body next => do
      let (value, code) ← Act.frameProtect tag body.parking
      observe value code
      checked (next value (code.getD 0)).parking
  | .call helper next => do
      let value ← Act.runNative helper.unwinding
      checked (next value).parking
  | .fail message => do
      let value ← Act.runNative (Act.unwind (.foreign message))
      checked (pure value)

end Script

/-! ## Runs compared -/

namespace Parking

variable {ε α β : Type}

/-- What was seen agrees, apart from the regions that something passed through. -/
structure Agrees (plain parked : Observed ε) : Prop where
  env_eq : parked.env = plain.env
  journal_eq : parked.journal.filter (!·.isPassed) = plain.journal
  untouched : ∀ value code, .passed value code ∈ parked.journal → value = 0 ∧ code = none

/-- States with one control state, in which nothing waits and what was seen agrees. -/
structure Tied (plain parked : State (Observed ε)) : Prop where
  thread_eq : parked.thread = plain.thread
  calm : plain.thread.pending = none
  agrees : Agrees plain.world parked.world

/-- Two runs that ended the same way. -/
inductive Same : Ending α × State (Observed ε) → Ending α × State (Observed ε) → Prop
  | of_tied (ending : Ending α) {plain parked} (tied : Tied plain parked) :
      Same (ending, plain) (ending, parked)

/-- Two runs of a body: they ended the same way, or the plain one unwinds where the other returned
zero and let the unwind wait. -/
inductive Ends : Ending UInt64 × State (Observed ε) → Ending UInt64 × State (Observed ε) → Prop
  | same {plain parked} (same : Same plain parked) : Ends plain parked
  | waits {plain parked} (payload : Payload) (tied : Tied plain parked) :
      Ends (.unwinding payload, plain)
        (.returned 0, { parked with thread := parked.thread.park payload })

namespace Tied

variable {plain parked : State (Observed ε)}

theorem parked_calm (tied : Tied plain parked) : parked.thread.pending = none := by
  rw [tied.thread_eq]
  exact tied.calm

/-- The same change of the control state, after which still nothing waits. -/
theorem change (tied : Tied plain parked) (change : Thread → Thread)
    (calm : (change plain.thread).pending = none) :
    Tied { plain with thread := change plain.thread }
      { parked with thread := change parked.thread } :=
  ⟨congrArg change tied.thread_eq, calm, tied.agrees⟩

end Tied

theorem Same.of_eq {plain parked : Ending α × State (Observed ε)} (ending_eq : parked.1 = plain.1)
    (tied : Tied plain.2 parked.2) : Same plain parked := by
  obtain ⟨ending, reached⟩ := plain
  obtain ⟨ending', reached'⟩ := parked
  obtain rfl : ending' = ending := ending_eq
  exact .of_tied _ tied

theorem Same.ending_eq {plain parked : Ending α × State (Observed ε)} (same : Same plain parked) :
    parked.1 = plain.1 := by
  cases same
  rfl

theorem Same.tied {plain parked : Ending α × State (Observed ε)} (same : Same plain parked) :
    Tied plain.2 parked.2 := by
  cases same with
  | of_tied ending tied => exact tied

theorem Same.bind {action action' : Act (Observed ε) α} {next next' : α → Act (Observed ε) β}
    {plain parked : State (Observed ε)} (begins : Same (action plain) (action' parked))
    (goesOn : ∀ value plain parked, Tied plain parked →
      Same (next value plain) (next' value parked)) :
    Same ((action >>= next) plain) ((action' >>= next') parked) := by
  rw [Act.bind_apply, Act.bind_apply]
  generalize action plain = first at begins
  generalize action' parked = second at begins
  obtain ⟨ending, tied⟩ := begins
  cases ending with
  | returned value => exact goesOn value _ _ tied
  | unwinding payload => exact .of_tied _ tied
  | aborted cause => exact .of_tied _ tied

/-! ### Regions -/

section Region

variable {plain parked : State (Observed ε)} {id : FrameId}
  {body body' : Act (Observed ε) UInt64}

theorem Same.conclude (tied : Tied plain parked) (id : FrameId) (serial : Nat)
    (payload : Payload) :
    Same (Act.conclude id serial payload plain) (Act.conclude id serial payload parked) := by
  have ended : Tied
      { plain with thread := (plain.thread.modify id Frame.disarm).modify id Frame.abandon }
      { parked with thread := (parked.thread.modify id Frame.disarm).modify id Frame.abandon } :=
    tied.change (fun thread => (thread.modify id Frame.disarm).modify id Frame.abandon) tied.calm
  cases payload with
  | foreign message => exact .of_tied _ ended
  | exit target kind =>
      by_cases own : target = serial
      · simp only [Act.conclude, own, if_true]
        refine .of_eq ?_ ended
        simp only [tied.thread_eq]
      · simp only [Act.conclude, own, if_false]
        exact .of_tied _ ended

theorem clear_park {thread : Thread} (calm : thread.pending = none) (payload : Payload) :
    (thread.park payload).clear = thread := by
  rw [Thread.park, Thread.clear, ← calm]

/-- A region resumes what its body let wait, so that it ends as the plain one does. -/
theorem Same.exec (inner : ∀ plain parked, Tied plain parked → Ends (body plain) (body' parked))
    (id : FrameId) (tied : Tied plain parked) :
    Same (Act.exec id body plain) (Act.exec id body' parked) := by
  have ends := inner _ _ (tied.change (·.modify id Frame.arm) tied.calm)
  rw [Act.exec_apply, Act.exec_apply, tied.thread_eq]
  rw [tied.thread_eq] at ends
  generalize body { plain with thread := plain.thread.modify id Frame.arm } = first at ends
  generalize body' { parked with thread := plain.thread.modify id Frame.arm } = second at ends
  cases ends with
  | @waits reached reached' payload tied =>
      have resumed : ({ reached' with thread := (reached'.thread.park payload).clear } :
          State (Observed ε)) = reached' := by
        rw [clear_park tied.parked_calm]
      change Same _ (Act.conclude id _ payload
        { reached' with thread := (reached'.thread.park payload).clear })
      rw [resumed]
      exact .conclude tied ..
  | same same =>
      obtain ⟨ending, tied⟩ := same
      cases ending with
      | returned value =>
          have calm := tied.calm
          simp only [calm, tied.parked_calm]
          exact .of_tied _ (tied.change
            (fun thread => (thread.modify id Frame.disarm).modify id (Frame.complete value)) calm)
      | unwinding payload => exact .conclude tied ..
      | aborted cause => exact .of_tied _ tied

theorem Same.pop (tied : Tied plain parked) (id : FrameId) (unwinding : Bool) :
    Same (Act.dropFrame id unwinding plain) (Act.dropFrame id unwinding parked) := by
  refine .of_tied _ (tied.change (fun thread => (thread.pop id unwinding).2) ?_)
  rw [Thread.pop_pending]
  exact tied.calm

theorem Same.guarding {action action' : Act (Observed ε) α}
    (same : Same (action plain) (action' parked)) (id : FrameId) :
    Same (Act.guarding id action plain) (Act.guarding id action' parked) := by
  simp only [Act.guarding, Act.bind_apply, Act.catching_apply]
  generalize action plain = first at same
  generalize action' parked = second at same
  obtain ⟨ending, tied⟩ := same
  cases ending with
  | returned value => exact .of_tied _ tied
  | aborted cause => exact .of_tied _ tied
  | unwinding payload => exact (Same.pop tied id true).bind fun _ _ _ tied => .of_tied _ tied

theorem Same.protect (inner : ∀ plain parked, Tied plain parked → Ends (body plain) (body' parked))
    (tag : OwnerTag) (tied : Tied plain parked) :
    Same (Act.protect tag body plain) (Act.protect tag body' parked) := by
  have pushed : Same (Act.pushFrame tag plain) (Act.pushFrame tag parked) := by
    refine .of_eq ?_ (tied.change (·.push tag) tied.calm)
    simp only [Act.pushFrame_apply, tied.thread_eq]
  refine pushed.bind fun id plain parked tied => ?_
  refine Same.bind ?_ fun outcome plain parked tied => ?_
  · exact (Same.exec inner id tied).guarding id
  · exact (Same.pop tied id false).bind fun _ _ _ tied => .of_tied _ tied

end Region

/-! ### What an observer sees -/

section Observer

variable {plain parked : State (Observed ε)}

theorem Same.perform (tied : Tied plain parked) (change : ε → ε) :
    Same (Script.perform change plain) (Script.perform change parked) := by
  obtain ⟨env_eq, journal_eq, untouched⟩ := tied.agrees
  refine .of_eq (congrArg (fun env => Ending.returned (change env)) env_eq)
    ⟨tied.thread_eq, tied.calm, congrArg change env_eq, ?_, fun value code member => ?_⟩
  · change Entry.effect (change parked.world.env) :: parked.world.journal.filter _ = _
    rw [journal_eq, env_eq]
    rfl
  · exact untouched value code ((List.mem_cons.mp member).resolve_left nofun)

theorem observe_calm {state : State (Observed ε)} (calm : state.thread.pending = none)
    (value : UInt64) (code : Option UInt32) :
    Script.observe value code state =
      (.returned (),
        { state with
          world :=
            { state.world with journal := .returned value code :: state.world.journal } }) := by
  simp only [Script.observe, Act.bind_apply, Act.thread_apply, Act.onWorld_apply,
    Thread.exitPending, calm]
  rfl

theorem Same.observe (tied : Tied plain parked) (value : UInt64) (code : Option UInt32) :
    Same (Script.observe value code plain) (Script.observe value code parked) := by
  obtain ⟨env_eq, journal_eq, untouched⟩ := tied.agrees
  rw [observe_calm tied.calm, observe_calm tied.parked_calm]
  refine .of_tied _ ⟨tied.thread_eq, tied.calm, env_eq, ?_, fun value' code' member => ?_⟩
  · change Entry.returned value code :: parked.world.journal.filter _ = _
    rw [journal_eq]
  · exact untouched value' code' ((List.mem_cons.mp member).resolve_left nofun)

/-- The call of a region that something passed through is seen on one side only. -/
theorem Tied.passed (tied : Tied plain parked) :
    Tied plain
      { parked with
        world := { parked.world with journal := .passed 0 none :: parked.world.journal } } where
  thread_eq := tied.thread_eq
  calm := tied.calm
  agrees :=
    { env_eq := tied.agrees.env_eq
      journal_eq := tied.agrees.journal_eq
      untouched := by
        intro value code member
        rcases List.mem_cons.mp member with same | older
        · cases same
          exact ⟨rfl, rfl⟩
        · exact tied.agrees.untouched value code older }

end Observer

/-! ### Calls and their checks -/

section Call

variable {plain parked : State (Observed ε)}

theorem checked_waits (next : Act (Observed ε) UInt64) (state : State (Observed ε))
    (payload : Payload) :
    Script.checked next { state with thread := state.thread.park payload } =
      (.returned 0, { state with thread := state.thread.park payload }) := rfl

theorem checked_calm (next : Act (Observed ε) UInt64) {state : State (Observed ε)}
    (calm : state.thread.pending = none) : Script.checked next state = next state := by
  have idle : ¬state.thread.exitPending = true := by simp [Thread.exitPending, calm]
  simp only [Script.checked, Act.bind_apply, Act.thread_apply, if_neg idle]

theorem Ends.of_tied (ending : Ending UInt64) (tied : Tied plain parked) :
    Ends (ending, plain) (ending, parked) :=
  .same (.of_tied _ tied)

/-- After a call, the check lets the body go on just when the plain call returned. -/
theorem Ends.bind_checked {action action' : Act (Observed ε) UInt64}
    {next next' : UInt64 → Act (Observed ε) UInt64} (begins : Ends (action plain) (action' parked))
    (goesOn : ∀ value plain parked, Tied plain parked →
      Ends (next value plain) (next' value parked)) :
    Ends ((action >>= next) plain)
      ((action' >>= fun value => Script.checked (next' value)) parked) := by
  rw [Act.bind_apply, Act.bind_apply]
  generalize action plain = first at begins
  generalize action' parked = second at begins
  cases begins with
  | waits payload tied =>
      simp only [checked_waits]
      exact .waits payload tied
  | same same =>
      obtain ⟨ending, tied⟩ := same
      cases ending with
      | unwinding payload => exact .of_tied _ tied
      | aborted cause => exact .of_tied _ tied
      | returned value =>
          simp only [checked_calm _ tied.parked_calm]
          exact goesOn value _ _ tied

theorem Ends.runNative {action action' : Act (Observed ε) UInt64}
    (same : Same (action plain) (action' parked)) :
    Ends (action plain) (Act.runNative action' parked) := by
  rw [Act.runNative_apply]
  generalize action plain = first at same
  generalize action' parked = second at same
  obtain ⟨ending, tied⟩ := same
  cases ending with
  | returned value => exact .of_tied _ tied
  | unwinding payload => exact .waits payload tied
  | aborted cause => exact .of_tied _ tied

end Call

/-! ### Scripts -/

section Script

variable {plain parked : State (Observed ε)}

theorem aim_pending {thread aimed : Thread} {kind : ExitKind} {target : OwnerTag} {value : UInt64}
    {payload : Payload} (success : thread.aim kind target value = .ok (payload, aimed)) :
    aimed.pending = thread.pending := by
  obtain ⟨frame, -, -, rfl⟩ := Thread.aim_eq_ok success
  rfl

/-- A script that is run plainly on both sides. -/
theorem unwinding_same (script : Script ε) {plain parked : State (Observed ε)}
    (tied : Tied plain parked) : Same (script.unwinding plain) (script.unwinding parked) := by
  induction script generalizing plain parked with
  | done value => exact .of_tied _ tied
  | effect change next induction =>
      exact (Same.perform tied change).bind fun env _ _ tied => induction env tied
  | signal kind target value next =>
      rw [Script.unwinding, Act.signalExit_apply, Act.signalExit_apply, tied.thread_eq]
      cases aimed : plain.thread.aim kind target value with
      | error error => exact .of_tied _ tied
      | ok result =>
          exact .of_tied _ ⟨rfl, (aim_pending aimed).trans tied.calm, tied.agrees⟩
  | region tag body next body_induction next_induction =>
      have entered := Same.protect (fun _ _ tied => .same (body_induction tied)) tag tied
      refine entered.bind fun outcome _ _ tied => ?_
      exact (Same.observe tied outcome.value (some outcome.code)).bind fun _ _ _ tied =>
        next_induction outcome.value outcome.code tied
  | call helper next helper_induction next_induction =>
      exact (helper_induction tied).bind fun value _ _ tied => next_induction value tied
  | fail message => exact .of_tied _ tied

theorem Ends.bind {action action' : Act (Observed ε) α} {next next' : α → Act (Observed ε) UInt64}
    (begins : Same (action plain) (action' parked))
    (goesOn : ∀ value plain parked, Tied plain parked →
      Ends (next value plain) (next' value parked)) :
    Ends ((action >>= next) plain) ((action' >>= next') parked) := by
  rw [Act.bind_apply, Act.bind_apply]
  generalize action plain = first at begins
  generalize action' parked = second at begins
  obtain ⟨ending, tied⟩ := begins
  cases ending with
  | returned value => exact goesOn value _ _ tied
  | unwinding payload => exact .of_tied _ tied
  | aborted cause => exact .of_tied _ tied

theorem ofCode?_code (kind : ExitKind) : ExitKind.ofCode? kind.code = some kind := by
  cases kind <;> rfl

theorem Ends.signal (tied : Tied plain parked) (kind : ExitKind) (target : OwnerTag)
    (value : UInt64) (next : Act (Observed ε) UInt64) :
    Ends (Act.signalExit kind target value plain)
      ((Act.frameSignal kind.code target value >>= fun _ => Script.checked next) parked) := by
  simp only [Act.frameSignal, ofCode?_code, Act.bind_apply]
  rw [Act.signalExit_apply, Act.parkExit_apply, tied.thread_eq]
  cases aimed : plain.thread.aim kind target value with
  | error error => exact .of_tied _ tied
  | ok result =>
      obtain ⟨payload, thread⟩ := result
      have calm : thread.pending = none := (aim_pending aimed).trans tied.calm
      have after : Tied { plain with thread } { parked with thread } := ⟨rfl, calm, tied.agrees⟩
      exact .waits payload after

/-- The call of a region returns what the plain region returned, or leaves the cell for the code
alone and lets the body return. -/
theorem Ends.region {body body' : Act (Observed ε) UInt64}
    {next next' : UInt64 → UInt32 → Act (Observed ε) UInt64}
    (inner : ∀ plain parked, Tied plain parked → Ends (body plain) (body' parked))
    (goesOn : ∀ value code plain parked, Tied plain parked →
      Ends (next value code plain) (next' value code parked)) (tag : OwnerTag)
    (tied : Tied plain parked) :
    Ends
      ((do
        let outcome ← Act.protect tag body
        Script.observe outcome.value (some outcome.code)
        next outcome.value outcome.code : Act (Observed ε) UInt64) plain)
      ((do
        let (value, code) ← Act.frameProtect tag body'
        Script.observe value code
        Script.checked (next' value (code.getD 0)) : Act (Observed ε) UInt64) parked) := by
  have entered := Same.protect inner tag tied
  rw [Act.bind_apply, Act.bind_apply, Act.frameProtect_apply]
  generalize Act.protect tag body plain = first at entered
  generalize Act.protect tag body' parked = second at entered
  obtain ⟨ending, tied⟩ := entered
  cases ending with
  | aborted cause => exact .of_tied _ tied
  | unwinding payload => exact .waits payload tied.passed
  | returned outcome =>
      refine Ends.bind (Same.observe tied outcome.value (some outcome.code))
        fun _ plain parked tied => ?_
      rw [checked_calm _ tied.parked_calm]
      exact goesOn outcome.value outcome.code plain parked tied

/-- A script run plainly, and the same script run as generated code runs. -/
theorem parking_ends (script : Script ε) {plain parked : State (Observed ε)}
    (tied : Tied plain parked) : Ends (script.unwinding plain) (script.parking parked) := by
  induction script generalizing plain parked with
  | done value => exact .of_tied _ tied
  | effect change next induction =>
      exact .bind (Same.perform tied change) fun env _ _ tied => induction env tied
  | signal kind target value next => exact .signal tied kind target value _
  | region tag body next body_induction next_induction =>
      exact .region (fun _ _ tied => body_induction tied)
        (fun value code _ _ tied => next_induction value code tied) tag tied
  | call helper next helper_induction next_induction =>
      exact .bind_checked (.runNative (unwinding_same helper tied))
        fun value _ _ tied => next_induction value tied
  | fail message => exact .waits _ tied

end Script

/-- Once it is resumed, what the generated way let wait ends the run as the plain one ended. -/
theorem Ends.resume {action action' : Act (Observed ε) UInt64} {plain parked : State (Observed ε)}
    (ends : Ends (action plain) (action' parked)) :
    Same (action plain)
      ((do
        let value ← action'
        Act.resumePending
        pure value : Act (Observed ε) UInt64) parked) := by
  rw [Act.bind_apply]
  generalize action plain = first at ends
  generalize action' parked = second at ends
  cases ends with
  | @waits reached reached' payload tied =>
      refine .of_eq rfl ?_
      change Tied reached { reached' with thread := (reached'.thread.park payload).clear }
      rw [clear_park tied.parked_calm]
      exact tied
  | same same =>
      obtain ⟨ending, tied⟩ := same
      cases ending with
      | unwinding payload => exact .of_tied _ tied
      | aborted cause => exact .of_tied _ tied
      | returned value =>
          simp only [Act.bind_apply, Act.resumePending_apply, tied.parked_calm]
          exact .of_tied _ tied

end Parking

namespace Script

variable {ε : Type}

/-- A script run as generated code runs, on a thread where nothing waits, and what waits at the end
resumed. -/
def generated (script : Script ε) : Act (Observed ε) UInt64 := do
  let value ← script.parking
  Act.resumePending
  pure value

/-- Parking refines unwinding. -/
theorem generated_refines (script : Script ε) (thread : Thread) (calm : thread.pending = none)
    (env : ε) :
    let start : State (Observed ε) := { thread, world := { env } }
    let plain := script.unwinding start
    let parked := script.generated start
    -- the run ends the same way, with the same frames, and nothing waits
    parked.1 = plain.1 ∧ parked.2.thread = plain.2.thread ∧ parked.2.thread.pending = none ∧
      -- the same was seen, and nothing was written for a region that something passed through
      parked.2.world.env = plain.2.world.env ∧
      parked.2.world.journal.filter (!·.isPassed) = plain.2.world.journal ∧
      ∀ value code, .passed value code ∈ parked.2.world.journal → value = 0 ∧ code = none := by
  intro start plain parked
  have tied : Parking.Tied start start := ⟨rfl, calm, rfl, rfl, nofun⟩
  have same : Parking.Same plain parked := (Parking.parking_ends script tied).resume
  obtain ⟨thread_eq, calm, agrees⟩ := same.tied
  refine ⟨same.ending_eq, thread_eq, ?_, agrees.env_eq, agrees.journal_eq, agrees.untouched⟩
  rw [thread_eq]
  exact calm

/-- An exit leaves two regions, and then a helper fails. -/
def travelling : Script Nat :=
  .effect (· + 1) fun _ =>
    .region ⟨1⟩
      (.region ⟨2⟩ (.signal .throw ⟨1⟩ 7 (.effect (· + 100) fun _ => .done 0))
        fun _ _ => .effect (· + 1000) fun _ => .done 0)
      fun value code =>
        .effect (· + value.toNat + code.toNat) fun _ => .call (.fail "lost") fun _ => .done 0

theorem travelling_journal :
    (travelling.generated { thread := .fresh, world := { env := 0 } }).2.world.journal =
      [.effect 15, .returned 7 (some 7), .passed 0 none, .effect 1] := by
  decide +kernel

/-- The inner region is passed through, which only the generated way shows. -/
theorem generated_refines_travelling :
    let start : State (Observed Nat) := { thread := .fresh, world := { env := 0 } }
    start.thread.pending = none ∧
      (travelling.generated start).2.world.journal =
        [.effect 15, .returned 7 (some 7), .passed 0 none, .effect 1] ∧
      (travelling.unwinding start).2.world.journal =
        [.effect 15, .returned 7 (some 7), .effect 1] := by
  intro start
  obtain ⟨-, -, -, -, journal_eq, -⟩ := travelling.generated_refines .fresh rfl 0
  rw [travelling_journal] at journal_eq
  exact ⟨rfl, travelling_journal, journal_eq.symm⟩

end Script

end HostBridge
