import HostBridge.Proofs.Control.Transit

/-!
# Where exits land

An exit is aimed by walking the frames, and lands by comparing serials on the way of an unwind,
perhaps after it waited, once or many times, for a region to end. In a run that starts no exit and
no failure while another one waits, it still lands on the frame that it was aimed at, with the kind
and the value that it had.
-/

namespace HostBridge

/-! ## The flight of an exit -/

namespace History

theorem Lawful.executing_nodup {history : History} (lawful : history.Lawful) :
    history.executing.Nodup := by
  induction history with
  | nil => exact .nil
  | cons moment earlier induction =>
      obtain ⟨⟨allowed, -, -⟩, rest⟩ := lawful
      obtain ⟨event, _, _⟩ := moment
      cases event with
      | entered id => exact List.nodup_cons.mpr ⟨allowed, induction rest⟩
      | returned id outcome => exact (induction rest).sublist (List.tail_sublist _)
      | left id => exact (induction rest).sublist (List.tail_sublist _)
      | _ => exact induction rest

theorem Lawful.of_append {later earlier : History} (lawful : Lawful (later ++ earlier)) :
    earlier.Lawful := by
  induction later with
  | nil => exact lawful
  | cons _ _ induction => exact induction lawful.2

/-- What is on its way now and was not before was raised in between. -/
theorem exists_raised {later earlier : History} (nothing : earlier.transit = none)
    {target : FrameId} {kind : ExitKind} {value : UInt64}
    (transit : History.transit (later ++ earlier) = some (.exit target kind value)) :
    ∃ moment ∈ later, ∃ tag, moment.event = .raised kind tag value := by
  induction later with
  | nil =>
      rw [List.nil_append, nothing] at transit
      cases transit
  | cons moment later induction =>
      obtain ⟨event, before, after⟩ := moment
      by_cases starts : event.Starts
      · cases event with
        | raised kind' tag value' =>
            obtain ⟨frame, -, same⟩ := Option.map_eq_some_iff.mp transit
            cases same
            exact ⟨_, List.mem_cons_self, tag, rfl⟩
        | failed message => cases transit
        | _ => exact starts.elim
      · by_cases returns : event.Returns
        · cases event with
          | returned id outcome => cases transit
          | _ => exact returns.elim
        · rw [List.cons_append, transit_quiet starts returns] at transit
          obtain ⟨moment, member, raised⟩ := induction transit
          exact ⟨moment, List.mem_cons_of_mem _ member, raised⟩

end History

/-- An exit is on its way since the moment that `start` ends with: nothing else has started and no
region has returned. The regions inside its target are `inner`, and those that were there before
have been left. -/
structure Flight (target : FrameId) (kind : ExitKind) (value : UInt64) (outer : List FrameId)
    (start : History) (flown : History) (inner : List FrameId) : Prop where
  transit : History.transit (flown ++ start) = some (.exit target kind value)
  executing : History.executing (flown ++ start) = inner ++ target :: outer
  alone : ∀ moment ∈ flown, ¬moment.event.Starts ∧ ¬moment.event.Returns
  passes : ∀ newer older, flown = newer ++ older →
    ∃ inside, History.executing (older ++ start) = inside ++ target :: outer ∧
      ∀ id ∈ inside, id ∈ inner ∨ ∃ moment ∈ newer, moment.event = .left id

namespace Flight

variable {target : FrameId} {kind : ExitKind} {value : UInt64} {outer : List FrameId}
  {start flown : History} {inner : List FrameId}

/-- One more moment, in which nothing starts and no region returns. -/
theorem cons (flight : Flight target kind value outer start flown inner) {moment : Moment}
    {inner' : List FrameId} (quiet : ¬moment.event.Starts) (inside : ¬moment.event.Returns)
    (executing : History.executing (moment :: (flown ++ start)) = inner' ++ target :: outer)
    (left : ∀ id ∈ inner, id ∈ inner' ∨ moment.event = .left id) :
    Flight target kind value outer start (moment :: flown) inner' where
  transit := by
    rw [List.cons_append, History.transit_quiet quiet inside]
    exact flight.transit
  executing := executing
  alone := List.forall_mem_cons.mpr ⟨⟨quiet, inside⟩, flight.alone⟩
  passes newer older split := by
    cases newer with
    | nil =>
        rw [List.nil_append] at split
        subst split
        exact ⟨inner', executing, fun id member => .inl member⟩
    | cons first newer =>
        obtain ⟨rfl, rest_eq⟩ := List.cons.inj split
        obtain ⟨deep, executing_then, gone⟩ := flight.passes newer older rest_eq
        refine ⟨deep, executing_then, fun id member => ?_⟩
        rcases gone id member with still | ⟨passed, passed_member, passed_left⟩
        · rcases left id still with here | leaves
          · exact .inl here
          · exact .inr ⟨moment, List.mem_cons_self, leaves⟩
        · exact .inr ⟨passed, List.mem_cons_of_mem _ passed_member, passed_left⟩

/-- What the next moment of a flight can be: the flight goes on, or the region that the exit is
aimed at returns, and no region is left inside it. -/
theorem next (flight : Flight target kind value outer start flown inner) {moment : Moment}
    (lawful : History.Lawful (moment :: (flown ++ start))) :
    (∃ inner', Flight target kind value outer start (moment :: flown) inner') ∨
      moment.event = .returned target (.unwound kind value) ∧ inner = [] := by
  obtain ⟨⟨allowed, -, -⟩, before_lawful⟩ := lawful
  have transit := flight.transit
  have executing := flight.executing
  obtain ⟨event, before, after⟩ := moment
  cases event with
  | raised kind' tag value' => cases transit.symm.trans allowed
  | failed message => cases transit.symm.trans allowed
  | entered id =>
      refine .inl ⟨id :: inner, flight.cons (fun starts => starts) (fun returns => returns) ?_
        fun other member => .inl (List.mem_cons_of_mem _ member)⟩
      rw [History.executing, executing]
      rfl
  | left id =>
      obtain ⟨head, passing, passing_eq, elsewhere⟩ := allowed
      cases transit.symm.trans passing_eq
      rw [executing] at head
      cases inner with
      | nil =>
          cases head
          exact (elsewhere ⟨kind, rfl⟩).elim
      | cons first inner =>
          cases head
          refine .inl ⟨inner, flight.cons (fun starts => starts) (fun returns => returns) ?_
            fun other member => ?_⟩
          · rw [History.executing, executing]
            rfl
          · rcases List.mem_cons.mp member with rfl | deeper
            · exact .inr rfl
            · exact .inl deeper
  | returned id outcome =>
      cases outcome with
      | completed _ => cases transit.symm.trans allowed.2
      | unwound kind' value' =>
          obtain ⟨head, passing⟩ := allowed
          cases transit.symm.trans passing
          refine .inr ⟨rfl, ?_⟩
          have distinct := before_lawful.executing_nodup
          rw [executing] at head distinct
          cases inner with
          | nil => rfl
          | cons first inner =>
              cases head
              simp at distinct
  | _ =>
      exact .inl ⟨inner, flight.cons (fun starts => starts) (fun returns => returns) executing
        fun _ member => .inl member⟩

/-- An exit starts its flight to a region that is being executed. -/
theorem launch {moment : Moment} {earlier : History} {tag : OwnerTag} {frame : Frame}
    (raised : moment.event = .raised kind tag value)
    (accepted : moment.before.accepting earlier.executing kind tag = some frame) :
    ∃ inner outer, Flight frame.id kind value outer (moment :: earlier) [] inner := by
  obtain ⟨event, before, after⟩ := moment
  obtain rfl : event = .raised kind tag value := raised
  have chosen := List.find?_some accepted
  simp only [decide_eq_true_eq] at chosen
  obtain ⟨inner, outer, executing⟩ := List.append_of_mem chosen.1
  refine ⟨inner, outer, ?_, executing, List.forall_mem_nil _, fun newer older split => ?_⟩
  · exact congrArg (Option.map fun frame => Transit.exit frame.id kind value) accepted
  · obtain ⟨rfl, rfl⟩ := List.append_eq_nil_iff.mp split.symm
    exact ⟨inner, executing, fun id member => .inl member⟩

end Flight

/-- An exit lands: after the flight, with `arrival`. -/
structure Landing (target : FrameId) (kind : ExitKind) (value : UInt64) (start : History)
    (outer : List FrameId) (flown : History) (arrival : Moment) (rest : History) : Prop where
  /-- The region returns, with the kind and the value of the exit. -/
  returns : arrival.event = .returned target (.unwound kind value)
  /-- On the way, nothing else starts and no region returns. -/
  alone : ∀ moment ∈ flown, ¬moment.event.Starts ∧ ¬moment.event.Returns
  /-- Every region that is being executed inside the target on the way is left later on. -/
  passes : ∀ newer older, flown = newer ++ older →
    ∃ inside, History.executing (older ++ start) = inside ++ target :: outer ∧
      ∀ id ∈ inside, ∃ moment ∈ newer, moment.event = .left id
  /-- Then only the regions outside the target are being executed. -/
  ends : History.executing (arrival :: (flown ++ start)) = outer
  /-- No other return is due to this exit: a later one is due to an exit that was raised since. -/
  once : ∀ newer moment older, rest = newer ++ moment :: older →
    ∀ id kind' value', moment.event = .returned id (.unwound kind' value') →
      ∃ raise ∈ older, ∃ tag, raise.event = .raised kind' tag value'

namespace Flight

variable {target : FrameId} {kind : ExitKind} {value : UInt64} {outer : List FrameId}
  {start flown : History} {inner : List FrameId}

/-- The moment that ends a flight, and what follows it. -/
theorem landing (flight : Flight target kind value outer start flown []) {arrival : Moment}
    (returns : arrival.event = .returned target (.unwound kind value)) {rest : History}
    (lawful : History.Lawful (rest ++ arrival :: (flown ++ start))) :
    Landing target kind value start outer flown arrival rest where
  returns := returns
  alone := flight.alone
  passes newer older split := by
    obtain ⟨inside, executing, gone⟩ := flight.passes newer older split
    exact ⟨inside, executing, fun id member => (gone id member).resolve_left nofun⟩
  ends := by
    obtain ⟨event, _, _⟩ := arrival
    obtain rfl : event = _ := returns
    rw [History.executing, flight.executing]
    rfl
  once newer moment older split id kind' value' unwound := by
    subst split
    have nothing : History.transit (arrival :: (flown ++ start)) = none := by
      obtain ⟨event, _, _⟩ := arrival
      obtain rfl : event = _ := returns
      rfl
    rw [List.append_assoc, List.cons_append] at lawful
    have allowed := lawful.of_append.1.allowed
    rw [unwound] at allowed
    exact History.exists_raised nothing allowed.2

/-- A flight goes on to the end of a history, or lands. -/
theorem flies_or_lands {later : History}
    (flight : Flight target kind value outer start [] inner)
    (lawful : History.Lawful (later ++ start)) :
    (∃ inner', Flight target kind value outer start later inner') ∨
      ∃ rest arrival flown, later = rest ++ arrival :: flown ∧
        arrival.event = .returned target (.unwound kind value) ∧
        Flight target kind value outer start flown [] := by
  induction later with
  | nil => exact .inl ⟨inner, flight⟩
  | cons moment later induction =>
      rcases induction lawful.2 with ⟨inner', flies⟩ | ⟨rest, arrival, flown, rfl, landed⟩
      · rcases flies.next lawful with goes_on | ⟨returns, rfl⟩
        · exact .inl goes_on
        · exact .inr ⟨[], moment, later, rfl, returns, flies⟩
      · exact .inr ⟨moment :: rest, arrival, flown, rfl, landed⟩

end Flight

namespace Program

/-- What is known at the end of an orderly run: nothing is on its way to a region. -/
theorem carries_end (program : Program) (orderly : program.history.Orderly) :
    program.history.Lawful ∧
      (∀ target kind value, program.history.transit ≠ some (.exit target kind value)) ∧
      ∀ kind target, program.history.Unmatched kind target →
        (program.run start).1 = .aborted (.fatal (.unmatchedExit kind target)) := by
  obtain ⟨owned, active, reaches, finished⟩ := program.reaches_end
  have carries := (Settled.reached reaches).carries orderly
  refine ⟨carries.lawful, fun target kind value transit => ?_, fun kind target unmatched => ?_⟩
  · rcases finished with ⟨cause, aborted⟩ | rfl
    · have carried : _ = Option.map Transit.payload _ := carries.carried
      rw [aborted] at carried
      have nothing := Option.map_eq_none_iff.mp carried.symm
      cases transit.symm.trans nothing
    · have executed := (carries.aimed target kind value transit).1
      cases executed
  · have mode_eq : (program.watch start).1.mode = .aborted (.fatal (.unmatchedExit kind target)) :=
      carries.unmatched kind target unmatched
    rw [program.watch_eq_run.1] at mode_eq
    cases ending_eq : (program.run start).1 with
    | aborted cause =>
        rw [ending_eq] at mode_eq
        cases mode_eq
        rfl
    | returned value =>
        rw [ending_eq] at mode_eq
        cases mode_eq
    | unwinding payload =>
        rw [ending_eq] at mode_eq
        cases mode_eq

/-- Every exit of an orderly run goes where it was resolved to. If no frame accepts it, the process
is aborted there and then. Otherwise the region of the frame that accepts it returns, with the kind
and the value of the exit; no other return is due to it, and every region that is being executed
inside the frame's is left without returning. -/
theorem exits_land (program : Program) (orderly : program.history.Orderly)
    {later earlier : History} {moment : Moment}
    (split : program.history = later ++ moment :: earlier)
    {kind : ExitKind} {target : OwnerTag} {value : UInt64}
    (raised : moment.event = .raised kind target value) :
    match moment.before.accepting earlier.executing kind target with
    | none =>
        later = [] ∧ (program.run start).1 = .aborted (.fatal (.unmatchedExit kind target))
    | some frame =>
        moment.before.resolve kind target = .ok frame.token ∧
          ∃ rest arrival flown outer, later = rest ++ arrival :: flown ∧
            Landing frame.id kind value (moment :: earlier) outer flown arrival rest := by
  obtain ⟨lawful, arrived, aborted⟩ := program.carries_end orderly
  rw [split] at lawful arrived aborted
  have resolved := lawful.of_append.1.resolved kind target value raised
  cases accepted : moment.before.accepting earlier.executing kind target with
  | none =>
      have unmatched : History.Unmatched kind target (moment :: earlier) := by
        obtain ⟨event, before, after⟩ := moment
        obtain rfl : event = .raised kind target value := raised
        exact ⟨rfl, rfl, accepted⟩
      -- nothing can follow an exit that no frame accepts
      obtain rfl : later = [] := by
        rcases later.eq_nil_or_concat with rfl | ⟨newer, next, rfl⟩
        · rfl
        · rw [List.concat_eq_append, List.append_assoc] at lawful
          exact (lawful.of_append.1.matched kind target unmatched).elim
      exact ⟨rfl, aborted kind target unmatched⟩
  | some frame =>
      refine ⟨by rw [Thread.resolve, resolved, accepted], ?_⟩
      obtain ⟨inner, outer, flight⟩ := Flight.launch raised accepted
      rcases flight.flies_or_lands lawful with
        ⟨inner', flies⟩ | ⟨rest, arrival, flown, rfl, returns, flies⟩
      · exact (arrived frame.id kind value flies.transit).elim
      · rw [List.append_assoc, List.cons_append] at lawful
        exact ⟨rest, arrival, flown, outer, rfl, flies.landing returns lawful⟩

/-- An exit waits while one more region is entered inside two others. -/
def nested : Program :=
  .protect ⟨1⟩
    (.protect ⟨2⟩
      (.park .throw ⟨1⟩ 7 (.protect ⟨3⟩ (.done 0) fun _ => .done 0))
      fun _ => .done 0)
    fun outcome => .done outcome.value

theorem nested_events :
    nested.history.map (·.event) =
      [.popped 1 (.ok .unwound), .returned 1 (.unwound .throw 7), .dropped 2 (.ok .unwound),
        .left 2, .dropped 3 (.ok .unwound), .left 3, .entered 3, .pushed 3, .parked] ++
      .raised .throw ⟨1⟩ 7 :: [.entered 2, .pushed 2, .entered 1, .pushed 1] := by
  decide +kernel

/-- The exit lands on the outermost region. -/
theorem exits_land_nested :
    nested.history.Orderly ∧
      ∃ later moment earlier, nested.history = later ++ moment :: earlier ∧
        moment.event = .raised .throw ⟨1⟩ 7 ∧
        ∃ rest arrival flown outer, later = rest ++ arrival :: flown ∧
          Landing 1 .throw 7 (moment :: earlier) outer flown arrival rest := by
  have orderly : nested.history.Orderly := by decide +kernel
  obtain ⟨later, rest, split, later_events, rest_events⟩ := List.map_eq_append_iff.mp nested_events
  obtain ⟨moment, earlier, rfl, raised, -⟩ := List.map_eq_cons_iff.mp rest_events
  refine ⟨orderly, later, moment, earlier, split, raised, ?_⟩
  have lands := nested.exits_land orderly split raised
  cases accepted : moment.before.accepting (History.executing earlier) .throw ⟨1⟩ with
  | none =>
      rw [accepted] at lands
      simp [lands.1] at later_events
  | some frame =>
      rw [accepted] at lands
      obtain ⟨-, rest, arrival, flown, outer, later_eq, landing⟩ := lands
      have arrives : arrival.event ∈ later.map (·.event) := by simp [later_eq]
      rw [later_events, landing.returns] at arrives
      have outermost : frame.id = 1 := by simpa using arrives
      rw [outermost] at landing
      exact ⟨rest, arrival, flown, outer, later_eq, landing⟩

end Program

end HostBridge
