import HostBridge.Proofs.Layout.Table
import HostBridge.Proofs.Service.Registry

/-!
# What a bridge resolves

A bridge is built by steps in any order and number, with names that repeat and collide. What it
resolves depends on the steps in a simple way: the helpers are its own; the services are those of
the last step that replaces them all, and those added since, of which the last one of a name counts;
and a member is where it was registered last, or else where the records of the build have it.
-/

namespace HostBridge

namespace Bridge

variable {steps : List BuildStep} {entries : HostServices} {name : String} {address : Address}

/-- The service that a step adds, if it adds one. -/
def BuildStep.added? : BuildStep → Option (String × Address)
  | .function name address => some (name, address)
  | .services _ | .member .. => none

/-- The entries that count: those of the last step that replaces all services, and those added after
it; if no step replaces them, all that are added. -/
def Offers (steps : List BuildStep) (entries : HostServices) : Prop :=
  (∃ earlier services later, steps = earlier ++ .services services :: later ∧
      (∀ replaced, .services replaced ∉ later) ∧
      entries = services ++ later.filterMap BuildStep.added?) ∨
    (∀ replaced, .services replaced ∉ steps) ∧ entries = steps.filterMap BuildStep.added?

/-- Of the entries that count, the last one of the name has this address. -/
def Supplies (steps : List BuildStep) (name : String) (address : Address) : Prop :=
  ∃ entries, Offers steps entries ∧
    ∃ earlier later, entries = earlier ++ (name, address) :: later ∧
      ∀ other, (name, other) ∉ later

/-- The name is free for services of the host. -/
def NoHelper (name : String) : Prop := ∀ helper : Helper, helper.name ≠ name

/-- What a bridge that was built by these steps resolves. -/
structure Resolves (bridge : Bridge) (config : BuildConfig) (steps : List BuildStep) : Prop where
  /-- The name of a helper leads to the helper, whatever was supplied for it. -/
  helper : ∀ helper : Helper, bridge.functions.pointerOf helper.name = .ok (.helper helper)
  /-- Any other name leads to what was supplied for it last. -/
  supplied : ∀ name address, NoHelper name → Supplies steps name address →
    bridge.functions.pointerOf name = .ok address
  unsupplied : ∀ name, NoHelper name → (∀ address, ¬Supplies steps name address) →
    bridge.functions.pointerOf name = .error (.unknownFunction name)
  /-- Exactly these names are listed. -/
  listed : ∀ name, name ∈ bridge.functions.names ↔
    (∃ helper : Helper, helper.name = name) ∨ ∃ address, Supplies steps name address
  sorted : bridge.functions.names.Pairwise (· < ·)
  /-- The listing is the same for every build. -/
  independent : ∀ (other : BuildConfig) (slots : LocationSlots) (hasEvaluator : Bool),
    (build other steps slots hasEvaluator).functions.names = bridge.functions.names
  /-- A member is where it was registered last. -/
  registered : ∀ record name member, Registers steps record name member →
    bridge.layouts.lookup record name = .ok member
  /-- A member that no step registers is where the build has it. -/
  unregistered : ∀ record name, (∀ place, .member record name place ∉ steps) →
    Builtin.HasRecord config record →
      bridge.layouts.lookup record name = (Builtin.layouts config).lookup record name
  /-- A record that the build lacks has the members that steps register, and no others. -/
  unknownMember : ∀ record name, (∀ place, .member record name place ∉ steps) →
    ¬Builtin.HasRecord config record → (∃ other place, .member record other place ∈ steps) →
      bridge.layouts.lookup record name = .error (.unknownMember record name)
  unknownRecord : ∀ record name,
    bridge.layouts.lookup record name = .error (.unknownRecord record) ↔
      ¬Builtin.HasRecord config record ∧ ∀ other place, .member record other place ∉ steps
  /-- Sizes are those of the build. -/
  sizes : ∀ record, bridge.layouts.sizeOf? record = (Builtin.layouts config).sizeOf? record

/-! ## Services -/

theorem toServices_added (added : ∀ replaced, .services replaced ∉ steps)
    (services : HostServices) :
    steps.foldl BuildStep.toServices services =
      services ++ steps.filterMap BuildStep.added? := by
  induction steps generalizing services with
  | nil => simp
  | cons step steps induction =>
      have rest : ∀ replaced, .services replaced ∉ steps :=
        fun replaced listed => added replaced (List.mem_cons_of_mem _ listed)
      rw [List.foldl_cons, induction rest]
      cases step with
      | function name address => simp [BuildStep.toServices, BuildStep.added?]
      | services replaced => exact (added replaced List.mem_cons_self).elim
      | member record name place => rfl

/-- The last step that replaces all services, if there is one. -/
theorem exists_last_services (steps : List BuildStep) :
    (∀ replaced, .services replaced ∉ steps) ∨
      ∃ earlier services later, steps = earlier ++ .services services :: later ∧
        ∀ replaced, .services replaced ∉ later := by
  induction steps with
  | nil => exact .inl fun _ => List.not_mem_nil
  | cons step steps induction =>
      rcases induction with none | ⟨earlier, services, later, rfl, last⟩
      · cases step with
        | services services => exact .inr ⟨[], services, steps, rfl, none⟩
        | function | member =>
            refine .inl fun replaced listed => ?_
            exact none replaced ((List.mem_cons.mp listed).resolve_left nofun)
      · exact .inr ⟨step :: earlier, services, later, rfl, last⟩

theorem offers_iff : Offers steps entries ↔ steps.foldl BuildStep.toServices [] = entries := by
  have fold : ∀ {entries}, Offers steps entries →
      steps.foldl BuildStep.toServices [] = entries := by
    rintro _ (⟨earlier, services, later, rfl, last, rfl⟩ | ⟨none, rfl⟩)
    · rw [List.foldl_append, List.foldl_cons, toServices_added last]
      rfl
    · rw [toServices_added none, List.nil_append]
  refine ⟨fold, ?_⟩
  rintro rfl
  rcases exists_last_services steps with none | ⟨earlier, services, later, split, last⟩
  · have offered : Offers steps (steps.filterMap BuildStep.added?) := .inr ⟨none, rfl⟩
    rwa [fold offered]
  · have offered : Offers steps (services ++ later.filterMap BuildStep.added?) :=
      .inl ⟨earlier, services, later, split, last, rfl⟩
    rwa [fold offered]

theorem supplies_iff :
    Supplies steps name address ↔
      HostServices.get? (steps.foldl BuildStep.toServices []) name = some address := by
  simp only [Supplies, offers_iff, exists_eq_left', HostServices.get?_eq_some]

theorem pointerOf_build (config : BuildConfig) (slots : LocationSlots) (hasEvaluator : Bool)
    (free : NoHelper name) :
    (build config steps slots hasEvaluator).functions.pointerOf name = .ok address ↔
      Supplies steps name address := by
  rw [Registry.pointerOf_eq_ok, supplies_iff, build, Registry.get?_bootstrap free]

theorem mem_names_build (config : BuildConfig) (slots : LocationSlots) (hasEvaluator : Bool)
    (name : String) :
    name ∈ (build config steps slots hasEvaluator).functions.names ↔
      (∃ helper : Helper, helper.name = name) ∨ ∃ address, Supplies steps name address := by
  rw [Registry.mem_names]
  by_cases own : ∃ helper : Helper, helper.name = name
  · obtain ⟨helper, rfl⟩ := own
    have bound := Registry.pointerOf_helper config.abi (steps.foldl BuildStep.toServices []) helper
    exact iff_of_true ⟨_, bound⟩ (.inl ⟨helper, rfl⟩)
  · have free : NoHelper name := fun helper same => own ⟨helper, same⟩
    simp only [own, false_or, pointerOf_build config slots hasEvaluator free]

/-! ## The whole bridge -/

theorem build_resolves (config : BuildConfig) (steps : List BuildStep) (slots : LocationSlots)
    (hasEvaluator : Bool) : (build config steps slots hasEvaluator).Resolves config steps where
  helper := Registry.pointerOf_helper _ _
  supplied name address free := (pointerOf_build config slots hasEvaluator free).mpr
  unsupplied name free missing := by
    rw [Registry.pointerOf_eq_error]
    refine Option.eq_none_iff_forall_ne_some.mpr fun address found => missing address ?_
    exact (pointerOf_build config slots hasEvaluator free).mp (Registry.pointerOf_eq_ok.mpr found)
  listed := mem_names_build config slots hasEvaluator
  sorted := Registry.pairwise_names _ _
  independent other _ _ := by
    simp only [build, Registry.bootstrap_independent other.abi config.abi]
  registered _ _ _ registers := lookup_build registers config slots hasEvaluator
  unregistered record name others own := by
    have known := (Builtin.knows_layouts config record).mpr own
    refine LayoutTable.lookup_congr ?_ (member?_kept _ others)
    exact iff_of_true ((knows_steps ..).mpr (.inl known)) known
  unknownMember record name others foreign named := by
    have unknown := mt (Builtin.knows_layouts config record).mp foreign
    refine LayoutTable.lookup_eq_unknownMember.mpr ⟨(knows_steps ..).mpr (.inr named), ?_⟩
    exact (member?_kept _ others).trans (LayoutTable.member?_eq_none unknown)
  unknownRecord record name := by
    rw [LayoutTable.lookup_eq_unknownRecord]
    change ¬(steps.foldl BuildStep.toLayouts (Builtin.layouts config)).Knows record ↔ _
    rw [knows_steps, Builtin.knows_layouts, not_or]
    simp only [not_exists]
  sizes record := by
    rw [LayoutTable.sizeOf?, LayoutTable.sizeOf?]
    exact congrArg _ (sizes_steps steps (Builtin.layouts config))

/-- Steps that collide: services that are replaced, one of them with the name of a helper and one
supplied twice, and a member of the build that is registered anew. -/
def collidingSteps : List BuildStep :=
  [.function "type" (.raw 1),
    .services [("frame_pending", .raw 2), ("gc_mark", .raw 3), ("gc_mark", .raw 4)],
    .member "RBasic" "flags" ⟨3, .float64⟩,
    .function "xfree" (.raw 5),
    .member "Box" "lid" ⟨8, .pointer⟩]

theorem build_resolves_colliding :
    let bridge := build .default collidingSteps .own false
    bridge.functions.pointerOf "frame_pending" = .ok (.helper .framePending) ∧
      bridge.functions.pointerOf "gc_mark" = .ok (.raw 4) ∧
      bridge.functions.pointerOf "type" = .error (.unknownFunction "type") ∧
      bridge.layouts.lookup "RBasic" "flags" = .ok ⟨3, .float64⟩ ∧
      bridge.layouts.lookup "Box" "key" = .error (.unknownMember "Box" "key") ∧
      bridge.layouts.lookup "Crate" "key" = .error (.unknownRecord "Crate") := by
  have resolves := build_resolves .default collidingSteps .own false
  have last : Supplies collidingSteps "gc_mark" (.raw 4) := supplies_iff.mpr (by decide)
  have gone : ∀ address, ¬Supplies collidingSteps "type" address := by
    have nothing : HostServices.get? (collidingSteps.foldl BuildStep.toServices []) "type" =
        none := by decide
    simp [supplies_iff, nothing]
  have anew : Registers collidingSteps "RBasic" "flags" ⟨3, .float64⟩ :=
    ⟨collidingSteps.take 2, collidingSteps.drop 3, rfl, by simp [collidingSteps]⟩
  have free : ∀ name ∈ ["gc_mark", "type"], NoHelper name := by
    intro name listed helper
    cases helper <;> revert name <;> decide
  have foreign : ∀ record ∈ ["Box", "Crate"], ¬Builtin.HasRecord .default record := by
    unfold Builtin.HasRecord
    decide +kernel
  refine ⟨resolves.helper .framePending, resolves.supplied _ _ (free _ (by simp)) last,
    resolves.unsupplied _ (free _ (by simp)) gone, resolves.registered _ _ _ anew,
    resolves.unknownMember _ _ (by simp [collidingSteps]) (foreign _ (by simp)) ?_,
    (resolves.unknownRecord _ _).mpr ⟨foreign _ (by simp), by simp [collidingSteps]⟩⟩
  exact ⟨"lid", ⟨8, .pointer⟩, by simp [collidingSteps]⟩

end Bridge

end HostBridge
