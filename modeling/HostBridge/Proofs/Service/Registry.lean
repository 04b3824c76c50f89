import HostBridge.Proofs.Dictionary
import HostBridge.Service.Registry

/-!
# What a registry binds

A registry is filled from the services of the host, of which the last one of a name counts, and then
from the helpers. A service with the name of a helper is passed over, because the catalogue gives
exactly the names of the helpers to the bridge; and it would be replaced in any case.
-/

namespace HostBridge

theorem Helper.name_injective : ∀ {first second : Helper}, first.name = second.name →
    first = second := by
  intro first second
  cases first <;> cases second <;> decide

theorem Helper.mem_all (helper : Helper) : helper ∈ Helper.all := by
  cases helper <;> decide

/-- The services that the catalogue gives to the bridge are the helpers. -/
theorem Service.find?_bridge_iff (name : String) :
    (∃ service, Service.find? name = some service ∧ service.provider = .bridge) ↔
      ∃ helper : Helper, helper.name = name := by
  constructor
  · rintro ⟨service, found, provided⟩
    have listed : service ∈ Service.catalogue := List.mem_of_find?_eq_some found
    have named : service.name = name := by simpa using List.find?_some found
    have own : ∀ service ∈ Service.catalogue, service.provider = .bridge →
        ∃ helper ∈ Helper.all, helper.name = service.name := by decide +kernel
    obtain ⟨helper, -, same⟩ := own service listed provided
    exact ⟨helper, same.trans named⟩
  · rintro ⟨helper, rfl⟩
    have provided : ∀ helper ∈ Helper.all,
        (Service.find? helper.name).map (·.provider) = some .bridge := by decide +kernel
    exact Option.map_eq_some_iff.mp (provided helper helper.mem_all)

namespace HostServices

theorem get?_cons (supplied : String × Address) (services : HostServices) (name : String) :
    HostServices.get? (supplied :: services) name =
      (HostServices.get? services name).or
        (if supplied.1 = name then some supplied.2 else none) := by
  rw [get?, get?, List.reverse_cons, List.find?_append]
  cases List.find? (·.1 == name) services.reverse with
  | some found => rfl
  | none => by_cases same : supplied.1 = name <;> simp [same]

theorem get?_eq_some {services : HostServices} {name : String} {address : Address} :
    HostServices.get? services name = some address ↔
      ∃ earlier later, services = earlier ++ (name, address) :: later ∧
        ∀ other, (name, other) ∉ later := by
  rw [get?, Option.map_eq_some_iff]
  constructor
  · rintro ⟨⟨key, found⟩, first, rfl⟩
    obtain ⟨same, later, earlier, split, others⟩ := List.find?_eq_some_iff_append.mp first
    obtain rfl : key = name := by simpa using same
    refine ⟨earlier.reverse, later.reverse, ?_, fun other listed => ?_⟩
    · simpa using congrArg List.reverse split
    · simpa using others _ (List.mem_reverse.mp listed)
  · rintro ⟨earlier, later, rfl, others⟩
    refine ⟨(name, address), List.find?_eq_some_iff_append.mpr ⟨by simp, later.reverse,
      earlier.reverse, by simp, ?_⟩, rfl⟩
    rintro ⟨key, other⟩ listed
    simp only [Bool.not_eq_true', beq_eq_false_iff_ne]
    rintro rfl
    exact others other (List.mem_reverse.mp listed)

end HostServices

namespace Registry

variable {name : String} {address : Address} {abi : Abi}

theorem pointerOf_eq_ok {registry : Registry} :
    registry.pointerOf name = .ok address ↔ registry.entries.get? name = some address := by
  rw [pointerOf]
  cases registry.entries.get? name <;> simp

theorem pointerOf_eq_error {registry : Registry} :
    registry.pointerOf name = .error (.unknownFunction name) ↔
      registry.entries.get? name = none := by
  rw [pointerOf]
  cases registry.entries.get? name <;> simp

theorem get?_register (registry : Registry) (key name : String) (address : Address) :
    (registry.register key address).entries.get? name =
      if key = name then some address else registry.entries.get? name :=
  Dictionary.get?_insert ..

/-! ## Services of the host -/

/-- A service is either bound, or passed over because it has the name of a helper. -/
theorem supply_cases (abi : Abi) (registry : Registry) (supplied : String × Address) :
    supply abi registry supplied = registry.register supplied.1 supplied.2 ∨
      supply abi registry supplied = registry ∧ ∃ helper : Helper, helper.name = supplied.1 := by
  rw [supply]
  cases found : Service.find? supplied.1 with
  | none => exact .inl rfl
  | some service =>
      by_cases provided : service.provider = .bridge
      · have own := (Service.find?_bridge_iff supplied.1).mp ⟨service, found, provided⟩
        exact .inr ⟨if_pos provided, own⟩
      · exact .inl ((if_neg provided).trans (ite_self _))

/-- The families that have a service make no difference to whether it is bound. -/
theorem supply_eq (abi other : Abi) : supply abi = supply other := by
  funext registry supplied
  simp only [supply, ite_self]

theorem get?_supply (free : ∀ helper : Helper, helper.name ≠ name) (registry : Registry)
    (supplied : String × Address) :
    (supply abi registry supplied).entries.get? name =
      if supplied.1 = name then some supplied.2 else registry.entries.get? name := by
  rcases supply_cases abi registry supplied with bound | ⟨passed, helper, taken⟩
  · rw [bound, get?_register]
  · have other : supplied.1 ≠ name := fun same => free helper (taken.trans same)
    rw [passed, if_neg other]

theorem get?_supplied (free : ∀ helper : Helper, helper.name ≠ name) (services : HostServices)
    (registry : Registry) :
    (services.foldl (supply abi) registry).entries.get? name =
      (HostServices.get? services name).or (registry.entries.get? name) := by
  induction services generalizing registry with
  | nil => rfl
  | cons supplied services induction =>
      rw [List.foldl_cons, induction, get?_supply free, HostServices.get?_cons, Option.or_assoc]
      by_cases same : supplied.1 = name <;> simp [same]

/-! ## Helpers -/

/-- Bind helpers under their names. -/
def bindHelpers (helpers : List Helper) (registry : Registry) : Registry :=
  helpers.foldl (fun registry helper => registry.register helper.name (.helper helper)) registry

theorem bootstrap_eq (abi : Abi) (services : HostServices) :
    bootstrap abi services = bindHelpers Helper.all (services.foldl (supply abi) .empty) := rfl

theorem bootstrap_independent (abi other : Abi) : bootstrap abi = bootstrap other := by
  funext services
  rw [bootstrap_eq, bootstrap_eq, supply_eq abi other]

theorem get?_bindHelpers_other {helpers : List Helper}
    (free : ∀ helper ∈ helpers, helper.name ≠ name) (registry : Registry) :
    (bindHelpers helpers registry).entries.get? name = registry.entries.get? name := by
  induction helpers generalizing registry with
  | nil => rfl
  | cons helper helpers induction =>
      have rest : ∀ helper ∈ helpers, helper.name ≠ name :=
        fun helper listed => free helper (List.mem_cons_of_mem _ listed)
      rw [bindHelpers, List.foldl_cons]
      refine (induction rest _).trans ?_
      rw [get?_register, if_neg (free helper List.mem_cons_self)]

theorem get?_bindHelpers {helpers : List Helper} {helper : Helper} (listed : helper ∈ helpers)
    (registry : Registry) :
    (bindHelpers helpers registry).entries.get? helper.name = some (.helper helper) := by
  induction helpers generalizing registry with
  | nil => cases listed
  | cons first helpers induction =>
      rw [bindHelpers, List.foldl_cons]
      by_cases again : helper ∈ helpers
      · exact induction again _
      · obtain rfl : helper = first := (List.mem_cons.mp listed).resolve_right again
        have free : ∀ other ∈ helpers, other.name ≠ helper.name :=
          fun other mem same => again (Helper.name_injective same ▸ mem)
        refine (get?_bindHelpers_other free _).trans ?_
        rw [get?_register, if_pos rfl]

/-! ## The registry of a bridge -/

theorem pointerOf_helper (abi : Abi) (services : HostServices) (helper : Helper) :
    (bootstrap abi services).pointerOf helper.name = .ok (.helper helper) := by
  rw [pointerOf_eq_ok, bootstrap_eq]
  exact get?_bindHelpers helper.mem_all _

theorem get?_bootstrap (free : ∀ helper : Helper, helper.name ≠ name) (services : HostServices) :
    (bootstrap abi services).entries.get? name = HostServices.get? services name := by
  rw [bootstrap_eq, get?_bindHelpers_other fun helper _ => free helper, get?_supplied free]
  exact Option.or_none

theorem mem_names (registry : Registry) (name : String) :
    name ∈ registry.names ↔ ∃ address, registry.pointerOf name = .ok address := by
  rw [names, Dictionary.mem_sortedKeys, Option.isSome_iff_exists]
  simp only [pointerOf_eq_ok]

/-- No name is bound twice. -/
def Distinct (registry : Registry) : Prop := (registry.entries.map (·.1)).Nodup

theorem Distinct.register {registry : Registry} (distinct : registry.Distinct) (name : String)
    (address : Address) : (registry.register name address).Distinct :=
  Dictionary.nodup_keys_insert distinct name address

theorem distinct_bootstrap (abi : Abi) (services : HostServices) :
    (bootstrap abi services).Distinct := by
  have supplied : ∀ (services : HostServices) (registry : Registry), registry.Distinct →
      (services.foldl (supply abi) registry).Distinct := by
    intro services
    induction services with
    | nil => exact fun _ distinct => distinct
    | cons service services induction =>
        intro registry distinct
        apply induction
        rcases supply_cases abi registry service with bound | ⟨passed, -⟩
        · rw [bound]
          exact distinct.register ..
        · rwa [passed]
  have bound : ∀ (helpers : List Helper) (registry : Registry), registry.Distinct →
      (bindHelpers helpers registry).Distinct := by
    intro helpers
    induction helpers with
    | nil => exact fun _ distinct => distinct
    | cons helper helpers induction =>
        exact fun registry distinct => induction _ (distinct.register ..)
  exact bound _ _ (supplied services .empty List.nodup_nil)

theorem pairwise_names (abi : Abi) (services : HostServices) :
    (bootstrap abi services).names.Pairwise (· < ·) :=
  Dictionary.pairwise_sortedKeys (distinct_bootstrap abi services)

end Registry

end HostBridge
