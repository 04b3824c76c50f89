import HostBridge.Config
import HostBridge.Proofs.Toml.Reading

/-!
# What a configuration document says

Three keys of a document count: `abi` names the runtime family, `pointer_width` gives the width and
`features` lists the optional members. The meaning of a document is stated on its entries, without
regard to their order. Reading agrees with it because the keys of a document are distinct: then each
of the three is read once, wherever it stands, and whatever stands beside it is ignored. The
document that is written for a configuration describes that configuration.
-/

namespace HostBridge

/-! ## Names and lists in documents -/

namespace Toml.Value

/-- An empty table or an empty list. -/
def IsVoid : Value → Prop
  | .table _ entries => entries = []
  | .array items => items = []
  | .tables items => items = []
  | _ => False

/-- The value names a choice: it is the name as a text, or a table whose only key is the name and
whose only value is empty. -/
inductive Names : Value → String → Prop where
  | text (name : String) : Names (.string name) name
  | table (origin : Origin) (name : String) {body : Value} (void : body.IsVoid) :
      Names (.table origin [(name, body)]) name

theorem names_string_iff {text name : String} : (Value.string text).Names name ↔ text = name := by
  constructor
  · rintro ⟨⟩
    rfl
  · rintro rfl
    exact .text _

/-- The items of a list. -/
def items? : Value → Option (List Value)
  | .array items => some items
  | .tables items => some (items.map (.table .header))
  | _ => none

/-- Two lists have the same items, in any order and number. -/
def SameItems (value other : Value) : Prop :=
  value = other ∨
    ∃ items others, value.items? = some items ∧ other.items? = some others ∧
      ∀ item, item ∈ items ↔ item ∈ others

theorem SameItems.symm {value other : Value} (same : value.SameItems other) :
    other.SameItems value := by
  obtain rfl | ⟨items, others, listed, others_listed, mem_iff⟩ := same
  · exact .inl rfl
  · exact .inr ⟨others, items, others_listed, listed, fun item => (mem_iff item).symm⟩

end Toml.Value

open Toml

theorem Abi.ofName?_eq_some_iff {name : String} {abi : Abi} :
    Abi.ofName? name = some abi ↔ name = abi.name := by
  constructor
  · intro found
    exact (beq_iff_eq.mp (List.find?_some found :)).symm
  · rintro rfl
    cases abi <;> rfl

theorem Feature.ofName?_eq_some_iff {name : String} {feature : Feature} :
    Feature.ofName? name = some feature ↔ name = feature.name := by
  constructor
  · intro found
    exact (beq_iff_eq.mp (List.find?_some found :)).symm
  · rintro rfl
    cases feature <;> rfl

theorem Feature.name_injective : Function.Injective Feature.name := by
  intro first second same
  have found : Feature.ofName? first.name = some first := Feature.ofName?_eq_some_iff.mpr rfl
  rw [Feature.ofName?_eq_some_iff.mpr same] at found
  exact (Option.some.inj found).symm

theorem Feature.mem_all (feature : Feature) : feature ∈ Feature.all := by
  cases feature <;> decide

theorem Width.ofBits?_eq_some_iff {bits : Nat} {width : Width} :
    Width.ofBits? bits = some width ↔ bits = width.bits := by
  constructor
  · intro found
    unfold Width.ofBits? at found
    split at found <;> cases found <;> rfl
  · rintro rfl
    cases width <;> rfl

namespace BuildConfig

variable {α : Type} {value : Value} {entries : Entries}

theorem bind_eq_ok_iff {β : Type} {first : Except DocumentFault α}
    {next : α → Except DocumentFault β} {result : β} :
    first >>= next = .ok result ↔ ∃ found, first = .ok found ∧ next found = .ok result := by
  cases first with
  | error fault => exact ⟨nofun, nofun⟩
  | ok found =>
      constructor
      · exact fun rest => ⟨found, rfl, rest⟩
      · rintro ⟨_, ⟨⟩, rest⟩
        exact rest

theorem resolve_eq_ok_iff {unknown : String → DocumentFault} {ofName? : String → Option α}
    {name : String} {chosen : α} :
    choice.resolve unknown ofName? name = .ok chosen ↔ ofName? name = some chosen := by
  rw [choice.resolve]
  cases ofName? name with
  | none => exact ⟨nofun, nofun⟩
  | some found => exact ⟨fun same => by cases same; rfl, fun same => by cases same; rfl⟩

theorem choice_eq_ok_iff {unknown : String → DocumentFault} {ofName? : String → Option α}
    {chosen : α} :
    choice unknown ofName? value = .ok chosen ↔
      ∃ name, value.Names name ∧ ofName? name = some chosen := by
  constructor
  · intro chose
    unfold choice at chose
    split at chose
    · exact ⟨_, .text _, resolve_eq_ok_iff.mp chose⟩
    · obtain ⟨found, resolved, rest⟩ := bind_eq_ok_iff.mp chose
      split at rest
      all_goals cases rest
      all_goals exact ⟨_, .table _ _ rfl, resolve_eq_ok_iff.mp resolved⟩
    · cases chose
  · rintro ⟨name, names, found⟩
    cases names with
    | text => exact resolve_eq_ok_iff.mpr found
    | @table origin _ body void =>
        refine bind_eq_ok_iff.mpr ⟨chosen, resolve_eq_ok_iff.mpr found, ?_⟩
        cases body <;> cases void <;> rfl

theorem abiOf_eq_ok_iff {abi : Abi} : abiOf value = .ok abi ↔ value.Names abi.name := by
  rw [abiOf, choice_eq_ok_iff]
  simp only [Abi.ofName?_eq_some_iff, exists_eq_right]

theorem featureOf_eq_ok_iff {feature : Feature} :
    featureOf value = .ok feature ↔ value.Names feature.name := by
  rw [featureOf, choice_eq_ok_iff]
  simp only [Feature.ofName?_eq_some_iff, exists_eq_right]

theorem widthOf_eq_ok_iff {width : Width} :
    widthOf value = .ok width ↔ value = .integer width.bits := by
  constructor
  · intro read
    unfold widthOf at read
    split at read
    · split at read
      case isTrue range =>
        split at read
        case h_1 found =>
          cases read
          have bits_eq := Width.ofBits?_eq_some_iff.mp found
          rw [← bits_eq, Int.toNat_of_nonneg range.1]
        case h_2 => cases read
      case isFalse => cases read
    · cases read
  · rintro rfl
    cases width <;> rfl

/-! ## Lists of features -/

theorem mem_of_mapM {β : Type} {read : α → Except DocumentFault β} {items : List α}
    {found : List β} (all : items.mapM read = .ok found) (result : β) :
    result ∈ found ↔ ∃ item ∈ items, read item = .ok result := by
  induction items generalizing found with
  | nil =>
      cases all
      simp
  | cons item items induction =>
      rw [List.mapM_cons] at all
      obtain ⟨first, here, rest⟩ := bind_eq_ok_iff.mp all
      obtain ⟨later, there, same⟩ := bind_eq_ok_iff.mp rest
      cases same
      rw [List.mem_cons, induction there, List.exists_mem_cons_iff, here, Except.ok.injEq,
        eq_comm]

theorem exists_mapM_eq_ok_iff {β : Type} {read : α → Except DocumentFault β} {items : List α} :
    (∃ found, items.mapM read = .ok found) ↔ ∀ item ∈ items, ∃ result, read item = .ok result := by
  induction items with
  | nil => exact ⟨fun _ => List.forall_mem_nil _, fun _ => ⟨[], rfl⟩⟩
  | cons item items induction =>
      rw [List.forall_mem_cons, ← induction]
      constructor
      · rintro ⟨found, all⟩
        rw [List.mapM_cons] at all
        obtain ⟨first, here, rest⟩ := bind_eq_ok_iff.mp all
        obtain ⟨later, there, -⟩ := bind_eq_ok_iff.mp rest
        exact ⟨⟨first, here⟩, later, there⟩
      · rintro ⟨⟨first, here⟩, later, there⟩
        refine ⟨first :: later, ?_⟩
        rw [List.mapM_cons, here, there]
        rfl

/-- The value lists features by their names, and `has` is the set of them. -/
def Lists (value : Value) (has : Feature → Bool) : Prop :=
  ∃ items, value.items? = some items ∧
    (∀ item ∈ items, ∃ feature : Feature, item.Names feature.name) ∧
    ∀ feature, has feature = true ↔ ∃ item ∈ items, item.Names feature.name

theorem featuresOf_eq {items : List Value} (listed : value.items? = some items) :
    featuresOf value = items.mapM featureOf := by
  unfold Value.items? at listed
  split at listed <;> cases listed
  · rfl
  · rw [featuresOf, List.mapM_map]
    rfl

theorem items?_of_featuresOf {features : List Feature} (read : featuresOf value = .ok features) :
    ∃ items, value.items? = some items := by
  unfold featuresOf at read
  split at read
  · exact ⟨_, rfl⟩
  · exact ⟨_, rfl⟩
  · cases read

theorem featuresOf_iff {has : Feature → Bool} :
    (∃ features, featuresOf value = .ok features ∧ has = featureSet features) ↔
      Lists value has := by
  constructor
  · rintro ⟨features, read, rfl⟩
    obtain ⟨items, listed⟩ := items?_of_featuresOf read
    rw [featuresOf_eq listed] at read
    have each := exists_mapM_eq_ok_iff.mp ⟨features, read⟩
    simp only [featureOf_eq_ok_iff] at each
    refine ⟨items, listed, each, fun feature => ?_⟩
    rw [featureSet, List.contains_iff_mem, mem_of_mapM read]
    simp only [featureOf_eq_ok_iff]
  · rintro ⟨items, listed, each, granted⟩
    simp only [← featureOf_eq_ok_iff] at each granted
    obtain ⟨features, read⟩ := exists_mapM_eq_ok_iff.mpr each
    refine ⟨features, (featuresOf_eq listed).trans read, funext fun feature => ?_⟩
    rw [Bool.eq_iff_iff, featureSet, List.contains_iff_mem, mem_of_mapM read, granted]

/-! ## Settings -/

/-- What a key is set to once its value was read, if it has one, given what it was set to before. -/
def setting (read : Value → Except DocumentFault α) (before : Option α) :
    Option Value → Except DocumentFault (Option α)
  | none => .ok before
  | some value => do
      let found ← read value
      pure (some found)

@[simp]
theorem setting_none_eq_ok_iff {read : Value → Except DocumentFault α}
    {before after : Option α} : setting read before none = .ok after ↔ before = after := by
  rw [setting, Except.ok.injEq]

@[simp]
theorem setting_some_eq_ok_iff {read : Value → Except DocumentFault α}
    {before after : Option α} :
    setting read before (some value) = .ok after ↔
      ∃ found, read value = .ok found ∧ some found = after := by
  rw [setting, bind_eq_ok_iff]
  simp only [pure, Except.pure, Except.ok.injEq]

/-- A document with one more entry in front sets a key there or later, but not twice. -/
theorem setting_lookup_cons {read : Value → Except DocumentFault α} {before after : Option α}
    {key : String} {entry : String × Value} (distinct : Entries.Distinct (entry :: entries)) :
    setting read before (List.lookup key (entry :: entries)) = .ok after ↔
      ∃ between, setting read before (if key = entry.1 then some entry.2 else none) = .ok between ∧
        setting read between (entries.lookup key) = .ok after := by
  obtain ⟨name, value⟩ := entry
  rw [List.lookup_cons]
  by_cases same : key = name
  · subst same
    have absent : entries.lookup key = none :=
      Entries.lookup_eq_none_iff.mpr (List.nodup_cons.mp distinct).1
    rw [if_pos rfl, absent, beq_self_eq_true]
    exact ⟨fun set => ⟨after, set, rfl⟩, fun ⟨_, set, same⟩ => by cases same; exact set⟩
  · rw [if_neg same, beq_eq_false_iff_ne.mpr same]
    exact ⟨fun set => ⟨before, rfl, set⟩, fun ⟨_, same, set⟩ => by cases same; exact set⟩

/-- One entry sets at most one key. -/
theorem add_eq_ok_iff {before after : Draft} {key : String} :
    before.add (key, value) = .ok after ↔
      setting abiOf before.abi (if "abi" = key then some value else none) = .ok after.abi ∧
      setting widthOf before.width (if "pointer_width" = key then some value else none) =
        .ok after.width ∧
      setting featuresOf before.features (if "features" = key then some value else none) =
        .ok after.features := by
  obtain ⟨abi, width, features⟩ := before
  obtain ⟨abi', width', features'⟩ := after
  rw [Draft.add]
  by_cases first : key = "abi"
  · subst first
    simp [bind_eq_ok_iff, pure, Except.pure, ← exists_and_right, and_assoc]
  by_cases second : key = "pointer_width"
  · subst second
    simp [bind_eq_ok_iff, pure, Except.pure, ← exists_and_right, ← exists_and_left, and_assoc,
      and_left_comm]
  by_cases third : key = "features"
  · subst third
    simp [bind_eq_ok_iff, pure, Except.pure, ← exists_and_left, and_left_comm]
  · simp [first, second, third, pure, Except.pure, Ne.symm first, Ne.symm second, Ne.symm third]

/-- Reading the entries one after the other sets each key to what its only entry says. -/
theorem foldlM_add_eq_ok_iff {before after : Draft} (distinct : entries.Distinct) :
    entries.foldlM Draft.add before = .ok after ↔
      setting abiOf before.abi (entries.lookup "abi") = .ok after.abi ∧
      setting widthOf before.width (entries.lookup "pointer_width") = .ok after.width ∧
      setting featuresOf before.features (entries.lookup "features") = .ok after.features := by
  induction entries generalizing before with
  | nil =>
      obtain ⟨abi, width, features⟩ := before
      obtain ⟨abi', width', features'⟩ := after
      simp [pure, Except.pure]
  | cons entry entries induction =>
      obtain ⟨key, value⟩ := entry
      have rest : Entries.Distinct entries := (List.nodup_cons.mp distinct).2
      rw [List.foldlM_cons, bind_eq_ok_iff]
      -- The draft in between holds the three settings after the first entry.
      simp only [add_eq_ok_iff, induction rest, setting_lookup_cons distinct]
      constructor
      · rintro ⟨between, ⟨abi, width, features⟩, abi_later, width_later, features_later⟩
        exact ⟨⟨_, abi, abi_later⟩, ⟨_, width, width_later⟩, ⟨_, features, features_later⟩⟩
      · rintro ⟨⟨abi, set_abi, abi_later⟩, ⟨width, set_width, width_later⟩,
          ⟨features, set_features, features_later⟩⟩
        exact ⟨⟨abi, width, features⟩, ⟨set_abi, set_width, set_features⟩, abi_later, width_later,
          features_later⟩

/-- A key is set to what the value of its only entry says, and it is not set if it has none. -/
theorem exists_setting_lookup_iff {read : Value → Except DocumentFault α} {holds : Option α → Prop}
    {key : String} (distinct : entries.Distinct) :
    (∃ after, setting read none (entries.lookup key) = .ok after ∧ holds after) ↔
      (∃ value, (key, value) ∈ entries ∧ ∃ found, read value = .ok found ∧ holds (some found)) ∨
        key ∉ entries.map Prod.fst ∧ holds none := by
  simp only [← distinct.lookup_eq_some_iff, ← Entries.lookup_eq_none_iff]
  cases entries.lookup key with
  | none => simp
  | some value =>
      simp only [setting_some_eq_ok_iff, Option.some.injEq, exists_eq_left', reduceCtorEq,
        false_and, or_false]
      constructor
      · rintro ⟨after, ⟨found, read_eq, rfl⟩, held⟩
        exact ⟨found, read_eq, held⟩
      · rintro ⟨found, read_eq, held⟩
        exact ⟨some found, ⟨found, read_eq, rfl⟩, held⟩

theorem finish_eq_ok_iff {draft : Draft} {config : BuildConfig} :
    draft.finish = .ok config ↔
      draft.abi = some config.abi ∧ config.width = draft.width.getD (forAbi config.abi).width ∧
        config.has = (draft.features.map featureSet).getD (forAbi config.abi).has := by
  obtain ⟨abi, width, features⟩ := draft
  obtain ⟨abi', width', has'⟩ := config
  cases abi with
  | none => simp [Draft.finish, throw, throwThe, MonadExceptOf.throw]
  | some abi =>
      simp only [Draft.finish, pure, Except.pure, Except.ok.injEq, BuildConfig.mk.injEq,
        Option.some.injEq]
      constructor
      · rintro ⟨rfl, width, has⟩
        exact ⟨rfl, width.symm, has.symm⟩
      · rintro ⟨rfl, width, has⟩
        exact ⟨rfl, width.symm, has.symm⟩

/-! ## The meaning of a document -/

/-- The entries of a document describe a configuration: `abi` names its runtime family, and the
width and the members are those that the entries give, or else those of the stock build. -/
structure Describes (entries : Entries) (config : BuildConfig) : Prop where
  abi : ∃ value, ("abi", value) ∈ entries ∧ value.Names config.abi.name
  width :
    ("pointer_width", .integer config.width.bits) ∈ entries ∨
      "pointer_width" ∉ entries.map Prod.fst ∧ config.width = (forAbi config.abi).width
  features :
    (∃ value, ("features", value) ∈ entries ∧ Lists value config.has) ∨
      "features" ∉ entries.map Prod.fst ∧ config.has = (forAbi config.abi).has

theorem ofEntries_eq_ok_iff {config : BuildConfig} (distinct : entries.Distinct) :
    ofEntries entries = .ok config ↔ Describes entries config := by
  have abi_iff :
      (∃ abi, setting abiOf none (entries.lookup "abi") = .ok abi ∧ abi = some config.abi) ↔
        ∃ value, ("abi", value) ∈ entries ∧ value.Names config.abi.name := by
    rw [exists_setting_lookup_iff distinct]
    simp [abiOf_eq_ok_iff]
  have width_iff :
      (∃ width, setting widthOf none (entries.lookup "pointer_width") = .ok width ∧
          config.width = width.getD (forAbi config.abi).width) ↔
        ("pointer_width", .integer config.width.bits) ∈ entries ∨
          "pointer_width" ∉ entries.map Prod.fst ∧
            config.width = (forAbi config.abi).width := by
    rw [exists_setting_lookup_iff distinct]
    simp [widthOf_eq_ok_iff]
  have features_iff :
      (∃ features, setting featuresOf none (entries.lookup "features") = .ok features ∧
          config.has = (features.map featureSet).getD (forAbi config.abi).has) ↔
        (∃ value, ("features", value) ∈ entries ∧ Lists value config.has) ∨
          "features" ∉ entries.map Prod.fst ∧ config.has = (forAbi config.abi).has := by
    rw [exists_setting_lookup_iff distinct]
    simp only [← featuresOf_iff, Option.map_some, Option.getD_some, Option.map_none,
      Option.getD_none]
  rw [ofEntries, bind_eq_ok_iff]
  simp only [foldlM_add_eq_ok_iff distinct, finish_eq_ok_iff]
  constructor
  · rintro ⟨draft, ⟨set_abi, set_width, set_features⟩, abi_eq, width_eq, has_eq⟩
    exact ⟨abi_iff.mp ⟨_, set_abi, abi_eq⟩, width_iff.mp ⟨_, set_width, width_eq⟩,
      features_iff.mp ⟨_, set_features, has_eq⟩⟩
  · rintro ⟨abi, width, features⟩
    obtain ⟨abi, set_abi, abi_eq⟩ := abi_iff.mpr abi
    obtain ⟨width, set_width, width_eq⟩ := width_iff.mpr width
    obtain ⟨features, set_features, has_eq⟩ := features_iff.mpr features
    exact ⟨⟨abi, width, features⟩, ⟨set_abi, set_width, set_features⟩, abi_eq, width_eq, has_eq⟩

/-- The settings of a document are all acceptable. -/
structure Acceptable (entries : Entries) : Prop where
  abi : ∃ value, ("abi", value) ∈ entries ∧ ∃ abi : Abi, value.Names abi.name
  width : ∀ value, ("pointer_width", value) ∈ entries → value = .integer 32 ∨ value = .integer 64
  features :
    ∀ value, ("features", value) ∈ entries →
      ∃ items, value.items? = some items ∧
        ∀ item ∈ items, ∃ feature : Feature, item.Names feature.name

theorem exists_describes_iff (distinct : entries.Distinct) :
    (∃ config, Describes entries config) ↔ Acceptable entries := by
  constructor
  · rintro ⟨config, ⟨value, mem, names⟩, width, features⟩
    refine ⟨⟨value, mem, config.abi, names⟩, fun other other_mem => ?_, fun other other_mem => ?_⟩
    · obtain mem | ⟨absent, -⟩ := width
      · rw [distinct.value_eq other_mem mem]
        cases config.width
        · exact .inl rfl
        · exact .inr rfl
      · exact absurd (List.mem_map_of_mem other_mem) absent
    · obtain ⟨listing, mem, items, listed, known, -⟩ | ⟨absent, -⟩ := features
      · rw [distinct.value_eq other_mem mem]
        exact ⟨items, listed, known⟩
      · exact absurd (List.mem_map_of_mem other_mem) absent
  · rintro ⟨⟨value, mem, abi, names⟩, width, features⟩
    have has_width :
        ∃ width : Width, ("pointer_width", .integer width.bits) ∈ entries ∨
          "pointer_width" ∉ entries.map Prod.fst ∧ width = (forAbi abi).width := by
      by_cases given : ∃ value, ("pointer_width", value) ∈ entries
      · obtain ⟨value, mem⟩ := given
        obtain rfl | rfl := width value mem
        · exact ⟨.bits32, .inl mem⟩
        · exact ⟨.bits64, .inl mem⟩
      · exact ⟨_, .inr ⟨Entries.not_mem_keys_iff.mpr (not_exists.mp given), rfl⟩⟩
    have has_features :
        ∃ has : Feature → Bool, (∃ value, ("features", value) ∈ entries ∧ Lists value has) ∨
          "features" ∉ entries.map Prod.fst ∧ has = (forAbi abi).has := by
      by_cases given : ∃ value, ("features", value) ∈ entries
      · obtain ⟨value, mem⟩ := given
        obtain ⟨items, listed, known⟩ := features value mem
        classical
        exact ⟨fun feature => decide (∃ item ∈ items, item.Names feature.name),
          .inl ⟨value, mem, items, listed, known, fun _ => decide_eq_true_iff⟩⟩
      · exact ⟨_, .inr ⟨Entries.not_mem_keys_iff.mpr (not_exists.mp given), rfl⟩⟩
    obtain ⟨width, width_given⟩ := has_width
    obtain ⟨has, features_given⟩ := has_features
    exact ⟨⟨abi, width, has⟩, ⟨value, mem, names⟩, width_given, features_given⟩

/-- Two documents have the same settings: the same values of `abi` and `pointer_width`, and lists of
features that differ in order and repetition at most. -/
structure SameSettings (entries others : Entries) : Prop where
  abi : ∀ value, ("abi", value) ∈ entries ↔ ("abi", value) ∈ others
  width : ∀ value, ("pointer_width", value) ∈ entries ↔ ("pointer_width", value) ∈ others
  features :
    ∀ value, ("features", value) ∈ entries →
      ∃ other, ("features", other) ∈ others ∧ value.SameItems other
  features_back :
    ∀ other, ("features", other) ∈ others →
      ∃ value, ("features", value) ∈ entries ∧ other.SameItems value

theorem SameSettings.symm {others : Entries} (same : SameSettings entries others) :
    SameSettings others entries where
  abi value := (same.abi value).symm
  width value := (same.width value).symm
  features := same.features_back
  features_back := same.features

theorem Lists.of_sameItems {other : Value} {has : Feature → Bool} (lists : Lists value has)
    (same : value.SameItems other) : Lists other has := by
  obtain rfl | ⟨items, others, listed, others_listed, mem_iff⟩ := same
  · exact lists
  · obtain ⟨held, held_listed, known, granted⟩ := lists
    obtain rfl : held = items := Option.some.inj (held_listed.symm.trans listed)
    simp only [mem_iff] at known granted
    exact ⟨others, others_listed, known, granted⟩

theorem Describes.of_sameSettings {others : Entries} {config : BuildConfig}
    (describes : Describes entries config) (same : SameSettings entries others) :
    Describes others config where
  abi := by
    obtain ⟨value, mem, names⟩ := describes.abi
    exact ⟨value, (same.abi value).mp mem, names⟩
  width := by
    have width := describes.width
    simpa only [Entries.not_mem_keys_iff, same.width] using width
  features := by
    obtain ⟨value, mem, lists⟩ | ⟨absent, stock⟩ := describes.features
    · obtain ⟨other, other_mem, same_items⟩ := same.features value mem
      exact .inl ⟨other, other_mem, lists.of_sameItems same_items⟩
    · refine .inr ⟨Entries.not_mem_keys_iff.mpr fun other other_mem => ?_, stock⟩
      obtain ⟨value, mem, -⟩ := same.features_back other other_mem
      exact Entries.not_mem_keys_iff.mp absent value mem

theorem describes_congr {others : Entries} (same : SameSettings entries others)
    (config : BuildConfig) : Describes entries config ↔ Describes others config :=
  ⟨fun describes => describes.of_sameSettings same,
    fun describes => describes.of_sameSettings same.symm⟩

/-! ## Documents of configurations -/

theorem bare_abi_name (abi : Abi) : Line.Bare abi.name.toList := by
  cases abi <;> decide

theorem bare_feature_name (feature : Feature) : Line.Bare feature.name.toList := by
  cases feature <;> decide

theorem writes_bits (width : Width) : Line.Writes (toString width.bits) (.integer width.bits) := by
  cases width with
  | bits32 => exact ⟨⟨'3', ['2'], rfl, by decide⟩, fun rest => rfl⟩
  | bits64 => exact ⟨⟨'6', ['4'], rfl, by decide⟩, fun rest => rfl⟩

/-- The entries of the document of a configuration. -/
def toEntries (config : BuildConfig) : Entries :=
  [("abi", .string config.abi.name), ("pointer_width", .integer config.width.bits),
    ("features", .array ((config.features.map Feature.name).map .string))]

theorem toDocument_eq (config : BuildConfig) :
    config.toDocument =
      Text.unlines
        ["abi" ++ " = " ++ Line.quote config.abi.name,
          "pointer_width" ++ " = " ++ toString config.width.bits,
          "features" ++ " = " ++
            ("[" ++ Text.joined ", " ((config.features.map Feature.name).map Line.quote)
              ++ "]")] := by
  have abi : "abi = \"" = "abi" ++ (" = " ++ "\"") := rfl
  have features : "features = [" = "features" ++ (" = " ++ "[") := rfl
  rw [toDocument, abi, features, List.map_map]
  simp only [Line.quote, String.append_assoc]
  rfl

theorem read?_toDocument (config : BuildConfig) :
    Document.read? config.toDocument = some config.toEntries := by
  have names_bare : ∀ name ∈ config.features.map Feature.name, Line.Bare name.toList := by
    rw [List.forall_mem_map]
    exact fun feature _ => bare_feature_name feature
  have abi_spelled := Line.writes_quote (bare_abi_name config.abi)
  have distinct : config.toEntries.Distinct := by
    change ["abi", "pointer_width", "features"].Nodup
    decide
  rw [toDocument_eq]
  exact Document.read?_unlines
    (.cons (.entry (by decide) abi_spelled)
      (.cons (.entry (by decide) (writes_bits config.width))
        (.cons (.entry (by decide) (Line.writes_list names_bare)) .nil)))
    distinct

theorem lists_features (config : BuildConfig) :
    Lists (.array ((config.features.map Feature.name).map .string)) config.has := by
  refine ⟨_, rfl, ?_, fun feature => ?_⟩
  · simp only [List.forall_mem_map]
    exact fun feature _ => ⟨feature, .text _⟩
  · constructor
    · intro granted
      have mem : feature ∈ config.features := List.mem_filter.mpr ⟨feature.mem_all, granted⟩
      exact ⟨_, List.mem_map_of_mem (List.mem_map_of_mem mem), .text _⟩
    · rintro ⟨item, item_mem, names⟩
      obtain ⟨name, name_mem, rfl⟩ := List.mem_map.mp item_mem
      obtain ⟨other, mem, rfl⟩ := List.mem_map.mp name_mem
      have same := Feature.name_injective (Toml.Value.names_string_iff.mp names)
      exact same ▸ (List.mem_filter.mp mem).2

theorem describes_toEntries (config : BuildConfig) : Describes config.toEntries config where
  abi := ⟨_, List.mem_cons_self, .text _⟩
  width := .inl (List.mem_cons_of_mem _ List.mem_cons_self)
  features :=
    .inl ⟨_, List.mem_cons_of_mem _ (List.mem_cons_of_mem _ List.mem_cons_self),
      config.lists_features⟩

theorem mapError_eq_ok_iff {result : Except DocumentFault α} {convert : DocumentFault → BridgeError}
    {found : α} : result.mapError convert = .ok found ↔ result = .ok found := by
  cases result <;> simp [Except.mapError]

theorem ofDocument_eq_ok_iff {text : String} {config : BuildConfig} :
    ofDocument text = .ok config ↔
      ∃ entries, Document.read? text = some entries ∧ Describes entries config := by
  rw [ofDocument]
  cases read : Document.read? text with
  | none => exact ⟨nofun, nofun⟩
  | some entries =>
      simp only [mapError_eq_ok_iff, ofEntries_eq_ok_iff (Document.distinct_of_read? read),
        Option.some.injEq, exists_eq_left']

/-- A document means what its three keys say, in any order and beside any others, and the document
of a configuration means that configuration. The first part holds of all entries with distinct keys,
whatever reads them from a document. -/
theorem ofDocument_meaning :
    (∀ entries : Entries, entries.Distinct →
      (∀ config, ofEntries entries = .ok config ↔ Describes entries config) ∧
      ((∃ config, ofEntries entries = .ok config) ↔ Acceptable entries) ∧
      ∀ others : Entries, others.Distinct → SameSettings entries others →
        ∀ config, ofEntries entries = .ok config ↔ ofEntries others = .ok config) ∧
    (∀ text config, ofDocument text = .ok config ↔
      ∃ entries, Document.read? text = some entries ∧ Describes entries config) ∧
    (∀ text entries, Document.read? text = some entries →
      entries.Distinct ∧ ((∃ config, ofDocument text = .ok config) ↔ Acceptable entries)) ∧
    (∀ text other entries others,
      Document.read? text = some entries → Document.read? other = some others →
      SameSettings entries others →
      ∀ config, ofDocument text = .ok config ↔ ofDocument other = .ok config) ∧
    ∀ config : BuildConfig, ofDocument config.toDocument = .ok config := by
  refine ⟨fun entries distinct => ⟨fun config => ofEntries_eq_ok_iff distinct, ?_, ?_⟩,
    fun text config => ofDocument_eq_ok_iff, fun text entries read => ?_,
    fun text other entries others read other_read same config => ?_, fun config => ?_⟩
  · simp only [ofEntries_eq_ok_iff distinct]
    exact exists_describes_iff distinct
  · intro others others_distinct same config
    rw [ofEntries_eq_ok_iff distinct, ofEntries_eq_ok_iff others_distinct]
    exact describes_congr same config
  · have distinct := Document.distinct_of_read? read
    simp only [ofDocument_eq_ok_iff, read, Option.some.injEq, exists_eq_left']
    exact ⟨distinct, exists_describes_iff distinct⟩
  · simp only [ofDocument_eq_ok_iff, read, other_read, Option.some.injEq, exists_eq_left']
    exact describes_congr same config
  · exact ofDocument_eq_ok_iff.mpr ⟨_, config.read?_toDocument, config.describes_toEntries⟩

theorem ofDocument_meaning_reordered :
    ofDocument
        (Text.unlines
          ["features = [\"hash-table\", \"class-super\", \"hash-table\"]", "owner = \"nobody\"",
            "pointer_width = 64", "abi = \"call-frame\""]) =
      .ok { abi := .callFrame, width := .bits64, has := featureSet [.classSuper, .hashTable] } := by
  have names_bare :
      ∀ name ∈ ["hash-table", "class-super", "hash-table"], Line.Bare name.toList := by
    simp only [List.forall_mem_cons]
    exact ⟨by decide, by decide, by decide, List.forall_mem_nil _⟩
  have owner_bare : Line.Bare "nobody".toList := by decide
  have distinct : ["features", "owner", "pointer_width", "abi"].Nodup := by decide
  have read :=
    Document.read?_unlines
      (.cons (.entry (by decide : Line.Bare "features".toList) (Line.writes_list names_bare))
        (.cons (.entry (by decide : Line.Bare "owner".toList) (Line.writes_quote owner_bare))
          (.cons (.entry (by decide : Line.Bare "pointer_width".toList) (writes_bits .bits64))
            (.cons (.entry (by decide : Line.Bare "abi".toList)
              (Line.writes_quote (bare_abi_name .callFrame))) .nil))))
      distinct
  have same_items :
      Value.SameItems (.array (["hash-table", "class-super", "hash-table"].map .string))
        (.array (["class-super", "hash-table"].map .string)) := by
    refine .inr ⟨_, _, rfl, rfl, fun item => ?_⟩
    grind
  refine (ofDocument_meaning.2.2.2.1 _ _ _ _ read (read?_toDocument _) ?_ _).mpr
    (ofDocument_meaning.2.2.2.2 _)
  refine ⟨by simp [toEntries], by simp [toEntries, Width.bits], fun value mem => ?_,
    fun value mem => ?_⟩
  · obtain rfl : value = _ := by simpa using mem
    exact ⟨_, List.mem_cons_of_mem _ (List.mem_cons_of_mem _ List.mem_cons_self), same_items⟩
  · obtain rfl : value = _ := by simpa [toEntries] using mem
    exact ⟨_, List.mem_cons_self, same_items.symm⟩

end BuildConfig

end HostBridge
