import HostBridge.Bridge
import HostBridge.Proofs.Dictionary

/-!
# Registered members

The last registration of a member counts: whatever a bridge is built from besides, it finds the
place that was registered last, and where none was registered, what the records of the build say. A
record is known from the first registration that names it, even if the member asked for is not.
-/

namespace HostBridge

namespace LayoutTable

variable {table : LayoutTable} {record name : String} {member : Member}

/-- The place of a member, if one is registered. -/
def member? (table : LayoutTable) (record name : String) : Option Member :=
  (table.records.get? record).bind (·.get? name)

/-- The table has the record, with or without members. -/
def Knows (table : LayoutTable) (record : String) : Prop :=
  (table.records.get? record).isSome = true

theorem lookup_eq_ok :
    table.lookup record name = .ok member ↔ table.member? record name = some member := by
  rw [lookup, membersOf, member?]
  cases table.records.get? record with
  | none => simp [bind, Except.bind]
  | some members => cases found : members.get? name <;> simp [bind, Except.bind, found]

theorem lookup_eq_unknownMember :
    table.lookup record name = .error (.unknownMember record name) ↔
      table.Knows record ∧ table.member? record name = none := by
  rw [lookup, membersOf, member?, Knows]
  cases table.records.get? record with
  | none => simp [bind, Except.bind]
  | some members => cases found : members.get? name <;> simp [bind, Except.bind, found]

theorem lookup_eq_unknownRecord :
    table.lookup record name = .error (.unknownRecord record) ↔ ¬table.Knows record := by
  rw [lookup, membersOf, Knows]
  cases table.records.get? record with
  | none => simp [bind, Except.bind]
  | some members => cases found : members.get? name <;> simp [bind, Except.bind, found]

theorem member?_eq_none (unknown : ¬table.Knows record) : table.member? record name = none := by
  rw [Knows, Option.not_isSome_iff_eq_none] at unknown
  rw [member?, unknown, Option.bind_none]

theorem lookup_congr {other : LayoutTable} (known : table.Knows record ↔ other.Knows record)
    (same : table.member? record name = other.member? record name) :
    table.lookup record name = other.lookup record name := by
  by_cases here : table.Knows record
  · cases found : table.member? record name with
    | some member => rw [lookup_eq_ok.mpr found, lookup_eq_ok.mpr (same.symm.trans found)]
    | none =>
        rw [lookup_eq_unknownMember.mpr ⟨here, found⟩,
          lookup_eq_unknownMember.mpr ⟨known.mp here, same.symm.trans found⟩]
  · rw [lookup_eq_unknownRecord.mpr here, lookup_eq_unknownRecord.mpr (mt known.mpr here)]

/-! ## Registrations -/

theorem member?_register (record' name' : String) (place : Member) (table : LayoutTable) :
    (table.register record' name' place).member? record name =
      if record' = record ∧ name' = name then some place else table.member? record name := by
  rw [member?, register, Dictionary.get?_insert]
  by_cases same : record' = record
  · subst same
    cases known : table.records.get? record' <;>
      simp [member?, known, Dictionary.get?_insert, Dictionary.get?]
  · simp [same, member?]

theorem knows_register (record' name' : String) (place : Member) (table : LayoutTable) :
    (table.register record' name' place).Knows record ↔
      record' = record ∨ table.Knows record := by
  rw [Knows, register, Dictionary.get?_insert]
  by_cases same : record' = record <;> simp [same, Knows]

theorem knows_registerSize (record' : String) (size : UInt32) (table : LayoutTable) :
    (table.registerSize record' size).Knows record ↔ record' = record ∨ table.Knows record := by
  rw [Knows, registerSize, Dictionary.get?_insert]
  by_cases same : record' = record <;> simp [same, Knows]

end LayoutTable

/-! ## Records of a build -/

namespace Builtin

/-- A build has a record: one of its family that it does not lack, or the one of protected regions
if the build has this machine's pointers. -/
def HasRecord (config : BuildConfig) (record : String) : Prop :=
  (∃ own ∈ records config.abi, own.present config = true ∧ own.name = record) ∨
    config.width = .host ∧ controlFrameName = record

theorem knows_registerMembers {record other : String} (different : record ≠ other)
    (members : List (String × Member)) (table : LayoutTable) :
    (registerMembers record members table).Knows other ↔ table.Knows other := by
  rw [registerMembers]
  induction members generalizing table with
  | nil => rfl
  | cons entry members induction =>
      rw [List.foldl_cons, induction, LayoutTable.knows_register]
      simp [different]

theorem knows_registerLayout (record other : String) (members : List (String × Member))
    (size : UInt32) (table : LayoutTable) :
    ((registerMembers record members table).registerSize record size).Knows other ↔
      record = other ∨ table.Knows other := by
  rw [LayoutTable.knows_registerSize]
  by_cases same : record = other
  · simp [same]
  · simp [same, knows_registerMembers same]

theorem knows_registerRecord (config : BuildConfig) (table : LayoutTable) (record : Record)
    (other : String) :
    (registerRecord config table record).Knows other ↔
      record.present config = true ∧ record.name = other ∨ table.Knows other := by
  rw [registerRecord, Record.compute]
  by_cases present : record.present config = true
  · simp only [present, if_true, true_and]
    exact knows_registerLayout ..
  · simp [present]

theorem knows_registerRecords (config : BuildConfig) (own : List Record) (table : LayoutTable)
    (other : String) :
    (own.foldl (registerRecord config) table).Knows other ↔
      (∃ record ∈ own, record.present config = true ∧ record.name = other) ∨ table.Knows other := by
  induction own generalizing table with
  | nil => simp
  | cons record own induction =>
      rw [List.foldl_cons, induction, knows_registerRecord]
      simp only [List.mem_cons, exists_eq_or_imp]
      rw [or_left_comm, or_assoc]

theorem knows_layouts (config : BuildConfig) (record : String) :
    (layouts config).Knows record ↔ HasRecord config record := by
  have nothing : ¬LayoutTable.empty.Knows record := nofun
  have family : ((records config.abi).foldl (registerRecord config) .empty).Knows record ↔
      ∃ own ∈ records config.abi, own.present config = true ∧ own.name = record := by
    rw [knows_registerRecords]
    exact or_iff_left nothing
  rw [layouts, HasRecord]
  by_cases host : config.width = .host
  · simp only [host, if_true, true_and]
    rw [knows_registerLayout, family, or_comm]
  · simp only [host, if_false, false_and, or_false]
    exact family

end Builtin

/-! ## Steps of a construction -/

namespace Bridge

variable {record name : String} {member : Member}

/-- The steps register a place for the member, and no later step registers another one. -/
def Registers (steps : List BuildStep) (record name : String) (member : Member) : Prop :=
  ∃ earlier later, steps = earlier ++ .member record name member :: later ∧
    ∀ place, .member record name place ∉ later

theorem member?_kept {steps : List BuildStep} (table : LayoutTable)
    (others : ∀ place, .member record name place ∉ steps) :
    (steps.foldl BuildStep.toLayouts table).member? record name = table.member? record name := by
  induction steps generalizing table with
  | nil => rfl
  | cons step steps induction =>
      have rest : ∀ place, .member record name place ∉ steps :=
        fun place listed => others place (List.mem_cons_of_mem _ listed)
      rw [List.foldl_cons, induction _ rest]
      cases step with
      | function | services => rfl
      | member record' name' place =>
          have different : ¬(record' = record ∧ name' = name) := by
            rintro ⟨rfl, rfl⟩
            exact others place List.mem_cons_self
          rw [BuildStep.toLayouts, LayoutTable.member?_register, if_neg different]

theorem member?_registered {steps : List BuildStep} (table : LayoutTable)
    (registers : Registers steps record name member) :
    (steps.foldl BuildStep.toLayouts table).member? record name = some member := by
  obtain ⟨earlier, later, rfl, others⟩ := registers
  rw [List.foldl_append, List.foldl_cons, member?_kept _ others, BuildStep.toLayouts,
    LayoutTable.member?_register, if_pos ⟨rfl, rfl⟩]

theorem knows_steps (steps : List BuildStep) (table : LayoutTable) (record : String) :
    (steps.foldl BuildStep.toLayouts table).Knows record ↔
      table.Knows record ∨ ∃ name place, .member record name place ∈ steps := by
  induction steps generalizing table with
  | nil => simp
  | cons step steps induction =>
      rw [List.foldl_cons, induction]
      cases step with
      | function | services => simp [BuildStep.toLayouts]
      | member record' name' place =>
          rw [BuildStep.toLayouts, LayoutTable.knows_register]
          simp only [List.mem_cons, BuildStep.member.injEq]
          constructor
          · rintro ((rfl | known) | ⟨name, place, listed⟩)
            · exact .inr ⟨name', place, .inl ⟨rfl, rfl, rfl⟩⟩
            · exact .inl known
            · exact .inr ⟨name, place, .inr listed⟩
          · rintro (known | ⟨name, place, ⟨rfl, -, -⟩ | listed⟩)
            · exact .inl (.inr known)
            · exact .inl (.inl rfl)
            · exact .inr ⟨name, place, listed⟩

theorem sizes_steps (steps : List BuildStep) (table : LayoutTable) :
    (steps.foldl BuildStep.toLayouts table).sizes = table.sizes := by
  induction steps generalizing table with
  | nil => rfl
  | cons step steps induction =>
      rw [List.foldl_cons, induction]
      cases step <;> rfl

theorem lookup_build {steps : List BuildStep} (registers : Registers steps record name member)
    (config : BuildConfig) (slots : LocationSlots) (hasEvaluator : Bool) :
    (build config steps slots hasEvaluator).layouts.lookup record name = .ok member :=
  LayoutTable.lookup_eq_ok.mpr (member?_registered _ registers)

end Bridge

end HostBridge
