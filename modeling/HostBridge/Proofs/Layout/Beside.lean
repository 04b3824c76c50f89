import HostBridge.Proofs.Layout.Declaration
import Mathlib.Data.List.Nodup

/-!
# Members beside each other

Members of a union share bytes, and an array without elements has none of its own. Where no array is
empty and members are told apart by their names, members in different slots of one struct have no
byte in common, since one of them is declared before the other.
-/

namespace HostBridge

namespace Slot

/-- No array is empty, as far as the build has it. -/
inductive Filled (config : BuildConfig) : Slot → Prop where
  | field (name : String) (type : NativeType) : Filled config (.field name type)
  | array {name : String} {type : NativeType} {length : ArrayLength}
      (filled : 0 < Layout.elementCount Layout.exact config.width type length) :
      Filled config (.array name type length)
  | embed {name : String} {slots : List Slot} (filled : ∀ slot ∈ slots, Filled config slot) :
      Filled config (.embed name slots)
  | union {name : String} {variants : List Slot}
      (filled : ∀ slot ∈ variants, Filled config slot) : Filled config (.union name variants)
  | optional {feature : Feature} {slot : Slot}
      (filled : config.has feature = true → Filled config slot) :
      Filled config (.optional feature slot)

/-- The slot has a member with this dotted name; `outer` is the name around the slot. -/
inductive Has (config : BuildConfig) : String → Slot → String → Prop where
  | field {outer name : String} {type : NativeType} :
      Has config outer (.field name type) (Layout.join outer name)
  | array {outer name : String} {type : NativeType} {length : ArrayLength} :
      Has config outer (.array name type length) (Layout.join outer name)
  | embed {outer name member : String} {slots : List Slot} {slot : Slot} (mem : slot ∈ slots)
      (has : Has config (Layout.scope outer name) slot member) :
      Has config outer (.embed name slots) member
  | union {outer name member : String} {variants : List Slot} {slot : Slot}
      (mem : slot ∈ variants) (has : Has config (Layout.join outer name) slot member) :
      Has config outer (.union name variants) member
  | optional {outer member : String} {feature : Feature} {slot : Slot}
      (present : config.has feature = true) (has : Has config outer slot member) :
      Has config outer (.optional feature slot) member

/-- The smallest slot around two members is a struct: they stand in different slots of it. -/
inductive Beside (config : BuildConfig) : String → Slot → String → String → Prop where
  | here {outer name first second : String} {slots : List Slot} {i j : Nat} {left right : Slot}
      (different : i ≠ j) (left_at : slots[i]? = some left) (right_at : slots[j]? = some right)
      (has_first : left.Has config (Layout.scope outer name) first)
      (has_second : right.Has config (Layout.scope outer name) second) :
      Beside config outer (.embed name slots) first second
  | embed {outer name first second : String} {slots : List Slot} {slot : Slot}
      (mem : slot ∈ slots) (beside : Beside config (Layout.scope outer name) slot first second) :
      Beside config outer (.embed name slots) first second
  | union {outer name first second : String} {variants : List Slot} {slot : Slot}
      (mem : slot ∈ variants)
      (beside : Beside config (Layout.join outer name) slot first second) :
      Beside config outer (.union name variants) first second
  | optional {outer first second : String} {feature : Feature} {slot : Slot}
      (present : config.has feature = true) (beside : Beside config outer slot first second) :
      Beside config outer (.optional feature slot) first second

variable {config : BuildConfig} {slot : Slot} {outer name first second : String}

theorem Filled.count_pos (filled : slot.Filled config) (outer : String) :
    ∀ declaration ∈ slot.declarations config outer, 0 < declaration.count := by
  induction filled generalizing outer with
  | field name type =>
      intro declaration mem
      obtain rfl := List.mem_singleton.mp mem
      exact Nat.one_pos
  | array filled =>
      intro declaration mem
      obtain rfl := List.mem_singleton.mp mem
      exact filled
  | embed _ induction =>
      intro declaration mem
      rw [declarations] at mem
      obtain ⟨-, -, slot, slot_mem, inner, inner_mem, rfl⟩ := exists_inside_of_mem mem
      exact induction slot slot_mem _ inner inner_mem
  | union _ induction =>
      intro declaration mem
      rw [declarations] at mem
      obtain ⟨-, -, slot, slot_mem, inner, inner_mem, rfl⟩ := exists_inside_of_mem mem
      exact induction slot slot_mem _ inner inner_mem
  | optional _ induction =>
      intro declaration mem
      rw [declarations] at mem
      split at mem
      case isTrue present => exact induction present outer declaration mem
      case isFalse => cases mem

theorem Has.exists_declaration (has : slot.Has config outer name) :
    ∃ declaration ∈ slot.declarations config outer, declaration.name = name := by
  induction has with
  | field | array => exact ⟨_, List.mem_singleton_self _, rfl⟩
  | embed mem _ induction | union mem _ induction =>
      obtain ⟨declaration, declared, named⟩ := induction
      obtain ⟨place, slot_at⟩ := List.mem_iff_getElem?.mp mem
      rw [declarations]
      exact ⟨_, inside_mem_declarationsFrom slot_at declared, named⟩
  | optional present _ induction =>
      rw [declarations, if_pos present]
      exact induction

/-- Of two members beside each other, one is declared before the other. -/
theorem Beside.exists_declarations (beside : slot.Beside config outer first second) :
    ∃ left ∈ slot.declarations config outer, ∃ right ∈ slot.declarations config outer,
      left.name = first ∧ right.name = second ∧ (left.Precedes right ∨ right.Precedes left) := by
  induction beside with
  | @here outer name first second slots i j _ _ different left_at right_at has_first has_second =>
      obtain ⟨left, left_mem, left_name⟩ := has_first.exists_declaration
      obtain ⟨right, right_mem, right_name⟩ := has_second.exists_declaration
      rw [declarations]
      refine ⟨_, inside_mem_declarationsFrom left_at left_mem, _,
        inside_mem_declarationsFrom right_at right_mem, left_name, right_name, ?_⟩
      rw [Declaration.precedes_inside, Declaration.precedes_inside]
      rcases Nat.lt_or_gt_of_ne different with less | greater
      · exact .inl (.inr ⟨0 + i, 0 + j, by omega, rfl, rfl⟩)
      · exact .inr (.inr ⟨0 + j, 0 + i, by omega, rfl, rfl⟩)
  | embed mem _ induction | union mem _ induction =>
      obtain ⟨left, left_mem, right, right_mem, left_name, right_name, order⟩ := induction
      obtain ⟨place, slot_at⟩ := List.mem_iff_getElem?.mp mem
      rw [declarations]
      refine ⟨_, inside_mem_declarationsFrom slot_at left_mem, _,
        inside_mem_declarationsFrom slot_at right_mem, left_name, right_name, ?_⟩
      rw [Declaration.precedes_inside, Declaration.precedes_inside]
      exact order.imp (fun order => .inl ⟨rfl, order⟩) fun order => .inl ⟨rfl, order⟩
  | optional present _ induction =>
      rw [declarations, if_pos present]
      exact induction

end Slot

theorem Declaration.size_le_bytes (width : Width) {declaration : Declaration}
    (filled : 0 < declaration.count) : declaration.type.size width ≤ declaration.bytes width :=
  Nat.le_mul_of_pos_right _ filled

/-- Every member that is listed was declared. -/
theorem RecordLayout.Realizes.exists_declaration {config : BuildConfig}
    {declared : List Declaration} {layout : RecordLayout}
    (realizes : layout.Realizes config declared) {name : String} {member : Member}
    (listed : (name, member) ∈ layout.members) :
    ∃ declaration, (declaration, name, member) ∈ declared.zip layout.members ∧
      declaration.name = name ∧ declaration.type = member.type := by
  obtain ⟨place, bound, entry_eq⟩ := List.mem_iff_getElem.mp listed
  have same_length : layout.members.length = declared.length := by
    simpa using congrArg List.length realizes.members
  have bound' : place < declared.length := same_length ▸ bound
  have title := congrArg (fun titles => titles[place]?) realizes.members
  simp only [List.getElem?_map, List.getElem?_eq_getElem bound, List.getElem?_eq_getElem bound',
    entry_eq, Option.map_some, Option.some.injEq, Declaration.title, Prod.mk.injEq] at title
  refine ⟨declared[place], List.mem_iff_getElem.mpr ⟨place, ?_, ?_⟩, title.1.symm, title.2.symm⟩
  · rw [List.length_zip]
    omega
  · rw [List.getElem_zip, entry_eq]

namespace Record

/-- The smallest slot around two members is a struct, or the record itself. -/
def Beside (config : BuildConfig) (record : Record) (first second : String) : Prop :=
  record.slot.Beside config "" first second

/-- The layout of a record whose members are told apart by their names, and to each of which a
displacement of 32 bits leads. -/
structure LaidOut (config : BuildConfig) (record : Record) (layout : RecordLayout) : Prop where
  computed : record.compute config = some layout
  /-- No sum or product on the way to the layout wraps around. -/
  small : (record.extent Layout.exact config).size < 2 ^ 31
  filled : record.slot.Filled config
  distinct : (layout.members.map (·.1)).Nodup

namespace LaidOut

variable {config : BuildConfig} {record : Record} {layout : RecordLayout}

private theorem fits (laid : record.LaidOut config layout) :
    (record.extent Layout.exact config).size < UInt32.size :=
  Nat.lt_trans laid.small (by decide)

private theorem layout_eq (laid : record.LaidOut config layout) :
    layout = record.exactLayout config := by
  have exactly := compute_eq_exactLayout laid.fits (present_of_compute laid.computed)
  exact Option.some.inj (laid.computed.symm.trans exactly)

theorem size_eq (laid : record.LaidOut config layout) :
    layout.size.toNat = (record.extent Layout.exact config).size := by
  rw [laid.layout_eq, toNat_exactLayout_size laid.fits]

theorem realizes (laid : record.LaidOut config layout) :
    layout.Realizes config (record.declarations config) := by
  rw [laid.layout_eq]
  exact exactLayout_realizes laid.fits

/-- Every member that is listed was declared, and one element of it has its bytes. -/
theorem exists_declaration (laid : record.LaidOut config layout) {name : String} {member : Member}
    (listed : (name, member) ∈ layout.members) :
    ∃ declaration, (declaration, name, member) ∈ (record.declarations config).zip layout.members ∧
      declaration.name = name ∧ member.type.size config.width ≤ declaration.bytes config.width := by
  obtain ⟨declaration, mem, named, type_eq⟩ := laid.realizes.exists_declaration listed
  refine ⟨declaration, mem, named, ?_⟩
  rw [← type_eq]
  exact declaration.size_le_bytes _ (laid.filled.count_pos "" _ (List.of_mem_zip mem).1)

theorem member_within (laid : record.LaidOut config layout) {name : String} {member : Member}
    (listed : (name, member) ∈ layout.members) :
    member.offset.toNat + member.type.size config.width ≤ layout.size.toNat := by
  obtain ⟨declaration, mem, -, element⟩ := laid.exists_declaration listed
  exact Nat.le_trans (Nat.add_le_add_left element _) (laid.realizes.within _ _ _ mem)

/-- Members in different slots of a struct share no byte. -/
theorem members_apart (laid : record.LaidOut config layout) {first second : String}
    (beside : record.Beside config first second) {left right : Member}
    (left_listed : (first, left) ∈ layout.members)
    (right_listed : (second, right) ∈ layout.members) :
    left.offset.toNat + left.type.size config.width ≤ right.offset.toNat ∨
      right.offset.toNat + right.type.size config.width ≤ left.offset.toNat := by
  -- Names are distinct, so the declarations with these names are those of the two members.
  have unique : ((record.declarations config).map (·.name)).Nodup := by
    have names := congrArg (List.map (·.1)) laid.realizes.members
    rw [List.map_map, List.map_map] at names
    exact names ▸ laid.distinct
  obtain ⟨p, p_mem, q, q_mem, p_name, q_name, order⟩ := beside.exists_declarations
  obtain ⟨p', left_mem, p'_name, left_size⟩ := laid.exists_declaration left_listed
  obtain ⟨q', right_mem, q'_name, right_size⟩ := laid.exists_declaration right_listed
  obtain rfl := List.inj_on_of_nodup_map unique p_mem (List.of_mem_zip left_mem).1
    (p_name.trans p'_name.symm)
  obtain rfl := List.inj_on_of_nodup_map unique q_mem (List.of_mem_zip right_mem).1
    (q_name.trans q'_name.symm)
  rcases order with before | after
  · have ends := laid.realizes.ordered _ _ _ _ _ _ left_mem right_mem before
    exact .inl (Nat.le_trans (Nat.add_le_add_left left_size _) ends)
  · have ends := laid.realizes.ordered _ _ _ _ _ _ right_mem left_mem after
    exact .inr (Nat.le_trans (Nat.add_le_add_left right_size _) ends)

end LaidOut

end Record

end HostBridge
