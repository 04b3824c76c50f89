import HostBridge.Proofs.Toml.Keys
import HostBridge.Text.Number

/-!
# Reading what was written

A document of plain lines is read back: each line is a bare key, an equals sign and a value, and the
value is a number, a bare name between double quotes, or a list of such names. What each part of the
reader makes of its part of the text is stated for any continuation of the text, so that the parts
compose.
-/

namespace HostBridge

namespace Toml

/-! ## Bare words -/

namespace Line

/-- A word that needs no quotes as a key, and no escapes between quotes. -/
structure Bare (chars : List Char) : Prop where
  nonempty : chars ≠ []
  each : ∀ char ∈ chars, isBareChar char = true

instance (chars : List Char) : Decidable (Bare chars) :=
  decidable_of_iff (chars.isEmpty = false ∧ chars.all isBareChar = true)
    ⟨fun ⟨nonempty, each⟩ => ⟨List.isEmpty_eq_false_iff.mp nonempty, List.all_eq_true.mp each⟩,
      fun bare => ⟨List.isEmpty_eq_false_iff.mpr bare.nonempty, List.all_eq_true.mpr bare.each⟩⟩

variable {char : Char} {chars rest : List Char}

theorem isPlain_of_isBareChar (bare : isBareChar char = true) : Quoted.isPlain char = true := by
  unfold isBareChar Char.isAlphanum Char.isAlpha Char.isUpper Char.isLower Char.isDigit at bare
  simp only [Bool.or_eq_true, Bool.and_eq_true, decide_eq_true_eq, beq_iff_eq, ge_iff_le,
    UInt32.le_iff_toNat_le] at bare
  change (((65 ≤ char.toNat ∧ char.toNat ≤ 90 ∨ 97 ≤ char.toNat ∧ char.toNat ≤ 122) ∨
    48 ≤ char.toNat ∧ char.toNat ≤ 57) ∨ char = '_') ∨ char = '-' at bare
  simp only [Quoted.isPlain, Bool.or_eq_true, Bool.and_eq_true, decide_eq_true_eq, bne_iff_ne]
  obtain (letter_or_digit | rfl) | rfl := bare
  · exact .inr (by omega)
  · exact .inr (by decide)
  · exact .inr (by decide)

theorem ne_of_isBareChar {mark : Char} (bare : isBareChar char = true)
    (not_bare : isBareChar mark = false) : char ≠ mark := by
  rintro rfl
  exact Bool.noConfusion (bare.symm.trans not_bare)

theorem Bare.exists_cons (bare : Bare chars) :
    ∃ char tail, chars = char :: tail ∧ isBareChar char = true := by
  obtain ⟨char, tail, rfl⟩ := List.exists_cons_of_ne_nil bare.nonempty
  exact ⟨char, tail, rfl, bare.each char List.mem_cons_self⟩

end Line

namespace Quoted

open Line

variable {chars rest : List Char} {fuel : Nat}

theorem basic?_bare (each : ∀ char ∈ chars, isBareChar char = true) (enough : chars.length < fuel) :
    basic? fuel (chars ++ '"' :: rest) = some (chars, rest) := by
  induction chars generalizing fuel with
  | nil =>
      obtain ⟨fuel, rfl⟩ := Nat.exists_eq_succ_of_ne_zero (Nat.ne_of_gt enough)
      rfl
  | cons char chars induction =>
      obtain ⟨fuel, rfl⟩ := Nat.exists_eq_succ_of_ne_zero (Nat.ne_of_gt (Nat.zero_lt_of_lt enough))
      obtain ⟨bare, later⟩ := List.forall_mem_cons.mp each
      have no_quote : char ≠ '"' := ne_of_isBareChar bare (by decide)
      have no_escape : char ≠ '\\' := ne_of_isBareChar bare (by decide)
      rw [List.cons_append, basic?, if_pos (isPlain_of_isBareChar bare),
        induction later (Nat.lt_of_succ_lt_succ enough)]
      · rfl
      · exact no_quote
      · exact no_escape

theorem read?_bare (bare : Bare chars) :
    read? ('"' :: (chars ++ '"' :: rest)) = some (chars, rest) := by
  obtain ⟨char, tail, rfl, first⟩ := bare.exists_cons
  have no_quote : char ≠ '"' := ne_of_isBareChar first (by decide)
  have enough : (char :: tail).length < (char :: tail ++ '"' :: rest).length + 1 := by
    rw [List.length_append]
    omega
  rw [read?, line?]
  · exact basic?_bare bare.each enough
  all_goals simp [no_quote]

end Quoted

/-! ## Keys and values -/

namespace Line

variable {char : Char} {chars rest : List Char} {fuel depth : Nat} {key name : String}

/-- The character is neither a blank, nor the start of a comment or of a line end. -/
def IsSolid (char : Char) : Prop := char ∉ [' ', '\t', '#', '\n', '\r']

instance : DecidablePred IsSolid := fun char =>
  inferInstanceAs (Decidable (char ∉ [' ', '\t', '#', '\n', '\r']))

theorem isSolid_of_isBareChar (bare : isBareChar char = true) : IsSolid char := by
  intro mem
  simp only [List.mem_cons, List.not_mem_nil, or_false] at mem
  obtain rfl | rfl | rfl | rfl | rfl := mem
  all_goals exact absurd bare (by decide)

theorem skipBlanks_solid (solid : IsSolid char) : skipBlanks (char :: rest) = char :: rest := by
  simp only [IsSolid, List.mem_cons, not_or] at solid
  simp [skipBlanks, Quoted.isBlank, solid]

theorem skipVoid_solid (solid : IsSolid char) :
    skipVoid (fuel + 1) (char :: rest) = char :: rest := by
  have no_comment : skipComment (char :: rest) = char :: rest := by
    rw [skipComment]
    rintro _ ⟨rfl⟩
    exact absurd solid (by decide)
  have no_newline : Quoted.newline? (char :: rest) = none := by
    rw [Quoted.newline?]
    · rintro _ ⟨rfl⟩
      exact absurd solid (by decide)
    · rintro _ ⟨rfl⟩
      exact absurd solid (by decide)
  simp only [skipVoid, skipBlanks_solid solid, no_comment, no_newline]

theorem keyPart?_bare (bare : Bare chars) :
    keyPart? (chars ++ ' ' :: rest) = some (String.ofList chars, ' ' :: rest) := by
  have not_quoted : Quoted.line? (chars ++ ' ' :: rest) = none := by
    obtain ⟨char, tail, rfl, first⟩ := bare.exists_cons
    rw [List.cons_append, Quoted.line?]
    · rintro _ ⟨rfl⟩
      exact absurd first (by decide)
    · rintro _ ⟨rfl⟩
      exact absurd first (by decide)
  have ended : isBareChar ' ' = false := by decide
  have taken : (chars ++ ' ' :: rest).takeWhile isBareChar = chars := by
    rw [List.takeWhile_append_of_pos bare.each]
    simp [ended]
  have dropped : (chars ++ ' ' :: rest).dropWhile isBareChar = ' ' :: rest := by
    rw [List.dropWhile_append_of_pos bare.each]
    simp [ended]
  simp [keyPart?, not_quoted, taken, dropped, bare.nonempty]

theorem key?_bare (bare : Bare key.toList) :
    key? (key.toList ++ ' ' :: '=' :: rest) = some (([], key), '=' :: rest) := by
  have starts :
      skipBlanks (key.toList ++ ' ' :: '=' :: rest) = key.toList ++ ' ' :: '=' :: rest := by
    obtain ⟨char, tail, chars_eq, first⟩ := bare.exists_cons
    rw [chars_eq]
    exact skipBlanks_solid (isSolid_of_isBareChar first)
  have ends : skipBlanks (' ' :: '=' :: rest) = '=' :: rest := rfl
  rw [key?, keyParts?, starts, keyPart?_bare bare]
  simp [ends, depthLimit]

theorem value?_quoted (bare : Bare name.toList) :
    value? (fuel + 1) depth ('"' :: (name.toList ++ '"' :: rest)) = some (.string name, rest) := by
  simp [value?, Quoted.read?_bare bare]

/-- A name between double quotes. -/
def quote (name : String) : String := "\"" ++ name ++ "\""

theorem toList_quote_append :
    (quote name).toList ++ rest = '"' :: (name.toList ++ '"' :: rest) := by
  simp [quote]

theorem items?_blank :
    items? fuel depth (' ' :: '"' :: rest) = items? fuel depth ('"' :: rest) := by
  cases fuel <;> rfl

theorem items?_last (bare : Bare name.toList) :
    items? (fuel + 2) depth ('"' :: (name.toList ++ '"' :: ']' :: rest)) =
      some ([.string name], rest) := by
  have solid : IsSolid ']' := by decide
  rw [items?, skipVoid_solid (by decide)]
  simp [value?_quoted bare, skipVoid_solid solid]

theorem items?_more {items : List Value} {after : List Char} (bare : Bare name.toList)
    (later : items? (fuel + 1) depth rest = some (items, after)) :
    items? (fuel + 2) depth ('"' :: (name.toList ++ '"' :: ',' :: rest)) =
      some (.string name :: items, after) := by
  have solid : IsSolid ',' := by decide
  rw [items?, skipVoid_solid (by decide)]
  simp [value?_quoted bare, skipVoid_solid solid, later]

theorem joined_quote_cons (name : String) (names : List String) :
    ∃ inner, (Text.joined ", " ((name :: names).map quote)).toList = '"' :: inner := by
  cases names <;> simp [Text.joined, quote]

/-- A list of bare names between quotes is read up to its closing bracket. -/
theorem items?_quoted {names : List String} (bare : ∀ name ∈ names, Bare name.toList)
    (enough : names.length < fuel) :
    items? fuel depth ((Text.joined ", " (names.map quote)).toList ++ ']' :: rest) =
      some (names.map .string, rest) := by
  induction names generalizing fuel with
  | nil =>
      obtain ⟨fuel, rfl⟩ := Nat.exists_eq_succ_of_ne_zero (Nat.ne_of_gt enough)
      rfl
  | cons name names induction =>
      obtain ⟨first, later⟩ := List.forall_mem_cons.mp bare
      rw [List.length_cons] at enough
      obtain ⟨fuel, rfl⟩ : ∃ less, fuel = less + 2 := ⟨fuel - 2, by omega⟩
      cases names with
      | nil =>
          rw [List.map_singleton, Text.joined, String.intercalate_singleton, toList_quote_append]
          exact items?_last first
      | cons second names =>
          have tail := induction later (by omega : _ < fuel + 1)
          obtain ⟨inner, starts⟩ := joined_quote_cons second names
          have unfolded :
              (Text.joined ", " ((name :: second :: names).map quote)).toList =
                (quote name).toList ++ ',' :: ' ' :: '"' :: inner := by
            rw [← starts]
            simp [Text.joined]
          -- The comma is followed by a blank, which is skipped before the next quote.
          rw [starts, List.cons_append, ← items?_blank] at tail
          rw [unfolded, List.append_assoc, toList_quote_append]
          exact items?_more first tail

/-! ## Lines -/

/-- The text is a writing of the value: it is read as the value up to the end of its line. -/
structure Writes (written : String) (value : Value) : Prop where
  starts : ∃ first inner, written.toList = first :: inner ∧ IsSolid first
  reads (rest : List Char) :
    value? (2 * (written.toList ++ '\n' :: rest).length + 2) 0 (written.toList ++ '\n' :: rest) =
      some (value, '\n' :: rest)

theorem writes_quote (bare : Bare name.toList) : Writes (quote name) (.string name) where
  starts := ⟨'"', _, by rw [← List.append_nil (quote name).toList, toList_quote_append], by decide⟩
  reads rest := by rw [toList_quote_append]; exact value?_quoted bare

/-- Each name takes some room in a list. -/
theorem length_le_joined_quote (names : List String) :
    names.length ≤ (Text.joined ", " (names.map quote)).toList.length := by
  induction names with
  | nil => exact Nat.zero_le _
  | cons name names induction =>
      cases names with
      | nil => simp [Text.joined, quote]
      | cons second names =>
        simp [Text.joined, quote] at induction ⊢
        omega

theorem writes_list {names : List String} (bare : ∀ name ∈ names, Bare name.toList) :
    Writes ("[" ++ Text.joined ", " (names.map quote) ++ "]") (.array (names.map .string)) where
  starts := ⟨'[', (Text.joined ", " (names.map quote)).toList ++ [']'], by simp, by decide⟩
  reads rest := by
    have unfolded :
        ("[" ++ Text.joined ", " (names.map quote) ++ "]").toList ++ '\n' :: rest =
          '[' :: ((Text.joined ", " (names.map quote)).toList ++ ']' :: '\n' :: rest) := by
      simp
    have room := length_le_joined_quote names
    have enough :
        names.length <
          2 * ('[' :: ((Text.joined ", " (names.map quote)).toList ++ ']' :: '\n' :: rest)).length
            + 1 := by
      rw [List.length_cons, List.length_append]
      omega
    rw [unfolded, value?, if_pos (by decide), items?_quoted bare enough]
    rfl

/-- The line defines the entry: it is a bare key, an equals sign and a writing of the value. -/
inductive Spells : String → String × Value → Prop where
  | entry {key written : String} {value : Value} (bare : Bare key.toList)
      (writes : Writes written value) : Spells (key ++ " = " ++ written) (key, value)

theorem read?_spelled {line : String} {entry : String × Value} (spells : Spells line entry) :
    read? (line.toList ++ '\n' :: rest) = some (.entry [] entry.1 entry.2, rest) := by
  obtain @⟨key, written, value, bare, writes⟩ := spells
  have unfolded :
      (key ++ " = " ++ written).toList ++ '\n' :: rest =
        key.toList ++ ' ' :: '=' :: ' ' :: (written.toList ++ '\n' :: rest) := by
    simp
  have value_starts :
      skipBlanks (' ' :: (written.toList ++ '\n' :: rest)) = written.toList ++ '\n' :: rest := by
    obtain ⟨first, inner, written_eq, solid⟩ := writes.starts
    rw [written_eq]
    exact skipBlanks_solid solid
  have no_header : ∀ more tail, key.toList ++ more ≠ '[' :: tail := by
    obtain ⟨char, inner, key_eq, first⟩ := bare.exists_cons
    rw [key_eq]
    rintro more _ ⟨rfl⟩
    exact absurd first (by decide)
  rw [unfolded, read?, key?_bare bare]
  · simp only [Option.bind_eq_bind, Option.bind_some, value_starts, writes.reads rest]
    rfl
  · exact fun tail => no_header _ _
  · exact no_header _

theorem Spells.starts {line : String} {entry : String × Value} (spells : Spells line entry) :
    ∃ char tail, line.toList = char :: tail ∧ isBareChar char = true := by
  obtain @⟨key, written, value, bare, writes⟩ := spells
  obtain ⟨char, tail, key_eq, first⟩ := bare.exists_cons
  exact ⟨char, tail ++ (" = " ++ written).toList, by simp [key_eq], first⟩

theorem skipVoid_spelled {line : String} {entry : String × Value} (spells : Spells line entry) :
    skipVoid (fuel + 1) (line.toList ++ rest) = line.toList ++ rest := by
  obtain ⟨char, tail, line_eq, first⟩ := spells.starts
  rw [line_eq]
  exact skipVoid_solid (isSolid_of_isBareChar first)

theorem toList_unlines_cons (line : String) (lines : List String) :
    (Text.unlines (line :: lines)).toList =
      line.toList ++ '\n' :: (Text.unlines lines).toList := by
  simp [Text.unlines]

theorem length_le_unlines (lines : List String) :
    lines.length ≤ (Text.unlines lines).toList.length := by
  induction lines with
  | nil => exact Nat.zero_le _
  | cons line lines induction =>
      rw [toList_unlines_cons, List.length_append, List.length_cons, List.length_cons]
      omega

theorem readAll?_spelled {lines : List String} {entries : Entries}
    (spelled : List.Forall₂ Spells lines entries) (enough : lines.length < fuel) :
    readAll? fuel (Text.unlines lines).toList =
      some (entries.map fun entry => .entry [] entry.1 entry.2) := by
  induction spelled generalizing fuel with
  | nil =>
      obtain ⟨fuel, rfl⟩ := Nat.exists_eq_succ_of_ne_zero (Nat.ne_of_gt enough)
      rfl
  | @cons line entry lines entries spells spelled induction =>
      obtain ⟨fuel, rfl⟩ := Nat.exists_eq_succ_of_ne_zero (Nat.ne_of_gt (Nat.zero_lt_of_lt enough))
      have tail := induction (Nat.lt_of_succ_lt_succ enough)
      rw [toList_unlines_cons, readAll?, skipVoid_spelled spells]
      split
      case h_1 empty => simp at empty
      case h_2 => simp [read?_spelled spells, tail]

end Line

/-! ## Documents -/

namespace Entries

variable {entries : Entries} {key : String}

theorem define_absent (absent : entries.lookup key = none) (value : Value) :
    entries.define [] key value = some (entries ++ [(key, value)]) := by
  simp [define, alter, absent]

end Entries

namespace Document

variable {entries : Entries}

theorem fill_entries (before : Entries) (distinct : Entries.Distinct (before ++ entries)) :
    fill (entries.map fun entry => .entry [] entry.1 entry.2) before =
      some (before ++ entries) := by
  induction entries generalizing before with
  | nil =>
      rw [List.append_nil]
      rfl
  | cons entry entries induction =>
      obtain ⟨key, value⟩ := entry
      have absent : before.lookup key = none := by
        rw [Entries.lookup_eq_none_iff]
        rw [Entries.Distinct, List.map_append] at distinct
        exact fun mem => List.disjoint_of_nodup_append distinct mem List.mem_cons_self
      rw [List.append_cons] at distinct
      rw [List.map_cons, fill, Entries.define_absent absent, List.append_cons before _ entries]
      exact induction _ distinct

theorem addHeaders_entries (document : Entries) :
    addHeaders (entries.map fun entry => .entry [] entry.1 entry.2) document = some document := by
  induction entries with
  | nil => rfl
  | cons entry entries induction => exact induction

/-- A document of plain lines is read back. -/
theorem read?_unlines {lines : List String} (spelled : List.Forall₂ Line.Spells lines entries)
    (distinct : entries.Distinct) : read? (Text.unlines lines) = some entries := by
  have no_mark : skipMark (Text.unlines lines).toList = (Text.unlines lines).toList := by
    cases spelled with
    | nil => rfl
    | cons spells spelled =>
        obtain ⟨char, tail, line_eq, first⟩ := spells.starts
        rw [Line.toList_unlines_cons, line_eq, List.cons_append, skipMark]
        rintro _ ⟨rfl⟩
        exact absurd first (by decide)
  have enough := Nat.lt_succ_of_le (Line.length_le_unlines lines)
  rw [read?, no_mark, Line.readAll?_spelled spelled enough]
  simp [ofLines?, fill_entries [] distinct, addHeaders_entries]

end Document

end Toml

end HostBridge
