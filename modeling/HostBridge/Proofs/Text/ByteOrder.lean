import Mathlib.Data.List.Basic

/-!
# The order of texts

Texts are compared by their code points. Comparing the bytes of their UTF-8 forms comes to the same:
of two characters the lower one has the lower byte at the first place where their bytes differ, and
the bytes of a character are never a start of those of another one.
-/

namespace HostBridge

namespace Text

/-- The bytes of a text in UTF-8. -/
def bytes (text : String) : List UInt8 := text.toUTF8.data.toList

theorem bytes_eq_flatMap (text : String) :
    bytes text = text.toList.flatMap String.utf8EncodeChar := by
  rw [bytes, String.toUTF8_eq_toByteArray, ← String.utf8Encode_toList, List.utf8Encode,
    List.toList_data_toByteArray]

/-- The lower of two characters has the lower bytes, whatever follows them. -/
theorem utf8EncodeChar_append_lt {left right : Char} (below : left < right)
    (rest rest' : List UInt8) :
    String.utf8EncodeChar left ++ rest < String.utf8EncodeChar right ++ rest' := by
  have lower : left.val.toNat < right.val.toNat := below
  have bound : right.val.toNat < 0x110000 := by
    have valid := right.valid
    simp only [UInt32.isValidChar, Nat.isValidChar] at valid
    omega
  -- each byte behind the first one holds a digit to the base 64
  have second (number : Nat) : number / 4096 = number / 64 / 64 := by omega
  have third (number : Nat) : number / 262144 = number / 64 / 64 / 64 := by omega
  simp only [String.utf8EncodeChar, second, third]
  generalize left.val.toNat = point at *
  generalize right.val.toNat = point' at *
  split_ifs <;>
    simp only [List.cons_append, List.nil_append, List.cons_lt_cons_iff, UInt8.lt_iff_toNat_lt,
      ← UInt8.toNat_inj, UInt8.toNat_ofNat'] <;>
    omega

theorem flatMap_utf8EncodeChar_lt {left right : List Char} (below : left < right) :
    left.flatMap String.utf8EncodeChar < right.flatMap String.utf8EncodeChar := by
  induction below with
  | @nil first rest =>
      obtain ⟨byte, bytes, encoded⟩ :=
        List.exists_cons_of_ne_nil (String.utf8EncodeChar_ne_nil (c := first))
      rw [List.flatMap_nil, List.flatMap_cons, encoded]
      exact List.Lex.nil
  | rel lower => exact utf8EncodeChar_append_lt lower _ _
  | cons _ induction => exact List.append_left_lt induction

/-- Texts are in the order of their bytes. -/
theorem lt_iff_bytes_lt (left right : String) : left < right ↔ bytes left < bytes right := by
  have forward {first second : String} (below : first < second) : bytes first < bytes second := by
    rw [bytes_eq_flatMap, bytes_eq_flatMap]
    exact flatMap_utf8EncodeChar_lt below
  refine ⟨forward, fun lower => ?_⟩
  rcases Std.lt_trichotomy left right with below | same | above
  · exact below
  · exact (List.lt_irrefl _ (same ▸ lower)).elim
  · exact (List.lt_asymm lower (forward above)).elim

end Text

end HostBridge
