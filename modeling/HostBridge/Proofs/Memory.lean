import HostBridge.Memory
import HostBridge.NativeType
import Mathlib.Tactic.Ring

/-!
# Loads and stores

A word that was stored is loaded again, cut to the bytes that were stored, and a store changes no
byte outside its own range. Both are stated for ranges that do not wrap around. The last section is
about ranges that may: how far a byte lies behind the start of the range is then taken modulo the
size of memory.
-/

namespace HostBridge

theorem IrType.toNat_cut (type : IrType) (bits : UInt64) :
    (type.cut bits).toNat = bits.toNat % 2 ^ (8 * type.bytes) := by
  have byte : bits.toNat &&& 255 = bits.toNat % 2 ^ 8 := Nat.and_two_pow_sub_one_eq_mod _ 8
  have short : bits.toNat &&& 65535 = bits.toNat % 2 ^ 16 := Nat.and_two_pow_sub_one_eq_mod _ 16
  have half : bits.toNat &&& 4294967295 = bits.toNat % 2 ^ 32 :=
    Nat.and_two_pow_sub_one_eq_mod _ 32
  have whole : bits.toNat = bits.toNat % 2 ^ 64 := (Nat.mod_eq_of_lt bits.toNat_lt).symm
  cases type <;> simp only [IrType.cut, IrType.bytes, UInt64.toNat_and] <;> assumption

namespace Memory

variable {memory : Memory} {address : UInt64} {count : Nat}

theorem toNat_succ (address : UInt64) : (address + 1).toNat = (address.toNat + 1) % 2 ^ 64 := by
  rw [UInt64.toNat_add]
  rfl

/-- A store changes only bytes of its range. -/
theorem store_outside (room : address.toNat + count ≤ 2 ^ 64) (bits : UInt64) {other : UInt64}
    (outside : other.toNat < address.toNat ∨ address.toNat + count ≤ other.toNat) :
    memory.store address count bits other = memory other := by
  induction count generalizing memory address bits with
  | zero => rfl
  | succ count induction =>
      have next := toNat_succ address
      have bound := other.toNat_lt
      have different : other ≠ address := by
        rintro rfl
        omega
      rw [store, induction (by omega) _ (by omega), set, if_neg different]

/-- What a store leaves in its range does not depend on what was there. -/
theorem store_inside (room : address.toNat + count ≤ 2 ^ 64) (bits : UInt64) {other : UInt64}
    (low : address.toNat ≤ other.toNat) (high : other.toNat < address.toNat + count)
    (before : Memory) :
    memory.store address count bits other = before.store address count bits other := by
  induction count generalizing memory before address bits with
  | zero => omega
  | succ count induction =>
      have next := toNat_succ address
      have bound := other.toNat_lt
      rw [store, store]
      by_cases first : other = address
      · -- The first byte is set, and the rest of the store lies behind it.
        subst first
        rw [store_outside (by omega) _ (by omega), store_outside (by omega) _ (by omega)]
        simp only [set, if_true]
      · have later : other.toNat ≠ address.toNat := fun same =>
          first (UInt64.toNat_inj.mp same)
        exact induction (by omega) _ (by omega) (by omega) _

/-- A load depends only on the bytes of its range. -/
theorem load_congr {other : Memory} (room : address.toNat + count ≤ 2 ^ 64)
    (same : ∀ place : UInt64, address.toNat ≤ place.toNat → place.toNat < address.toNat + count →
      memory place = other place) : memory.load address count = other.load address count := by
  induction count generalizing address with
  | zero => rfl
  | succ count induction =>
      have next := toNat_succ address
      have first := same address (Nat.le_refl _) (by omega)
      have rest : memory.load (address + 1) count = other.load (address + 1) count := by
        rcases Nat.eq_zero_or_pos count with rfl | more
        · rfl
        · refine induction (by omega) fun place above below => same place (by omega) (by omega)
      rw [load, load, first, rest]

/-- A store leaves a load from a range beside its own as it was. -/
theorem load_store_beside {place : UInt64} {size : Nat} (room : address.toNat + count ≤ 2 ^ 64)
    (place_room : place.toNat + size ≤ 2 ^ 64) (bits : UInt64)
    (beside : place.toNat + size ≤ address.toNat ∨ address.toNat + count ≤ place.toNat) :
    (memory.store address count bits).load place size = memory.load place size :=
  load_congr place_room fun other above below => store_outside room bits (by omega)

/-- A byte in front of a number. -/
theorem toNat_byte_or (byte : UInt8) {rest : UInt64} (small : rest.toNat < 2 ^ 56) :
    (byte.toUInt64 ||| rest <<< 8).toNat = byte.toNat + 256 * rest.toNat := by
  have shifted : (rest <<< 8).toNat = rest.toNat <<< 8 := by
    rw [UInt64.toNat_shiftLeft]
    change rest.toNat <<< 8 % 2 ^ 64 = rest.toNat <<< 8
    rw [Nat.shiftLeft_eq]
    omega
  have byte_lt := byte.toNat_lt
  rw [UInt64.toNat_or, shifted, UInt8.toNat_toUInt64, Nat.or_comm,
    ← Nat.shiftLeft_add_eq_or_of_lt byte_lt, Nat.shiftLeft_eq]
  omega

/-- A word that was stored is loaded again, as far as its bytes were stored. -/
theorem toNat_load_store (room : address.toNat + count ≤ 2 ^ 64) (short : count ≤ 8)
    (bits : UInt64) :
    ((memory.store address count bits).load address count).toNat =
      bits.toNat % 2 ^ (8 * count) := by
  induction count generalizing memory address bits with
  | zero => simp [load, Nat.mod_one]
  | succ count induction =>
      have next := toNat_succ address
      have first : memory.store address (count + 1) bits address = bits.toUInt8 := by
        rcases Nat.eq_zero_or_pos count with rfl | more
        · simp [store, set]
        · rw [store, store_outside (by omega) _ (by omega), set, if_pos rfl]
      have rest : ((memory.store address (count + 1) bits).load (address + 1) count).toNat =
          bits.toNat / 256 % 2 ^ (8 * count) := by
        have shifted : (bits >>> 8).toNat = bits.toNat / 256 := by
          rw [UInt64.toNat_shiftRight, Nat.shiftRight_eq_div_pow]
          rfl
        rw [store, induction (by omega) (by omega), shifted]
      have small : 2 ^ (8 * count) ≤ 2 ^ 56 := Nat.pow_le_pow_right (by omega) (by omega)
      have bound : bits.toNat / 256 % 2 ^ (8 * count) < 2 ^ (8 * count) :=
        Nat.mod_lt _ (Nat.two_pow_pos _)
      have split : 2 ^ (8 * (count + 1)) = 256 * 2 ^ (8 * count) := by ring
      rw [load, first, toNat_byte_or _ (by omega), rest, split, Nat.mod_mul, UInt64.toNat_toUInt8]

/-- A value of a machine type is loaded as it was stored. -/
theorem load_store_value {type : IrType} (room : address.toNat + type.bytes ≤ 2 ^ 64)
    {bits : UInt64} (value : type.cut bits = bits) :
    (memory.store address type.bytes bits).load address type.bytes = bits := by
  have short : type.bytes ≤ 8 := by cases type <;> decide
  apply UInt64.toNat_inj.mp
  rw [toNat_load_store room short, ← IrType.toNat_cut, value]

/-! ## Ranges that wrap around -/

theorem toNat_load_lt (memory : Memory) (address : UInt64) (short : count ≤ 8) :
    (memory.load address count).toNat < 2 ^ (8 * count) := by
  induction count generalizing address with
  | zero => simp [load]
  | succ count induction =>
      have rest := induction (address + 1) (by omega)
      have small : 2 ^ (8 * count) ≤ 2 ^ 56 := Nat.pow_le_pow_right (by omega) (by omega)
      have split : 2 ^ (8 * (count + 1)) = 256 * 2 ^ (8 * count) := by ring
      have byte_lt := (memory address).toNat_lt
      rw [load, toNat_byte_or _ (by omega)]
      omega

/-- A store depends on the low bits alone. -/
theorem store_congr {bits other : UInt64}
    (same : bits.toNat % 2 ^ (8 * count) = other.toNat % 2 ^ (8 * count)) :
    memory.store address count bits = memory.store address count other := by
  induction count generalizing memory address bits other with
  | zero => rfl
  | succ count induction =>
      have split : 2 ^ (8 * (count + 1)) = 256 * 2 ^ (8 * count) := by ring
      rw [split] at same
      have byte : bits.toUInt8 = other.toUInt8 := by
        apply UInt8.toNat_inj.mp
        have low := congrArg (· % 256) same
        simpa [Nat.mod_mul_right_mod] using low
      have rest : (bits >>> 8).toNat % 2 ^ (8 * count) =
          (other >>> 8).toNat % 2 ^ (8 * count) := by
        have high := congrArg (· / 256) same
        simpa [Nat.mod_mul_right_div_self, Nat.shiftRight_eq_div_pow] using high
      rw [store, store, byte, induction rest]

theorem store_cut (type : IrType) {bits other : UInt64} (same : type.cut bits = type.cut other) :
    memory.store address type.bytes bits = memory.store address type.bytes other :=
  store_congr (by rw [← IrType.toNat_cut, ← IrType.toNat_cut, same])

/-- A store changes no byte that lies its whole length behind its start. -/
theorem store_beyond (bits : UInt64) {other : UInt64} (beyond : count ≤ (other - address).toNat) :
    memory.store address count bits other = memory other := by
  induction count generalizing memory address bits with
  | zero => rfl
  | succ count induction =>
      have different : other ≠ address := by
        rintro rfl
        simp at beyond
      have next : count ≤ (other - (address + 1)).toNat := by
        rw [UInt64.toNat_sub] at beyond ⊢
        have := toNat_succ address
        have := other.toNat_lt
        have := address.toNat_lt
        omega
      rw [store, induction _ next, set, if_neg different]

/-- The first byte of a store is the low byte of the word. -/
theorem store_first (short : count ≤ 8) (positive : 0 < count) (bits : UInt64) :
    memory.store address count bits address = bits.toUInt8 := by
  obtain ⟨rest, rfl⟩ := Nat.exists_eq_add_of_lt positive
  have beyond : rest ≤ (address - (address + 1)).toNat := by
    rw [UInt64.toNat_sub, toNat_succ]
    have := address.toNat_lt
    omega
  rw [Nat.zero_add, store, store_beyond _ beyond, set, if_pos rfl]

/-- How far a byte lies behind the second byte of a range. -/
theorem toNat_sub_succ {other : UInt64} (different : other ≠ address) :
    (other - address).toNat = (other - (address + 1)).toNat + 1 := by
  have later : other.toNat ≠ address.toNat := fun same => different (UInt64.toNat_inj.mp same)
  have next := toNat_succ address
  have other_lt := other.toNat_lt
  have address_lt := address.toNat_lt
  rw [UInt64.toNat_sub, UInt64.toNat_sub]
  omega

/-- A store leaves the digits of the word to the base 256, one in each byte of its range. -/
theorem store_digit (short : count ≤ 8) (bits : UInt64) {other : UInt64}
    (within : (other - address).toNat < count) :
    (memory.store address count bits other).toNat =
      bits.toNat / 256 ^ (other - address).toNat % 256 := by
  induction count generalizing memory address bits with
  | zero => omega
  | succ count induction =>
      by_cases first : other = address
      · subst first
        rw [store_first short (by omega)]
        simp
      · have next := toNat_sub_succ first
        have shifted : (bits >>> 8).toNat = bits.toNat / 256 := by
          simp [Nat.shiftRight_eq_div_pow]
        rw [store, induction (by omega) _ (by omega), shifted, Nat.div_div_eq_div_mul, next,
          Nat.pow_succ']

/-- The bytes of a range are the digits of the number that is loaded from it. -/
theorem load_digit (short : count ≤ 8) {other : UInt64}
    (within : (other - address).toNat < count) :
    (memory.load address count).toNat / 256 ^ (other - address).toNat % 256 =
      (memory other).toNat := by
  induction count generalizing address with
  | zero => omega
  | succ count induction =>
      have small : 2 ^ (8 * count) ≤ 2 ^ 56 := Nat.pow_le_pow_right (by omega) (by omega)
      have rest := memory.toNat_load_lt (address + 1) (by omega : count ≤ 8)
      rw [load, toNat_byte_or _ (by omega)]
      by_cases first : other = address
      · subst first
        simp
      · have next := toNat_sub_succ first
        have byte_lt := (memory address).toNat_lt
        have above :
            ((memory address).toNat + 256 * (memory.load (address + 1) count).toNat) / 256 =
              (memory.load (address + 1) count).toNat := by omega
        rw [next, Nat.pow_succ', ← Nat.div_div_eq_div_mul, above]
        exact induction (by omega) (by omega)

/-- A number is loaded from a range that holds its digits. -/
theorem toNat_load_of_digits (short : count ≤ 8) {number : Nat}
    (digits : ∀ other : UInt64, (other - address).toNat < count →
      (memory other).toNat = number / 256 ^ (other - address).toNat % 256) :
    (memory.load address count).toNat = number % 2 ^ (8 * count) := by
  induction count generalizing address number with
  | zero => simp [load, Nat.mod_one]
  | succ count induction =>
      have first : (memory address).toNat = number % 256 := by
        simpa using digits address (by simp)
      have rest : (memory.load (address + 1) count).toNat = number / 256 % 2 ^ (8 * count) := by
        refine induction (by omega) fun other within => ?_
        have different : other ≠ address := by
          rintro rfl
          rw [UInt64.toNat_sub, toNat_succ] at within
          have := other.toNat_lt
          omega
        have next := toNat_sub_succ different
        rw [digits other (by omega), next, Nat.pow_succ', Nat.div_div_eq_div_mul]
      have small : 2 ^ (8 * count) ≤ 2 ^ 56 := Nat.pow_le_pow_right (by omega) (by omega)
      have bound : number / 256 % 2 ^ (8 * count) < 2 ^ (8 * count) :=
        Nat.mod_lt _ (Nat.two_pow_pos _)
      have split : 2 ^ (8 * (count + 1)) = 256 * 2 ^ (8 * count) := by ring
      rw [load, toNat_byte_or _ (by omega), first, rest, split, Nat.mod_mul]

/-- Storing what was loaded changes nothing. -/
theorem store_load (short : count ≤ 8) :
    memory.store address count (memory.load address count) = memory := by
  funext other
  by_cases within : (other - address).toNat < count
  · apply UInt8.toNat_inj.mp
    rw [store_digit short _ within, load_digit short within]
  · exact store_beyond _ (Nat.le_of_not_lt within)

/-- What a store leaves within its range does not depend on what was there, also where the range
wraps around. -/
theorem store_within (short : count ≤ 8) (bits : UInt64) {other : UInt64}
    (within : (other - address).toNat < count) (before : Memory) :
    memory.store address count bits other = before.store address count bits other := by
  apply UInt8.toNat_inj.mp
  rw [store_digit short bits within, store_digit short bits within]

end Memory

end HostBridge
