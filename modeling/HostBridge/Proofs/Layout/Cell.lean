import HostBridge.Proofs.Code.RawAccess

/-!
# Members as cells

A member that the host reads and writes directly is a cell of as many bytes as its type has. It
holds the low bits of the word that was written last, which are read with the extension of the type.
Cells that share no byte do not disturb each other. Addresses may wrap around.
-/

namespace HostBridge

namespace NativeType

/-- Extending a word only depends on its low bits. -/
theorem extended_congr (type : NativeType) {bits other : UInt64}
    (same : bits.toNat % 2 ^ (8 * type.size .bits64) =
      other.toNat % 2 ^ (8 * type.size .bits64)) :
    type.extended bits = type.extended other := by
  have low : bits.toBitVec.setWidth (8 * type.size .bits64) =
      other.toBitVec.setWidth (8 * type.size .bits64) := by
    apply BitVec.eq_of_toNat_eq
    simpa only [BitVec.toNat_setWidth, UInt64.toNat_toBitVec] using same
  rw [extended, extended, low]

/-- The low bits of a word are not changed when they are extended. -/
theorem toNat_extended_mod (type : NativeType) (bits : UInt64) :
    (type.extended bits).toNat % 2 ^ (8 * type.size .bits64) =
      bits.toNat % 2 ^ (8 * type.size .bits64) := by
  have narrow : 8 * type.size .bits64 ≤ 64 := by cases type <;> decide
  rw [extended]
  generalize 8 * type.size .bits64 = width at narrow
  have back : ∀ low : BitVec width, (low.signExtend 64).setWidth width = low := by
    intro low
    ext place inside
    rw [BitVec.getElem_setWidth, BitVec.getLsbD_signExtend]
    simp [inside]
    omega
  split
  · have cut := congrArg BitVec.toNat (back (bits.toBitVec.setWidth width))
    simpa only [BitVec.toNat_setWidth, UInt64.toNat_toBitVec] using cut
  · rw [BitVec.toNat_setWidth, BitVec.toNat_setWidth, UInt64.toNat_toBitVec]
    have bound := Nat.mod_lt bits.toNat (Nat.two_pow_pos width)
    have fits : 2 ^ width ≤ 2 ^ 64 := Nat.pow_le_pow_right (by omega) narrow
    rw [Nat.mod_eq_of_lt (Nat.lt_of_lt_of_le bound fits), Nat.mod_mod]

end NativeType

namespace Member

variable (member : Member) (memory : Memory) (base : UInt64)

/-- The byte at an address is one of the member's, in the record at `base`. -/
def Covers (address : UInt64) : Prop := (address - member.address base).toNat < member.size

/-- Two members, each in its record, have no byte in common. -/
def Apart (other : Member) (otherBase : UInt64) : Prop :=
  ∀ address, ¬(member.Covers base address ∧ other.Covers otherBase address)

variable {member memory base}

theorem writeRaw_of_not_covers {address : UInt64} (outside : ¬member.Covers base address)
    (bits : UInt64) : member.writeRaw memory base bits address = memory address := by
  rw [writeRaw_eq]
  exact Memory.store_beyond bits (Nat.le_of_not_lt outside)

theorem writeRaw_of_covers {address : UInt64} (inside : member.Covers base address)
    (bits : UInt64) (before : Memory) :
    member.writeRaw memory base bits address = member.writeRaw before base bits address := by
  rw [writeRaw_eq, writeRaw_eq]
  exact Memory.store_within member.size_le bits inside before

theorem toBitVec_readRaw_writeRaw (bits : UInt64) :
    (member.readRaw (member.writeRaw memory base bits) base).toBitVec =
      member.type.extended bits := by
  rw [toBitVec_readRaw]
  apply NativeType.extended_congr
  have loaded : ((member.writeRaw memory base bits).load (member.address base) member.size).toNat =
      bits.toNat % 2 ^ (8 * member.size) := by
    rw [writeRaw_eq]
    exact Memory.toNat_load_of_digits member.size_le fun _ within =>
      Memory.store_digit member.size_le bits within
  exact (congrArg (· % _) loaded).trans (Nat.mod_mod ..)

theorem writeRaw_readRaw : member.writeRaw memory base (member.readRaw memory base) = memory := by
  have low : (member.readRaw memory base).toNat % 2 ^ (8 * member.size) =
      (memory.load (member.address base) member.size).toNat % 2 ^ (8 * member.size) := by
    rw [← UInt64.toNat_toBitVec, toBitVec_readRaw]
    exact member.type.toNat_extended_mod _
  rw [writeRaw_eq, Memory.store_congr low, Memory.store_load member.size_le]

theorem writeRaw_writeRaw (first second : UInt64) :
    member.writeRaw (member.writeRaw memory base first) base second =
      member.writeRaw memory base second := by
  funext address
  by_cases inside : member.Covers base address
  · exact writeRaw_of_covers inside second memory
  · rw [writeRaw_of_not_covers inside, writeRaw_of_not_covers inside,
      writeRaw_of_not_covers inside]

theorem writeRaw_comm {other : Member} {otherBase : UInt64}
    (apart : member.Apart base other otherBase) (bits otherBits : UInt64) :
    other.writeRaw (member.writeRaw memory base bits) otherBase otherBits =
      member.writeRaw (other.writeRaw memory otherBase otherBits) base bits := by
  funext address
  by_cases inside : member.Covers base address
  · have outside : ¬other.Covers otherBase address := fun both => apart address ⟨inside, both⟩
    rw [writeRaw_of_not_covers outside]
    exact writeRaw_of_covers inside bits _
  · rw [writeRaw_of_not_covers inside]
    by_cases there : other.Covers otherBase address
    · exact writeRaw_of_covers there otherBits _
    · rw [writeRaw_of_not_covers there, writeRaw_of_not_covers there,
        writeRaw_of_not_covers inside]

variable (member memory base)

/-- The laws of a cell: a word is read as it was written, cut to the member and extended again; a
write changes the bytes of the member alone; writing what was read changes nothing; the last write
counts; and writes to members without a common byte can be exchanged. -/
theorem raw_access_laws :
    (∀ bits, (member.readRaw (member.writeRaw memory base bits) base).toBitVec =
      member.type.extended bits) ∧
    (∀ bits address, ¬member.Covers base address →
      member.writeRaw memory base bits address = memory address) ∧
    member.writeRaw memory base (member.readRaw memory base) = memory ∧
    (∀ first second, member.writeRaw (member.writeRaw memory base first) base second =
      member.writeRaw memory base second) ∧
    ∀ other otherBase, member.Apart base other otherBase → ∀ bits otherBits,
      other.writeRaw (member.writeRaw memory base bits) otherBase otherBits =
        member.writeRaw (other.writeRaw memory otherBase otherBits) base bits :=
  ⟨toBitVec_readRaw_writeRaw, fun bits _ outside => writeRaw_of_not_covers outside bits,
    writeRaw_readRaw, writeRaw_writeRaw, fun _ _ apart => writeRaw_comm apart⟩

/-- A byte in the last place of memory and a half word behind it, in the first four. -/
theorem raw_access_laws_wrapping :
    let left : Member := ⟨3, .int8⟩
    let right : Member := ⟨4, .uint32⟩
    let base : UInt64 := 0xfffffffffffffffc
    left.Apart base right base ∧
      (left.readRaw (left.writeRaw .zero base 0x180) base).toBitVec = -128 ∧
      (right.readRaw (right.writeRaw .zero base 0x1ffffffff) base).toBitVec = 0xffffffff ∧
      right.writeRaw (left.writeRaw .zero base 0x180) base 0x1ffffffff =
        left.writeRaw (right.writeRaw .zero base 0x1ffffffff) base 0x180 := by
  intro left right base
  have apart : left.Apart base right base := by
    rintro address ⟨first, second⟩
    have start : left.address base = 0xffffffffffffffff := by decide
    have next : right.address base = 0 := by decide
    rw [Covers, start, UInt64.toNat_sub] at first
    rw [Covers, next, UInt64.sub_zero] at second
    have one : left.size = 1 := rfl
    have four : right.size = 4 := rfl
    simp only [UInt64.reduceToNat] at first
    omega
  obtain ⟨signed, -, -, -, exchange⟩ := raw_access_laws left .zero base
  obtain ⟨unsigned, -⟩ := raw_access_laws right .zero base
  exact ⟨apart, (signed 0x180).trans (by decide), (unsigned 0x1ffffffff).trans (by decide),
    exchange right base apart 0x180 0x1ffffffff⟩

end Member

end HostBridge
