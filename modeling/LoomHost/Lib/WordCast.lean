import Mathlib.Data.UInt

/-!
# Casts of Integers to Machine Words

A cast to a word of `w` bits keeps the low bits of an integer. The word stands
for the integer it was made of exactly if that is in the range of the words,
whether they are read as unsigned or as signed.

## Main definitions

* `Unsigned`, `Signed`: The ranges of the words of `w` bits.

## Theorems

* `toNat_ofInt_emod`: The low bits.
* `unsigned_exact`, `signed_exact`: When a cast keeps an integer.
* `uint8_exact`, `uint16_exact`, `uint64_exact`, `int64_exact`: The same for machine
  integers.
* `uint16_ofInt_toNat`, `uint64_ofInt_toNat`: A word there and back.
* `and_even`: Clearing the lowest bit.
-/

namespace LoomHost

namespace WordCast

/-- The integers of an unsigned word of `w` bits. -/
def Unsigned (w : ℕ) (i : ℤ) : Prop := 0 ≤ i ∧ i < 2 ^ w

/-- The integers of a signed word of `w` bits. -/
def Signed (w : ℕ) (i : ℤ) : Prop := -2 ^ (w - 1) ≤ i ∧ i < 2 ^ (w - 1)

section Word

variable (w : ℕ) (i : ℤ)

/-- A cast keeps the low bits. -/
theorem toNat_ofInt_emod : ((BitVec.ofInt w i).toNat : ℤ) = i % 2 ^ w := by
  have hpos : (0 : ℤ) < 2 ^ w := Int.pow_pos (by decide)
  have hnonneg : 0 ≤ i % 2 ^ w := Int.emod_nonneg i hpos.ne'
  rw [BitVec.toNat_ofInt, Int.natCast_pow]
  exact Int.toNat_of_nonneg hnonneg

theorem unsigned_exact : ((BitVec.ofInt w i).toNat : ℤ) = i ↔ Unsigned w i := by
  have hpos : (0 : ℤ) < 2 ^ w := Int.pow_pos (by decide)
  rw [toNat_ofInt_emod]
  refine ⟨fun h => ?_, fun h => Int.emod_eq_of_lt h.1 h.2⟩
  rw [← h]
  exact ⟨Int.emod_nonneg i hpos.ne', Int.emod_lt_of_pos i hpos⟩

theorem signed_exact (hw : 0 < w) : (BitVec.ofInt w i).toInt = i ↔ Signed w i := by
  refine ⟨fun h => ?_, fun h => BitVec.toInt_ofInt_eq_self hw h.1 h.2⟩
  rw [← h]
  exact ⟨BitVec.le_toInt _, BitVec.toInt_lt⟩

end Word

section Machine

variable (i : ℤ)

theorem uint8_toNat_ofInt : (UInt8.ofInt i).toNat = (BitVec.ofInt 8 i).toNat := by
  rw [BitVec.toNat_ofInt, UInt8.ofInt, UInt8.toNat_ofNat']
  omega

theorem uint16_toNat_ofInt : (UInt16.ofInt i).toNat = (BitVec.ofInt 16 i).toNat := by
  rw [BitVec.toNat_ofInt, UInt16.ofInt, UInt16.toNat_ofNat']
  omega

theorem uint64_toNat_ofInt : (UInt64.ofInt i).toNat = (BitVec.ofInt 64 i).toNat := by
  rw [BitVec.toNat_ofInt, UInt64.ofInt, UInt64.toNat_ofNat']
  omega

theorem uint64_toNat_ofInt_emod : ((UInt64.ofInt i).toNat : ℤ) = i % 2 ^ 64 := by
  rw [uint64_toNat_ofInt, toNat_ofInt_emod]

/-- A non-negative integer does not grow. -/
theorem uint64_toNat_ofInt_le (hi : 0 ≤ i) : ((UInt64.ofInt i).toNat : ℤ) ≤ i := by
  rw [uint64_toNat_ofInt_emod]
  omega

theorem uint8_exact : ((UInt8.ofInt i).toNat : ℤ) = i ↔ Unsigned 8 i := by
  rw [uint8_toNat_ofInt, unsigned_exact]

theorem uint16_exact : ((UInt16.ofInt i).toNat : ℤ) = i ↔ Unsigned 16 i := by
  rw [uint16_toNat_ofInt, unsigned_exact]

theorem uint64_exact : ((UInt64.ofInt i).toNat : ℤ) = i ↔ Unsigned 64 i := by
  rw [uint64_toNat_ofInt, unsigned_exact]

theorem int64_exact : (Int64.ofInt i).toInt = i ↔ Signed 64 i :=
  signed_exact 64 i (by decide)

/-- A word there and back. -/
theorem uint16_ofInt_toNat (n : UInt16) : UInt16.ofInt n.toNat = n := by
  have hkept := (uint16_exact n.toNat).mpr ⟨Int.natCast_nonneg _, by exact_mod_cast n.toNat_lt⟩
  exact UInt16.toNat_inj.mp (Int.ofNat_inj.mp hkept)

theorem uint64_ofInt_toNat (n : UInt64) : UInt64.ofInt n.toNat = n := by
  have hkept := (uint64_exact n.toNat).mpr ⟨Int.natCast_nonneg _, by exact_mod_cast n.toNat_lt⟩
  exact UInt64.toNat_inj.mp (Int.ofNat_inj.mp hkept)

end Machine

/-- A mask without the lowest bit leaves an even number. -/
theorem and_even (x mask : ℕ) (hmask : mask % 2 = 0) : (x &&& mask) % 2 = 0 := by
  have hodd : ¬ (x &&& mask) % 2 = 1 := by
    rw [Nat.and_mod_two_eq_one]
    omega
  omega

end WordCast

end LoomHost
