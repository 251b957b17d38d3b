import Mathlib.Data.Int.Lemmas

/-!
Machine integers read as integers. An operation on `Int64` whose exact result fits is
exact; `floor_of_trunc` recovers floor division from the machine's truncating one.
-/

namespace MachineInt

/-- What fits 64 bits is not wrapped. -/
theorem bmod_of_fits {n : Int} (low : -2 ^ 63 ≤ n) (high : n < 2 ^ 63) : n.bmod (2 ^ 64) = n := by
  rw [Int.bmod_def]
  omega

/-- A sum over the range wraps around once. -/
theorem bmod_of_above {n : Int} (low : 2 ^ 63 ≤ n) (high : n < 2 ^ 64 + 2 ^ 63) :
    n.bmod (2 ^ 64) = n - 2 ^ 64 := by
  rw [Int.bmod_def]
  omega

/-- A difference under the range wraps around once. -/
theorem bmod_of_below {n : Int} (low : -2 ^ 64 - 2 ^ 63 ≤ n) (high : n < -2 ^ 63) :
    n.bmod (2 ^ 64) = n + 2 ^ 64 := by
  rw [Int.bmod_def]
  omega

section Arithmetic

variable {a b : Int64}

/-- A sum that fits is exact. -/
theorem toInt_add (fits : -2 ^ 63 ≤ a.toInt + b.toInt ∧ a.toInt + b.toInt < 2 ^ 63) :
    (a + b).toInt = a.toInt + b.toInt := by
  rw [Int64.toInt_add, bmod_of_fits fits.1 fits.2]

theorem toInt_sub (fits : -2 ^ 63 ≤ a.toInt - b.toInt ∧ a.toInt - b.toInt < 2 ^ 63) :
    (a - b).toInt = a.toInt - b.toInt := by
  rw [Int64.toInt_sub, bmod_of_fits fits.1 fits.2]

theorem toInt_mul (fits : -2 ^ 63 ≤ a.toInt * b.toInt ∧ a.toInt * b.toInt < 2 ^ 63) :
    (a * b).toInt = a.toInt * b.toInt := by
  rw [Int64.toInt_mul, bmod_of_fits fits.1 fits.2]

/-- Division towards zero; only the least number by -1 overflows. -/
theorem toInt_div (pos : 0 < b.toInt) : (a / b).toInt = a.toInt.tdiv b.toInt := by
  refine Int64.toInt_div_of_ne_right a b ?_
  rintro rfl
  exact absurd pos (by decide)

/-- On numbers that are not negative the machine divides as the integers do. -/
theorem toInt_div_of_nonneg (nonneg : 0 ≤ a.toInt) (pos : 0 < b.toInt) :
    (a / b).toInt = a.toInt / b.toInt := by
  rw [toInt_div pos, Int.tdiv_eq_ediv_of_nonneg nonneg]

theorem toInt_mod_of_nonneg (nonneg : 0 ≤ a.toInt) : (a % b).toInt = a.toInt % b.toInt := by
  rw [Int64.toInt_mod, Int.tmod_eq_emod_of_nonneg nonneg]

end Arithmetic

/-- The correction by the sign of the remainder makes truncated division the floor. -/
theorem floor_of_trunc (a : Int) {b : Int} (pos : 0 < b) :
    (if a.tmod b < 0 then a.tdiv b - 1 else a.tdiv b) = a / b := by
  have := Int.emod_nonneg a (Int.ne_of_gt pos)
  have := Int.emod_lt_of_pos a pos
  rw [Int.tmod_eq_emod, Int.tdiv_eq_ediv, Int.sign_eq_one_of_pos pos]
  by_cases exact : 0 ≤ a ∨ b ∣ a
  · rw [if_pos exact, if_pos exact, if_neg (by omega)]
    omega
  · rw [if_neg exact, if_neg exact, if_pos (by omega)]
    omega

/-- The same correction of the remainder. -/
theorem emod_of_trunc (a : Int) {b : Int} (pos : 0 < b) :
    (if a.tmod b < 0 then a.tmod b + b else a.tmod b) = a % b := by
  have := Int.emod_nonneg a (Int.ne_of_gt pos)
  have := Int.emod_lt_of_pos a pos
  rw [Int.tmod_eq_emod]
  by_cases exact : 0 ≤ a ∨ b ∣ a
  · rw [if_pos exact, if_neg (by omega)]
    omega
  · rw [if_neg exact, if_pos (by omega)]
    omega

/-- Unsigned subtraction that does not wrap. -/
theorem sub_mod_of_le {a b size : Nat} (le : b ≤ a) (lt : a < size) :
    (size - b + a) % size = a - b := by
  rw [show size - b + a = a - b + size by omega, Nat.add_mod_right, Nat.mod_eq_of_lt (by omega)]

/-! ### Conversions -/

/-- A number that is not negative keeps its value as an unsigned one. -/
theorem toUInt64_toNat {a : Int64} (nonneg : 0 ≤ a.toInt) : (a.toUInt64.toNat : Int) = a.toInt := by
  rw [Int64.toNat_toUInt64_of_le (Int64.le_iff_toInt_le.mpr nonneg)]
  exact Int.toNat_of_nonneg nonneg

/-- Any other wraps around. -/
theorem toUInt64_toNat_emod (a : Int64) : (a.toUInt64.toNat : Int) = a.toInt % 2 ^ 64 := by
  have signed : a.toInt = (a.toUInt64.toNat : Int).bmod (2 ^ 64) := BitVec.toInt_eq_toNat_bmod _
  have := a.toUInt64.toNat_lt
  rw [signed, Int.bmod_def]
  omega

/-- The unsigned difference of ordered values is exact over the whole range. -/
theorem toUInt64_sub_toNat {a b : Int64} (le : a.toInt ≤ b.toInt) :
    ((b.toUInt64 - a.toUInt64).toNat : Int) = b.toInt - a.toInt := by
  have low := a.le_toInt
  have high := b.toInt_lt
  rw [← Int64.toUInt64_sub, toUInt64_toNat_emod, Int64.toInt_sub, Int.bmod_def]
  omega

/-- Back again, below the sign bit. -/
theorem toInt64_toInt {a : UInt64} (small : a.toNat < 2 ^ 63) : a.toInt64.toInt = a.toNat := by
  have eq : a.toInt64.toInt = a.toBitVec.toInt := rfl
  rw [eq, BitVec.toInt_eq_toNat_of_lt]
  · rfl
  · exact (by omega : 2 * a.toNat < 2 ^ 64)

theorem toInt64_toInt_uint8 (a : UInt8) : a.toUInt64.toInt64.toInt = a.toNat := by
  have := a.toNat_lt
  rw [toInt64_toInt (by simp only [UInt8.toNat_toUInt64]; omega), UInt8.toNat_toUInt64]

theorem toInt64_toInt_uint32 (a : UInt32) : a.toUInt64.toInt64.toInt = a.toNat := by
  have := a.toNat_lt
  rw [toInt64_toInt (by simp only [UInt32.toNat_toUInt64]; omega), UInt32.toNat_toUInt64]

/-- What is in the range of a byte is not cut. -/
theorem toUInt8_toNat {a : Int64} (range : 0 ≤ a.toInt ∧ a.toInt < 2 ^ 8) :
    (a.toUInt64.toUInt8.toNat : Int) = a.toInt := by
  have := toUInt64_toNat range.1
  rw [UInt64.toNat_toUInt8]
  omega

/-- What is in the range of a byte comes back from it. -/
theorem toInt64_toUInt8 {a : Int64} (range : 0 ≤ a.toInt ∧ a.toInt < 2 ^ 8) :
    a = a.toUInt64.toUInt8.toUInt64.toInt64 := by
  rw [← Int64.toInt_inj, toInt64_toInt_uint8, toUInt8_toNat range]

theorem toUInt32_toNat {a : Int64} (range : 0 ≤ a.toInt ∧ a.toInt < 2 ^ 32) :
    (a.toUInt64.toUInt32.toNat : Int) = a.toInt := by
  have := toUInt64_toNat range.1
  rw [UInt64.toNat_toUInt32]
  omega

end MachineInt
