import Mathlib.Data.Rat.Floor
import VideoExport.Number.Quantity
import VideoExport.Proofs.Number.Decimal

/-!
# Exact numbers

The rules for times and sizes can be read over rational numbers, where no step
is rounded but the one to the nearest whole number, which is part of a rule.

* `Decimal.value`: the number that a decimal stands for;
* the instance of `Quantity` for `ℚ`;
* `Quantity.smaller_rat` and the like: its operations are those of `ℚ`.
-/

namespace VideoExport.Number

/-- The exact value of a decimal. -/
def Decimal.value (d : Decimal) : ℚ := if d.negative then -d.magnitude else d.magnitude

/-- Quantities as they would be reckoned if no step were rounded. -/
instance : Quantity ℚ where
  decLt a b := inferInstanceAs (Decidable (a < b))
  decLe a b := inferInstanceAs (Decidable (a ≤ b))
  ofDecimal := Decimal.value
  isFinite _ := true
  nearest limit x := min limit ⌊x + 1 / 2⌋₊

namespace Quantity

@[simp]
theorem ofNat_rat (n : ℕ) : (ofNat n : ℚ) = n := by
  show Decimal.value ⟨false, n, 0⟩ = n
  rw [Decimal.value, Decimal.magnitude]
  simp

@[simp]
theorem larger_rat (a b : ℚ) : larger a b = max a b := by
  rw [larger]
  split_ifs with h
  · exact (max_eq_right h.le).symm
  · exact (max_eq_left (not_lt.1 h)).symm

@[simp]
theorem smaller_rat (a b : ℚ) : smaller a b = min a b := by
  rw [smaller]
  split_ifs with h
  · exact (min_eq_right h.le).symm
  · exact (min_eq_left (not_lt.1 h)).symm

theorem clamp_rat {high : ℚ} (h : 0 ≤ high) (a : ℚ) : clamp 0 high a = max 0 (min a high) := by
  rw [clamp]
  split_ifs with hlow hhigh
  · exact (max_eq_left ((min_le_left a high).trans hlow.le)).symm
  · rw [min_eq_right hhigh.le, max_eq_right h]
  · rw [min_eq_left (not_lt.1 hhigh), max_eq_right (not_lt.1 hlow)]

end Quantity

end VideoExport.Number
