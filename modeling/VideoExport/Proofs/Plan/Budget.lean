import VideoExport.Media.RateControl
import VideoExport.Proofs.Number.Arithmetic

/-!
# Budgets of rates

The ceiling of a rate is reckoned in floating-point numbers. A target has at most
32 binary places and the factor three, so their product is exact, and the only step
that rounds is the one to the nearest whole number.

* `RateBudget.toNat_scaled`: five quarters of a target, rounded half up;
* `RateBudget.toNat_target`, `RateBudget.toNat_ceiling`, `RateBudget.toNat_buffer`:
  the numbers of a budget.
-/

namespace VideoExport.RateBudget

open Number Float.Model Float.Model.UnpackedFloat

/-- The factor is five quarters, exactly. -/
theorem hasValue_ceilingFactor : HasValue ceilingFactor.toModel.unpack (5 / 4) := by
  have hdecimal : ceilingFactor =
      Float.ofScientific 125 ((-2 : ℤ) < 0) (-2 : ℤ).natAbs := rfl
  have hquarters : ((125 : ℕ) : ℚ) * 10 ^ (-2 : ℤ) = (5 : ℕ) / 2 ^ 2 := by norm_num
  have hvalue : HasValue (nearest .positive (((5 : ℕ) : ℚ) / 2 ^ 2)) ((5 : ℕ) / 2 ^ 2) :=
    hasValue_div_two_pow (by decide) (by decide) (by decide)
  rw [hdecimal, ofScientific_eq (by decide) (by decide) (by decide), hquarters,
    hvalue.unpack_packed]
  convert hvalue using 1
  norm_num

/-- No product of a target and the factor is rounded before it is taken to the nearest whole
    number. -/
theorem toNat_scaled {target : UInt32} (h : 0 < target.toNat) :
    (scaled target).toNat = min (UInt32.size - 1) ⌊(target.toNat : ℚ) * 5 / 4 + 1 / 2⌋₊ := by
  have hone : (1 : ℚ) ≤ target.toNat := by exact_mod_cast h
  have hproduct : (target.toNat : ℚ) * (5 / 4) = (target.toNat * 5 : ℕ) / 2 ^ 2 := by
    push_cast
    ring
  have hmul : target.toFloat * ceilingFactor =
      packed (UnpackedFloat.mul Format.binary64 target.toFloat.toModel.unpack
        ceilingFactor.toModel.unpack) := rfl
  have hvalue : HasValue (nearest .positive ((target.toNat * 5 : ℕ) / 2 ^ 2))
      ((target.toNat * 5 : ℕ) / 2 ^ 2) := by
    have hword := target.toNat_lt
    exact hasValue_div_two_pow (by omega) (by omega) (by decide)
  have hscaled : HasValue (target.toFloat * ceilingFactor).toModel.unpack (target.toNat * (5 / 4)) := by
    rw [hmul, (hasValue_toFloat h).mul_eq hasValue_ceilingFactor hone (by norm_num), hproduct,
      hvalue.unpack_packed]
    exact hvalue
  have hsize : min (UInt32.size - 1) ⌊(target.toNat : ℚ) * (5 / 4) + 1 / 2⌋₊ < UInt32.size :=
    (Nat.min_le_left _ _).trans_lt (by decide)
  rw [scaled, hscaled.nearestWithin_eq, UInt32.toNat_ofNat_of_lt' hsize, mul_div_assoc]

theorem floor_five_quarters (t : ℕ) : ⌊(t : ℚ) * 5 / 4 + 1 / 2⌋₊ = (5 * t + 2) / 4 := by
  have hfraction : (t : ℚ) * 5 / 4 + 1 / 2 = (5 * t + 2 : ℕ) / (4 : ℕ) := by
    push_cast
    ring
  rw [hfraction, Nat.floor_div_eq_div]

variable (requested : UInt32)

theorem toNat_target : (ofTarget requested).target.toNat = max requested.toNat 150 :=
  toNat_max _ _

/-- The ceiling is a quarter above the target, rounded half up. -/
theorem toNat_ceiling : (ofTarget requested).ceiling.toNat =
    min (UInt32.size - 1) ((5 * (ofTarget requested).target.toNat + 2) / 4) := by
  have hpos : 0 < (ofTarget requested).target.toNat := by
    rw [toNat_target]
    omega
  have hword := (ofTarget requested).target.toNat_lt
  have hceiling : (ofTarget requested).ceiling =
      max (scaled (ofTarget requested).target) (ofTarget requested).target := rfl
  rw [hceiling, toNat_max, toNat_scaled hpos, floor_five_quarters, UInt32.size]
  omega

theorem toNat_buffer : (ofTarget requested).buffer.toNat =
    max (min (2 * (ofTarget requested).target.toNat) (UInt32.size - 1)) 300 := by
  have hbuffer : (ofTarget requested).buffer =
      max (saturated (2 * (ofTarget requested).target.toNat)) minBuffer := rfl
  rw [hbuffer, toNat_max, toNat_saturated]
  rfl

end VideoExport.RateBudget
