import VideoExport.Proofs.Number.Order
import VideoExport.Proofs.Number.Reread

/-!
# Differences of amounts

Differences of amounts are rounded once, to a number that is off by no more than one
part in `2 ^ 53`.

* `abs_sub_nearest_le_div`: rounding is off by at most one part in `2 ^ 53`;
* `HasAmount.exists_sub`: and so are differences.
-/

namespace VideoExport.Number

open Float.Model Float.Model.UnpackedFloat

/-- What is rounded from a grid that words have is off by at most one part in
    `2 ^ 53`. -/
theorem abs_sub_nearest_le_div {k : ℕ} {e : ℤ} (hk : 0 < k) (he : -1074 ≤ e) (s : Sign) :
    |(k : ℚ) * 2 ^ e - sizeOf (nearest s (k * 2 ^ e))| ≤ k * 2 ^ e / 2 ^ 53 := by
  have hpos : (0 : ℚ) < k * 2 ^ e := mul_pos (by exact_mod_cast hk) (zpow_two_pos e)
  rcases le_or_gt (gridExponent ((k : ℚ) * 2 ^ e)) e with hle | hgt
  · -- What is on its grid already is not rounded at all.
    have hgrid := (zpow_two_pos (gridExponent ((k : ℚ) * 2 ^ e))).ne'
    have hwhole : (k : ℚ) * 2 ^ e / 2 ^ gridExponent ((k : ℚ) * 2 ^ e) =
        (k * 2 ^ (e - gridExponent ((k : ℚ) * 2 ^ e)).toNat : ℕ) := by
      rw [mul_div_assoc, ← zpow_sub₀ two_ne_zero, Nat.cast_mul, Nat.cast_pow, Nat.cast_ofNat,
        ← zpow_natCast, Int.toNat_of_nonneg (sub_nonneg.2 hle)]
    rw [sizeOf_nearest, hwhole, roundEven_natCast, ← hwhole, div_mul_cancel₀ _ hgrid, sub_self,
      abs_zero]
    exact div_nonneg hpos.le (by norm_num)
  · -- Else its grid is not the least one, and as fine as its size allows.
    have hgrid : gridExponent ((k : ℚ) * 2 ^ e) = Int.log 2 ((k : ℚ) * 2 ^ e) - 52 := by
      unfold gridExponent at *
      omega
    calc |(k : ℚ) * 2 ^ e - sizeOf (nearest s (k * 2 ^ e))|
        ≤ 2 ^ gridExponent ((k : ℚ) * 2 ^ e) / 2 := abs_sub_nearest_le hpos s
      _ = 2 ^ Int.log 2 ((k : ℚ) * 2 ^ e) / 2 ^ 53 := by
        rw [hgrid, zpow_sub₀ two_ne_zero, div_div]
        norm_num
      _ ≤ k * 2 ^ e / 2 ^ 53 := div_le_div_of_nonneg_right (zpow_log_le hpos) (by norm_num)

/-- Moving a mantissa to a smaller exponent keeps its value. -/
theorem decreaseExponent_eq (m : ℕ) {e g : ℤ} (h : g ≤ e) :
    ((decreaseExponent m e g).1 : ℚ) * 2 ^ g = m * 2 ^ e := by
  rw [decreaseExponent, Nat.shiftLeft_eq, Nat.cast_mul, Nat.cast_pow, Nat.cast_ofNat, mul_assoc,
    ← zpow_natCast, ← zpow_add₀ two_ne_zero, Int.toNat_of_nonneg (sub_nonneg.2 h), sub_add_cancel]

/-- A difference of values lies on a grid that words have, and is rounded once. -/
theorem HasValue.exists_sub_eq {u v : UnpackedFloat} {p q : ℚ} (hu : HasValue u p)
    (hv : HasValue v q) (h : q ≤ p) :
    ∃ (k : ℕ) (e : ℤ), -1074 ≤ e ∧ p - q = k * 2 ^ e ∧
      UnpackedFloat.sub Format.binary64 u v =
        if k = 0 then .zero .positive else nearest .positive (k * 2 ^ e) := by
  obtain ⟨m, e, hm, rfl, rfl⟩ := hu
  obtain ⟨n, f, hn, rfl, rfl⟩ := hv
  -- Both mantissas are moved to the finer one of their grids.
  have hm' := decreaseExponent_eq m (min_le_left e f)
  have hn' := decreaseExponent_eq n (min_le_right e f)
  have hle : (decreaseExponent n f (min e f)).1 ≤ (decreaseExponent m e (min e f)).1 := by
    rw [← hm', ← hn'] at h
    exact_mod_cast le_of_mul_le_mul_right h (zpow_two_pos _)
  refine ⟨(decreaseExponent m e (min e f)).1 - (decreaseExponent n f (min e f)).1, min e f,
    le_min hm.least hn.least, ?_, ?_⟩
  · rw [← hm', ← hn', Nat.cast_sub hle, sub_mul]
  · rw [← normalize_natCast, Nat.cast_sub hle]
    rfl

/-- What has a value keeps it when it is packed. -/
theorem HasValue.hasAmount_packed {u : UnpackedFloat} {q : ℚ} (h : HasValue u q) :
    HasAmount (packed u) q := by
  have hpacked := h
  rw [← h.unpack_packed] at hpacked
  exact hpacked.hasAmount

/-- What is nearest to a fraction that does not exceed a value is an amount. -/
theorem hasAmount_packed_nearest {u : UnpackedFloat} {p q : ℚ} (hu : HasValue u p) (hq : 0 < q)
    (h : q ≤ p) : HasAmount (packed (nearest .positive q)) (sizeOf (nearest .positive q)) := by
  obtain ⟨m, e, hc, -, rfl⟩ := hu
  rcases nearest_cases_of_le hc hq h .positive with hzero | ⟨n, f, hn, hfinite⟩
  · rw [hzero]
    exact hasAmount_zero (unpack_packed_zero .positive)
  · rw [hfinite]
    exact HasValue.hasAmount ⟨n, f, hn, unpack_packed hn hn.pos, rfl⟩

/-- A difference of amounts that is not negative is an amount, and off by at most
    one part in `2 ^ 53`. -/
theorem HasAmount.exists_sub {x y : Float} {p q : ℚ} (hx : HasAmount x p) (hy : HasAmount y q)
    (h : q ≤ p) : ∃ d, HasAmount (x - y) d ∧ |p - q - d| ≤ (p - q) / 2 ^ 53 := by
  have hsub : x - y =
      packed (UnpackedFloat.sub Format.binary64 x.toModel.unpack y.toModel.unpack) := rfl
  rw [hsub]
  rcases hy.eq_zero_or_hasValue with ⟨t, huy, rfl⟩ | hvy
  · -- Nothing is taken off.
    have hexact : |p - 0 - p| ≤ (p - 0) / 2 ^ 53 := by
      rw [sub_zero, sub_self, abs_zero]
      exact div_nonneg hx.zero_le (by norm_num)
    refine ⟨p, ?_, hexact⟩
    rw [huy]
    rcases hx.eq_zero_or_hasValue with ⟨s, hux, rfl⟩ | hvx
    · rw [hux]
      cases s <;> cases t <;> exact hasAmount_zero (unpack_packed_zero _)
    · have hsame : UnpackedFloat.sub Format.binary64 x.toModel.unpack (.zero t) =
          x.toModel.unpack := by
        obtain ⟨m, e, hm, hux, -⟩ := hvx
        rw [hux]
        rfl
      rw [hsame]
      exact hvx.hasAmount_packed
  · rcases hx.eq_zero_or_hasValue with ⟨-, -, rfl⟩ | hvx
    · exact absurd hvy.pos h.not_gt
    · obtain ⟨k, e, he, hk, heq⟩ := hvx.exists_sub_eq hvy h
      rw [heq, hk]
      rcases Nat.eq_zero_or_pos k with rfl | hpos
      · exact ⟨0, hasAmount_zero (unpack_packed_zero .positive), by norm_num⟩
      · have hkpos : (0 : ℚ) < k * 2 ^ e := mul_pos (by exact_mod_cast hpos) (zpow_two_pos e)
        have hle : (k : ℚ) * 2 ^ e ≤ p := by
          rw [← hk]
          exact sub_le_self p hvy.pos.le
        rw [if_neg hpos.ne']
        exact ⟨_, hasAmount_packed_nearest hvx hkpos hle, abs_sub_nearest_le_div hpos he .positive⟩

end VideoExport.Number
