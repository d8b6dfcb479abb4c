import VideoExport.Proofs.Number.Decimal

/-!
# Numbers that are not negative

Comparing with zero is a matter of signs: what is not below zero is a zero of
either sign, a positive number or positive infinity. Rounding does not change
signs, so neither decimals nor quotients of such numbers fall below zero, even
where they are too large to stay finite.

* `IsNonneg`, `zero_le_iff`: the unpacked numbers that are not below zero;
* `zero_le_packed_nearest`: rounding keeps the sign;
* `Decimal.zero_le_toFloat`, `zero_le_one_div`: decimals and quotients;
* `zero_le_of_not_lt`: what is not below such a number.
-/

namespace VideoExport.Number

open Float.Model Float.Model.UnpackedFloat

/-- An unpacked number that is not below zero. Zero is not, whatever its sign. -/
def IsNonneg : UnpackedFloat → Prop
  | .zero _ | .finite .positive _ _ _ | .infinity .positive => True
  | .finite .negative _ _ _ | .infinity .negative | .notANumber => False

theorem zero_le_iff {x : Float} : 0.0 ≤ x ↔ IsNonneg x.toModel.unpack := by
  have hle : 0.0 ≤ x ↔
      UnpackedFloat.le (0.0 : Float).toModel.unpack x.toModel.unpack = true :=
    decide_eq_true_iff
  rw [hle, unpack_zero]
  cases x.toModel.unpack with
  | zero s => exact iff_of_true rfl trivial
  | notANumber => exact iff_of_false Bool.false_ne_true id
  | infinity s | finite s m e hm =>
    cases s with
    | positive => exact iff_of_true rfl trivial
    | negative => exact iff_of_false Bool.false_ne_true id

theorem lt_iff {x y : Float} :
    x < y ↔ UnpackedFloat.lt x.toModel.unpack y.toModel.unpack = true :=
  decide_eq_true_iff

/-! ## Rounding -/

/-- The number of fields without a sign is not below zero. -/
theorem isNonneg_unpack_packComponents {e : BitVec 11} {m : BitVec 52} (he : e.toNat ≠ 2047) :
    IsNonneg (UnpackedFloat.unpack Format.binary64 (packComponents Format.binary64 .positive e m)) := by
  rw [UnpackedFloat.unpack]
  simp only [unpackMantissa_packComponents, unpackExponent_packComponents,
    unpackSign_packComponents, Sign.ofBitVec_toBitVec, eq_neg_one_iff]
  rw [if_neg he]
  split
  · split <;> trivial
  · trivial

/-- What is not below zero is so after it was packed. -/
theorem isNonneg_unpack_packed {u : UnpackedFloat} (h : IsNonneg u) :
    IsNonneg (packed u).toModel.unpack := by
  match u, h with
  | .zero s, _ =>
    rw [unpack_packed_zero]
    trivial
  | .infinity .positive, _ => trivial
  | .finite .positive m e hm, _ =>
    show IsNonneg (UnpackedFloat.unpack Format.binary64
      (UnpackedFloat.pack Format.binary64 (.finite .positive m e hm)))
    rw [pack_finite]
    split
    case isTrue => trivial
    case isFalse he =>
      refine isNonneg_unpack_packComponents ?_
      split
      · rw [BitVec.toNat_ofNat]
        omega
      · decide

theorem isNonneg_nearest (q : ℚ) : IsNonneg (nearest .positive q) := by
  rw [nearest, carried]
  split_ifs <;> trivial

/-- The number nearest to a fraction is not below zero, be it finite or not. -/
theorem zero_le_packed_nearest (q : ℚ) : 0.0 ≤ packed (nearest .positive q) :=
  zero_le_iff.2 (isNonneg_unpack_packed (isNonneg_nearest q))

/-! ## Decimals and quotients -/

theorem Decimal.zero_le_magnitudeToFloat {d : Decimal} (h : -2048 ≤ d.scale) :
    0.0 ≤ d.magnitudeToFloat := by
  rcases Nat.eq_zero_or_pos d.digits with h0 | hpos
  · rw [magnitudeToFloat_def, if_pos (.inl h0)]
    decide
  rcases lt_or_ge d.size (-330) with hlo | hlo
  · rw [magnitudeToFloat_def, if_pos (.inr hlo)]
    decide
  rcases lt_or_ge 310 d.size with hhi | hhi
  · rw [magnitudeToFloat_def, if_neg (by omega), if_pos hhi]
    decide
  · rw [magnitudeToFloat_eq hpos h hlo hhi]
    exact zero_le_packed_nearest _

/-- A decimal is not below zero if it has no sign or if it is zero. -/
theorem Decimal.zero_le_toFloat {d : Decimal} (hscale : -2048 ≤ d.scale)
    (h : d.negative = false ∨ d.digits = 0) : 0.0 ≤ d.toFloat := by
  rcases h with h | h
  · rw [toFloat, h]
    exact zero_le_magnitudeToFloat hscale
  · have hzero : d.magnitudeToFloat = 0.0 := by rw [magnitudeToFloat_def, if_pos (Or.inl h)]
    rw [toFloat, hzero]
    split <;> decide

/-- A finite number above zero has a value. -/
theorem exists_hasValue {x : Float} (hfinite : x.isFinite = true) (h : 0.0 < x) :
    ∃ q, HasValue x.toModel.unpack q := by
  rw [lt_iff, unpack_zero] at h
  rcases unpack_cases hfinite with ⟨s, hx⟩ | ⟨s, m, e, hc, hx⟩
  · rw [hx] at h
    cases h
  · rw [hx] at h ⊢
    cases s with
    | negative => cases h
    | positive => exact ⟨_, m, e, hc, rfl, rfl⟩

theorem zero_le_one_div {x : Float} (hfinite : x.isFinite = true) (h : 0.0 < x) :
    0.0 ≤ 1.0 / x := by
  obtain ⟨q, hq⟩ := exists_hasValue hfinite h
  have hdiv : 1.0 / x = packed (UnpackedFloat.div Format.binary64 (1.0 : Float).toModel.unpack
      x.toModel.unpack) := rfl
  rw [hdiv, unpack_one.div_eq hq]
  exact zero_le_packed_nearest _

/-! ## Comparisons -/

/-- A finite number that is not below one that is not below zero is not below
    zero either. -/
theorem zero_le_of_not_lt {x y : Float} (hy : 0.0 ≤ y) (hx : x.isFinite = true) (h : ¬ x < y) :
    0.0 ≤ x := by
  rw [zero_le_iff] at hy ⊢
  rw [lt_iff] at h
  rcases unpack_cases hx with ⟨s, hu⟩ | ⟨s, m, e, hc, hu⟩
  · rw [hu]
    trivial
  · rw [hu] at h ⊢
    cases s with
    | positive => trivial
    | negative =>
      -- A negative number is below every number that is not.
      refine absurd ?_ h
      match y.toModel.unpack, hy with
      | .zero _, _ | .finite .positive _ _ _, _ | .infinity .positive, _ => rfl

theorem zero_le_of_lt {x : Float} (hx : x.isFinite = true) (h : 0.0 < x) : 0.0 ≤ x := by
  obtain ⟨q, m, e, hc, hu, -⟩ := exists_hasValue hx h
  rw [zero_le_iff, hu]
  trivial

/-- What is not above zero does not exceed it. -/
theorem not_zero_lt_of_le {x : Float} (h : x ≤ 0.0) : ¬ 0.0 < x := by
  have hle : UnpackedFloat.le x.toModel.unpack (0.0 : Float).toModel.unpack = true :=
    of_decide_eq_true h
  rw [lt_iff, unpack_zero]
  rw [unpack_zero] at hle
  cases hx : x.toModel.unpack with
  | zero s | notANumber => exact Bool.false_ne_true
  | infinity s | finite s m e hm =>
    rw [hx] at hle
    cases s with
    | negative => exact Bool.false_ne_true
    | positive => cases hle

end VideoExport.Number
