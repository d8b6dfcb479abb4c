import VideoExport.Proofs.Number.Difference

/-!
# Sums and products of amounts

Sums of amounts are rounded once, and do not become infinite unless they are too large. Whole
numbers are added and multiplied exactly as long as they fit into 53 places.

* `HasValue.add_eq`: a sum is rounded once;
* `HasAmount.exists_add`: a sum that is not too large is an amount;
* `HasAmount.add_natCast`, `HasAmount.mul_natCast`, `hasAmount_ofNat`: whole numbers.
-/

namespace VideoExport.Number

open Float.Model Float.Model.UnpackedFloat

/-- A sum of values is rounded once. -/
theorem HasValue.add_eq {u v : UnpackedFloat} {p q : ℚ} (hu : HasValue u p) (hv : HasValue v q) :
    UnpackedFloat.add Format.binary64 u v = nearest .positive (p + q) := by
  obtain ⟨m, e, hm, rfl, rfl⟩ := hu
  obtain ⟨n, f, hn, rfl, rfl⟩ := hv
  -- Both mantissas are moved to the finer one of their grids.
  have hm' := decreaseExponent_eq m (min_le_left e f)
  have hn' := decreaseExponent_eq n (min_le_right e f)
  have hpos : (decreaseExponent m e (min e f)).1 ≠ 0 := by
    intro h0
    rw [h0, Nat.cast_zero, zero_mul] at hm'
    exact (mul_pos (by exact_mod_cast hm.pos) (zpow_two_pos e)).ne hm'
  have hsum := normalize_natCast
    ((decreaseExponent m e (min e f)).1 + (decreaseExponent n f (min e f)).1) (min e f)
  rw [if_neg fun h => hpos (Nat.add_eq_zero_iff.1 h).1] at hsum
  rw [← hm', ← hn', ← add_mul, ← Nat.cast_add, ← hsum, Nat.cast_add]
  rfl

namespace HasAmount

variable {x y : Float} {p q : ℚ}

/-- Nothing is added to an amount, or an amount to nothing, or the sum is rounded once. -/
theorem add_cases (hx : HasAmount x p) (hy : HasAmount y q) :
    HasAmount (x + y) (p + q) ∨
      0 < p + q ∧ x + y = packed (nearest .positive (p + q)) := by
  have hadd : x + y =
      packed (UnpackedFloat.add Format.binary64 x.toModel.unpack y.toModel.unpack) := rfl
  rw [hadd]
  rcases hx.eq_zero_or_hasValue with ⟨s, hux, rfl⟩ | hvx <;>
    rcases hy.eq_zero_or_hasValue with ⟨t, huy, rfl⟩ | hvy
  · refine .inl ?_
    rw [hux, huy, add_zero]
    cases s <;> cases t <;> exact hasAmount_zero (unpack_packed_zero _)
  · refine .inl ?_
    have hsame : UnpackedFloat.add Format.binary64 (.zero s) y.toModel.unpack =
        y.toModel.unpack := by
      obtain ⟨n, f, hn, huy, -⟩ := hvy
      rw [huy]
      rfl
    rw [hux, hsame, zero_add]
    exact hvy.hasAmount_packed
  · refine .inl ?_
    have hsame : UnpackedFloat.add Format.binary64 x.toModel.unpack (.zero t) =
        x.toModel.unpack := by
      obtain ⟨n, f, hn, hux, -⟩ := hvx
      rw [hux]
      rfl
    rw [huy, hsame, add_zero]
    exact hvx.hasAmount_packed
  · exact .inr ⟨add_pos hvx.pos hvy.pos, by rw [hvx.add_eq hvy]⟩

/-- A sum of amounts is an amount if it does not exceed a value. -/
theorem exists_add (hx : HasAmount x p) (hy : HasAmount y q) {u : UnpackedFloat} {r : ℚ}
    (hu : HasValue u r) (h : p + q ≤ r) : ∃ s, HasAmount (x + y) s := by
  rcases hx.add_cases hy with hsum | ⟨hpos, hsum⟩
  · exact ⟨_, hsum⟩
  · rw [hsum]
    exact ⟨_, hasAmount_packed_nearest hu hpos h⟩

/-- Whole numbers are added exactly. -/
theorem add_natCast {m n : ℕ} (hx : HasAmount x m) (hy : HasAmount y n) (h : m + n < 2 ^ 53) :
    HasAmount (x + y) (m + n : ℕ) := by
  rw [Nat.cast_add]
  rcases hx.add_cases hy with hsum | ⟨hpos, hsum⟩
  · exact hsum
  · rw [hsum]
    have hpos : 0 < m + n := by exact_mod_cast hpos
    have hvalue := hasValue_natCast hpos h
    rw [Nat.cast_add] at hvalue
    exact hvalue.hasAmount_packed

/-- Whole numbers are multiplied exactly. -/
theorem mul_natCast {m n : ℕ} (hx : HasAmount x m) (hy : HasAmount y n) (h : m * n < 2 ^ 53) :
    HasAmount (x * y) (m * n : ℕ) := by
  have hmul : x * y =
      packed (UnpackedFloat.mul Format.binary64 x.toModel.unpack y.toModel.unpack) := rfl
  rw [hmul]
  rcases hx.eq_zero_or_hasValue with ⟨s, hux, hm⟩ | hvx
  · rw [hux, Nat.cast_eq_zero.1 hm, Nat.zero_mul, Nat.cast_zero]
    rcases unpack_cases hy.isFinite with ⟨t, huy⟩ | ⟨t, n, e, hc, huy⟩ <;> rw [huy] <;>
      exact hasAmount_zero (unpack_packed_zero _)
  · rcases hy.eq_zero_or_hasValue with ⟨t, huy, hn⟩ | hvy
    · rw [huy, Nat.cast_eq_zero.1 hn, Nat.mul_zero, Nat.cast_zero]
      rcases unpack_cases hx.isFinite with ⟨s, hux⟩ | ⟨s, n, e, hc, hux⟩ <;> rw [hux] <;>
        exact hasAmount_zero (unpack_packed_zero _)
    · have hm : 0 < m := by exact_mod_cast hvx.pos
      have hn : 0 < n := by exact_mod_cast hvy.pos
      rw [hvx.mul_eq hvy (by exact_mod_cast hm) (by exact_mod_cast hn), ← Nat.cast_mul]
      exact (hasValue_natCast (Nat.mul_pos hm hn) h).hasAmount_packed

end HasAmount

/-- Whole numbers of at most 53 places are exact. -/
theorem hasAmount_ofNat {n : ℕ} (h : n < 2 ^ 53) : HasAmount (Quantity.ofNat n : Float) n := by
  rcases Nat.eq_zero_or_pos n with rfl | hpos
  · rw [Nat.cast_zero]
    exact hasAmount_zero (s := .positive) rfl
  · exact (Decimal.hasValue_natural hpos h).hasAmount

end VideoExport.Number
