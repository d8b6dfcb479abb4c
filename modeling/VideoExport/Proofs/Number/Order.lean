import Mathlib.Order.Bounds.Basic
import VideoExport.Number.Quantity
import VideoExport.Proofs.Number.Reread
import VideoExport.Proofs.Number.Sign

/-!
# The order of finite numbers

Finite floating-point numbers are compared like their exact values, whatever their
signs. Zeros of either sign are the same. An amount is a number that is finite and not
negative.

* `exactValue`: the exact value of a floating-point number;
* `compare_exactValue`, `lt_iff_exactValue`, `le_iff_exactValue`: comparisons;
* `HasAmount`: a floating-point number is exactly a fraction;
* `HasAmount.lt_iff`, `HasAmount.larger`, `HasAmount.smaller`: the order of amounts is
  that of the fractions;
* `unpack_eq_infinity`, `HasAmount.lt_of_infinite`: what is not negative and no
  amount is infinite, and above them all;
* `exactValues`: the exact values of the finite numbers among some, and zero;
* `isGreatest_exactValues_concat`: the largest one of these.
-/

namespace VideoExport.Number

open Float.Model Float.Model.UnpackedFloat

/-! ## Exact values -/

/-- The exact value of a floating-point number, and zero if it has none. -/
def exactValue (x : Float) : ℚ :=
  match Dyadic.ofFloat? x with
  | some d => if d.negative then -d.size else d.size
  | none => 0

theorem exactValue_eq_zero {x : Float} {s : Sign} (h : x.toModel.unpack = .zero s) :
    exactValue x = 0 := by
  rw [exactValue, Dyadic.ofFloat?_eq, h]
  show (if _ then -((0 : ℕ) * _) else (0 : ℕ) * _ : ℚ) = 0
  simp

/-- A finite number is a zero, or it is canonical and above or below zero. -/
theorem exactValue_cases {x : Float} (h : x.isFinite = true) :
    (∃ s, x.toModel.unpack = .zero s ∧ exactValue x = 0) ∨
      (∃ m e, ∃ hc : IsCanonical m e, x.toModel.unpack = .finite .positive m e hc.pos ∧
        exactValue x = m * 2 ^ e ∧ 0 < exactValue x) ∨
      ∃ m e, ∃ hc : IsCanonical m e, x.toModel.unpack = .finite .negative m e hc.pos ∧
        exactValue x = -(m * 2 ^ e) ∧ exactValue x < 0 := by
  have hpos : ∀ {m : ℕ} {e : ℤ}, IsCanonical m e → (0 : ℚ) < m * 2 ^ e := fun hc =>
    mul_pos (by exact_mod_cast hc.pos) (zpow_two_pos _)
  rcases unpack_cases h with ⟨s, hu⟩ | ⟨s, m, e, hc, hu⟩
  · exact .inl ⟨s, hu, exactValue_eq_zero hu⟩
  · cases s with
    | positive =>
      have hvalue : exactValue x = m * 2 ^ e := by
        rw [exactValue, Dyadic.ofFloat?_eq, hu]
        rfl
      exact .inr (.inl ⟨m, e, hc, hu, hvalue, hvalue ▸ hpos hc⟩)
    | negative =>
      have hvalue : exactValue x = -(m * 2 ^ e) := by
        rw [exactValue, Dyadic.ofFloat?_eq, hu]
        rfl
      exact .inr (.inr ⟨m, e, hc, hu, hvalue, hvalue ▸ neg_lt_zero.2 (hpos hc)⟩)

/-! ## Comparisons -/

/-- A canonical number is below all that have a larger exponent: their mantissas
    have their full length. -/
theorem IsCanonical.lt_of_exponent_lt {m n : ℕ} {e f : ℤ} (hm : IsCanonical m e)
    (hn : IsCanonical n f) (h : e < f) : (m : ℚ) * 2 ^ e < n * 2 ^ f := by
  have hlt : (m : ℚ) < 2 ^ (53 : ℤ) := by exact_mod_cast hm.lt
  have hfull : (2 : ℚ) ^ (52 : ℤ) ≤ n := by
    have := hn.full.resolve_right (by have := hm.least; omega)
    exact_mod_cast this
  calc (m : ℚ) * 2 ^ e < 2 ^ (53 : ℤ) * 2 ^ e := mul_lt_mul_of_pos_right hlt (zpow_two_pos e)
    _ = 2 ^ (52 : ℤ) * 2 ^ (e + 1) := by
      rw [← zpow_add₀ two_ne_zero, ← zpow_add₀ two_ne_zero]
      congr 1
      ring
    _ ≤ 2 ^ (52 : ℤ) * 2 ^ f :=
      mul_le_mul_of_nonneg_left (zpow_le_zpow_right₀ one_le_two h) (zpow_two_pos _).le
    _ ≤ n * 2 ^ f := mul_le_mul_of_nonneg_right hfull (zpow_two_pos f).le

/-- Canonical numbers are compared by their exponents first. -/
theorem IsCanonical.compare_eq {m n : ℕ} {e f : ℤ} (hm : IsCanonical m e) (hn : IsCanonical n f) :
    (compare e f).then (compare m n) = compare ((m : ℚ) * 2 ^ e) (n * 2 ^ f) := by
  rcases lt_trichotomy e f with h | rfl | h
  · rw [compare_lt_iff_lt.2 h, compare_lt_iff_lt.2 (hm.lt_of_exponent_lt hn h)]
    rfl
  · have hmul : ∀ {m n : ℕ}, m < n → (m : ℚ) * 2 ^ e < n * 2 ^ e := fun h =>
      mul_lt_mul_of_pos_right (by exact_mod_cast h) (zpow_two_pos e)
    rw [compare_eq_iff_eq.2 rfl, Ordering.eq_then]
    rcases lt_trichotomy m n with h | rfl | h
    · rw [compare_lt_iff_lt.2 h, compare_lt_iff_lt.2 (hmul h)]
    · rw [compare_eq_iff_eq.2 rfl, compare_eq_iff_eq.2 rfl]
    · rw [compare_gt_iff_gt.2 h, compare_gt_iff_gt.2 (hmul h)]
  · rw [compare_gt_iff_gt.2 h, compare_gt_iff_gt.2 (hn.lt_of_exponent_lt hm h)]
    rfl

/-- Changing both signs turns a comparison around. -/
theorem swap_compare (p q : ℚ) : (compare p q).swap = compare (-p) (-q) := by
  rcases lt_trichotomy p q with h | rfl | h
  · rw [compare_lt_iff_lt.2 h, compare_gt_iff_gt.2 (neg_lt_neg h)]
    rfl
  · rw [compare_eq_iff_eq.2 rfl, compare_eq_iff_eq.2 rfl]
    rfl
  · rw [compare_gt_iff_gt.2 h, compare_lt_iff_lt.2 (neg_lt_neg h)]
    rfl

/-- Finite numbers are compared like their exact values. -/
theorem compare_exactValue {x y : Float} (hx : x.isFinite = true) (hy : y.isFinite = true) :
    UnpackedFloat.compare x.toModel.unpack y.toModel.unpack =
      some (compare (exactValue x) (exactValue y)) := by
  rcases exactValue_cases hx with
      ⟨s, hux, hvx⟩ | ⟨m, e, hm, hux, hvx, hsx⟩ | ⟨m, e, hm, hux, hvx, hsx⟩ <;>
    rcases exactValue_cases hy with
      ⟨t, huy, hvy⟩ | ⟨n, f, hn, huy, hvy, hsy⟩ | ⟨n, f, hn, huy, hvy, hsy⟩ <;>
    rw [hux, huy]
  · rw [hvx, hvy, compare_eq_iff_eq.2 rfl]
    rfl
  · rw [hvx, compare_lt_iff_lt.2 hsy]
    rfl
  · rw [hvx, compare_gt_iff_gt.2 hsy]
    rfl
  · rw [hvy, compare_gt_iff_gt.2 hsx]
    rfl
  · rw [hvx, hvy, ← hm.compare_eq hn]
    rfl
  · rw [compare_gt_iff_gt.2 (hsy.trans hsx)]
    rfl
  · rw [hvy, compare_lt_iff_lt.2 hsx]
    rfl
  · rw [compare_lt_iff_lt.2 (hsx.trans hsy)]
    rfl
  · rw [hvx, hvy, ← swap_compare, ← hm.compare_eq hn]
    rfl

theorem lt_iff_exactValue {x y : Float} (hx : x.isFinite = true) (hy : y.isFinite = true) :
    x < y ↔ exactValue x < exactValue y := by
  rw [lt_iff, UnpackedFloat.lt, compare_exactValue hx hy, beq_iff_eq, Option.some_inj,
    compare_lt_iff_lt]

theorem le_iff_exactValue {x y : Float} (hx : x.isFinite = true) (hy : y.isFinite = true) :
    x ≤ y ↔ exactValue x ≤ exactValue y := by
  have hle : x ≤ y ↔ UnpackedFloat.le x.toModel.unpack y.toModel.unpack = true :=
    decide_eq_true_iff
  rw [hle, UnpackedFloat.le, compare_exactValue hx hy, Option.any_some, Std.LawfulBCmp.isLE_iff_le]

/-! ## Amounts -/

/-- A floating-point number is not negative, and exactly `q`. -/
structure HasAmount (x : Float) (q : ℚ) : Prop where
  nonneg : 0.0 ≤ x
  exact : ∃ d, Dyadic.ofFloat? x = some d ∧ d.size = q

theorem hasAmount_zero {x : Float} {s : Sign} (h : x.toModel.unpack = .zero s) : HasAmount x 0 := by
  refine ⟨zero_le_iff.2 (by rw [h]; trivial), ⟨s == .negative, 0, -1074⟩, ?_, ?_⟩
  · rw [Dyadic.ofFloat?_eq, h]
    rfl
  · rw [Dyadic.size, Nat.cast_zero, zero_mul]

theorem HasValue.hasAmount {x : Float} {q : ℚ} (h : HasValue x.toModel.unpack q) :
    HasAmount x q := by
  obtain ⟨m, e, hd, hq⟩ := h.ofUnpacked?
  rw [← Dyadic.ofFloat?_eq] at hd
  exact ⟨zero_le_of_lt h.isFinite h.zero_lt, _, hd, hq⟩

/-- What is finite and not negative has an amount. -/
theorem exists_hasAmount {x : Float} (hfinite : x.isFinite = true) (h : 0.0 ≤ x) :
    ∃ q, HasAmount x q := by
  obtain ⟨d, hd⟩ := exists_ofFloat? hfinite
  exact ⟨d.size, h, d, hd, rfl⟩

namespace HasAmount

variable {x y : Float} {p q : ℚ}

theorem isFinite (h : HasAmount x q) : x.isFinite = true := by
  obtain ⟨d, hd, -⟩ := h.exact
  cases hx : x.isFinite with
  | true => rfl
  | false =>
    rw [ofFloat?_eq_none hx] at hd
    cases hd

/-- An amount is zero, of either sign, or a value. -/
theorem eq_zero_or_hasValue (h : HasAmount x q) :
    (∃ s, x.toModel.unpack = .zero s ∧ q = 0) ∨ HasValue x.toModel.unpack q := by
  have hnonneg := zero_le_iff.1 h.nonneg
  obtain ⟨d, hd, rfl⟩ := h.exact
  rw [Dyadic.ofFloat?_eq] at hd
  rcases unpack_cases h.isFinite with ⟨s, hx⟩ | ⟨s, m, e, hc, hx⟩
  · rw [hx] at hd
    cases hd
    exact .inl ⟨s, hx, by rw [Dyadic.size, Nat.cast_zero, zero_mul]⟩
  · rw [hx] at hd hnonneg
    cases s with
    | negative => cases hnonneg
    | positive =>
      cases hd
      exact .inr ⟨m, e, hc, hx, rfl⟩

theorem zero_le (h : HasAmount x q) : 0 ≤ q := by
  rcases h.eq_zero_or_hasValue with ⟨-, -, rfl⟩ | h
  · exact le_rfl
  · exact h.pos.le

theorem exactValue_eq (h : HasAmount x q) : exactValue x = q := by
  rcases h.eq_zero_or_hasValue with ⟨s, hx, rfl⟩ | hvalue
  · exact exactValue_eq_zero hx
  · obtain ⟨m, e, hd, hq⟩ := hvalue.ofUnpacked?
    rw [exactValue, Dyadic.ofFloat?_eq, hd]
    exact hq

/-- Amounts are ordered like their exact values. -/
theorem lt_iff (hx : HasAmount x p) (hy : HasAmount y q) : x < y ↔ p < q := by
  rw [lt_iff_exactValue hx.isFinite hy.isFinite, hx.exactValue_eq, hy.exactValue_eq]

/-- The larger one of two amounts. -/
theorem larger (hx : HasAmount x p) (hy : HasAmount y q) :
    HasAmount (Quantity.larger x y) (max p q) := by
  rw [Quantity.larger]
  by_cases h : x < y
  · rw [if_pos h, max_eq_right ((hx.lt_iff hy).1 h).le]
    exact hy
  · rw [if_neg h, max_eq_left (not_lt.1 (mt (hx.lt_iff hy).2 h))]
    exact hx

/-- The smaller one of two amounts. -/
theorem smaller (hx : HasAmount x p) (hy : HasAmount y q) :
    HasAmount (Quantity.smaller x y) (min p q) := by
  rw [Quantity.smaller]
  by_cases h : y < x
  · rw [if_pos h, min_eq_right ((hy.lt_iff hx).1 h).le]
    exact hy
  · rw [if_neg h, min_eq_left (not_lt.1 (mt (hy.lt_iff hx).2 h))]
    exact hx

end HasAmount

/-- What is not below zero and no amount is infinite. -/
theorem unpack_eq_infinity {x : Float} (h : 0.0 ≤ x) (hnone : ∀ q, ¬ HasAmount x q) :
    x.toModel.unpack = .infinity .positive := by
  have hinfinite : ¬ x.isFinite = true := fun hfinite => by
    obtain ⟨q, hq⟩ := exists_hasAmount hfinite h
    exact hnone q hq
  rw [isFinite_eq] at hinfinite
  rw [zero_le_iff] at h
  match x.toModel.unpack, h, hinfinite with
  | .zero _, _, hinfinite | .finite .positive _ _ _, _, hinfinite => exact absurd rfl hinfinite
  | .infinity .positive, _, _ => rfl

/-- Amounts are below infinity. -/
theorem HasAmount.lt_of_infinite {x y : Float} {q : ℚ} (hx : HasAmount x q)
    (hy : y.toModel.unpack = .infinity .positive) : x < y := by
  rw [Number.lt_iff, hy]
  rcases hx.eq_zero_or_hasValue with ⟨s, hu, -⟩ | ⟨m, e, hc, hu, -⟩ <;> rw [hu] <;> rfl

theorem exactValue_zero : exactValue 0.0 = 0 := exactValue_eq_zero unpack_zero

theorem hasAmount_one : HasAmount 1.0 1 := by
  have h := unpack_one.hasAmount
  rwa [Nat.cast_one] at h

/-- Finite numbers are above zero exactly if their exact values are. -/
theorem zero_lt_exactValue_iff {x : Float} (h : x.isFinite = true) : 0 < exactValue x ↔ 0.0 < x := by
  rw [lt_iff_exactValue (by decide) h, exactValue_zero]

/-! ## The largest one -/

/-- The exact values of the finite numbers among some, and zero. -/
def exactValues (xs : List Float) : Set ℚ :=
  insert 0 {q | ∃ x ∈ xs, x.isFinite = true ∧ exactValue x = q}

theorem exactValues_subset_append (xs ys : List Float) :
    exactValues xs ⊆ exactValues (xs ++ ys) :=
  Set.insert_subset_insert fun _ ⟨x, hx, h⟩ => ⟨x, List.mem_append_left ys hx, h⟩

theorem isGreatest_exactValues_nil : IsGreatest (exactValues []) 0 := by
  simp [exactValues, IsGreatest, upperBounds]

/-- One more finite number is the largest one now, or it makes no difference; and one
    that is not finite makes none. -/
theorem isGreatest_exactValues_concat {xs : List Float} {m : ℚ} (h : IsGreatest (exactValues xs) m)
    (x : Float) : IsGreatest (exactValues (xs ++ [x]))
      (if x.isFinite = true then max (exactValue x) m else m) := by
  by_cases hx : x.isFinite = true
  · have hset : exactValues (xs ++ [x]) = insert (exactValue x) (exactValues xs) := by
      ext q
      simp only [exactValues, List.mem_append, List.mem_singleton, or_and_right, exists_or,
        exists_eq_left, Set.mem_insert_iff, Set.mem_ofPred_eq, hx, true_and]
      rw [eq_comm (a := q) (b := exactValue x)]
      exact or_rotate.symm
    rw [hset, if_pos hx]
    exact h.insert _
  · have hset : exactValues (xs ++ [x]) = exactValues xs := by
      simp only [exactValues, List.mem_append, List.mem_singleton, or_and_right, exists_or,
        exists_eq_left, hx, Bool.false_eq_true, false_and, or_false]
    rw [hset, if_neg hx]
    exact h

/-- The largest one is above zero if one of them is. -/
theorem zero_lt_iff_of_isGreatest {xs : List Float} {m : ℚ} (h : IsGreatest (exactValues xs) m) :
    0 < m ↔ ∃ x ∈ xs, x.isFinite = true ∧ 0.0 < x := by
  constructor
  · intro hpos
    rcases h.1 with rfl | ⟨x, hx, hfinite, rfl⟩
    · exact absurd hpos (lt_irrefl _)
    · exact ⟨x, hx, hfinite, (zero_lt_exactValue_iff hfinite).1 hpos⟩
  · rintro ⟨x, hx, hfinite, hpos⟩
    exact ((zero_lt_exactValue_iff hfinite).2 hpos).trans_le (h.2 (.inr ⟨x, hx, hfinite, rfl⟩))

end VideoExport.Number
