import VideoExport.Number.Layout
import VideoExport.Proofs.Number.Decimal

/-!
# Numbers with three places

A finite number is written with three places by rounding its exact value to a
whole number of thousandths. The text is read back as exactly this number of
thousandths, which is never too large to be finite.

* `filledDigits`: digits with zeros before them;
* `thousandths`: the rounded value;
* `toList_fixed`, `read?_fixed`: the text and what it says;
* `isFinite_toFloat_thousandths`, `isFinite_of_ofFloat?`: the value that is read
  is finite.
-/

namespace VideoExport.Number

open Float.Model Float.Model.UnpackedFloat

/-- The exact value in thousandths, rounded. -/
def thousandths (d : Dyadic) : ℕ := roundHalfEven (d.numerator * Nat.pow 10 3) d.denominator

/-- The digits of a number, filled up with zeros to a width. -/
def filledDigits (width n : ℕ) : List Char :=
  List.replicate (width - (digits n).length) '0' ++ digits n

theorem toList_padZeros (width n : ℕ) :
    (Text.padZeros width (text n)).toList = filledDigits width n := by
  rw [Text.padZeros, text, String.toList_append, String.toList_ofList, String.toList_ofList,
    String.length_ofList]
  rfl

theorem filledDigits_ne_nil (width n : ℕ) : filledDigits width n ≠ [] :=
  List.append_ne_nil_of_right_ne_nil _ (digits_ne_nil n)

theorem length_filledDigits {width n : ℕ} (hwidth : 0 < width) (h : n < 10 ^ width) :
    (filledDigits width n).length = width := by
  have := length_digits_le hwidth h
  rw [filledDigits, List.length_append, List.length_replicate]
  omega

theorem isDigit_of_mem_filledDigits {width n : ℕ} {c : Char} (h : c ∈ filledDigits width n) :
    c.isDigit = true := by
  rcases List.mem_append.1 h with h | h
  · rw [List.eq_of_mem_replicate h]
    rfl
  · exact isDigit_of_mem_digits h

/-- Zeros before the digits do not matter, and all of them move what is before them. -/
theorem extend?_filledDigits (value width n : ℕ) :
    extend? value (filledDigits width n) =
      some (value * 10 ^ (filledDigits width n).length + n) := by
  rw [filledDigits, extend?_append, extend?_zeros, Option.bind_some, extend?_digits_from, mul_assoc,
    ← pow_add, List.length_append, List.length_replicate]

/-- The digits of a number, filled up with zeros to three. -/
def threeDigits (n : ℕ) : List Char := filledDigits 3 n

theorem length_threeDigits {n : ℕ} (h : n < 1000) : (threeDigits n).length = 3 :=
  length_filledDigits (by decide) h

theorem isDigit_of_mem_threeDigits {n : ℕ} {c : Char} (h : c ∈ threeDigits n) :
    c.isDigit = true := isDigit_of_mem_filledDigits h

theorem extend?_threeDigits (value : ℕ) {n : ℕ} (h : n < 1000) :
    extend? value (threeDigits n) = some (value * 1000 + n) := by
  rw [threeDigits, extend?_filledDigits, length_filledDigits (by decide) h]
  rfl

/-- The text of a finite number with three places. -/
theorem toList_fixed {x : Float} {d : Dyadic} (h : Dyadic.ofFloat? x = some d) :
    (fixed 3 x).toList = Numeral.signChars d.negative ++
      (digits (thousandths d / 1000) ++ '.' :: threeDigits (thousandths d % 1000)) := by
  have hsign : (if d.negative = true then "-" else "").toList = Numeral.signChars d.negative := by
    cases d.negative <;> rfl
  have hpoint : (".").toList = ['.'] := rfl
  have hplaces : (3 : ℕ) ≠ 0 := by decide
  simp only [fixed, withWords, h, hplaces, if_false, String.toList_append, hsign, hpoint]
  rw [toList_padZeros, text, String.toList_ofList, List.append_assoc]
  rfl

/-- What the text of a number with three places says. -/
theorem read?_fixed {x : Float} {d : Dyadic} (h : Dyadic.ofFloat? x = some d) :
    Numeral.read? (fixed 3 x).toList = some (.finite ⟨d.negative, thousandths d, -3⟩) := by
  have hlt : thousandths d % 1000 < 1000 := Nat.mod_lt _ (by decide)
  have hvalue := extend?_threeDigits (thousandths d / 1000) hlt
  rw [Nat.div_add_mod'] at hvalue
  rw [toList_fixed h, Numeral.read?_places _ _ (fun _ => isDigit_of_mem_threeDigits) hvalue,
    length_threeDigits hlt]
  rfl

/-! ## Bounds -/

theorem roundHalfEven_le (num den : ℕ) : roundHalfEven num den ≤ num / den + 1 := by
  have hparity : num / den % 2 < 2 := Nat.mod_lt _ (by decide)
  unfold roundHalfEven
  simp only
  split_ifs <;> omega

theorem roundHalfEven_one (n : ℕ) : roundHalfEven n 1 = n := by
  simp [roundHalfEven, Nat.mod_one]

theorem thousandths_zero (negative : Bool) (e : ℤ) : thousandths ⟨negative, 0, e⟩ = 0 := by
  have hden := Dyadic.denominator_pos ⟨negative, 0, e⟩
  simp [thousandths, Dyadic.numerator, roundHalfEven, hden]

/-- A canonical number without a fraction is a whole number of thousandths. -/
theorem thousandths_of_nonneg (negative : Bool) {m : ℕ} {e : ℤ} (h : 0 ≤ e) :
    thousandths ⟨negative, m, e⟩ = m * 2 ^ e.toNat * 1000 := by
  have hden : (⟨negative, m, e⟩ : Dyadic).denominator = 1 := by
    rw [Dyadic.denominator, Int.toNat_of_nonpos (neg_nonpos.2 h), Nat.pow_eq, pow_zero]
  rw [thousandths, hden, roundHalfEven_one]
  rfl

theorem thousandths_le_of_neg (negative : Bool) {m : ℕ} {e : ℤ} (h : e < 0) :
    thousandths ⟨negative, m, e⟩ ≤ m * 1000 + 1 := by
  have hnum : (⟨negative, m, e⟩ : Dyadic).numerator = m := by
    rw [Dyadic.numerator, Int.toNat_of_nonpos h.le]
    exact mul_one m
  refine (roundHalfEven_le _ _).trans (Nat.succ_le_succ ?_)
  rw [hnum]
  exact Nat.div_le_self _ _

theorem thousandths_lt (negative : Bool) {m : ℕ} {e : ℤ} (h : IsCanonical m e) :
    thousandths ⟨negative, m, e⟩ < 10 ^ 313 := by
  -- With a fraction there are hardly more thousandths than the mantissa allows;
  -- without one the mantissa is moved up by at most 971 places.
  rcases lt_or_ge e 0 with he | he
  · have hsmall : thousandths ⟨negative, m, e⟩ < 10 ^ 19 := by
      calc thousandths ⟨negative, m, e⟩ ≤ m * 1000 + 1 := thousandths_le_of_neg negative he
        _ ≤ 2 ^ 53 * 1000 + 1 := Nat.succ_le_succ (Nat.mul_le_mul_right _ h.lt.le)
        _ < 10 ^ 19 := by norm_num
    have hten : 19 ≤ 313 := by decide
    exact hsmall.trans_le (pow_right_mono₀ (by decide) hten)
  · have he' : e.toNat ≤ 971 := Int.toNat_le.2 h.greatest
    have hpow : 2 ^ e.toNat ≤ 2 ^ 971 := pow_right_mono₀ one_le_two he'
    have hbound : 2 ^ 53 * 2 ^ 971 * 1000 < 10 ^ 313 := by decide +kernel
    rw [thousandths_of_nonneg negative he]
    exact (Nat.mul_le_mul_right 1000 (Nat.mul_le_mul h.lt.le hpow)).trans_lt hbound

/-- The thousandths of a finite number are a decimal that stays finite. -/
theorem isFinite_toFloat_thousandths (negative negative' : Bool) {m : ℕ} {e : ℤ}
    (hc : IsCanonical m e) :
    (⟨negative', thousandths ⟨negative, m, e⟩, -3⟩ : Decimal).toFloat.isFinite = true := by
  have hle := length_digits_le (k := 313) (by decide) (thousandths_lt negative hc)
  have hpos := List.length_pos_iff.2 (digits_ne_nil (thousandths ⟨negative, m, e⟩))
  refine Decimal.isFinite_toFloat (by simp) ?_ ?_ fun ht => ?_
  · show (-330 : ℤ) ≤ ((digits (thousandths ⟨negative, m, e⟩)).length : ℤ) + -3
    omega
  · show ((digits (thousandths ⟨negative, m, e⟩)).length : ℤ) + -3 ≤ 310
    omega
  · have hten : (10 : ℚ) ^ (-3 : ℤ) = 1 / 1000 := by norm_num
    rcases lt_or_ge e 0 with he | he
    · refine isFinite_packed_nearest (Decimal.magnitude_pos ht) ?_ .positive
      have hle : thousandths ⟨negative, m, e⟩ ≤ 2 ^ 53 * 1000 + 1 :=
        (thousandths_le_of_neg negative he).trans (Nat.succ_le_succ (Nat.mul_le_mul_right _ hc.lt.le))
      have hle' : (thousandths ⟨negative, m, e⟩ : ℚ) ≤ 2 ^ 53 * 1000 + 1 := by exact_mod_cast hle
      have hbig : (2 : ℚ) ^ (54 : ℤ) ≤ 2 ^ (1023 : ℤ) :=
        zpow_le_zpow_right₀ one_le_two (by norm_num)
      refine lt_of_lt_of_le ?_ hbig
      show (thousandths ⟨negative, m, e⟩ : ℚ) * 10 ^ (-3 : ℤ) < 2 ^ (54 : ℤ)
      rw [hten]
      calc (thousandths ⟨negative, m, e⟩ : ℚ) * (1 / 1000) ≤ (2 ^ 53 * 1000 + 1) * (1 / 1000) :=
            mul_le_mul_of_nonneg_right hle' (by norm_num)
        _ < 2 ^ (54 : ℤ) := by norm_num
    · -- A number without a fraction is read back as itself.
      have hvalue : HasValue (.finite .positive m e hc.pos)
          (⟨negative', thousandths ⟨negative, m, e⟩, -3⟩ : Decimal).magnitude := by
        refine ⟨m, e, hc, rfl, ?_⟩
        have hpow : (2 : ℚ) ^ e = 2 ^ e.toNat := by rw [← zpow_natCast, Int.toNat_of_nonneg he]
        rw [Decimal.magnitude]
        rw [thousandths_of_nonneg negative he, hten, hpow]
        push_cast
        ring
      have hunpack := hvalue.unpack_packed
      rw [hvalue.nearest_eq]
      rw [← hunpack] at hvalue
      exact hvalue.isFinite

/-- The three-place text of a finite number denotes a finite number. -/
theorem isFinite_of_ofFloat? {x : Float} {d : Dyadic} (h : Dyadic.ofFloat? x = some d)
    (negative : Bool) : (⟨negative, thousandths d, -3⟩ : Decimal).toFloat.isFinite = true := by
  rw [Dyadic.ofFloat?_eq] at h
  have hx : x.isFinite = true := by
    rw [isFinite_eq]
    cases hu : x.toModel.unpack <;> rw [hu] at h <;> first | rfl | cases h
  rcases unpack_cases hx with ⟨s, hu⟩ | ⟨s, m, e, hc, hu⟩
  · rw [hu] at h
    cases h
    rw [thousandths_zero]
    cases negative <;> rfl
  · rw [hu] at h
    cases h
    exact isFinite_toFloat_thousandths _ _ hc

end VideoExport.Number
