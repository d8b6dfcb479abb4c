import VideoExport.Proofs.Number.Fixed

/-!
# Three places read back

A number is written with three places, read, and written again. What is read is
the number nearest to the written thousandths, in general another one. Where
floating-point numbers lie closer together than thousandths, it is so near to
them that it is rounded to them again; where they lie further apart, it is the
number that was written. Either way the text is the same.

* `thousandths_bounds`, `thousandths_eq`: the thousandths of an exact value;
* `abs_sub_roundEven_le`, `roundEven_eq`: the whole number nearest to a fraction;
* `thousandths_of_nearest`: what is read has the same thousandths;
* `fixed_reread`: and so the same text.
-/

namespace VideoExport.Number

open Float.Model Float.Model.UnpackedFloat

/-! ## Whole numbers nearest to fractions -/

theorem roundHalfEven_bounds (num : ℕ) {den : ℕ} (h : 0 < den) :
    2 * num ≤ 2 * (den * roundHalfEven num den) + den ∧
      2 * (den * roundHalfEven num den) ≤ 2 * num + den := by
  have hsplit := Nat.div_add_mod num den
  have hrest := Nat.mod_lt num h
  have hone : den * (num / den + 1) = den * (num / den) + den := Nat.mul_succ _ _
  unfold roundHalfEven
  simp only
  split_ifs with hlow hhigh
  · omega
  · omega
  · -- In the middle the whole part stays or grows by one.
    rcases Nat.mod_two_eq_zero_or_one (num / den) with h0 | h1
    · rw [h0, Nat.add_zero]
      omega
    · rw [h1]
      omega

/-- The exact value of a floating-point number without its sign. -/
def Dyadic.size (d : Dyadic) : ℚ := d.magnitude * 2 ^ d.exponent

theorem Dyadic.numerator_eq (d : Dyadic) : (d.numerator : ℚ) = d.size * d.denominator := by
  have hsplit : (2 : ℚ) ^ d.exponent * 2 ^ (-d.exponent).toNat = 2 ^ d.exponent.toNat := by
    rw [← zpow_natCast, ← zpow_natCast, ← zpow_add₀ two_ne_zero]
    congr 1
    omega
  rw [size, numerator, denominator, Nat.pow_eq, Nat.pow_eq]
  push_cast
  rw [mul_assoc, hsplit]

/-- The rounded thousandths lie within half of one of the exact value. -/
theorem thousandths_bounds (d : Dyadic) : |d.size * 1000 - thousandths d| ≤ 1 / 2 := by
  have hden := d.denominator_pos
  have hden' : (0 : ℚ) < d.denominator := by exact_mod_cast hden
  obtain ⟨hlo, hhi⟩ := roundHalfEven_bounds (d.numerator * Nat.pow 10 3) hden
  change 2 * (d.numerator * 1000) ≤ 2 * (d.denominator * thousandths d) + d.denominator at hlo
  change 2 * (d.denominator * thousandths d) ≤ 2 * (d.numerator * 1000) + d.denominator at hhi
  have hlo : 2 * ((d.numerator : ℚ) * 1000) ≤ 2 * (d.denominator * thousandths d) + d.denominator := by
    exact_mod_cast hlo
  have hhi : 2 * ((d.denominator : ℚ) * thousandths d) ≤ 2 * (d.numerator * 1000) + d.denominator := by
    exact_mod_cast hhi
  rw [d.numerator_eq] at hlo hhi
  rw [abs_le]
  constructor
  · refine le_of_mul_le_mul_right ?_ hden'
    linarith
  · refine le_of_mul_le_mul_right ?_ hden'
    linarith

/-- There is at most one whole number within less than a half. -/
theorem eq_of_abs_sub_lt {y : ℚ} {m n : ℕ} (hm : |y - m| ≤ 1 / 2) (hn : |y - n| < 1 / 2) : m = n := by
  rw [abs_le] at hm
  rw [abs_lt] at hn
  have hlo : (m : ℚ) < n + 1 := by linarith
  have hhi : (n : ℚ) < m + 1 := by linarith
  have hlo : m < n + 1 := by exact_mod_cast hlo
  have hhi : n < m + 1 := by exact_mod_cast hhi
  omega

theorem thousandths_eq {d : Dyadic} {n : ℕ} (h : |d.size * 1000 - n| < 1 / 2) :
    thousandths d = n :=
  eq_of_abs_sub_lt (thousandths_bounds d) h

theorem abs_sub_roundEven_le {y : ℚ} (h : 0 ≤ y) : |y - roundEven y| ≤ 1 / 2 := by
  have hlo : (⌊y⌋₊ : ℚ) ≤ y := Nat.floor_le h
  have hhi : y < ⌊y⌋₊ + 1 := Nat.lt_floor_add_one y
  rw [abs_le, roundEven]
  split_ifs with hlow hhigh
  · constructor <;> linarith
  · push_cast
    constructor <;> linarith
  · rcases Nat.mod_two_eq_zero_or_one ⌊y⌋₊ with h0 | h1
    · rw [h0, Nat.add_zero]
      constructor <;> linarith
    · rw [h1]
      push_cast
      constructor <;> linarith

theorem roundEven_eq {y : ℚ} {n : ℕ} (h : 0 ≤ y) (hn : |y - n| < 1 / 2) : roundEven y = n :=
  eq_of_abs_sub_lt (abs_sub_roundEven_le h) hn

/-! ## The number nearest to a fraction -/

/-- The value of an unpacked number that is not negative. -/
def sizeOf : UnpackedFloat → ℚ
  | .finite _ m e _ => m * 2 ^ e
  | .zero _ | .infinity _ | .notANumber => 0

/-- Whatever the form of the nearest number, its value is the rounded mantissa on
    the grid. -/
theorem sizeOf_nearest (s : Sign) (q : ℚ) :
    sizeOf (nearest s q) = roundEven (q / 2 ^ gridExponent q) * 2 ^ gridExponent q := by
  rw [nearest, carried]
  split_ifs with h0 h53
  · rw [h0, sizeOf, Nat.cast_zero, zero_mul]
  · rw [h53, sizeOf, zpow_add_one₀ two_ne_zero]
    push_cast
    ring
  · rfl

/-- The number nearest to a fraction lies within half a step of its grid. -/
theorem abs_sub_nearest_le {q : ℚ} (hq : 0 < q) (s : Sign) :
    |q - sizeOf (nearest s q)| ≤ 2 ^ gridExponent q / 2 := by
  have hgrid := zpow_two_pos (gridExponent q)
  have hround := abs_sub_roundEven_le (div_nonneg hq.le hgrid.le)
  have hq' : q = q / 2 ^ gridExponent q * 2 ^ gridExponent q := (div_mul_cancel₀ q hgrid.ne').symm
  rw [sizeOf_nearest]
  nth_rewrite 1 [hq']
  rw [← sub_mul, abs_mul, abs_of_pos hgrid]
  calc |q / 2 ^ gridExponent q - roundEven (q / 2 ^ gridExponent q)| * 2 ^ gridExponent q
      ≤ 1 / 2 * 2 ^ gridExponent q := mul_le_mul_of_nonneg_right hround hgrid.le
    _ = 2 ^ gridExponent q / 2 := by ring

/-- A fraction between two powers of two that is nearer to a number there than
    half a step is rounded to that number. -/
theorem nearest_eq_of_near {q : ℚ} {m : ℕ} {e : ℤ} (hc : IsCanonical m e)
    (hlo : (2 : ℚ) ^ (52 + e) ≤ q) (hhi : q < 2 ^ (53 + e)) (h : |q / 2 ^ e - m| < 1 / 2) (s : Sign) :
    nearest s q = .finite s m e hc.pos := by
  have hpos : 0 < q := (zpow_two_pos _).trans_le hlo
  have hlog : Int.log 2 q = 52 + e := log_eq_of_bounds hlo (by rwa [show 52 + e + 1 = 53 + e by ring])
  have hgrid : gridExponent q = e := by
    have := hc.least
    rw [gridExponent, hlog]
    omega
  have hlt := hc.lt
  rw [nearest, hgrid, roundEven_eq (div_nonneg hpos.le (zpow_two_pos e).le) h]
  unfold carried
  rw [dif_neg hc.pos.ne', if_neg hlt.ne]

/-! ## Thousandths -/

/-- The thousandths of a canonical number are at most half of one away from it. -/
theorem abs_sub_thousandths_le (negative : Bool) (m : ℕ) (e : ℤ) :
    |(thousandths ⟨negative, m, e⟩ : ℚ) / 1000 - m * 2 ^ e| ≤ 1 / 2000 := by
  have h := thousandths_bounds ⟨negative, m, e⟩
  rw [abs_sub_comm, Dyadic.size] at h
  have hscale : (thousandths ⟨negative, m, e⟩ : ℚ) / 1000 - m * 2 ^ e =
      (thousandths ⟨negative, m, e⟩ - m * 2 ^ e * 1000) / 1000 := by ring
  rw [hscale, abs_div, abs_of_pos (by norm_num : (0 : ℚ) < 1000)]
  linarith

/-- A number on a grid of 1/512 or more is the nearest one to its thousandths. -/
theorem nearest_thousandths_of_le (negative : Bool) {m : ℕ} {e : ℤ} (hc : IsCanonical m e)
    (he : -9 ≤ e) :
    nearest .positive ((thousandths ⟨negative, m, e⟩ : ℚ) / 1000) = .finite .positive m e hc.pos := by
  have hnear := abs_sub_thousandths_le negative m e
  have hstep : (1 : ℚ) / 512 ≤ 2 ^ e := by
    have : (2 : ℚ) ^ (-9 : ℤ) ≤ 2 ^ e := zpow_le_zpow_right₀ one_le_two he
    norm_num at this ⊢
    exact this
  have hfull : 2 ^ 52 ≤ m := hc.full.resolve_right (by omega)
  have hlt : m + 1 ≤ 2 ^ 53 := hc.lt
  have hfull' : (2 : ℚ) ^ (52 : ℤ) ≤ m := by exact_mod_cast hfull
  have hlt' : (m : ℚ) + 1 ≤ 2 ^ (53 : ℤ) := by exact_mod_cast hlt
  rw [abs_le] at hnear
  refine nearest_eq_of_near hc ?_ ?_ ?_ .positive
  · -- The power of two below the number is a whole one, which rounding does not cross.
    obtain ⟨k, hk⟩ : ∃ k : ℕ, 52 + e = k := ⟨(52 + e).toNat, by omega⟩
    have hpow : (2 : ℚ) ^ (52 + e) ≤ m * 2 ^ e := by
      rw [zpow_add₀ two_ne_zero]
      exact mul_le_mul_of_nonneg_right hfull' (zpow_two_pos e).le
    rw [hk, zpow_natCast] at hpow ⊢
    have hwhole : ((2 ^ k * 1000 : ℕ) : ℚ) < (thousandths ⟨negative, m, e⟩ + 1 : ℕ) := by
      push_cast
      linarith
    have hwhole : 2 ^ k * 1000 ≤ thousandths ⟨negative, m, e⟩ :=
      Nat.lt_succ_iff.1 (by exact_mod_cast hwhole)
    have hwhole : (2 : ℚ) ^ k * 1000 ≤ thousandths ⟨negative, m, e⟩ := by exact_mod_cast hwhole
    linarith
  · -- The number itself is a whole step below the next power of two.
    have hpow : (m : ℚ) * 2 ^ e + 2 ^ e ≤ 2 ^ (53 + e) := by
      rw [zpow_add₀ two_ne_zero, ← add_one_mul]
      exact mul_le_mul_of_nonneg_right hlt' (zpow_two_pos e).le
    linarith
  · have hscale : (thousandths ⟨negative, m, e⟩ : ℚ) / 1000 / 2 ^ e - m =
        (thousandths ⟨negative, m, e⟩ / 1000 - m * 2 ^ e) / 2 ^ e := by
      rw [sub_div, mul_div_cancel_right₀ _ (zpow_two_pos e).ne']
    rw [hscale, abs_div, abs_of_pos (zpow_two_pos e), div_lt_iff₀ (zpow_two_pos e)]
    refine (abs_le.2 hnear).trans_lt ?_
    linarith

/-- On a finer grid the number nearest to the thousandths is less than half of
    one away from them. -/
theorem nearest_thousandths_of_lt (negative : Bool) {m : ℕ} {e : ℤ} (hc : IsCanonical m e)
    (he : e < -9) (hpos : 0 < thousandths ⟨negative, m, e⟩) :
    ∃ m' e', ∃ hc' : IsCanonical m' e',
      nearest .positive ((thousandths ⟨negative, m, e⟩ : ℚ) / 1000) = .finite .positive m' e' hc'.pos ∧
        thousandths ⟨negative, m', e'⟩ = thousandths ⟨negative, m, e⟩ := by
  have hnear := abs_sub_thousandths_le negative m e
  have hlt : m + 1 ≤ 2 ^ 53 := hc.lt
  have hlt' : (m : ℚ) + 1 ≤ 2 ^ (53 : ℤ) := by exact_mod_cast hlt
  have hone : (1 : ℚ) ≤ thousandths ⟨negative, m, e⟩ := by exact_mod_cast hpos
  generalize thousandths ⟨negative, m, e⟩ = n at *
  have hq : (0 : ℚ) < n / 1000 := by linarith
  have hstep : (2 : ℚ) ^ e ≤ 1 / 1024 := by
    have : (2 : ℚ) ^ e ≤ 2 ^ (-10 : ℤ) := zpow_le_zpow_right₀ one_le_two (by omega)
    norm_num at this ⊢
    exact this
  have hbound : (n : ℚ) / 1000 < 2 ^ (43 : ℤ) := by
    have hsize : (m : ℚ) * 2 ^ e ≤ (2 ^ (53 : ℤ) - 1) * (1 / 1024) :=
      mul_le_mul (by linarith) hstep (zpow_two_pos e).le (by norm_num)
    rw [abs_le] at hnear
    norm_num at hsize ⊢
    linarith
  -- So the grid of the thousandths has steps of 1/1024 or less.
  have hgrid : gridExponent ((n : ℚ) / 1000) ≤ -10 := by
    have := log_lt_of_lt hq hbound
    rw [gridExponent]
    omega
  have hclose := abs_sub_nearest_le hq .positive
  have hhalf : (2 : ℚ) ^ gridExponent ((n : ℚ) / 1000) / 2 ≤ 1 / 2048 := by
    have : (2 : ℚ) ^ gridExponent ((n : ℚ) / 1000) ≤ 2 ^ (-10 : ℤ) :=
      zpow_le_zpow_right₀ one_le_two hgrid
    norm_num at this ⊢
    linarith
  rw [abs_le] at hclose
  rcases nearest_cases hq (hbound.trans (zpow_lt_zpow_right₀ one_lt_two (by norm_num))) .positive with
    h0 | ⟨m', e', hc', h'⟩
  · rw [h0, sizeOf] at hclose
    linarith
  · refine ⟨m', e', hc', h', thousandths_eq ?_⟩
    rw [h', sizeOf] at hclose
    rw [Dyadic.size, abs_lt]
    constructor <;> linarith

/-- What is read of the thousandths of a positive number has the same ones. -/
theorem thousandths_of_nearest (negative : Bool) {m : ℕ} {e : ℤ} (hc : IsCanonical m e)
    (hpos : 0 < thousandths ⟨negative, m, e⟩) :
    ∃ m' e', ∃ hc' : IsCanonical m' e',
      nearest .positive ((thousandths ⟨negative, m, e⟩ : ℚ) / 1000) = .finite .positive m' e' hc'.pos ∧
        thousandths ⟨negative, m', e'⟩ = thousandths ⟨negative, m, e⟩ := by
  rcases lt_or_ge e (-9) with he | he
  · exact nearest_thousandths_of_lt negative hc he hpos
  · exact ⟨m, e, hc, nearest_thousandths_of_le negative hc he, rfl⟩

/-! ## Texts -/

/-- The decimal of the thousandths of a positive number becomes the number nearest
    to them. -/
theorem toFloat_thousandths {m : ℕ} {e : ℤ} (hc : IsCanonical m e)
    (hpos : 0 < thousandths ⟨false, m, e⟩) :
    (⟨false, thousandths ⟨false, m, e⟩, -3⟩ : Decimal).toFloat =
      packed (nearest .positive ((thousandths ⟨false, m, e⟩ : ℚ) / 1000)) := by
  have hle := length_digits_le (k := 313) (by decide) (thousandths_lt false hc)
  have hlen := List.length_pos_iff.2 (digits_ne_nil (thousandths ⟨false, m, e⟩))
  have hten : (10 : ℚ) ^ (-3 : ℤ) = 1 / 1000 := by norm_num
  have hsize : (⟨false, thousandths ⟨false, m, e⟩, -3⟩ : Decimal).size =
      (digits (thousandths ⟨false, m, e⟩)).length + -3 := rfl
  have hvalue : (⟨false, thousandths ⟨false, m, e⟩, -3⟩ : Decimal).magnitude =
      (thousandths ⟨false, m, e⟩ : ℚ) / 1000 := by
    rw [Decimal.magnitude, hten, mul_one_div]
  rw [← hvalue]
  exact Decimal.magnitudeToFloat_eq hpos (by norm_num) (by omega) (by omega)

/-- What is read of the three places of a number that is not negative has the same
    sign and the same thousandths. -/
theorem exists_ofFloat?_reread {x : Float} {d : Dyadic} (h : Dyadic.ofFloat? x = some d)
    (hsign : d.negative = false ∨ thousandths d = 0) :
    ∃ d', Dyadic.ofFloat? (⟨d.negative, thousandths d, -3⟩ : Decimal).toFloat = some d' ∧
      d'.negative = d.negative ∧ thousandths d' = thousandths d := by
  rcases Nat.eq_zero_or_pos (thousandths d) with h0 | hpos
  · -- Zero keeps its sign.
    have hzero : (⟨d.negative, thousandths d, -3⟩ : Decimal).magnitudeToFloat = 0.0 := by
      rw [Decimal.magnitudeToFloat_def, if_pos (.inl h0)]
    rw [Decimal.toFloat, hzero, h0]
    refine ⟨⟨d.negative, 0, -1074⟩, ?_, rfl, thousandths_zero _ _⟩
    cases d.negative <;> rfl
  · have hnegative : d.negative = false := hsign.resolve_right hpos.ne'
    rw [Dyadic.ofFloat?_eq] at h
    cases hx : x.toModel.unpack with
    | infinity s | notANumber => rw [hx] at h; cases h
    | zero s =>
      rw [hx] at h
      cases h
      exact absurd (thousandths_zero _ _) hpos.ne'
    | finite s m e hm =>
      have hc := isCanonical_of_unpack hx
      rw [hx] at h
      cases h
      simp only at hnegative
      simp only [hnegative] at hpos ⊢
      obtain ⟨m', e', hc', hnearest, hsame⟩ := thousandths_of_nearest false hc hpos
      refine ⟨⟨false, m', e'⟩, ?_, rfl, hsame⟩
      rw [toFloat_thousandths hc hpos, hnearest, Dyadic.ofFloat?_eq, unpack_packed hc']
      rfl

/-- A number that is not negative is written with three places as the number that
    is read of these. -/
theorem fixed_reread {x : Float} {d : Dyadic} (h : Dyadic.ofFloat? x = some d)
    (hsign : d.negative = false ∨ thousandths d = 0) :
    fixed 3 (⟨d.negative, thousandths d, -3⟩ : Decimal).toFloat = fixed 3 x := by
  obtain ⟨d', hd', hnegative, hsame⟩ := exists_ofFloat?_reread h hsign
  rw [← String.toList_inj, toList_fixed hd', toList_fixed h, hnegative, hsame]

end VideoExport.Number
