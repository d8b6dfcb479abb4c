import VideoExport.Proofs.Number.Rounding

/-!
# Arithmetic of floating-point numbers

Products, quotients and decimals are rounded once, from their exact values, to
the nearest number.

* `div_eq_nearest`, `mul_eq_nearest`: quotients and products;
* `HasValue`: a number whose value is known exactly;
* `isFinite_packed_nearest`: what is within bounds stays finite;
* `ofScientific_eq`: decimals.
-/

namespace VideoExport.Number

open Float.Model Float.Model.UnpackedFloat

theorem compare_two_mul_div (r n : ℕ) (hn : 0 < n) :
    compare (2 * ((r : ℚ) / n)) 1 = compare (2 * r) n := by
  have hn' : (0 : ℚ) < n := by exact_mod_cast hn
  rw [← mul_div_assoc]
  rcases lt_trichotomy (2 * r) n with h | h | h
  · rw [compare_lt_iff_lt.2 h, compare_lt_iff_lt, div_lt_one hn']
    exact_mod_cast h
  · rw [compare_eq_iff_eq.2 h, compare_eq_iff_eq, div_eq_one_iff_eq hn'.ne']
    exact_mod_cast h
  · rw [compare_gt_iff_gt.2 h, compare_gt_iff_gt, one_lt_div hn']
    exact_mod_cast h

/-- A quotient lies above its whole part by the fraction that the division
    leaves. -/
theorem describes_div (m n : ℕ) (hn : 0 < n) :
    Describes (m / n) (accuracyOfFraction (m % n) n) ((m : ℚ) / n) := by
  have hn' : (0 : ℚ) < n := by exact_mod_cast hn
  have hm : (m : ℚ) = (m / n : ℕ) * n + (m % n : ℕ) := by
    exact_mod_cast (Nat.div_add_mod' m n).symm
  have hr : ((m % n : ℕ) : ℚ) < n := by exact_mod_cast Nat.mod_lt m hn
  have hy : (m : ℚ) / n = (m / n : ℕ) + (m % n : ℕ) / n := by
    rw [div_eq_iff hn'.ne', add_mul, div_mul_cancel₀ _ hn'.ne', ← hm]
  rw [hy]
  refine ⟨?_, ?_, ?_⟩
  · exact le_add_of_nonneg_right (div_nonneg (Nat.cast_nonneg _) hn'.le)
  · rw [add_lt_add_iff_left]
    exact (div_lt_one hn').2 hr
  · rw [accuracyOfFraction]
    by_cases h0 : m % n = 0
    · rw [if_pos h0, h0, Nat.cast_zero, zero_div, add_zero]
    · have hpos : (0 : ℚ) < (m % n : ℕ) / n :=
        div_pos (by exact_mod_cast Nat.pos_of_ne_zero h0) hn'
      rw [if_neg h0]
      refine ⟨(lt_add_of_pos_right _ hpos).ne', ?_⟩
      rw [add_sub_cancel_left, compare_two_mul_div _ _ hn]

/-- The places of a quotient are those of its terms, one more or less. -/
theorem totalExponent_sub_le (m₁ m₂ : ℕ) (e₁ e₂ : ℤ) (h₁ : 0 < m₁) (h₂ : 0 < m₂) :
    totalExponent m₁ e₁ - totalExponent m₂ e₂ - 1 ≤
      Int.log 2 ((m₁ : ℚ) / m₂ * 2 ^ (e₁ - e₂)) := by
  have hlo : ((2 : ℚ) ^ (m₁.log2 : ℤ)) ≤ m₁ := by
    rw [zpow_natCast]
    exact_mod_cast Nat.log2_self_le h₁.ne'
  have hhi : (m₂ : ℚ) ≤ 2 ^ ((m₂.log2 : ℤ) + 1) := by
    have : m₂ < 2 ^ (m₂.log2 + 1) := Nat.lt_log2_self
    exact_mod_cast this.le
  have hpos₁ : (0 : ℚ) < m₁ := by exact_mod_cast h₁
  have hpos₂ : (0 : ℚ) < m₂ := by exact_mod_cast h₂
  refine le_log_of_le (mul_pos (div_pos hpos₁ hpos₂) (zpow_two_pos _)) ?_
  calc (2 : ℚ) ^ (totalExponent m₁ e₁ - totalExponent m₂ e₂ - 1)
      = 2 ^ (m₁.log2 : ℤ) / 2 ^ ((m₂.log2 : ℤ) + 1) * 2 ^ (e₁ - e₂) := by
        rw [← zpow_sub₀ two_ne_zero, ← zpow_add₀ two_ne_zero]
        unfold totalExponent
        congr 1
        omega
    _ ≤ (m₁ : ℚ) / m₂ * 2 ^ (e₁ - e₂) :=
        mul_le_mul_of_nonneg_right (div_le_div₀ hpos₁.le hlo hpos₂ hhi) (zpow_two_pos _).le

/-- A quotient is rounded once, from its exact value. -/
theorem div_eq_nearest (s₁ s₂ : Sign) {m₁ m₂ : ℕ} {e₁ e₂ : ℤ} (h₁ : 0 < m₁) (h₂ : 0 < m₂) :
    UnpackedFloat.div Format.binary64 (.finite s₁ m₁ e₁ h₁) (.finite s₂ m₂ e₂ h₂) =
      nearest (s₁ / s₂) ((m₁ : ℚ) / m₂ * 2 ^ (e₁ - e₂)) := by
  have hpos₁ : (0 : ℚ) < m₁ := by exact_mod_cast h₁
  have hpos₂ : (0 : ℚ) < m₂ := by exact_mod_cast h₂
  have hlog := totalExponent_sub_le m₁ m₂ e₁ e₂ h₁ h₂
  have htarget : Format.binary64.targetExponent (totalExponent m₁ e₁ - totalExponent m₂ e₂) ≤
      gridExponent ((m₁ : ℚ) / m₂ * 2 ^ (e₁ - e₂)) := by
    have hbits : (Format.binary64.mantissaBits : ℤ) = 53 := rfl
    have hmin : Format.binary64.minExponent = -1074 := rfl
    rw [Format.targetExponent, gridExponent]
    omega
  simp only [UnpackedFloat.div, divCore]
  -- The dividend is shifted so far that the quotient has a grid at least as fine as
  -- that of the result.
  generalize hE : min (e₁ - e₂) (Format.binary64.targetExponent
    (totalExponent m₁ e₁ - totalExponent m₂ e₂)) = E
  have hle : E ≤ e₁ - e₂ := hE ▸ min_le_left _ _
  refine roundWithAccuracy_eq_nearest _ (mul_pos (div_pos hpos₁ hpos₂) (zpow_two_pos _)) ?_
    (hE ▸ (min_le_right _ _).trans htarget)
  have hscale : (m₁ : ℚ) / m₂ * 2 ^ (e₁ - e₂) / 2 ^ E =
      (m₁ <<< (e₁ - e₂ - E).toNat : ℕ) / m₂ := by
    have hsplit : (2 : ℚ) ^ (e₁ - e₂) = 2 ^ (e₁ - e₂ - E).toNat * 2 ^ E := by
      rw [← zpow_natCast, ← zpow_add₀ two_ne_zero]
      congr 1
      omega
    have := (zpow_two_pos E).ne'
    rw [Nat.shiftLeft_eq, hsplit]
    push_cast
    field_simp
  rw [hscale]
  exact describes_div _ _ h₂

/-- A product is rounded once, from its exact value, which has a grid that is
    not finer than the product of the grids. -/
theorem mul_eq_nearest (s₁ s₂ : Sign) {m₁ m₂ : ℕ} {e₁ e₂ : ℤ} (h₁ : 0 < m₁) (h₂ : 0 < m₂)
    (h : e₁ + e₂ ≤ gridExponent ((m₁ : ℚ) * m₂ * 2 ^ (e₁ + e₂))) :
    UnpackedFloat.mul Format.binary64 (.finite s₁ m₁ e₁ h₁) (.finite s₂ m₂ e₂ h₂) =
      nearest (s₁ * s₂) ((m₁ : ℚ) * m₂ * 2 ^ (e₁ + e₂)) := by
  have hpos₁ : (0 : ℚ) < m₁ := by exact_mod_cast h₁
  have hpos₂ : (0 : ℚ) < m₂ := by exact_mod_cast h₂
  refine roundWithAccuracy_eq_nearest _ (mul_pos (mul_pos hpos₁ hpos₂) (zpow_two_pos _)) ?_ h
  rw [mul_div_cancel_right₀ _ (zpow_two_pos _).ne']
  exact_mod_cast Describes.exact (m₁ * m₂)

theorem round_eq_nearest (s : Sign) {m : ℕ} (e : ℤ) (hm : 0 < m) :
    UnpackedFloat.round Format.binary64 s m e = nearest s ((m : ℚ) * 2 ^ e) := by
  have hpos : (0 : ℚ) < m := by exact_mod_cast hm
  have hbits : (Format.binary64.mantissaBits : ℤ) = 53 := rfl
  have hmin : Format.binary64.minExponent = -1074 := rfl
  have hd : Describes m .exact ((m : ℚ) * 2 ^ e / 2 ^ e) := by
    rw [mul_div_cancel_right₀ _ (zpow_two_pos e).ne']
    exact .exact m
  have ht : Format.binary64.targetExponent (totalExponent m e) = gridExponent ((m : ℚ) * 2 ^ e) := by
    rw [Format.targetExponent, totalExponent, gridExponent]
    rw [log_of_describes hm hd]
    omega
  simp only [UnpackedFloat.round, decreaseExponent, ht]
  generalize hE : e - ((e - gridExponent ((m : ℚ) * 2 ^ e)).toNat : ℤ) = E
  refine roundWithAccuracy_eq_nearest _ (mul_pos hpos (zpow_two_pos _)) ?_ (by omega)
  have hscale : (m : ℚ) * 2 ^ e / 2 ^ E =
      (m <<< (e - gridExponent ((m : ℚ) * 2 ^ e)).toNat : ℕ) := by
    rw [Nat.shiftLeft_eq, Nat.cast_mul, Nat.cast_pow, Nat.cast_ofNat, mul_div_assoc,
      ← zpow_sub₀ two_ne_zero, ← zpow_natCast]
    congr 2
    omega
  rw [hscale]
  exact .exact _

/-- A mantissa that is not negative is rounded once, unless it is zero. -/
theorem normalize_natCast (n : ℕ) (e : ℤ) :
    UnpackedFloat.normalize Format.binary64 n e .positive =
      if n = 0 then .zero .positive else nearest .positive ((n : ℚ) * 2 ^ e) := by
  rw [UnpackedFloat.normalize]
  split_ifs with h
  · rw [h]
    rfl
  · have hn : 0 < n := Nat.pos_of_ne_zero h
    rw [compare_gt_iff_gt.2 (by exact_mod_cast hn)]
    exact round_eq_nearest .positive e hn

/-- A whole number is rounded once. -/
theorem ofNat_eq_nearest {n : ℕ} (hn : 0 < n) :
    UnpackedFloat.ofNat Format.binary64 n = nearest .positive n := by
  have h := normalize_natCast n 0
  rwa [if_neg hn.ne', zpow_zero, mul_one] at h

/-! ## Canonical forms -/

/-- An unpacked number is the canonical form of a positive fraction. -/
def HasValue (u : UnpackedFloat) (q : ℚ) : Prop :=
  ∃ m e, ∃ h : IsCanonical m e, u = .finite .positive m e h.pos ∧ (m : ℚ) * 2 ^ e = q

namespace HasValue

variable {u v : UnpackedFloat} {p q : ℚ}

theorem pos (h : HasValue u q) : 0 < q := by
  obtain ⟨m, e, hc, -, rfl⟩ := h
  exact mul_pos (by exact_mod_cast hc.pos) (zpow_two_pos e)

/-- A fraction that has a canonical form is rounded to that. -/
theorem nearest_eq (h : HasValue u q) : nearest .positive q = u := by
  obtain ⟨m, e, hc, rfl, rfl⟩ := h
  exact hc.nearest_eq .positive

theorem unpack_packed (h : HasValue u q) : (packed u).toModel.unpack = u := by
  obtain ⟨m, e, hc, rfl, -⟩ := h
  exact Number.unpack_packed hc hc.pos

theorem ofUnpacked? (h : HasValue u q) :
    ∃ m e, Dyadic.ofUnpacked? u = some ⟨false, m, e⟩ ∧ (m : ℚ) * 2 ^ e = q := by
  obtain ⟨m, e, hc, rfl, rfl⟩ := h
  exact ⟨m, e, rfl, rfl⟩

theorem div_eq (hu : HasValue u p) (hv : HasValue v q) :
    UnpackedFloat.div Format.binary64 u v = nearest .positive (p / q) := by
  obtain ⟨m, e, hm, rfl, rfl⟩ := hu
  obtain ⟨n, f, hn, rfl, rfl⟩ := hv
  rw [div_eq_nearest, mul_div_mul_comm, ← zpow_sub₀ two_ne_zero]
  rfl

/-- The mantissa of a number that is at least one has its full length. -/
theorem full_of_one_le {m : ℕ} {e : ℤ} (hc : IsCanonical m e) (h : (1 : ℚ) ≤ m * 2 ^ e) :
    2 ^ 52 ≤ m := by
  rcases hc.full with hf | rfl
  · exact hf
  · have hm : (m : ℚ) < 2 ^ (53 : ℤ) := by exact_mod_cast hc.lt
    have : (m : ℚ) * 2 ^ (-1074 : ℤ) < 2 ^ (53 : ℤ) * 2 ^ (-1074 : ℤ) :=
      mul_lt_mul_of_pos_right hm (zpow_two_pos _)
    rw [← zpow_add₀ two_ne_zero] at this
    have hone : (2 : ℚ) ^ ((53 : ℤ) + -1074) ≤ 2 ^ (0 : ℤ) :=
      zpow_le_zpow_right₀ one_le_two (by norm_num)
    rw [zpow_zero] at hone
    linarith

/-- Numbers that are not below one are multiplied with one rounding. -/
theorem mul_eq (hu : HasValue u p) (hv : HasValue v q) (hp : 1 ≤ p) (hq : 1 ≤ q) :
    UnpackedFloat.mul Format.binary64 u v = nearest .positive (p * q) := by
  obtain ⟨m, e, hm, rfl, rfl⟩ := hu
  obtain ⟨n, f, hn, rfl, rfl⟩ := hv
  have hm' : (2 : ℚ) ^ (52 : ℤ) ≤ m := by exact_mod_cast full_of_one_le hm hp
  have hn' : (2 : ℚ) ^ (52 : ℤ) ≤ n := by exact_mod_cast full_of_one_le hn hq
  have hprod : (m : ℚ) * 2 ^ e * (n * 2 ^ f) = m * n * 2 ^ (e + f) := by
    rw [zpow_add₀ two_ne_zero]
    ring
  rw [mul_eq_nearest, hprod]
  · rfl
  -- Both mantissas have their full length, so the product has more places than a
  -- word can hold, and its grid is not the finer one.
  · have hle : (2 : ℚ) ^ (104 + (e + f)) ≤ m * n * 2 ^ (e + f) := by
      rw [zpow_add₀ two_ne_zero]
      refine mul_le_mul_of_nonneg_right ?_ (zpow_two_pos _).le
      calc (2 : ℚ) ^ (104 : ℤ) = 2 ^ (52 : ℤ) * 2 ^ (52 : ℤ) := by norm_num
        _ ≤ m * n := mul_le_mul hm' hn' (zpow_two_pos _).le (Nat.cast_nonneg m)
    have := le_log_of_le ((zpow_two_pos _).trans_le hle) hle
    rw [gridExponent]
    omega

end HasValue

/-- Whole numbers of at most 53 places have canonical forms. -/
theorem hasValue_natCast {n : ℕ} (hpos : 0 < n) (hlt : n < 2 ^ 53) :
    HasValue (nearest .positive n) n := by
  obtain ⟨m, e, hc, he⟩ := exists_canonical_natCast hpos hlt
  exact ⟨m, e, hc, by rw [← he]; exact hc.nearest_eq .positive, he⟩

/-- Whole numbers of at most 53 places stay exact when they are halved, for a while. -/
theorem hasValue_div_two_pow {n k : ℕ} (hpos : 0 < n) (hlt : n < 2 ^ 53) (hk : k ≤ 1000) :
    HasValue (nearest .positive ((n : ℚ) / 2 ^ k)) ((n : ℚ) / 2 ^ k) := by
  obtain ⟨m, e, hc, he⟩ := exists_canonical_natCast hpos hlt
  have hone : (1 : ℚ) ≤ m * 2 ^ e := by
    rw [he]
    exact_mod_cast hpos
  have hfull : 2 ^ 52 ≤ m := HasValue.full_of_one_le hc hone
  have hleast : -53 < e := by
    have hm : (m : ℚ) * 2 ^ e < 2 ^ (53 : ℤ) * 2 ^ e :=
      mul_lt_mul_of_pos_right (by exact_mod_cast hc.lt) (zpow_two_pos e)
    rw [← zpow_add₀ two_ne_zero] at hm
    have := (one_lt_zpow_iff_right₀ one_lt_two).1 (hone.trans_lt hm)
    omega
  have hhalved : (m : ℚ) * 2 ^ (e - k) = n / 2 ^ k := by
    rw [zpow_sub₀ two_ne_zero, zpow_natCast, ← mul_div_assoc, he]
  have hcanonical : IsCanonical m (e - k) :=
    ⟨hc.pos, hc.lt, .inl hfull, by omega, by have := hc.greatest; omega⟩
  exact ⟨m, e - k, hcanonical, by rw [← hhalved]; exact hcanonical.nearest_eq .positive, hhalved⟩

theorem hasValue_toFloat {n : UInt32} (h : 0 < n.toNat) :
    HasValue n.toFloat.toModel.unpack n.toNat := by
  have hfloat : n.toFloat = packed (UnpackedFloat.ofNat Format.binary64 n.toNat) := rfl
  have hvalue := hasValue_natCast h (n.toNat_lt.trans (by decide))
  rw [hfloat, ofNat_eq_nearest h, hvalue.unpack_packed]
  exact hvalue

/-- Whether an unpacked number is a whole number, exactly. -/
def isExactly (n : ℕ) : UnpackedFloat → Bool
  | .finite .positive m e _ => m * Nat.pow 2 e.toNat == n * Nat.pow 2 (-e).toNat
  | _ => false

theorem hasValue_of_isExactly {x : Float} {n : ℕ} (h : isExactly n x.toModel.unpack = true) :
    HasValue x.toModel.unpack n := by
  unfold isExactly at h
  split at h
  case h_2 => cases h
  case h_1 m e hm hx =>
    refine ⟨m, e, isCanonical_of_unpack hx, hx, ?_⟩
    have h : (m : ℚ) * 2 ^ e.toNat = n * 2 ^ (-e).toNat := by exact_mod_cast beq_iff_eq.1 h
    have he : (2 : ℚ) ^ e.toNat = 2 ^ e * 2 ^ (-e).toNat := by
      rw [← zpow_natCast, ← zpow_natCast, ← zpow_add₀ two_ne_zero]
      congr 1
      omega
    rw [he, ← mul_assoc] at h
    exact mul_right_cancel₀ (pow_pos two_pos _).ne' h

/-- The powers of ten in the table are exact. -/
theorem isExactly_powerOfTen (k : Fin Float.exactlyRepresentablePowersOfTen.size) :
    isExactly (Nat.pow 10 k) Float.exactlyRepresentablePowersOfTen[k].toModel.unpack = true := by
  revert k
  decide

/-! ## Comparisons -/

theorem isFinite_eq (x : Float) : x.isFinite = x.toModel.unpack.isFinite := rfl

theorem HasValue.isFinite {x : Float} {q : ℚ} (h : HasValue x.toModel.unpack q) :
    x.isFinite = true := by
  obtain ⟨m, e, hc, hx, -⟩ := h
  rw [isFinite_eq, hx]
  rfl

theorem unpack_zero : (0.0 : Float).toModel.unpack = .zero .positive := by rfl

theorem HasValue.zero_lt {x : Float} {q : ℚ} (h : HasValue x.toModel.unpack q) : 0.0 < x := by
  obtain ⟨m, e, hc, hx, -⟩ := h
  have hlt : UnpackedFloat.lt (0.0 : Float).toModel.unpack x.toModel.unpack = true := by
    rw [hx, unpack_zero]
    rfl
  exact decide_eq_true hlt

/-- What is finite has an exact value. -/
theorem exists_ofFloat? {x : Float} (h : x.isFinite = true) : ∃ d, Dyadic.ofFloat? x = some d := by
  rw [isFinite_eq] at h
  rw [Dyadic.ofFloat?_eq]
  cases hx : x.toModel.unpack with
  | infinity s => rw [hx] at h; cases h
  | notANumber => rw [hx] at h; cases h
  | zero s => exact ⟨_, rfl⟩
  | finite s m e hm => exact ⟨_, rfl⟩

/-- And nothing else has. -/
theorem ofFloat?_eq_none {x : Float} (h : x.isFinite = false) : Dyadic.ofFloat? x = none := by
  rw [isFinite_eq] at h
  rw [Dyadic.ofFloat?_eq]
  cases hx : x.toModel.unpack with
  | infinity | notANumber => rfl
  | zero | finite => rw [hx] at h; cases h

/-- A finite number is zero, or it is canonical with a sign. -/
theorem unpack_cases {x : Float} (h : x.isFinite = true) :
    (∃ s, x.toModel.unpack = .zero s) ∨
      ∃ s m e, ∃ hc : IsCanonical m e, x.toModel.unpack = .finite s m e hc.pos := by
  rw [isFinite_eq] at h
  cases hx : x.toModel.unpack with
  | infinity s => rw [hx] at h; cases h
  | notANumber => rw [hx] at h; cases h
  | zero s => exact .inl ⟨s, rfl⟩
  | finite s m e hm => exact .inr ⟨s, m, e, isCanonical_of_unpack hx, rfl⟩

theorem isFinite_neg {x : Float} (h : x.isFinite = true) : (-x).isFinite = true := by
  have hneg : -x = packed x.toModel.unpack.neg := rfl
  rw [isFinite_eq, hneg]
  rcases unpack_cases h with ⟨s, hx⟩ | ⟨s, m, e, hc, hx⟩
  · rw [hx, UnpackedFloat.neg, unpack_packed_zero]
    rfl
  · rw [hx, UnpackedFloat.neg, unpack_packed hc hc.pos]
    rfl

/-- What is finite equals itself. -/
theorem beq_self {x : Float} (h : x.isFinite = true) : (x == x) = true := by
  rw [Float.beq_self_iff]
  rintro rfl
  cases h

/-- A number whose nearest one is within bounds becomes finite. -/
theorem isFinite_packed_nearest {q : ℚ} (hq : 0 < q) (hmax : q < 2 ^ (1023 : ℤ)) (s : Sign) :
    (packed (nearest s q)).isFinite = true := by
  rw [isFinite_eq]
  rcases nearest_cases hq hmax s with h | ⟨m, e, hc, h⟩
  · rw [h, unpack_packed_zero]
    rfl
  · rw [h, unpack_packed hc hc.pos]
    rfl

/-! ## Whole numbers -/

/-- Halves go up. -/
theorem roundHalfUp_eq (num : ℕ) {den : ℕ} (h : 0 < den) :
    roundHalfUp num den = ⌊(num : ℚ) / den + 1 / 2⌋₊ := by
  have hden : (den : ℚ) ≠ 0 := by exact_mod_cast h.ne'
  have hfraction : (num : ℚ) / den + 1 / 2 = (2 * num + den : ℕ) / (2 * den : ℕ) := by
    push_cast
    field_simp
  rw [hfraction, Nat.floor_div_eq_div, roundHalfUp]

/-- A number is taken to the nearest whole number within a limit. -/
theorem HasValue.nearestWithin_eq {x : Float} {q : ℚ} (h : HasValue x.toModel.unpack q)
    (limit : ℕ) : nearestWithin limit x = min limit ⌊q + 1 / 2⌋₊ := by
  obtain ⟨m, e, hd, rfl⟩ := h.ofUnpacked?
  rw [← Dyadic.ofFloat?_eq] at hd
  have hpower : (2 : ℚ) ^ e.toNat / 2 ^ (-e).toNat = 2 ^ e := by
    rw [← zpow_natCast, ← zpow_natCast, ← zpow_sub₀ two_ne_zero]
    congr 1
    omega
  have hfraction : ((⟨false, m, e⟩ : Dyadic).numerator : ℚ) / (⟨false, m, e⟩ : Dyadic).denominator =
      m * 2 ^ e := by
    rw [← hpower, ← mul_div_assoc, Dyadic.numerator, Dyadic.denominator]
    push_cast [Nat.pow_eq]
    rfl
  unfold nearestWithin wholeWithin
  simp only [hd, Bool.false_eq_true, if_false]
  rw [roundHalfUp_eq _ (Dyadic.denominator_pos _), hfraction]

/-- A whole number within a limit is taken to itself. -/
theorem HasValue.nearestWithin_natCast {x : Float} {n limit : ℕ} (h : HasValue x.toModel.unpack n)
    (hn : n ≤ limit) : nearestWithin limit x = n := by
  have hfloor : ⌊(n : ℚ) + 1 / 2⌋₊ = n :=
    (Nat.floor_eq_iff (by positivity)).2 ⟨by linarith, by linarith⟩
  rw [h.nearestWithin_eq, hfloor, Nat.min_eq_right hn]

theorem unpack_one : HasValue (1.0 : Float).toModel.unpack ((1 : ℕ) : ℚ) :=
  hasValue_of_isExactly rfl

/-- A factor of one changes no number that is at least one. -/
theorem HasValue.times_one {x : Float} {q : ℚ} (h : HasValue x.toModel.unpack q) (hq : 1 ≤ q) :
    HasValue (x * 1.0).toModel.unpack q := by
  have hmul : x * 1.0 = packed (UnpackedFloat.mul Format.binary64 x.toModel.unpack
      (1.0 : Float).toModel.unpack) := rfl
  rw [hmul, h.mul_eq unpack_one hq (by norm_num), Nat.cast_one, mul_one, h.nearest_eq,
    h.unpack_packed]
  exact h

/-! ## Decimals -/

theorem powerOfTen_eq {k : ℕ} (h : k < Float.exactlyRepresentablePowersOfTen.size) :
    HasValue (Float.exactlyRepresentablePowersOfTen[k]).toModel.unpack (10 ^ k) := by
  have := hasValue_of_isExactly (isExactly_powerOfTen ⟨k, h⟩)
  rwa [Nat.pow_eq, Nat.cast_pow, Nat.cast_ofNat] at this

theorem unpack_toFloat {n : ℕ} (hpos : 0 < n) (hlt : n < 2 ^ 53) :
    n.toUInt64.toFloat.toModel.unpack = nearest .positive n := by
  have hn : n.toUInt64.toNat = n := UInt64.toNat_ofNat_of_lt' (hlt.trans (by decide))
  have h : n.toUInt64.toFloat = packed (UnpackedFloat.ofNat Format.binary64 n.toUInt64.toNat) := rfl
  rw [h, hn, ofNat_eq_nearest hpos, (hasValue_natCast hpos hlt).unpack_packed]

/-- A decimal by the slow way, which goes through exact products and
    quotients. -/
theorem ofScientific_model_eq {n : ℕ} {e : ℤ} (hn : 0 < n) (hlo : -2048 ≤ e) (hhi : e ≤ 2048) :
    UnpackedFloat.ofScientific Format.binary64 n e = nearest .positive ((n : ℚ) * 10 ^ e) := by
  have hbits : (2 : ℤ) ^ Format.binary64.exponentBits = 2048 := rfl
  have hten : 0 < 10 ^ e.toNat := Nat.pow_pos (by decide)
  have hten' : 0 < 10 ^ (-e).toNat := Nat.pow_pos (by decide)
  rw [UnpackedFloat.ofScientific]
  rw [dif_neg hn.ne', hbits, if_neg (by omega), if_neg (by omega)]
  split
  case isTrue h0 =>
    -- Without a fraction the digits are moved up first, so that no product is on a
    -- grid coarser than that of the result.
    have hshift : 0 < n <<< Format.binary64.mantissaBits := by
      rw [Nat.shiftLeft_eq]
      positivity
    have hbig : (n : ℚ) * 10 ^ e =
        ((n <<< Format.binary64.mantissaBits : ℕ) : ℚ) * (10 ^ e.toNat : ℕ) *
          2 ^ (-(Format.binary64.mantissaBits : ℤ) + 0) := by
      have h53 : Format.binary64.mantissaBits = 53 := rfl
      have he : (10 : ℚ) ^ e = 10 ^ e.toNat := by rw [← zpow_natCast, Int.toNat_of_nonneg h0]
      rw [he, add_zero, zpow_neg, zpow_natCast, Nat.shiftLeft_eq, h53]
      push_cast
      field_simp
      norm_num
    have hone : (1 : ℚ) ≤ n * 10 ^ e :=
      one_le_mul_of_one_le_of_one_le (by exact_mod_cast hn)
        (one_le_zpow₀ (by norm_num) h0)
    have hlog : 0 ≤ Int.log 2 ((n : ℚ) * 10 ^ e) :=
      le_log_of_le (zero_lt_one.trans_le hone) (by rwa [zpow_zero])
    rw [mul_eq_nearest .positive .positive hshift hten, ← hbig]
    · rfl
    · rw [← hbig]
      have h53 : (Format.binary64.mantissaBits : ℤ) = 53 := rfl
      rw [gridExponent]
      omega
  case isFalse h0 =>
    -- With a fraction it is a quotient of two whole numbers.
    rw [div_eq_nearest .positive .positive hn hten', sub_self, zpow_zero, mul_one]
    have he : (10 : ℚ) ^ e = (((10 ^ (-e).toNat : ℕ) : ℚ))⁻¹ := by
      rw [Nat.cast_pow, Nat.cast_ofNat, ← zpow_natCast, ← zpow_neg, Int.toNat_of_nonneg (by omega),
        neg_neg]
    rw [he, div_eq_mul_inv]
    rfl

/-- A decimal becomes the nearest number, whichever way is taken. -/
theorem ofScientific_eq {n : ℕ} {e : ℤ} (hn : 0 < n) (hlo : -2048 ≤ e) (hhi : e ≤ 2048) :
    Float.ofScientific n (e < 0) e.natAbs = packed (nearest .positive ((n : ℚ) * 10 ^ e)) := by
  rw [Float.ofScientific]
  split
  case isFalse =>
    have he : (if decide (e < 0) = true then Int.negOfNat e.natAbs else Int.ofNat e.natAbs) = e := by
      split_ifs with h
      · rw [Int.negOfNat_eq, Int.ofNat_eq_natCast]
        have := of_decide_eq_true h
        omega
      · have : ¬e < 0 := fun h' => h (decide_eq_true h')
        show (e.natAbs : ℤ) = e
        omega
    simp only [he]
    rw [← ofScientific_model_eq hn hlo hhi]
    rfl
  case isTrue h =>
    -- The fast way: digits and power of ten are both exact, so the result is
    -- rounded once here, too.
    obtain ⟨hlt, hk⟩ := h
    have hsize : e.natAbs < Float.exactlyRepresentablePowersOfTen.size := Nat.lt_succ_of_le hk
    have hten := powerOfTen_eq hsize
    have hfloat := unpack_toFloat hn hlt
    have hvalue := hasValue_natCast hn hlt
    rw [← hfloat] at hvalue
    split
    case isTrue hneg =>
      have he : (n : ℚ) * 10 ^ e = n / 10 ^ e.natAbs := by
        have := of_decide_eq_true hneg
        rw [div_eq_mul_inv, ← zpow_natCast, ← zpow_neg]
        congr 2
        omega
      rw [he, ← hvalue.div_eq hten]
      rfl
    case isFalse hneg =>
      have h0 : ¬e < 0 := fun h' => hneg (decide_eq_true h')
      have he : (n : ℚ) * 10 ^ e = n * 10 ^ e.natAbs := by
        rw [← zpow_natCast]
        congr 2
        omega
      rw [he, ← hvalue.mul_eq hten (by exact_mod_cast hn) (one_le_pow₀ (by norm_num))]
      rfl

end VideoExport.Number
