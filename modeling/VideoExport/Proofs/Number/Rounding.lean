import VideoExport.Proofs.Number.Binary

/-!
# Rounding to the nearest number

Results of arithmetic are mantissas with an account of what was cut off. They
are moved to the grid of the result and rounded there. What comes out depends
only on the exact value: it is the number nearest to it, ties to even.

* `Describes`: a mantissa and an account of the rest stand for a fraction;
* `nearest`: the number nearest to a positive fraction;
* `roundWithAccuracy_eq_nearest`: rounding finds it;
* `IsCanonical.nearest_eq`, `nearest_cases`: what words can hold is its own
  nearest number, and the nearest number is one that words can hold.
-/

namespace VideoExport.Number

open Float.Model Float.Model.UnpackedFloat

/-- The whole number nearest to a fraction that is not negative; a half goes to
    the even one. -/
def roundEven (y : ℚ) : ℕ :=
  if 2 * (y - ⌊y⌋₊) < 1 then ⌊y⌋₊
  else if 1 < 2 * (y - ⌊y⌋₊) then ⌊y⌋₊ + 1
  else ⌊y⌋₊ + ⌊y⌋₊ % 2

/-- A mantissa with its two spare bits stands for a number: the first one says
    whether at least half a unit is left, the second one whether anything else
    is. -/
structure StandsFor (em : ExtendedMantissa) (y : ℚ) : Prop where
  le : em.mantissa ≤ y
  lt : y < em.mantissa + 1
  half : em.roundBit = true ↔ (em.mantissa : ℚ) + 1 / 2 ≤ y
  rest : em.stickyBit = false ↔ y = em.mantissa ∨ y = em.mantissa + 1 / 2

theorem StandsFor.floor_eq {em : ExtendedMantissa} {y : ℚ} (h : StandsFor em y) :
    ⌊y⌋₊ = em.mantissa :=
  (Nat.floor_eq_iff ((Nat.cast_nonneg _).trans h.le)).2 ⟨h.le, h.lt⟩

theorem StandsFor.roundedMantissa_eq {em : ExtendedMantissa} {y : ℚ} (h : StandsFor em y) :
    em.roundedMantissa = roundEven y := by
  have hf := h.floor_eq
  obtain ⟨m, r, s⟩ := em
  obtain ⟨-, -, hr, hs⟩ := h
  rw [roundEven, hf]
  -- The first bit decides, except in the middle: there the second one tells whether
  -- anything is left, and if not the even number wins.
  cases r with
  | false =>
    have hr : y < m + 1 / 2 := not_le.1 fun h => by simpa using hr.2 h
    rw [if_pos (by simp only; linarith)]
    cases s <;> rfl
  | true =>
    have hle : (m : ℚ) + 1 / 2 ≤ y := hr.1 rfl
    rw [if_neg (by simp only; linarith)]
    cases s with
    | false =>
      have hs : y = m + 1 / 2 := (hs.1 rfl).resolve_left (by intro; linarith)
      rw [if_neg (by simp only; linarith)]
      rfl
    | true =>
      have hs : y ≠ m + 1 / 2 := fun h => by simpa using hs.2 (.inr h)
      rw [if_pos (by simp only; linarith [lt_of_le_of_ne hle hs.symm])]
      rfl

/-- Nothing is left exactly if both bits are unset. -/
theorem StandsFor.bits_eq_false_iff {em : ExtendedMantissa} {y : ℚ} (h : StandsFor em y) :
    (em.roundBit || em.stickyBit) = false ↔ y = em.mantissa := by
  rw [Bool.or_eq_false_iff, h.rest, ← Bool.not_eq_true, h.half, not_le]
  constructor
  · rintro ⟨hlt, he | he⟩
    · exact he
    · exact absurd hlt (by rw [he]; exact lt_irrefl _)
  · intro he
    exact ⟨by rw [he]; linarith, .inl he⟩

/-- Moving the mantissa by one place halves what it stands for. -/
theorem StandsFor.shiftRightOne {em : ExtendedMantissa} {y : ℚ} (h : StandsFor em y) :
    StandsFor em.shiftRightOne (y / 2) := by
  have hbits := h.bits_eq_false_iff
  obtain ⟨hle, hlt, -, -⟩ := h
  have hm : (em.mantissa : ℚ) = 2 * (em.mantissa / 2 : ℕ) + (em.mantissa % 2 : ℕ) := by
    exact_mod_cast (Nat.div_add_mod em.mantissa 2).symm
  rw [hm] at hle hlt hbits
  -- The last place of the mantissa becomes the first of the spare bits.
  rcases Nat.mod_two_eq_zero_or_one em.mantissa with h0 | h1
  · rw [h0] at hle hlt hbits
    push_cast at hle hlt hbits
    refine ⟨?_, ?_, ?_, ?_⟩ <;> simp only [ExtendedMantissa.shiftRightOne]
    · linarith
    · linarith
    · simp only [h0, bne_self_eq_false, Bool.false_eq_true, false_iff, not_le]
      linarith
    · rw [hbits]
      constructor
      · intro he; left; linarith
      · rintro (he | he) <;> linarith
  · rw [h1] at hle hlt hbits
    push_cast at hle hlt hbits
    refine ⟨?_, ?_, ?_, ?_⟩ <;> simp only [ExtendedMantissa.shiftRightOne]
    · linarith
    · linarith
    · simp only [h1]
      exact ⟨fun _ => by linarith, fun _ => rfl⟩
    · rw [hbits]
      constructor
      · intro he; right; linarith
      · rintro (he | he) <;> linarith

theorem StandsFor.shiftRight {em : ExtendedMantissa} {y : ℚ} (h : StandsFor em y) (n : ℕ) :
    StandsFor (em >>> n) (y / 2 ^ n) := by
  induction n with
  | zero => rwa [pow_zero, div_one]
  | succ n ih =>
    have := ih.shiftRightOne
    rwa [div_div, ← pow_succ] at this

/-- A mantissa and its accuracy say where a number lies: it is the mantissa, or
    it lies below, at or above the middle between the mantissa and the next one. -/
structure Describes (m : ℕ) (acc : Accuracy) (y : ℚ) : Prop where
  le : m ≤ y
  lt : y < m + 1
  rest : match acc with
    | .exact => y = m
    | .inexact o => y ≠ m ∧ compare (2 * (y - m)) 1 = o

theorem Describes.exact (m : ℕ) : Describes m .exact m := ⟨le_rfl, lt_add_one _, rfl⟩

theorem StandsFor.of_describes {m : ℕ} {acc : Accuracy} {y : ℚ} (h : Describes m acc y) :
    StandsFor (.ofMantissaAndAccuracy m acc) y := by
  obtain ⟨hle, hlt, hr⟩ := h
  -- Below, at and above the middle differ in the two spare bits.
  match acc, hr with
  | .exact, hr =>
    refine ⟨hle, hlt, ?_, ?_⟩ <;> simp [ExtendedMantissa.ofMantissaAndAccuracy, hr]
  | .inexact .lt, ⟨hne, hc⟩ =>
    have := compare_lt_iff_lt.1 hc
    refine ⟨hle, hlt, ?_, ?_⟩ <;> simp only [ExtendedMantissa.ofMantissaAndAccuracy]
    · simp only [Bool.false_eq_true, false_iff, not_le]; linarith
    · simp only [Bool.true_eq_false, false_iff, not_or]
      exact ⟨hne, fun he => by linarith⟩
  | .inexact .eq, ⟨hne, hc⟩ =>
    have := compare_eq_iff_eq.1 hc
    refine ⟨hle, hlt, ?_, ?_⟩ <;> simp only [ExtendedMantissa.ofMantissaAndAccuracy]
    · simp only [true_iff]; linarith
    · simp only [true_iff]; right; linarith
  | .inexact .gt, ⟨hne, hc⟩ =>
    have := compare_gt_iff_gt.1 hc
    refine ⟨hle, hlt, ?_, ?_⟩ <;> simp only [ExtendedMantissa.ofMantissaAndAccuracy]
    · simp only [true_iff]; linarith
    · simp only [Bool.true_eq_false, false_iff, not_or]
      exact ⟨hne, fun he => by linarith⟩

/-! ## The nearest number -/

/-- The exponent of the grid that a positive number is rounded to. -/
def gridExponent (q : ℚ) : ℤ := max (Int.log 2 q - 52) (-1074)

/-- The number with a rounded mantissa, which may have become one place too
    long. -/
def carried (s : Sign) (n : ℕ) (e : ℤ) : UnpackedFloat :=
  if h : n = 0 then .zero s
  else if n = 2 ^ 53 then .finite s (2 ^ 52) (e + 1) (Nat.two_pow_pos _)
  else .finite s n e (Nat.pos_of_ne_zero h)

/-- The number nearest to a positive fraction, ties to even. -/
def nearest (s : Sign) (q : ℚ) : UnpackedFloat :=
  carried s (roundEven (q / 2 ^ gridExponent q)) (gridExponent q)

theorem zpow_two_pos (k : ℤ) : (0 : ℚ) < 2 ^ k := zpow_pos two_pos k

theorem le_log_of_le {q : ℚ} {k : ℤ} (hq : 0 < q) (h : (2 : ℚ) ^ k ≤ q) : k ≤ Int.log 2 q :=
  (Int.zpow_le_iff_le_log one_lt_two hq).1 (by rwa [Nat.cast_ofNat])

theorem log_lt_of_lt {q : ℚ} {k : ℤ} (hq : 0 < q) (h : q < (2 : ℚ) ^ k) : Int.log 2 q < k :=
  (Int.lt_zpow_iff_log_lt one_lt_two hq).1 (by rwa [Nat.cast_ofNat])

theorem log_eq_of_bounds {q : ℚ} {k : ℤ} (hlo : (2 : ℚ) ^ k ≤ q) (hhi : q < (2 : ℚ) ^ (k + 1)) :
    Int.log 2 q = k := by
  have hq : 0 < q := (zpow_two_pos k).trans_le hlo
  have := le_log_of_le hq hlo
  have := log_lt_of_lt hq hhi
  omega

theorem zpow_log_le {q : ℚ} (hq : 0 < q) : (2 : ℚ) ^ Int.log 2 q ≤ q := by
  exact_mod_cast Int.zpow_log_le_self one_lt_two hq

theorem lt_zpow_log (q : ℚ) : q < (2 : ℚ) ^ (Int.log 2 q + 1) := by
  exact_mod_cast Int.lt_zpow_succ_log_self one_lt_two q

/-- A described number has as many places as its mantissa. -/
theorem log_of_describes {m : ℕ} {acc : Accuracy} {q : ℚ} {e : ℤ} (hm : 0 < m)
    (h : Describes m acc (q / 2 ^ e)) : Int.log 2 q = m.log2 + e := by
  have he := zpow_two_pos e
  have hlo : (2 : ℚ) ^ (m.log2 : ℤ) ≤ q / 2 ^ e := by
    refine le_trans ?_ h.le
    rw [zpow_natCast]
    exact_mod_cast Nat.log2_self_le hm.ne'
  have hhi : q / 2 ^ e < (2 : ℚ) ^ ((m.log2 : ℤ) + 1) := by
    refine h.lt.trans_le ?_
    have : m + 1 ≤ 2 ^ (m.log2 + 1) := Nat.lt_log2_self
    exact_mod_cast this
  apply log_eq_of_bounds
  · rw [zpow_add₀ two_ne_zero]
    exact (le_div_iff₀ he).1 hlo
  · rw [add_right_comm, zpow_add₀ two_ne_zero]
    exact (div_lt_iff₀ he).1 hhi

theorem targetExponent_eq {m : ℕ} {acc : Accuracy} {q : ℚ} {e : ℤ} (hq : 0 < q)
    (h : Describes m acc (q / 2 ^ e)) (he : e ≤ gridExponent q) :
    Format.binary64.targetExponent (totalExponent m e) = gridExponent q := by
  have hbits : (Format.binary64.mantissaBits : ℤ) = 53 := rfl
  have hmin : Format.binary64.minExponent = -1074 := rfl
  rw [Format.targetExponent, totalExponent]
  rw [hbits, hmin]
  rcases Nat.eq_zero_or_pos m with rfl | hm
  · -- Nothing but a rest is there, so the number lies below the least grid.
    have hlt : q < 2 ^ e := by
      have := h.lt
      rwa [Nat.cast_zero, zero_add, div_lt_one (zpow_two_pos e)] at this
    have hlog := log_lt_of_lt hq hlt
    unfold gridExponent at *
    simp only [Nat.log2_zero, Nat.cast_zero]
    omega
  · rw [gridExponent, log_of_describes hm h]
    omega

theorem roundEven_le_succ_floor (y : ℚ) : roundEven y ≤ ⌊y⌋₊ + 1 := by
  rw [roundEven]
  split_ifs <;> omega

/-- A positive number has at most 53 places on its grid. -/
theorem div_gridExponent_lt (q : ℚ) : q / 2 ^ gridExponent q < 2 ^ 53 := by
  rw [div_lt_iff₀ (zpow_two_pos _), ← zpow_natCast, ← zpow_add₀ two_ne_zero]
  refine (lt_zpow_log q).trans_le (zpow_le_zpow_right₀ one_le_two ?_)
  rw [gridExponent]
  push_cast
  omega

theorem roundEven_le (q : ℚ) (hq : 0 < q) : roundEven (q / 2 ^ gridExponent q) ≤ 2 ^ 53 := by
  have h : ⌊q / 2 ^ gridExponent q⌋₊ < 2 ^ 53 :=
    (Nat.floor_lt (div_nonneg hq.le (zpow_two_pos _).le)).2 (by exact_mod_cast div_gridExponent_lt q)
  have := roundEven_le_succ_floor (q / 2 ^ gridExponent q)
  omega

theorem shiftToTargetExponent_of_lt {n : ℕ} {e : ℤ} (hn : n < 2 ^ 53) (he : -1074 ≤ e) :
    shiftToTargetExponent Format.binary64 n e .exact = (⟨n, false, false⟩, e) := by
  have hbits : (Format.binary64.mantissaBits : ℤ) = 53 := rfl
  have hmin : Format.binary64.minExponent = -1074 := rfl
  have hlog : n.log2 < 53 := by
    rcases Nat.eq_zero_or_pos n with rfl | h
    · decide
    · exact (Nat.log2_lt h.ne').2 hn
  -- The mantissa is short enough, so there is nothing to shift.
  have hshift : (Format.binary64.targetExponent (totalExponent n e) - e).toNat = 0 := by
    rw [Format.targetExponent, totalExponent]
    omega
  simp only [shiftToTargetExponent, shiftToExponent, hshift, Nat.cast_zero, add_zero]
  rfl

/-- A mantissa that rounding has made one place too long loses its last one. -/
theorem shiftToTargetExponent_two_pow {e : ℤ} (he : -1074 ≤ e) :
    shiftToTargetExponent Format.binary64 (2 ^ 53) e .exact = (⟨2 ^ 52, false, false⟩, e + 1) := by
  have hbits : (Format.binary64.mantissaBits : ℤ) = 53 := rfl
  have hmin : Format.binary64.minExponent = -1074 := rfl
  have hshift : (Format.binary64.targetExponent (totalExponent (2 ^ 53) e) - e).toNat = 1 := by
    rw [Format.targetExponent, totalExponent]
    rw [Nat.log2_two_pow]
    omega
  simp only [shiftToTargetExponent, shiftToExponent, hshift, Nat.cast_one]
  rfl

/-- After the first shift a number is rounded, and carries at most once. -/
theorem roundWithAccuracy_eq_carried {m n : ℕ} {acc : Accuracy} {e e' : ℤ} (s : Sign)
    (hexp : (shiftToTargetExponent Format.binary64 m e acc).2 = e')
    (hround : (shiftToTargetExponent Format.binary64 m e acc).1.roundedMantissa = n)
    (hn : n ≤ 2 ^ 53) (he : -1074 ≤ e') :
    roundWithAccuracy Format.binary64 s m e acc = carried s n e' := by
  rw [roundWithAccuracy]
  simp only [hexp, hround]
  -- The second shift does something only if rounding made the mantissa one place
  -- too long.
  rcases Nat.lt_or_eq_of_le hn with hlt | rfl
  · simp only [shiftToTargetExponent_of_lt hlt he]
    rw [carried]
    simp only [hlt.ne, if_false]
  · simp only [shiftToTargetExponent_two_pow he]
    rfl

/-- Rounding a described number gives the nearest one. -/
theorem roundWithAccuracy_eq_nearest {m : ℕ} {acc : Accuracy} {q : ℚ} {e : ℤ} (s : Sign)
    (hq : 0 < q) (h : Describes m acc (q / 2 ^ e)) (he : e ≤ gridExponent q) :
    roundWithAccuracy Format.binary64 s m e acc = nearest s q := by
  have ht := targetExponent_eq hq h he
  -- The first shift takes the mantissa from its own grid to that of the result.
  have hscale : q / 2 ^ e / 2 ^ (gridExponent q - e).toNat = q / 2 ^ gridExponent q := by
    rw [div_div, ← zpow_natCast, ← zpow_add₀ two_ne_zero]
    congr 2
    omega
  have hstands := (StandsFor.of_describes h).shiftRight (gridExponent q - e).toNat
  rw [hscale] at hstands
  refine roundWithAccuracy_eq_carried s ?_ ?_ (roundEven_le q hq) (le_max_right _ _)
  · simp only [shiftToTargetExponent, shiftToExponent, ht]
    omega
  · simp only [shiftToTargetExponent, shiftToExponent, ht]
    exact hstands.roundedMantissa_eq

/-! ## Exact numbers -/

theorem roundEven_natCast (n : ℕ) : roundEven n = n := by
  rw [roundEven]
  rw [Nat.floor_natCast, sub_self, mul_zero, if_pos one_pos]

theorem IsCanonical.gridExponent_eq {m : ℕ} {e : ℤ} (h : IsCanonical m e) :
    gridExponent (m * 2 ^ e) = e := by
  obtain ⟨hpos, hlt, hfull, hge, -⟩ := h
  have hd : Describes m .exact ((m : ℚ) * 2 ^ e / 2 ^ e) := by
    rw [mul_div_cancel_right₀ _ (zpow_two_pos e).ne']
    exact .exact m
  have hlog : m.log2 ≤ 52 := Nat.lt_succ_iff.1 ((Nat.log2_lt hpos.ne').2 hlt)
  rw [gridExponent, log_of_describes hpos hd]
  rcases hfull with hf | rfl
  · rw [log2_eq_of_full hf hlt]
    omega
  · omega

/-- A canonical number is the nearest one to itself. -/
theorem IsCanonical.nearest_eq {m : ℕ} {e : ℤ} (h : IsCanonical m e) (s : Sign) :
    nearest s (m * 2 ^ e) = .finite s m e h.pos := by
  have hlt := h.lt
  rw [nearest]
  rw [h.gridExponent_eq, mul_div_cancel_right₀ _ (zpow_two_pos e).ne', roundEven_natCast]
  unfold carried
  rw [dif_neg h.pos.ne', if_neg hlt.ne]

/-- Whole numbers of at most 53 places are exact. -/
theorem exists_canonical_natCast {n : ℕ} (hpos : 0 < n) (hlt : n < 2 ^ 53) :
    ∃ m e, IsCanonical m e ∧ (m : ℚ) * 2 ^ e = n := by
  have hlog : n.log2 < 53 := (Nat.log2_lt hpos.ne').2 hlt
  have hlo := Nat.mul_le_mul_right (2 ^ (52 - n.log2)) (Nat.log2_self_le hpos.ne')
  have hhi := Nat.mul_lt_mul_of_pos_right (Nat.lt_log2_self (n := n))
    (Nat.two_pow_pos (52 - n.log2))
  rw [← pow_add] at hlo hhi
  -- The number is moved up until its mantissa has all of the 53 places.
  refine ⟨n * 2 ^ (52 - n.log2), -((52 - n.log2 : ℕ) : ℤ), ⟨by positivity, ?_, .inl ?_, ?_, ?_⟩, ?_⟩
  · exact hhi.trans_eq (congrArg (2 ^ ·) (by omega))
  · exact hlo.trans_eq' (congrArg (2 ^ ·) (by omega))
  · omega
  · omega
  · rw [zpow_neg, zpow_natCast]
    push_cast
    field_simp

theorem floor_le_roundEven (y : ℚ) : ⌊y⌋₊ ≤ roundEven y := by
  rw [roundEven]
  split_ifs <;> omega

theorem roundEven_le_of_le {y : ℚ} {n : ℕ} (hy : 0 ≤ y) (h : y ≤ n) : roundEven y ≤ n := by
  rcases h.eq_or_lt with rfl | h
  · exact (roundEven_natCast n).le
  · exact (roundEven_le_succ_floor y).trans ((Nat.floor_lt hy).2 h)

theorem gridExponent_mono {p q : ℚ} (hp : 0 < p) (h : p ≤ q) : gridExponent p ≤ gridExponent q := by
  have := Int.log_mono_right (b := 2) hp h
  unfold gridExponent
  omega

/-- The nearest number is zero or canonical, unless it needs an exponent that is
    beyond all bounds. -/
theorem nearest_cases_of_grid {q : ℚ} (hq : 0 < q) (hgrid : gridExponent q ≤ 971)
    (hcarry : roundEven (q / 2 ^ gridExponent q) = 2 ^ 53 → gridExponent q < 971) (s : Sign) :
    nearest s q = .zero s ∨ ∃ m e, ∃ h : IsCanonical m e, nearest s q = .finite s m e h.pos := by
  have hle := roundEven_le q hq
  have hge : -1074 ≤ gridExponent q := le_max_right _ _
  rw [nearest, carried]
  split_ifs with h0 h53
  · exact .inl rfl
  · have hlt := hcarry h53
    exact .inr ⟨2 ^ 52, gridExponent q + 1,
      ⟨by positivity, by decide, .inl le_rfl, by omega, hlt⟩, rfl⟩
  · refine .inr ⟨_, _, ⟨Nat.pos_of_ne_zero h0, by omega, ?_, hge, hgrid⟩, rfl⟩
    -- Above the least grid the mantissa is full already before it is rounded.
    rcases eq_or_ne (gridExponent q) (-1074) with he | he
    · exact .inr he
    · left
      refine le_trans (Nat.le_floor ?_) (floor_le_roundEven _)
      rw [le_div_iff₀ (zpow_two_pos _)]
      refine le_trans (le_of_eq ?_) (zpow_log_le hq)
      rw [Nat.cast_pow, Nat.cast_ofNat, ← zpow_natCast, ← zpow_add₀ two_ne_zero]
      unfold gridExponent at *
      congr 1
      omega

/-- The nearest number is zero or canonical, unless the fraction is beyond
    all bounds. -/
theorem nearest_cases {q : ℚ} (hq : 0 < q) (hmax : q < 2 ^ (1023 : ℤ)) (s : Sign) :
    nearest s q = .zero s ∨ ∃ m e, ∃ h : IsCanonical m e, nearest s q = .finite s m e h.pos := by
  have hlog : Int.log 2 q < 1023 := log_lt_of_lt hq hmax
  have hgrid : gridExponent q < 971 := by
    rw [gridExponent]
    omega
  exact nearest_cases_of_grid hq hgrid.le (fun _ => hgrid) s

/-- So it is if the fraction does not exceed a canonical number. -/
theorem nearest_cases_of_le {q : ℚ} {m : ℕ} {e : ℤ} (hc : IsCanonical m e) (hq : 0 < q)
    (hle : q ≤ m * 2 ^ e) (s : Sign) :
    nearest s q = .zero s ∨ ∃ m e, ∃ h : IsCanonical m e, nearest s q = .finite s m e h.pos := by
  have hgrid := gridExponent_mono hq hle
  rw [hc.gridExponent_eq] at hgrid
  refine nearest_cases_of_grid hq (hgrid.trans hc.greatest) (fun hcarry => ?_) s
  rcases hgrid.lt_or_eq with hlt | heq
  · exact hlt.trans_le hc.greatest
  · -- On the grid of the canonical number nothing is carried past its mantissa.
    have hm : q / 2 ^ gridExponent q ≤ m := by
      rw [heq]
      exact (div_le_iff₀ (zpow_two_pos e)).2 hle
    have hround := roundEven_le_of_le (div_nonneg hq.le (zpow_two_pos _).le) hm
    have := hc.lt
    omega

end VideoExport.Number
