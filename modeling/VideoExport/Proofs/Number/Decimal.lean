import VideoExport.Proofs.Number.Arithmetic

/-!
# Decimal numerals and their values

The digits of a number are read as that number, and a decimal becomes the
floating-point number nearest to its exact value. Both are laws about values,
so neither zeros at the end of the places nor the way in which a decimal is
taken to a floating-point number matters.

* `Numeral.read?_digits`, `Numeral.read?_places`: numerals without and with a
  point;
* `Decimal.magnitudeToFloat_eq`: the nearest number, with one rounding;
* `Decimal.toFloat_mul_pow_ten`: zeros at the end of the places do not matter.
-/

namespace VideoExport.Number

/-! ## Digits -/

/-- A character that is a digit. -/
theorem isDigit_digitChar {d : ℕ} (h : d < 10) : (digitChar d).isDigit = true := by
  match d, h with
  | 0, _ | 1, _ | 2, _ | 3, _ | 4, _ | 5, _ | 6, _ | 7, _ | 8, _ | 9, _ => rfl

theorem isDigit_of_mem_digits {n : ℕ} {c : Char} (h : c ∈ digits n) : c.isDigit = true := by
  -- Digits are taken off at the end, so the induction is on what is left.
  induction n using Nat.strongRecOn with
  | _ n ih =>
    rw [digits] at h
    split at h
    case isTrue hn =>
      rw [List.mem_singleton.1 h]
      exact isDigit_digitChar hn
    case isFalse hn =>
      rcases List.mem_append.1 h with h | h
      · exact ih (n / 10) (by omega) h
      · rw [List.mem_singleton.1 h]
        exact isDigit_digitChar (Nat.mod_lt _ (by decide))

/-- Digits move what is before them by as many places as there are. -/
theorem extend?_digits_from (value n : ℕ) :
    extend? value (digits n) = some (value * 10 ^ (digits n).length + n) := by
  induction n using Nat.strongRecOn with
  | _ n ih =>
    rw [digits]
    split
    case isTrue h =>
      simp [extend?, digitValue?_digitChar h]
      omega
    case isFalse h =>
      have hd : n % 10 < 10 := Nat.mod_lt _ (by decide)
      rw [extend?_append, ih (n / 10) (by omega)]
      simp only [Option.bind_some, extend?, digitValue?_digitChar hd, List.length_append,
        List.length_singleton, pow_succ, Option.some.injEq]
      have := Nat.div_add_mod n 10
      linarith

theorem extend?_zeros (value k : ℕ) :
    extend? value (List.replicate k '0') = some (value * 10 ^ k) := by
  induction k generalizing value with
  | zero => simp [extend?]
  | succ k ih =>
    have h0 : digitValue? '0' = some 0 := rfl
    rw [List.replicate_succ, extend?, h0, Option.bind_some, ih, pow_succ]
    congr 1
    ring

theorem digitsValue?_of_ne_nil {s : List Char} (h : s ≠ []) : digitsValue? s = extend? 0 s := by
  cases s with
  | nil => exact absurd rfl h
  | cons c s => rfl

/-- The number of the digits of a number below a power of ten. -/
theorem length_digits_le {n k : ℕ} (hk : 0 < k) (h : n < 10 ^ k) : (digits n).length ≤ k := by
  induction k generalizing n with
  | zero => exact absurd hk (lt_irrefl 0)
  | succ k ih =>
    rw [digits]
    split
    case isTrue => simp
    case isFalse hn =>
      have hk : 0 < k := Nat.pos_of_ne_zero fun h0 => hn (by simpa [h0] using h)
      have := ih hk (n := n / 10) (by rw [pow_succ] at h; omega)
      rw [List.length_append, List.length_singleton]
      omega

/-- A zero more at the end is a digit more. -/
theorem length_digits_mul_ten {n : ℕ} (h : 0 < n) :
    (digits (n * 10)).length = (digits n).length + 1 := by
  rw [digits, if_neg (by omega), List.length_append, List.length_singleton,
    Nat.mul_div_cancel _ (by decide)]

/-! ## Reading numerals -/

namespace Numeral

theorem spanDigits_append {s t : List Char} (hs : ∀ c ∈ s, c.isDigit = true)
    (ht : ∀ c ∈ t.head?, c.isDigit = false) : spanDigits (s ++ t) = (s, t) := by
  have htake : t.takeWhile Char.isDigit = [] ∧ t.dropWhile Char.isDigit = t := by
    cases t with
    | nil => exact ⟨rfl, rfl⟩
    | cons c t => simp [ht c rfl]
  rw [spanDigits, List.span_eq_takeWhile_dropWhile, List.takeWhile_append_of_pos hs,
    List.dropWhile_append_of_pos hs, htake.1, htake.2, List.append_nil]

theorem toLower_of_isDigit {c : Char} (h : c.isDigit = true) : c.toLower = c := by
  simp only [Char.isDigit, Bool.and_eq_true, decide_eq_true_eq] at h
  unfold Char.toLower
  rw [dif_neg]
  rintro ⟨hA, -⟩
  exact absurd (UInt32.le_trans hA h.2) (by decide)

/-- A text that starts with a digit is no word. -/
theorem unsigned?_of_isDigit {c : Char} {s : List Char} (negative : Bool) (h : c.isDigit = true) :
    unsigned? negative (c :: s) = (fraction? negative (c :: s)).map finite := by
  have hn : c ≠ 'n' := by rintro rfl; exact absurd h (by decide)
  have hi : c ≠ 'i' := by rintro rfl; exact absurd h (by decide)
  rw [unsigned?]
  rw [List.map_cons, toLower_of_isDigit h]
  split
  case h_1 he => exact absurd (List.cons.inj he).1 hn
  case h_2 he => exact absurd (List.cons.inj he).1 hi
  case h_3 he => exact absurd (List.cons.inj he).1 hi
  case h_4 => rfl

theorem read?_of_isDigit {c : Char} {s : List Char} (h : c.isDigit = true) :
    read? (c :: s) = (fraction? false (c :: s)).map finite := by
  rw [← unsigned?_of_isDigit false h]
  unfold read?
  split
  case h_1 he => exact absurd h (by rw [(List.cons.inj he).1]; decide)
  case h_2 he => exact absurd h (by rw [(List.cons.inj he).1]; decide)
  case h_3 => rfl

/-- A minus sign before a text that starts with a digit, or none. -/
def signChars (negative : Bool) : List Char := if negative then ['-'] else []

theorem read?_signChars {c : Char} {s : List Char} (negative : Bool) (h : c.isDigit = true) :
    read? (signChars negative ++ c :: s) = (fraction? negative (c :: s)).map finite := by
  cases negative with
  | false => exact read?_of_isDigit h
  | true => exact unsigned?_of_isDigit true h

theorem fraction?_whole (negative : Bool) {s : List Char} (hs : ∀ c ∈ s, c.isDigit = true) :
    fraction? negative s = (digitsValue? s).map fun n => ⟨negative, n, 0⟩ := by
  have hspan := spanDigits_append (t := []) hs (by simp)
  rw [List.append_nil] at hspan
  simp only [fraction?, hspan, List.append_nil, exponent?]
  cases digitsValue? s <;> rfl

theorem fraction?_places (negative : Bool) {s t : List Char} (hs : ∀ c ∈ s, c.isDigit = true)
    (ht : ∀ c ∈ t, c.isDigit = true) :
    fraction? negative (s ++ '.' :: t) =
      (digitsValue? (s ++ t)).map fun n => ⟨negative, n, -(t.length : ℤ)⟩ := by
  have hspan := spanDigits_append (t := '.' :: t) hs (by simp)
  have hspan' := spanDigits_append (t := []) ht (by simp)
  rw [List.append_nil] at hspan'
  simp only [fraction?, hspan, hspan', exponent?]
  cases digitsValue? (s ++ t) <;> simp

/-- The digits of a number, with a sign or without. -/
theorem read?_digits (negative : Bool) (n : ℕ) :
    read? (signChars negative ++ digits n) = some (finite ⟨negative, n, 0⟩) := by
  have hd : ∀ c ∈ digits n, c.isDigit = true := fun _ => isDigit_of_mem_digits
  have hf := fraction?_whole negative hd
  rw [digitsValue?_digits] at hf
  cases h : digits n with
  | nil => exact absurd h (digits_ne_nil n)
  | cons c s =>
    rw [h] at hf hd
    rw [read?_signChars negative (hd c List.mem_cons_self), hf]
    rfl

/-- The digits of a number, a point and more digits. -/
theorem read?_places (negative : Bool) (n : ℕ) {t : List Char} {m : ℕ}
    (ht : ∀ c ∈ t, c.isDigit = true) (hm : extend? n t = some m) :
    read? (signChars negative ++ (digits n ++ '.' :: t)) =
      some (finite ⟨negative, m, -(t.length : ℤ)⟩) := by
  have hd : ∀ c ∈ digits n, c.isDigit = true := fun _ => isDigit_of_mem_digits
  have hv : digitsValue? (digits n ++ t) = some m := by
    rw [digitsValue?_of_ne_nil (List.append_ne_nil_of_left_ne_nil (digits_ne_nil n) t),
      extend?_append, extend?_digits, Option.bind_some, hm]
  have hf := fraction?_places negative hd ht
  rw [hv] at hf
  cases h : digits n with
  | nil => exact absurd h (digits_ne_nil n)
  | cons c s =>
    rw [h] at hf hd
    rw [List.cons_append, read?_signChars negative (hd c List.mem_cons_self), ← List.cons_append, hf]
    rfl

end Numeral

/-! ## Values -/

namespace Decimal

/-- The exact value of a decimal without its sign. -/
def magnitude (d : Decimal) : ℚ := d.digits * 10 ^ d.scale

/-- The places before the point, or how far the first digit is behind it. -/
def size (d : Decimal) : ℤ := (Number.digits d.digits).length + d.scale

theorem magnitudeToFloat_def (d : Decimal) :
    d.magnitudeToFloat =
      if d.digits = 0 ∨ d.size < -330 then 0.0 else if 310 < d.size then 1.0 / 0.0
      else Float.ofScientific d.digits (d.scale < 0) d.scale.natAbs := rfl

theorem magnitude_pos {d : Decimal} (h : 0 < d.digits) : 0 < d.magnitude :=
  mul_pos (by exact_mod_cast h) (zpow_pos (by norm_num) _)

/-- A decimal becomes the number nearest to its exact value. -/
theorem magnitudeToFloat_eq {d : Decimal} (h : 0 < d.digits) (hscale : -2048 ≤ d.scale)
    (hlo : -330 ≤ d.size) (hhi : d.size ≤ 310) :
    d.magnitudeToFloat = packed (nearest .positive d.magnitude) := by
  have hle : d.scale ≤ d.size := by unfold size; omega
  rw [magnitudeToFloat_def, if_neg (by omega), if_neg (by omega)]
  exact ofScientific_eq h hscale (by omega)

theorem magnitude_mul_ten (negative : Bool) (n : ℕ) (e : ℤ) :
    (⟨negative, n * 10, e - 1⟩ : Decimal).magnitude = (⟨negative, n, e⟩ : Decimal).magnitude := by
  have h10 : (10 : ℚ) ≠ 0 := by norm_num
  unfold magnitude
  rw [zpow_sub_one₀ h10]
  push_cast
  field_simp

theorem size_mul_ten (negative : Bool) {n : ℕ} (h : 0 < n) (e : ℤ) :
    (⟨negative, n * 10, e - 1⟩ : Decimal).size = (⟨negative, n, e⟩ : Decimal).size := by
  unfold size
  rw [length_digits_mul_ten h]
  push_cast
  ring

/-- A zero at the end of the places does not matter. -/
theorem magnitudeToFloat_mul_ten (negative : Bool) (n : ℕ) {e : ℤ} (he : -2048 < e) :
    (⟨negative, n * 10, e - 1⟩ : Decimal).magnitudeToFloat =
      (⟨negative, n, e⟩ : Decimal).magnitudeToFloat := by
  -- Zero, too small and too large are told by the size, which is the same on both
  -- sides; in between both are nearest to the same value.
  rcases Nat.eq_zero_or_pos n with rfl | h
  · rfl
  have hsize := size_mul_ten negative h e
  rcases lt_or_ge (⟨negative, n, e⟩ : Decimal).size (-330) with hlo | hlo
  · rw [magnitudeToFloat_def, if_pos (.inr (hsize ▸ hlo)), magnitudeToFloat_def, if_pos (.inr hlo)]
  rcases lt_or_ge 310 (⟨negative, n, e⟩ : Decimal).size with hhi | hhi
  · have hn : n ≠ 0 := h.ne'
    have hn10 : n * 10 ≠ 0 := by omega
    rw [magnitudeToFloat_def, if_neg (not_or.2 ⟨hn10, by omega⟩), if_pos (hsize ▸ hhi),
      magnitudeToFloat_def, if_neg (not_or.2 ⟨hn, by omega⟩), if_pos hhi]
  · rw [magnitudeToFloat_eq (Nat.mul_pos h (by decide)) (Int.le_sub_one_of_lt he) (hsize ▸ hlo)
      (hsize ▸ hhi), magnitude_mul_ten, magnitudeToFloat_eq h he.le hlo hhi]

/-- Zeros at the end of the places do not matter. -/
theorem toFloat_mul_pow_ten (negative : Bool) (n : ℕ) {e : ℤ} (k : ℕ) (he : -2048 ≤ e - k) :
    (⟨negative, n * 10 ^ k, e - k⟩ : Decimal).toFloat = (⟨negative, n, e⟩ : Decimal).toFloat := by
  induction k with
  | zero => simp
  | succ k ih =>
    have h := magnitudeToFloat_mul_ten negative (n * 10 ^ k) (e := e - k) (by omega)
    rw [← ih (by omega), pow_succ, ← mul_assoc, Nat.cast_succ, ← sub_sub]
    unfold toFloat
    rw [h]

/-- A whole number of at most 53 places is exact. -/
theorem hasValue_natural {n : ℕ} (hpos : 0 < n) (hlt : n < 2 ^ 53) :
    HasValue (⟨false, n, 0⟩ : Decimal).toFloat.toModel.unpack n := by
  have hlen : (Number.digits n).length ≤ 310 :=
    (length_digits_le (k := 16) (by decide) (hlt.trans (by decide))).trans (by decide)
  have hsize : (⟨false, n, 0⟩ : Decimal).size = (Number.digits n).length := add_zero _
  have hvalue := hasValue_natCast hpos hlt
  have h := magnitudeToFloat_eq (d := ⟨false, n, 0⟩) hpos (neg_nonpos.2 (by norm_num)) (by omega)
    (by omega)
  rw [magnitude, zpow_zero, mul_one] at h
  show HasValue (magnitudeToFloat ⟨false, n, 0⟩).toModel.unpack n
  rw [h, hvalue.unpack_packed]
  exact hvalue

/-- A decimal is finite if the number nearest to its exact value is. -/
theorem isFinite_toFloat {d : Decimal} (hscale : -2048 ≤ d.scale) (hlo : -330 ≤ d.size)
    (hhi : d.size ≤ 310)
    (hmax : 0 < d.digits → (packed (nearest .positive d.magnitude)).isFinite = true) :
    d.toFloat.isFinite = true := by
  have hfinite : d.magnitudeToFloat.isFinite = true := by
    rcases Nat.eq_zero_or_pos d.digits with h0 | h
    · rw [magnitudeToFloat_def, if_pos (.inl h0)]
      rfl
    · rw [magnitudeToFloat_eq h hscale hlo hhi]
      exact hmax h
  rw [toFloat]
  split
  · exact isFinite_neg hfinite
  · exact hfinite

end Decimal

end VideoExport.Number
