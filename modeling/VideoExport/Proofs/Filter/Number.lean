import VideoExport.Filter.Expression
import VideoExport.Proofs.Number.Fixed

/-!
# Numbers in filter expressions

A number in an expression is written with three places, from which the zeros at
the end, and a point that nothing follows, are left out. What is left is a
numeral of the same value, except that zero loses its sign.

* `read?_number`: what the text of a number says;
* `float?_number`: reading it gives the value of the text with all its places.
-/

namespace VideoExport.Filter

open Number

/-! ## Trimming -/

theorem trimEndOf_eq (c : Char) (s : List Char) : trimEndOf c s = s.rdropWhile (· == c) := rfl

/-- A text is what trimming leaves of it and what trimming takes away. -/
theorem exists_trimEndOf_append (c : Char) (s : List Char) :
    ∃ k, s = trimEndOf c s ++ List.replicate k c := by
  refine ⟨(s.rtakeWhile (· == c)).length, ?_⟩
  have hall : ∀ x ∈ s.rtakeWhile (· == c), x = c := fun x hx => by
    simpa using List.mem_rtakeWhile_imp hx
  rw [trimEndOf_eq, ← List.eq_replicate_of_mem hall]
  exact List.rdropWhile_append_rtakeWhile.symm

/-- Trimming stops at another character. -/
theorem trimEndOf_append {c : Char} {s t : List Char} (h : trimEndOf c t ≠ []) :
    trimEndOf c (s ++ t) = s ++ trimEndOf c t := by
  have hne : t.reverse.dropWhile (· == c) ≠ [] := fun h' => h (by rw [trimEndOf, h']; rfl)
  simp [trimEndOf, List.dropWhile_append, hne]

theorem trimEndOf_append_of_eq_nil {c : Char} {s t : List Char} (h : trimEndOf c t = []) :
    trimEndOf c (s ++ t) = trimEndOf c s := by
  have hnil : t.reverse.dropWhile (· == c) = [] := by simpa [trimEndOf] using h
  simp [trimEndOf, List.dropWhile_append, hnil]

/-- A text that ends in another character is left alone. -/
theorem trimEndOf_eq_self {c : Char} {s : List Char} (h : c ∉ s) : trimEndOf c s = s := by
  rw [trimEndOf_eq, List.rdropWhile_eq_self_iff]
  intro hne he
  have := beq_iff_eq.1 he
  exact h (this ▸ List.getLast_mem hne)

/-- Zeros and then a point are taken from the places. -/
theorem trimEndOf_places {s t : List Char} (hs : '.' ∉ s) (ht : '.' ∉ t) :
    trimEndOf '.' (trimEndOf '0' (s ++ '.' :: t)) =
      if trimEndOf '0' t = [] then s else s ++ '.' :: trimEndOf '0' t := by
  have hpoint : trimEndOf '.' ['.'] = [] := rfl
  split
  case isTrue h =>
    have hzero : trimEndOf '0' ('.' :: t) = ['.'] := trimEndOf_append_of_eq_nil (s := ['.']) h
    rw [trimEndOf_append (by rw [hzero]; simp), hzero, trimEndOf_append_of_eq_nil hpoint,
      trimEndOf_eq_self hs]
  case isFalse h =>
    have hzero : trimEndOf '0' ('.' :: t) = '.' :: trimEndOf '0' t := trimEndOf_append (s := ['.']) h
    have hmem : '.' ∉ trimEndOf '0' t := fun h' => ht ((List.rdropWhile_prefix _ _).subset h')
    have hrest := trimEndOf_eq_self hmem
    have hdot : trimEndOf '.' ('.' :: trimEndOf '0' t) = '.' :: trimEndOf '0' t := by
      have := trimEndOf_append (c := '.') (s := ['.']) (t := trimEndOf '0' t) (by rwa [hrest])
      rwa [hrest] at this
    rw [trimEndOf_append (by rw [hzero]; simp), hzero, trimEndOf_append (by rw [hdot]; simp), hdot]

/-! ## Reading numbers back -/

/-- The characters of a number before its point. -/
def wholeChars (d : Number.Dyadic) : List Char :=
  Numeral.signChars d.negative ++ digits (thousandths d / 1000)

theorem not_point_of_isDigit {s : List Char} (h : ∀ c ∈ s, c.isDigit = true) : '.' ∉ s :=
  fun h' => absurd (h '.' h') (by decide)

theorem point_notMem_wholeChars (d : Number.Dyadic) : '.' ∉ wholeChars d := by
  have hd := not_point_of_isDigit (fun _ => isDigit_of_mem_digits (n := thousandths d / 1000))
  rw [wholeChars]
  cases d.negative <;> simpa [Numeral.signChars] using hd

/-- Only zero has a text that is a minus sign and a zero. -/
theorem thousandths_div_of_wholeChars {d : Number.Dyadic} (h : wholeChars d = ['-', '0']) :
    thousandths d / 1000 = 0 := by
  have hdigits : digits (thousandths d / 1000) = ['0'] := by
    rw [wholeChars] at h
    cases hneg : d.negative with
    | true => simpa [hneg, Numeral.signChars] using h
    | false =>
      have hmem : '-' ∈ digits (thousandths d / 1000) := by
        have : digits (thousandths d / 1000) = ['-', '0'] := by
          simpa [hneg, Numeral.signChars] using h
        rw [this]
        exact List.mem_cons_self
      exact absurd (isDigit_of_mem_digits hmem) (by decide)
  have hvalue := digitsValue?_digits (thousandths d / 1000)
  rw [hdigits] at hvalue
  exact (Option.some.inj hvalue).symm

/-- The places of a number without the zeros at their end. -/
def places (d : Number.Dyadic) : List Char := trimEndOf '0' (threeDigits (thousandths d % 1000))

theorem isDigit_of_mem_places {d : Number.Dyadic} {c : Char} (h : c ∈ places d) :
    c.isDigit = true :=
  isDigit_of_mem_threeDigits ((List.rdropWhile_prefix _ _).subset h)

/-- The characters of a number, with the sign of its zero. -/
def chars (d : Number.Dyadic) : List Char :=
  if places d = [] then wholeChars d else wholeChars d ++ '.' :: places d

/-- A number is written with its characters, unless these are a zero with a
    sign. -/
theorem toList_number {x : Float} {d : Number.Dyadic} (h : Number.Dyadic.ofFloat? x = some d) :
    (number x).toList = if chars d = ['-', '0'] then ['0'] else chars d := by
  have hchars : trimEndOf '.' (trimEndOf '0' (fixed 3 x).toList) = chars d := by
    rw [toList_fixed h, ← List.append_assoc]
    exact trimEndOf_places (point_notMem_wholeChars d)
      (not_point_of_isDigit fun _ => isDigit_of_mem_threeDigits)
  have hne : chars d ≠ [] := by
    have hwhole : wholeChars d ≠ [] := List.append_ne_nil_of_right_ne_nil _ (digits_ne_nil _)
    rw [chars]
    split
    · exact hwhole
    · exact List.append_ne_nil_of_left_ne_nil hwhole _
  rw [number]
  simp only [hchars, hne, false_or]
  split
  · rfl
  · exact String.toList_ofList

/-- The places that are left give the value without the zeros that are not. -/
theorem exists_places (d : Number.Dyadic) :
    ∃ n k, k ≤ 3 ∧ (places d).length = 3 - k ∧
      extend? (thousandths d / 1000) (places d) = some n ∧ n * 10 ^ k = thousandths d := by
  have hlt : thousandths d % 1000 < 1000 := Nat.mod_lt _ (by decide)
  -- What trimming takes away is zeros, each of which is a factor of ten.
  obtain ⟨k, hk⟩ := exists_trimEndOf_append '0' (threeDigits (thousandths d % 1000))
  have hlen := length_threeDigits hlt
  have hvalue := extend?_threeDigits (thousandths d / 1000) hlt
  rw [Nat.div_add_mod', hk, extend?_append] at hvalue
  obtain ⟨n, hn, hvalue⟩ := Option.bind_eq_some_iff.1 hvalue
  rw [extend?_zeros] at hvalue
  rw [hk, List.length_append, List.length_replicate] at hlen
  exact ⟨n, k, by omega, by rw [places]; omega, hn, Option.some.inj hvalue⟩

/-- The text of a number says its thousandths, without zeros at the end. Only
    zero loses its sign. -/
theorem read?_number {x : Float} {d : Number.Dyadic} (h : Number.Dyadic.ofFloat? x = some d) :
    ∃ (negative : Bool) (n k : ℕ), k ≤ 3 ∧
      Numeral.read? (number x).toList = some (.finite ⟨negative, n, -3 + (k : ℤ)⟩) ∧
      n * 10 ^ k = thousandths d ∧ (negative = d.negative ∨ n = 0) := by
  obtain ⟨n, k, hk, hlen, hn, ht⟩ := exists_places d
  rw [toList_number h]
  -- Without places no point is written, and only then can the text be that of a
  -- zero with a sign.
  by_cases hnil : places d = []
  · have hk3 : k = 3 := by rw [hnil] at hlen; simp at hlen; omega
    have hchars : chars d = wholeChars d := if_pos hnil
    rw [hnil] at hn
    have hwhole : thousandths d / 1000 = n := Option.some.inj hn
    rw [hchars]
    split
    case isTrue hzero =>
      have hn0 : n = 0 := hwhole.symm.trans (thousandths_div_of_wholeChars hzero)
      refine ⟨false, n, k, hk, ?_, ht, .inr hn0⟩
      rw [hk3, hn0]
      rfl
    case isFalse =>
      refine ⟨d.negative, n, k, hk, ?_, ht, .inl rfl⟩
      rw [wholeChars, Numeral.read?_digits, hwhole, hk3]
      rfl
  · have hchars : chars d = wholeChars d ++ '.' :: places d := if_neg hnil
    have hpoint : chars d ≠ ['-', '0'] := fun he => by
      have hmem : '.' ∈ chars d := hchars ▸ List.mem_append_right _ List.mem_cons_self
      rw [he] at hmem
      exact absurd hmem (by decide)
    have hscale : -((3 - k : ℕ) : ℤ) = -3 + k := by omega
    refine ⟨d.negative, n, k, hk, ?_, ht, .inl rfl⟩
    rw [if_neg hpoint, hchars, wholeChars, List.append_assoc,
      Numeral.read?_places _ _ (fun _ => isDigit_of_mem_places) hn, hlen, hscale]

/-! ## Values -/

/-- A number is read back as the number that its text with three places
    denotes. -/
theorem float?_number {x : Float} (h : x.isFinite = true) :
    ∃ v y, float? (number x) = some v ∧ float? (fixed 3 x) = some y ∧ v.isFinite = true ∧
      (v == y) = true := by
  obtain ⟨d, hd⟩ := exists_ofFloat? h
  obtain ⟨negative, n, k, hk, hread, hn, hsign⟩ := read?_number hd
  have hvalue := Decimal.toFloat_mul_pow_ten negative n (e := -3 + (k : ℤ)) k (by omega)
  rw [hn, add_sub_cancel_right] at hvalue
  have hfinite := isFinite_of_ofFloat? hd negative
  refine ⟨_, _, by rw [float?, hread]; rfl, by rw [float?, read?_fixed hd]; rfl, ?_, ?_⟩
  · show (⟨negative, n, -3 + (k : ℤ)⟩ : Decimal).toFloat.isFinite = true
    rw [← hvalue]
    exact hfinite
  · show ((⟨negative, n, -3 + (k : ℤ)⟩ : Decimal).toFloat ==
      (⟨d.negative, thousandths d, -3⟩ : Decimal).toFloat) = true
    rw [← hvalue]
    rcases hsign with rfl | rfl
    · exact beq_self hfinite
    · rw [← hn, zero_mul]
      cases negative <;> cases d.negative <;> rfl

end VideoExport.Filter
