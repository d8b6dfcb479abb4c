import VideoExport.Proofs.Number.Fixed

/-!
# Fields of digits

Numbers in a text stand in fields, which are filled up with zeros and have marks between them. A
field is read as its number, and no number has a colon in it, so fields between colons can be
told apart.

* `Numeral.read?_filledDigits`, `Numeral.read?_filledPlaces`, `word?_filledDigits`: the numbers
  of fields;
* `Numeral.colon_notMem_of_read?`, `colon_notMem_of_word?`: what is read has no colon.
-/

namespace VideoExport.Number

/-! ## Reading fields -/

theorem digitsValue?_filledDigits (width n : ℕ) : digitsValue? (filledDigits width n) = some n := by
  rw [digitsValue?_of_ne_nil (filledDigits_ne_nil width n), extend?_filledDigits, Nat.zero_mul,
    Nat.zero_add]

/-- A number that fits its word is read from its field. -/
theorem word?_filledDigits (width : ℕ) {bound n : ℕ} (h : n < bound) :
    word? bound (filledDigits width n) = some n := by
  unfold word?
  split
  case h_1 rest he =>
    -- No field starts with a sign.
    cases isDigit_of_mem_filledDigits (he ▸ List.mem_cons_self : '+' ∈ filledDigits width n)
  case h_2 =>
    simp only [digitsValue?_filledDigits, Option.filter_some, decide_eq_true h, if_true]

namespace Numeral

theorem read?_filledDigits (width n : ℕ) :
    read? (filledDigits width n) = some (.finite ⟨false, n, 0⟩) := by
  have hdigits : ∀ c ∈ filledDigits width n, c.isDigit = true := fun _ =>
    isDigit_of_mem_filledDigits
  have hvalue := digitsValue?_filledDigits width n
  obtain ⟨c, s, hcons⟩ := List.exists_cons_of_ne_nil (filledDigits_ne_nil width n)
  rw [hcons] at hdigits hvalue ⊢
  rw [read?_of_isDigit (hdigits c List.mem_cons_self), fraction?_whole false hdigits,
    hvalue]
  rfl

theorem read?_filledPlaces (n : ℕ) {m : ℕ} (hm : m < 1000) :
    read? (filledDigits 2 n ++ '.' :: filledDigits 3 m) =
      some (.finite ⟨false, n * 1000 + m, -3⟩) := by
  have hdigits : ∀ c ∈ filledDigits 2 n, c.isDigit = true := fun _ => isDigit_of_mem_filledDigits
  have hplaces : ∀ c ∈ filledDigits 3 m, c.isDigit = true := fun _ => isDigit_of_mem_filledDigits
  have hlength : (filledDigits 3 m).length = 3 := length_filledDigits (by decide) hm
  have hvalue : digitsValue? (filledDigits 2 n ++ filledDigits 3 m) = some (n * 1000 + m) := by
    rw [digitsValue?_of_ne_nil (List.append_ne_nil_of_left_ne_nil (filledDigits_ne_nil 2 n) _),
      extend?_append, extend?_filledDigits, Option.bind_some, extend?_filledDigits, hlength,
      Nat.zero_mul, Nat.zero_add]
    rfl
  have hfraction := fraction?_places false hdigits hplaces
  rw [hvalue, hlength] at hfraction
  obtain ⟨c, s, hcons⟩ := List.exists_cons_of_ne_nil (filledDigits_ne_nil 2 n)
  rw [hcons] at hdigits hfraction ⊢
  rw [List.cons_append, read?_of_isDigit (hdigits c List.mem_cons_self),
    ← List.cons_append, hfraction]
  rfl

end Numeral

/-! ## Colons -/

theorem isDigit_of_digitValue? {c : Char} {d : ℕ} (h : digitValue? c = some d) :
    c.isDigit = true := by
  rw [digitValue?] at h
  split at h
  case isTrue hc => exact Bool.and_eq_true_iff.2 ⟨decide_eq_true hc.1, decide_eq_true hc.2⟩
  case isFalse => cases h

theorem isDigit_of_extend? {s : List Char} {value n : ℕ} (h : extend? value s = some n) :
    ∀ c ∈ s, c.isDigit = true := by
  induction s generalizing value with
  | nil => simp
  | cons c s ih =>
    obtain ⟨d, hd, hs⟩ := Option.bind_eq_some_iff.1 h
    exact List.forall_mem_cons.2 ⟨isDigit_of_digitValue? hd, ih hs⟩

/-- Only digits are read as digits. -/
theorem notMem_of_digitsValue? {s : List Char} {n : ℕ} (h : digitsValue? s = some n) {c : Char}
    (hc : c.isDigit = false) : c ∉ s := by
  cases s with
  | nil => cases h
  | cons d s =>
    intro hmem
    rw [isDigit_of_extend? h c hmem] at hc
    cases hc

theorem colon_notMem_of_word? {bound : ℕ} {s : List Char} {n : ℕ} (h : word? bound s = some n) :
    ':' ∉ s := by
  obtain ⟨hvalue, -⟩ := Option.filter_eq_some_iff.1 h
  split at hvalue
  case h_1 rest =>
    rw [List.mem_cons, not_or]
    exact ⟨by decide, notMem_of_digitsValue? hvalue rfl⟩
  case h_2 => exact notMem_of_digitsValue? hvalue rfl

namespace Numeral

theorem colon_notMem_of_exponent? {s : List Char} {e : ℤ} (h : exponent? s = some e) : ':' ∉ s := by
  unfold exponent? at h
  split at h
  case h_1 => exact List.not_mem_nil
  case h_2 c s =>
    split at h
    case isFalse => cases h
    case isTrue hc =>
      rw [List.mem_cons, not_or]
      refine ⟨by rcases hc with rfl | rfl <;> decide, ?_⟩
      -- The sign of an exponent is no colon either.
      split at h
      all_goals
        obtain ⟨_, hvalue, -⟩ := Option.map_eq_some_iff.1 h
        obtain ⟨n, hn, -⟩ := Option.bind_eq_some_iff.1 hvalue
      case h_3 => exact notMem_of_digitsValue? hn rfl
      all_goals
        rw [List.mem_cons, not_or]
        exact ⟨by decide, notMem_of_digitsValue? hn rfl⟩

theorem colon_notMem_of_fraction? {negative : Bool} {s : List Char} {d : Decimal}
    (h : fraction? negative s = some d) : ':' ∉ s := by
  have hspan : ∀ t, ':' ∉ (spanDigits t).2 → ':' ∉ t := by
    intro t hrest hmem
    have hdigits : ':' ∉ (spanDigits t).1 := fun hc => by
      rw [spanDigits, List.span_eq_takeWhile_dropWhile] at hc
      exact absurd (List.mem_takeWhile_imp hc) (by decide)
    have ht : t = (spanDigits t).1 ++ (spanDigits t).2 := by
      rw [spanDigits, List.span_eq_takeWhile_dropWhile, List.takeWhile_append_dropWhile]
    rw [ht, List.mem_append] at hmem
    exact hmem.elim hdigits hrest
  refine hspan s ?_
  simp only [fraction?, Option.bind_eq_bind, Option.bind_eq_some_iff] at h
  obtain ⟨-, -, e, he, -⟩ := h
  split at he
  case h_1 rest hrest =>
    rw [hrest, List.mem_cons, not_or]
    exact ⟨by decide, hspan rest (colon_notMem_of_exponent? he)⟩
  case h_2 => exact colon_notMem_of_exponent? he

theorem colon_notMem_of_unsigned? {negative : Bool} {s : List Char} {n : Numeral}
    (h : unsigned? negative s = some n) : ':' ∉ s := by
  unfold unsigned? at h
  split at h
  case h_4 =>
    obtain ⟨d, hd, -⟩ := Option.map_eq_some_iff.1 h
    exact colon_notMem_of_fraction? hd
  -- Capitals or not, the words have letters only.
  all_goals
    rename_i hword
    intro hmem
    have := hword ▸ List.mem_map_of_mem hmem (f := Char.toLower)
    exact absurd this (by decide)

/-- There is no colon in a numeral. -/
theorem colon_notMem_of_read? {s : List Char} {n : Numeral} (h : read? s = some n) : ':' ∉ s := by
  unfold read? at h
  split at h
  case h_3 => exact colon_notMem_of_unsigned? h
  all_goals
    rw [List.mem_cons, not_or]
    exact ⟨by decide, colon_notMem_of_unsigned? h⟩

end Numeral

end VideoExport.Number
