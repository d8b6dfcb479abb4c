import VideoExport.Proofs.Timecode.Fields

/-!
# Times that are displayed

A time is displayed with minutes, seconds and thousandths, and with hours if there are any. What
is displayed is read back as the same time, if its hours fit into a word.

* `Face`, `Face.Shows`: the numbers on a displayed time;
* `toList_clock`, `Face.Shows.isSpelled`: the text of a displayed time, which spells its fields;
* `display_div`: whole milliseconds are displayed as they are;
* `read_clock`, `readExactly_eq_ok_iff`: what is displayed is read back, and what else is read;
* `reads_clock`: displaying and reading together.
-/

namespace VideoExport.Timecode

open Number Text

/-- The numbers on a displayed time. -/
structure Face where
  hours : Option ℕ
  minutes : ℕ
  seconds : ℕ
  thousandths : ℕ
  deriving DecidableEq, Repr

namespace Face

/-- The characters of a displayed time. -/
def chars (f : Face) : List Char :=
  f.hours.elim [] (fun h => filledDigits 2 h ++ [':']) ++
    (filledDigits 2 f.minutes ++ ':' ::
      (filledDigits 2 f.seconds ++ '.' :: filledDigits 3 f.thousandths))

/-- Numbers show a time if they add up to its milliseconds and each unit but the hours is less
    than one of the next. The hours are left out if there are none, and the thousandths always
    have three digits. -/
structure Shows (f : Face) (ms : ℕ) : Prop where
  hours_eq_none_iff : f.hours = none ↔ ms < 3600000
  minutes_lt : f.minutes < 60
  seconds_lt : f.seconds < 60
  thousandths_lt : f.thousandths < 1000
  length_thousandths : (filledDigits 3 f.thousandths).length = 3
  sum_eq : f.hours.getD 0 * 3600000 + f.minutes * 60000 + f.seconds * 1000 + f.thousandths = ms

/-- The numbers for a time. -/
def ofMillis (ms : ℕ) : Face where
  hours := if ms < 3600000 then none else some (ms / 3600000)
  minutes := ms % 3600000 / 60000
  seconds := ms % 60000 / 1000
  thousandths := ms % 1000

theorem shows_ofMillis (ms : ℕ) : (ofMillis ms).Shows ms where
  hours_eq_none_iff := by
    rw [ofMillis]
    split_ifs with h <;> simp [h]
  minutes_lt := by
    simp only [ofMillis]
    omega
  seconds_lt := by
    simp only [ofMillis]
    omega
  thousandths_lt := Nat.mod_lt ms (by decide)
  length_thousandths := length_filledDigits (by decide) (Nat.mod_lt ms (by decide))
  sum_eq := by
    simp only [ofMillis]
    split_ifs with h <;> simp only [Option.getD_none, Option.getD_some] <;> omega

/-- What a displayed time says. -/
def fields (f : Face) : Fields :=
  let second : Decimal := ⟨false, f.seconds * 1000 + f.thousandths, -3⟩
  match f.hours with
  | none => .minutes f.minutes second
  | some h => .hours h f.minutes second

variable {f : Face} {ms : ℕ}

theorem isBlank_of_mem_chars {c : Char} (h : c ∈ f.chars) : isBlank c = false := by
  have hfield : ∀ {width n}, c ∈ filledDigits width n → isBlank c = false := fun hc =>
    isBlank_of_isDigit (isDigit_of_mem_filledDigits hc)
  obtain ⟨hours, minutes, seconds, thousandths⟩ := f
  simp only [chars, List.mem_append, List.mem_cons] at h
  rcases h with h | h | rfl | h | rfl | h
  · cases hours with
    | none => cases h
    | some k =>
      rcases List.mem_append.1 h with h | h
      · exact hfield h
      · rw [List.mem_singleton.1 h]
        rfl
  · exact hfield h
  · rfl
  · exact hfield h
  · rfl
  · exact hfield h

namespace Shows

variable (h : f.Shows ms)

include h

/-- A displayed time spells its numbers, if the hours are not too many. -/
theorem isSpelled (hms : ms / 3600000 < UInt32.size) : f.fields.IsSpelled f.chars := by
  have hminutes := word?_filledDigits 2 (h.minutes_lt.trans (by decide : 60 < UInt32.size))
  have hseconds := Numeral.read?_filledPlaces f.seconds h.thousandths_lt
  have hsum := h.sum_eq
  obtain ⟨hours, minutes, seconds, thousandths⟩ := f
  cases hours with
  | none => exact ⟨_, _, rfl, hminutes, hseconds⟩
  | some k =>
    have hk : k < UInt32.size := by
      simp only [Option.getD_some] at hsum
      omega
    refine ⟨_, _, _, ?_, word?_filledDigits 2 hk, hminutes, hseconds⟩
    simp [chars]

/-- Its seconds are within their range if they are from zero to sixty. -/
theorem isInRange {α : Type} [Quantity α]
    (hlo : (Quantity.ofNat 0 : α) ≤ Quantity.ofDecimal f.fields.second)
    (hhi : (Quantity.ofDecimal f.fields.second : α) < Quantity.ofNat 60) :
    f.fields.IsInRange α := by
  have hminutes := h.minutes_lt
  obtain ⟨hours, minutes, seconds, thousandths⟩ := f
  cases hours with
  | none => exact ⟨hlo, hhi⟩
  | some k => exact ⟨hminutes, hlo, hhi⟩

/-- The milliseconds of the seconds are less than a minute. -/
theorem second_lt : f.seconds * 1000 + f.thousandths < 60000 := by
  have := h.seconds_lt
  have := h.thousandths_lt
  omega

end Shows

theorem second_fields (f : Face) :
    f.fields.second = ⟨false, f.seconds * 1000 + f.thousandths, -3⟩ := by
  obtain ⟨hours, minutes, seconds, thousandths⟩ := f
  cases hours <;> rfl

end Face

/-! ## Displaying -/

theorem toList_clock (ms : ℕ) : (clock ms).toList = (Face.ofMillis ms).chars := by
  have hrest : (twoDigits (ms % 3600000 / 60000) ++ ":" ++ twoDigits (ms % 60000 / 1000) ++ "." ++
      padZeros 3 (Number.text (ms % 1000))).toList =
      filledDigits 2 (ms % 3600000 / 60000) ++ ':' ::
        (filledDigits 2 (ms % 60000 / 1000) ++ '.' :: filledDigits 3 (ms % 1000)) := by
    simp [twoDigits, toList_padZeros, String.toList_append]
  simp only [clock, Face.chars, Face.ofMillis]
  by_cases h : ms < 3600000
  · rw [if_neg (by omega), if_pos h, hrest]
    rfl
  · rw [if_pos (by omega), if_neg h, String.toList_append, String.toList_append, hrest, twoDigits,
      toList_padZeros]
    rfl

/-- A whole number of milliseconds is displayed as it is, up to the largest number of 64 bits. -/
theorem display_div {ms : ℕ} (h : ms < UInt64.size) : display ((ms : ℚ) / 1000) = clock ms := by
  have hthousand : (Quantity.ofNat 1000 : ℚ) = 1000 := by rw [Quantity.ofNat_rat, Nat.cast_ofNat]
  have hfloor : ⌊(ms : ℚ) + 1 / 2⌋₊ = ms :=
    (Nat.floor_eq_iff (by positivity)).2 ⟨by linarith, by linarith⟩
  have hmillis : millis ((ms : ℚ) / 1000) = min (UInt64.size - 1)
      ⌊(ms : ℚ) / 1000 * Quantity.ofNat 1000 + 1 / 2⌋₊ := rfl
  rw [hthousand, div_mul_cancel₀ _ (by norm_num), hfloor, Nat.min_eq_right (by omega)] at hmillis
  rw [display, hmillis]

/-! ## Reading what is displayed -/

theorem ofDecimal_thousandths_rat (n : ℕ) :
    (Quantity.ofDecimal ⟨false, n, -3⟩ : ℚ) = (n : ℚ) / 1000 := by
  have hplaces : (10 : ℚ) ^ (-3 : ℤ) = 1 / 1000 := by norm_num
  show (n : ℚ) * 10 ^ (-3 : ℤ) = n / 1000
  rw [hplaces, mul_one_div]

/-- Thousandths of less than a minute are not rounded to a minute. -/
theorem exists_hasAmount_thousandths {n : ℕ} (h : n < 60000) :
    ∃ q, HasAmount (Quantity.ofDecimal ⟨false, n, -3⟩ : Float) q ∧ q < 60 := by
  rcases Nat.eq_zero_or_pos n with rfl | hpos
  · exact ⟨0, hasAmount_zero (s := .positive) rfl, by norm_num⟩
  have hmagnitude : (⟨false, n, -3⟩ : Decimal).magnitude = (n : ℚ) / 1000 :=
    ofDecimal_thousandths_rat n
  have hfloat : (Quantity.ofDecimal ⟨false, n, -3⟩ : Float) =
      packed (nearest .positive (n / 1000)) := by
    have hlen := length_digits_le (k := 5) (by decide) (h.trans (by decide))
    have hlen' := List.length_pos_iff.2 (digits_ne_nil n)
    have hsize : (⟨false, n, -3⟩ : Decimal).size = (digits n).length + -3 := rfl
    rw [← hmagnitude]
    exact Decimal.magnitudeToFloat_eq hpos (by norm_num) (by omega) (by omega)
  have hq : (0 : ℚ) < n / 1000 := by positivity
  have hle : (n : ℚ) ≤ 59999 := by exact_mod_cast Nat.le_of_lt_succ h
  have hsixty : HasValue (nearest .positive (60 : ℕ)) (60 : ℕ) :=
    hasValue_natCast (by decide) (by decide)
  refine ⟨_, hfloat ▸ hasAmount_packed_nearest hsixty hq (by push_cast; linarith), ?_⟩
  -- Below sixty the grid is far finer than a thousandth.
  have hgrid : gridExponent ((n : ℚ) / 1000) ≤ -47 := by
    have hlog := log_lt_of_lt hq (by norm_num; linarith : (n : ℚ) / 1000 < 2 ^ (6 : ℤ))
    rw [gridExponent]
    omega
  have hstep : (2 : ℚ) ^ gridExponent ((n : ℚ) / 1000) ≤ 2 ^ (-47 : ℤ) :=
    zpow_le_zpow_right₀ one_le_two hgrid
  have hnear := abs_le.1 (abs_sub_nearest_le hq .positive)
  norm_num at hstep
  linarith

namespace Face.Shows

variable {f : Face} {ms : ℕ} (h : f.Shows ms)

include h

theorem isInRange_rat : f.fields.IsInRange ℚ := by
  have hlt : ((f.seconds * 1000 + f.thousandths : ℕ) : ℚ) < 60000 := by exact_mod_cast h.second_lt
  refine h.isInRange ?_ ?_
  · rw [second_fields, ofDecimal_thousandths_rat, Quantity.ofNat_rat]
    positivity
  · rw [second_fields, ofDecimal_thousandths_rat, Quantity.ofNat_rat]
    push_cast at hlt ⊢
    linarith

theorem isInRange_float : f.fields.IsInRange Float := by
  obtain ⟨q, hq, hlt⟩ := exists_hasAmount_thousandths h.second_lt
  have hzero : HasAmount (Quantity.ofNat 0 : Float) (0 : ℕ) := hasAmount_ofNat (by decide)
  have hsixty : HasAmount (Quantity.ofNat 60 : Float) (60 : ℕ) := hasAmount_ofNat (by decide)
  refine h.isInRange ?_ ?_
  · rw [second_fields, le_iff_exactValue hzero.isFinite hq.isFinite, hzero.exactValue_eq,
      hq.exactValue_eq, Nat.cast_zero]
    exact hq.zero_le
  · rw [second_fields, hq.lt_iff hsixty, Nat.cast_ofNat]
    exact hlt

/-- The numbers on a displayed time add up to it. -/
theorem value_rat : f.fields.value ℚ = (ms : ℚ) / 1000 := by
  have hsecond : f.fields.second.value =
      ((f.seconds * 1000 + f.thousandths : ℕ) : ℚ) / 1000 :=
    (congrArg Decimal.value f.second_fields).trans (ofDecimal_thousandths_rat _)
  have hhour : f.fields.hour = f.hours.getD 0 ∧ f.fields.minute = f.minutes := by
    obtain ⟨hours, minutes, seconds, thousandths⟩ := f
    cases hours <;> exact ⟨rfl, rfl⟩
  rw [Fields.value_rat, hsecond, hhour.1, hhour.2, ← h.sum_eq]
  push_cast
  ring

end Face.Shows

/-- The seconds that a text denotes if no step is rounded. -/
def readExactly (text : String) : Except Fault ℚ := readChars (Chars.trim text.toList)

theorem trim_clock (ms : ℕ) : Chars.trim (clock ms).toList = (Face.ofMillis ms).chars := by
  rw [toList_clock, Chars.trim_eq_self fun _ => Face.isBlank_of_mem_chars]

/-- What is displayed for whole milliseconds is read back, exactly and in numbers that round. -/
theorem read_clock {ms : ℕ} (hms : ms / 3600000 < UInt32.size) :
    readExactly (clock ms) = .ok ((ms : ℚ) / 1000) ∧
      read (clock ms) = .ok ((Face.ofMillis ms).fields.value Float) := by
  have hshows := Face.shows_ofMillis ms
  rw [readExactly, read, trim_clock]
  exact ⟨readChars_eq_ok_iff.2 ⟨_, hshows.isSpelled hms, hshows.isInRange_rat, hshows.value_rat⟩,
    readChars_eq_ok_iff.2 ⟨_, hshows.isSpelled hms, hshows.isInRange_float, rfl⟩⟩

/-- What is read is what the fields of the text add up to. -/
theorem readExactly_eq_ok_iff {text : String} {q : ℚ} : readExactly text = .ok q ↔
    ∃ f : Fields, f.IsSpelled (Chars.trim text.toList) ∧ f.IsInRange ℚ ∧
      q = 3600 * f.hour + 60 * f.minute + f.second.value := by
  rw [readExactly, readChars_eq_ok_iff]
  refine exists_congr fun f => and_congr_right fun _ => and_congr_right fun _ => ?_
  rw [f.value_rat, eq_comm]

/-- No time that is read is negative. -/
theorem zero_le_of_readExactly {text : String} {q : ℚ} (h : readExactly text = .ok q) : 0 ≤ q := by
  obtain ⟨f, -, hrange, rfl⟩ := readExactly_eq_ok_iff.1 h
  exact f.value_rat ▸ hrange.zero_le_value

/-- Nor is it if steps are rounded, and it is not infinite either. -/
theorem isFinite_of_read {text : String} {x : Float} (h : read text = .ok x) :
    x.isFinite = true ∧ 0.0 ≤ x := by
  obtain ⟨f, hspelled, hrange, rfl⟩ := readChars_eq_ok_iff.1 h
  obtain ⟨hhour, hminute⟩ := hspelled.lt_size
  obtain ⟨q, hq⟩ := hrange.exists_hasAmount hhour hminute
  exact ⟨hq.isFinite, hq.nonneg⟩

/-- Any whole number of milliseconds whose hours fit into a word is displayed with its minutes and
    seconds below sixty, three digits for the thousandths and its hours if there are any, and
    reading what is displayed gives it back. Every text that is read denotes the finite time,
    never negative, that its fields add up to. -/
theorem reads_clock :
    (∀ ms : ℕ, ms / 3600000 < 2 ^ 32 → ∃ face : Face, face.Shows ms ∧
      (display ((ms : ℚ) / 1000)).toList = face.chars ∧
      readExactly (display ((ms : ℚ) / 1000)) = .ok ((ms : ℚ) / 1000) ∧
      read (display ((ms : ℚ) / 1000)) = .ok (face.fields.value Float)) ∧
    (∀ text (q : ℚ), readExactly text = .ok q ↔ ∃ f : Fields,
      f.IsSpelled (Chars.trim text.toList) ∧ f.IsInRange ℚ ∧
      q = 3600 * f.hour + 60 * f.minute + f.second.value) ∧
    (∀ text (q : ℚ), readExactly text = .ok q → 0 ≤ q) ∧
    (∀ text (x : Float), read text = .ok x ↔ ∃ f : Fields,
      f.IsSpelled (Chars.trim text.toList) ∧ f.IsInRange Float ∧ f.value Float = x) ∧
    ∀ text (x : Float), read text = .ok x → x.isFinite = true ∧ 0.0 ≤ x := by
  refine ⟨fun ms hms => ?_, fun _ _ => readExactly_eq_ok_iff, fun _ _ => zero_le_of_readExactly,
    fun _ _ => readChars_eq_ok_iff, fun _ _ => isFinite_of_read⟩
  have hwide : ms < UInt64.size := by
    have : UInt64.size = 2 ^ 64 := rfl
    omega
  rw [display_div hwide]
  exact ⟨_, Face.shows_ofMillis ms, toList_clock ms, read_clock hms⟩

/-- The longest time whose hours fit into a word, and a time in two fields. -/
theorem reads_clock_longest :
    readExactly (display (((2 ^ 32 * 3600000 - 1 : ℕ) : ℚ) / 1000)) =
        .ok (((2 ^ 32 * 3600000 - 1 : ℕ) : ℚ) / 1000) ∧
      (0 : ℚ) ≤ 90.5 ∧ readExactly "1:30.5" = .ok 90.5 ∧
      (read "1:30.5" = .ok ((Fields.minutes 1 ⟨false, 305, -1⟩).value Float)) ∧
      ((Fields.minutes 1 ⟨false, 305, -1⟩).value Float).isFinite = true := by
  obtain ⟨hdisplayed, hexact, hsign, hread, hfinite⟩ := reads_clock
  have hspelled : (Fields.minutes 1 ⟨false, 305, -1⟩).IsSpelled (Chars.trim "1:30.5".toList) :=
    ⟨['1'], ['3', '0', '.', '5'], by decide, by decide, by decide⟩
  have hsum : (90.5 : ℚ) = 3600 * (0 : ℕ) + 60 * (1 : ℕ) + (⟨false, 305, -1⟩ : Decimal).value := by
    norm_num [Decimal.value, Decimal.magnitude]
  have htext : readExactly "1:30.5" = .ok 90.5 :=
    (hexact _ _).2 ⟨_, hspelled, ⟨by decide +kernel, by decide +kernel⟩, hsum⟩
  have hfloat := (hread "1:30.5" _).2 ⟨_, hspelled, ⟨by decide +kernel, by decide +kernel⟩, rfl⟩
  obtain ⟨-, -, -, hlongest, -⟩ := hdisplayed (2 ^ 32 * 3600000 - 1) (by decide)
  exact ⟨hlongest, hsign _ _ htext, htext, hfloat, (hfinite _ _ hfloat).1⟩

end VideoExport.Timecode
