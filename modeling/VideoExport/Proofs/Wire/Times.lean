import VideoExport.Proofs.Number.Fixed
import VideoExport.Proofs.Number.Sign
import VideoExport.Proofs.Wire.Values

/-!
# Times on the wire

A time is written with three places and read as the number that these denote,
which in general is another one. What can be relied on is that every finite
time that is not negative is read as such a time again; what is not finite is
written as a word, which nobody takes for a time.

* `Timecode.IsReread`: the number that the text of a time denotes;
* `exists_seconds?_wire`, `seconds?_wire_eq_none`: which times are read;
* `lex_trimStart`, `lex_trimDuration`: what the directives for them become.
-/

namespace VideoExport

open Number Text

/-- A number is what the text of a time with its three places denotes. -/
def Timecode.IsReread (seconds read : Float) : Prop := float? (Timecode.wire seconds) = some read

/-! ## Texts of times -/

/-- What is not finite is written as a word. -/
theorem wire_of_not_isFinite {s : Float} (h : s.isFinite = false) :
    Timecode.wire s = "inf" ∨ Timecode.wire s = "-inf" ∨ Timecode.wire s = "NaN" := by
  rw [Timecode.wire, fixed, withWords]
  simp only [ofFloat?_eq_none h]
  split
  · exact .inl rfl
  · split
    · exact .inr (.inl rfl)
    · exact .inr (.inr rfl)

/-- The characters of a finite time. -/
theorem mem_wire {s : Float} (h : s.isFinite = true) {c : Char}
    (hc : c ∈ (Timecode.wire s).toList) : c.isDigit = true ∨ c = '.' ∨ c = '-' := by
  obtain ⟨d, hd⟩ := exists_ofFloat? h
  rw [Timecode.wire, toList_fixed hd, List.mem_append, List.mem_append, List.mem_cons] at hc
  rcases hc with hc | hc | rfl | hc
  · rw [Numeral.signChars] at hc
    split at hc
    · exact .inr (.inr (List.mem_singleton.1 hc))
    · cases hc
  · exact .inl (isDigit_of_mem_digits hc)
  · exact .inr (.inl rfl)
  · exact .inl (isDigit_of_mem_threeDigits hc)

theorem hasNoBlank_wire (s : Float) : HasNoBlank (Timecode.wire s) := by
  cases h : s.isFinite with
  | true =>
    intro c hc
    rcases mem_wire h hc with hc | rfl | rfl
    · exact isBlank_of_isDigit hc
    · rfl
    · rfl
  | false =>
    rcases wire_of_not_isFinite h with h | h | h <;> rw [h] <;> exact hasNoBlank_of_all rfl

/-- No time is spelled like a flag: the text of a finite one has a point. -/
theorem named?_wire (s : Float) : Flag.named? (Timecode.wire s) = none := by
  cases h : s.isFinite with
  | true =>
    obtain ⟨d, hd⟩ := exists_ofFloat? h
    have hpoint : '.' ∈ (Timecode.wire s).toList := by
      rw [Timecode.wire, toList_fixed hd]
      simp
    cases hflag : Flag.named? (Timecode.wire s) with
    | none => rfl
    | some f =>
      rw [Flag.text_of_named? hflag] at hpoint
      exact absurd hpoint (by cases f <;> decide)
  | false =>
    rcases wire_of_not_isFinite h with h | h | h <;> rw [h] <;> rfl

/-! ## Reading times -/

/-- What is read of a time is the number of its text, unless this is no time. -/
theorem seconds?_wire (s : Float) :
    seconds? (Timecode.wire s) =
      (float? (Timecode.wire s)).filter fun t => t.isFinite && 0.0 ≤ t := by
  rw [seconds?, Chars.trim_eq_self (hasNoBlank_wire s)]
  rfl

theorem float?_wire {s : Float} {d : Number.Dyadic} (h : Number.Dyadic.ofFloat? s = some d) :
    float? (Timecode.wire s) = some (⟨d.negative, thousandths d, -3⟩ : Decimal).toFloat := by
  rw [float?, Timecode.wire, read?_fixed h]
  rfl

/-- The thousandths of what is not below zero have no sign, unless there are
    none of them. -/
theorem negative_eq_false_or {s : Float} {d : Number.Dyadic} (h : Number.Dyadic.ofFloat? s = some d)
    (hs : 0.0 ≤ s) : d.negative = false ∨ thousandths d = 0 := by
  rw [zero_le_iff] at hs
  rw [Dyadic.ofFloat?_eq] at h
  match s.toModel.unpack, hs, h with
  | .zero sign, _, h =>
    cases h
    exact .inr (thousandths_zero _ _)
  | .finite .positive m e hm, _, h =>
    cases h
    exact .inl rfl

/-- Every finite time that is not negative is read as the number of its text. -/
theorem exists_seconds?_wire {s : Float} (hfinite : s.isFinite = true) (hs : 0.0 ≤ s) :
    ∃ t, Timecode.IsReread s t ∧ seconds? (Timecode.wire s) = some t := by
  obtain ⟨d, hd⟩ := exists_ofFloat? hfinite
  have hread := float?_wire hd
  have hle : 0.0 ≤ (⟨d.negative, thousandths d, -3⟩ : Decimal).toFloat :=
    Decimal.zero_le_toFloat (show (-2048 : ℤ) ≤ -3 by decide) (negative_eq_false_or hd hs)
  refine ⟨_, hread, ?_⟩
  rw [seconds?_wire, hread, Option.filter_some, isFinite_of_ofFloat? hd, decide_eq_true hle]
  rfl

theorem seconds?_wire_eq_none {s : Float} (h : s.isFinite = false) :
    seconds? (Timecode.wire s) = none := by
  rcases wire_of_not_isFinite h with h | h | h <;> rw [h] <;> rfl

/-! ## Directives for times -/

namespace Directive

/-- A directive for a time is lexed into one for the number of its text. -/
theorem lex_trimStart {s : Float} (hfinite : s.isFinite = true) (hs : 0.0 ≤ s) :
    ∃ t, Timecode.IsReread s t ∧ lex (trimStart s).toTokens = [trimStart t] := by
  obtain ⟨t, hread, ht⟩ := exists_seconds?_wire hfinite hs
  refine ⟨t, hread, ?_⟩
  have hlex := lex_flag_value .trimStart (named?_wire s) []
  rw [ofPair?, ht] at hlex
  exact hlex

theorem lex_trimDuration {s : Float} (hfinite : s.isFinite = true) (hs : 0.0 ≤ s) :
    ∃ t, Timecode.IsReread s t ∧ lex (trimDuration s).toTokens = [trimDuration t] := by
  obtain ⟨t, hread, ht⟩ := exists_seconds?_wire hfinite hs
  refine ⟨t, hread, ?_⟩
  have hlex := lex_flag_value .trimDuration (named?_wire s) []
  rw [ofPair?, ht] at hlex
  exact hlex

end Directive

end VideoExport
