import VideoExport.Proofs.Number.Order
import VideoExport.Proofs.Plan.OpenEnd

/-!
# The law of windows

In exact numbers a window is what one would expect: the start is moved into the
source, so is the end, and in between lies what is asked for, unless that is
less than a frame. That the end is not before the start is checked on what was
asked for, and stays so when both are moved. What is not asked for leaves out
hardly anything.

The numbers of a plan are the same, but for roundings: one of the difference
and one of the tolerance.

* `TrimWindow.IsLawful`, `TrimWindow.isLawful_resolve`: the law;
* `Plan.Follows`: a plan comes as close to it as its numbers allow;
* `Plan.follows_exactWindow`: settings in order lead to lawful windows, and
  their plans follow them.
-/

namespace VideoExport

open Number Float.Model Float.Model.UnpackedFloat

/-! ## The law -/

theorem trimTolerance_rat (frame : ℚ) : trimTolerance frame = max (frame / 2) (1 / 100) := by
  have hleast : (Quantity.ofDecimal ⟨false, 1, -2⟩ : ℚ) = 1 / 100 := by
    show Decimal.value ⟨false, 1, -2⟩ = 1 / 100
    rw [Decimal.value, Decimal.magnitude]
    norm_num
  rw [trimTolerance, Quantity.larger_rat, Quantity.ofNat_rat, hleast]
  rfl

namespace TrimWindow

/-- What is expected of a window from `start` to `stop` in a source. -/
structure IsLawful (w : TrimWindow ℚ) (start stop total frame : ℚ) : Prop where
  start_le_stop : start ≤ stop
  start_eq : w.start = start
  duration_eq : w.duration = max (stop - start) frame
  zero_le_start : 0 ≤ w.start
  /-- It ends within the source unless it is raised to a frame. -/
  inside : w.start + w.duration ≤ total ∨ stop - start < frame
  /-- What is left out without being asked for is not worth it. -/
  omitted : w.requested = false →
    start ≤ max (frame / 2) (1 / 100) ∧ total - stop ≤ max (frame / 2) (1 / 100)

/-- The start of a window, moved into its source. -/
def startWithin (start total : ℚ) : ℚ := max 0 (min start total)

/-- The end of a window, which is that of its source unless an earlier one is
    asked for. -/
def stopWithin (stop total : ℚ) : ℚ := if 0 < stop then min stop total else total

theorem resolve_rat {total : ℚ} (htotal : 0 < total) (start stop frame : ℚ) :
    resolve start stop total frame =
      { start := startWithin start total
        duration := max (stopWithin stop total - startWithin start total) frame
        requested := max (frame / 2) (1 / 100) < startWithin start total ||
          max (frame / 2) (1 / 100) < total - stopWithin stop total } := by
  have hknown : isKnown total = true := by
    rw [isKnown, Quantity.ofNat_rat]
    exact decide_eq_true htotal
  have hstop : (if 0 < stop then min stop total else total) =
      min (if !decide (0 < stop) then total else stop) total := by
    by_cases h : 0 < stop <;> simp [h]
  rw [resolve, if_pos hknown, startWithin, stopWithin, hstop]
  simp only [Quantity.ofNat_rat, Nat.cast_zero, trimTolerance_rat, Quantity.larger_rat,
    Quantity.smaller_rat, Quantity.clamp_rat htotal.le]

/-- Moving a start and an end into a source keeps their order. -/
theorem startWithin_le_stopWithin {start stop total : ℚ} (htotal : 0 ≤ total)
    (hle : 0 < stop → start ≤ stop) : startWithin start total ≤ stopWithin stop total := by
  rw [startWithin, stopWithin]
  split_ifs with hstop
  · exact max_le (le_min hstop.le htotal) (min_le_min_right total (hle hstop))
  · exact max_le htotal (min_le_right start total)

theorem stopWithin_le (stop total : ℚ) : stopWithin stop total ≤ total := by
  rw [stopWithin]
  split_ifs
  · exact min_le_right stop total
  · exact le_rfl

/-- Windows whose end is not before their start are lawful. -/
theorem isLawful_resolve {start stop total frame : ℚ} (htotal : 0 < total)
    (hle : 0 < stop → start ≤ stop) :
    (resolve start stop total frame).IsLawful (startWithin start total) (stopWithin stop total)
      total frame := by
  rw [resolve_rat htotal]
  refine ⟨startWithin_le_stopWithin htotal.le hle, rfl, rfl, le_max_left _ _, ?_, fun homitted => ?_⟩
  · rcases le_or_gt frame (stopWithin stop total - startWithin start total) with h | h
    · left
      simp only [max_eq_left h, add_sub_cancel]
      exact stopWithin_le stop total
    · exact .inr h
  · simp only [Bool.or_eq_false_iff, decide_eq_false_iff_not, not_lt] at homitted
    exact homitted

end TrimWindow

/-! ## Roundings -/

namespace Number

/-- What is small is rounded by little. -/
theorem abs_sub_nearest_le_of_lt {q : ℚ} (hq : 0 < q) (h : q < 2 ^ (-6 : ℤ)) (s : Sign) :
    |q - sizeOf (nearest s q)| ≤ 1 / 100 / 2 ^ 53 := by
  have hgrid : gridExponent q ≤ -59 := by
    have := log_lt_of_lt hq h
    unfold gridExponent
    omega
  have hstep : (2 : ℚ) ^ gridExponent q ≤ 2 ^ (-59 : ℤ) := zpow_le_zpow_right₀ one_le_two hgrid
  refine (abs_sub_nearest_le hq s).trans ?_
  norm_num at hstep ⊢
  linarith

/-- Half of a canonical number is rounded only where it is next to nothing. -/
theorem IsCanonical.abs_half_sub_nearest_le {m : ℕ} {e : ℤ} (hc : IsCanonical m e) (s : Sign) :
    |(m : ℚ) * 2 ^ e / 2 - sizeOf (nearest s (m * 2 ^ e / 2))| ≤
      max ((m : ℚ) * 2 ^ e / 2) (1 / 100) / 2 ^ 53 := by
  have hshift : (m : ℚ) * 2 ^ e / 2 = m * 2 ^ (e - 1) := by
    rw [zpow_sub_one₀ two_ne_zero, mul_div_assoc, div_eq_mul_inv]
  rw [hshift]
  rcases le_or_gt (-1074) (e - 1) with he | he
  · exact (abs_sub_nearest_le_div hc.pos he s).trans
      (div_le_div_of_nonneg_right (le_max_left _ _) (by norm_num))
  · -- On the finest grid there is, half a step may be lost.
    have hpos : (0 : ℚ) < m * 2 ^ (e - 1) := mul_pos (by exact_mod_cast hc.pos) (zpow_two_pos _)
    have hlt : (m : ℚ) < 2 ^ (53 : ℤ) := by exact_mod_cast hc.lt
    have hsmall : (m : ℚ) * 2 ^ (e - 1) < 2 ^ (-6 : ℤ) :=
      calc (m : ℚ) * 2 ^ (e - 1) < 2 ^ (53 : ℤ) * 2 ^ (e - 1) :=
            mul_lt_mul_of_pos_right hlt (zpow_two_pos _)
        _ = 2 ^ (53 + (e - 1)) := (zpow_add₀ two_ne_zero _ _).symm
        _ ≤ 2 ^ (-6 : ℤ) := zpow_le_zpow_right₀ one_le_two (by omega)
    exact (abs_sub_nearest_le_of_lt hpos hsmall s).trans
      (div_le_div_of_nonneg_right (le_max_right _ _) (by norm_num))

/-- And so is half of an amount. -/
theorem HasAmount.exists_half {x : Float} {q : ℚ} (h : HasAmount x q) :
    ∃ r, HasAmount (x / Quantity.ofNat 2) r ∧ |q / 2 - r| ≤ max (q / 2) (1 / 100) / 2 ^ 53 := by
  have hhalf : x / Quantity.ofNat 2 = packed (UnpackedFloat.div Format.binary64
      x.toModel.unpack (Quantity.ofNat 2 : Float).toModel.unpack) := rfl
  have htwo : HasValue (Quantity.ofNat 2 : Float).toModel.unpack ((2 : ℕ) : ℚ) :=
    hasValue_of_isExactly (by decide +kernel)
  rw [hhalf]
  rcases h.eq_zero_or_hasValue with ⟨s, hx, rfl⟩ | hvalue
  · obtain ⟨n, f, hn, htwo, -⟩ := htwo
    have hzero : UnpackedFloat.div Format.binary64 (.zero s) (.finite .positive n f hn.pos) =
        .zero (s / .positive) := by rw [UnpackedFloat.div]
    refine ⟨0, ?_, by norm_num⟩
    rw [hx, htwo, hzero]
    exact hasAmount_zero (unpack_packed_zero _)
  · have hamount := hasAmount_packed_nearest hvalue (half_pos hvalue.pos) (half_le_self hvalue.pos.le)
    rw [hvalue.div_eq htwo, Nat.cast_ofNat]
    obtain ⟨m, e, hc, -, rfl⟩ := hvalue
    exact ⟨_, hamount, hc.abs_half_sub_nearest_le .positive⟩

/-- The least tolerance is rounded once. -/
theorem exists_hasAmount_hundredth :
    ∃ r, HasAmount (Quantity.ofDecimal ⟨false, 1, -2⟩) r ∧ |1 / 100 - r| ≤ 1 / 100 / 2 ^ 53 := by
  have hvalue : (⟨false, 1, -2⟩ : Decimal).magnitude = 1 / 100 := by
    rw [Decimal.magnitude]
    norm_num
  have hfloat : (Quantity.ofDecimal ⟨false, 1, -2⟩ : Float) = packed (nearest .positive (1 / 100)) := by
    rw [← hvalue]
    exact Decimal.magnitudeToFloat_eq (by decide) (by decide) (by decide +kernel) (by decide +kernel)
  have hpos : (0 : ℚ) < 1 / 100 := by norm_num
  rw [hfloat]
  exact ⟨_, hasAmount_packed_nearest unpack_one hpos (by norm_num),
    abs_sub_nearest_le_of_lt hpos (by norm_num) .positive⟩

/-- So the tolerance of a frame is as exact as it can be. -/
theorem exists_hasAmount_trimTolerance {frame : Float} {q : ℚ} (h : HasAmount frame q) :
    ∃ r, HasAmount (trimTolerance frame) r ∧
      |max (q / 2) (1 / 100) - r| ≤ max (q / 2) (1 / 100) / 2 ^ 53 := by
  obtain ⟨half, hhalf, hclose⟩ := h.exists_half
  obtain ⟨least, hleast, hclose'⟩ := exists_hasAmount_hundredth
  refine ⟨_, hhalf.larger hleast, (abs_max_sub_max_le_max _ _ _ _).trans (max_le hclose ?_)⟩
  exact hclose'.trans (div_le_div_of_nonneg_right (le_max_right _ _) (by norm_num))

end Number

/-! ## Windows of settings -/

namespace Settings

variable {s : Settings} {source : Source}

/-- Settings in order end at a time, which is not before their start unless it
    is open. -/
theorem isTime_trimEnd (h : s.fault? = none) :
    s.trimEnd.isFinite = true ∧ (0.0 < s.trimEnd → ¬ s.trimEnd < s.trimStart) := by
  have htrim := trimFault?_eq_none h
  rw [trimFault?] at htrim
  split_ifs at htrim with hfinite hnegative hfirst
  rw [Bool.or_eq_true, not_or, Bool.not_eq_true', Bool.not_eq_true', Bool.not_eq_false,
    Bool.not_eq_false] at hfinite
  rw [Bool.and_eq_true, decide_eq_true_eq, decide_eq_true_eq, not_and] at hfirst
  exact ⟨hfinite.2, hfirst⟩

/-- The start of an export in a source, exactly. -/
def exactStart (s : Settings) (source : Source) : ℚ :=
  TrimWindow.startWithin (exactValue s.trimStart) (exactValue source.duration)

/-- And its end. -/
def exactStop (s : Settings) (source : Source) : ℚ :=
  TrimWindow.stopWithin (exactValue s.trimEnd) (exactValue source.duration)

/-- The window of settings if all that is reckoned were exact. -/
def exactWindow (s : Settings) (source : Source) (frame : ℚ) : TrimWindow ℚ :=
  TrimWindow.resolve (exactValue s.trimStart) (exactValue s.trimEnd) (exactValue source.duration) frame

/-- The checks of settings are made on numbers that are compared exactly. -/
theorem exactValue_trimStart_le (h : s.fault? = none) (hstop : 0 < exactValue s.trimEnd) :
    exactValue s.trimStart ≤ exactValue s.trimEnd := by
  obtain ⟨hfinite, hnonneg⟩ := isTime_trimStart h
  obtain ⟨hfinite', hle⟩ := isTime_trimEnd h
  rw [zero_lt_exactValue_iff hfinite'] at hstop
  obtain ⟨a, ha⟩ := exists_hasAmount hfinite hnonneg
  obtain ⟨b, hb⟩ := exists_hasAmount hfinite' (zero_le_of_lt hfinite' hstop)
  rw [ha.exactValue_eq, hb.exactValue_eq]
  exact not_lt.1 (mt (hb.lt_iff ha).2 (hle hstop))

/-- A known duration is an amount. -/
theorem hasAmount_duration (hknown : TrimWindow.isKnown source.duration = true) :
    HasAmount source.duration (exactValue source.duration) ∧ 0 < exactValue source.duration := by
  rw [TrimWindow.isKnown, Bool.and_eq_true, decide_eq_true_eq, ofNat_zero] at hknown
  obtain ⟨total, htotal⟩ := exists_hasAmount hknown.1 (zero_le_of_lt hknown.1 hknown.2)
  rw [zero_lt_exactValue_iff hknown.1, htotal.exactValue_eq]
  exact ⟨htotal, hknown.2⟩

/-- Start and end of a window are moved into the source exactly; the rest is
    reckoned with them. -/
theorem exists_trimWindow_eq (h : s.fault? = none) (hknown : TrimWindow.isKnown source.duration = true) :
    ∃ start stop : Float, HasAmount start (s.exactStart source) ∧ HasAmount stop (s.exactStop source) ∧
      s.trimWindow source =
        { start
          duration := Quantity.larger (stop - start) (frameTime source.frameRate)
          requested := trimTolerance (frameTime source.frameRate) < start ||
            trimTolerance (frameTime source.frameRate) < source.duration - stop } := by
  obtain ⟨hfinite, hnonneg⟩ := isTime_trimStart h
  obtain ⟨hfinite', -⟩ := isTime_trimEnd h
  obtain ⟨htotal, -⟩ := hasAmount_duration hknown
  obtain ⟨a, ha⟩ := exists_hasAmount hfinite hnonneg
  refine ⟨Quantity.clamp (Quantity.ofNat 0) source.duration s.trimStart,
    Quantity.smaller (if !decide (Quantity.ofNat 0 < s.trimEnd) then source.duration else s.trimEnd)
      source.duration, ?_, ?_, ?_⟩
  · rw [exactStart, TrimWindow.startWithin, ha.exactValue_eq]
    exact ha.clamp htotal
  · have hsign := zero_lt_exactValue_iff hfinite'
    rw [exactStop, TrimWindow.stopWithin, ofNat_zero]
    by_cases hopen : 0.0 < s.trimEnd
    · obtain ⟨b, hb⟩ := exists_hasAmount hfinite' (zero_le_of_lt hfinite' hopen)
      rw [if_pos (hsign.2 hopen), decide_eq_true hopen, hb.exactValue_eq]
      exact hb.smaller htotal
    · have hself := htotal.smaller htotal
      rw [min_self] at hself
      rw [if_neg (mt hsign.1 hopen), decide_eq_false hopen]
      exact hself
  · rw [trimWindow, TrimWindow.resolve, if_pos hknown]

end Settings

/-! ## Plans -/

namespace Plan

variable {threads : Option UInt32} {s : Settings} {source : Source} {p : Plan}

/-- A plan comes as close to the exact window of its settings as its numbers
    allow: only the difference of end and start is rounded, and for what is left
    out without being asked for the tolerance. -/
structure Follows (p : Plan) (s : Settings) (source : Source) (frame : ℚ) : Prop where
  duration : ∃ d, |s.exactStop source - s.exactStart source - d| ≤
      (s.exactStop source - s.exactStart source) / 2 ^ 53 ∧
    HasAmount p.expectedDuration (max d frame)
  /-- Start and duration are sent together or not at all. -/
  sent : p.directives.filter (·.isTime) = [] ∨
    ∃ start, HasAmount start (s.exactStart source) ∧
      p.directives.filter (·.isTime) = [.trimStart start, .trimDuration p.expectedDuration]
  omitted : p.directives.filter (·.isTime) = [] →
    s.exactStart source ≤ max (frame / 2) (1 / 100) * (1 + 1 / 2 ^ 53) ∧
      (exactValue source.duration - s.exactStop source) * (1 - 1 / 2 ^ 53) ≤
        max (frame / 2) (1 / 100) * (1 + 1 / 2 ^ 53)

/-- The directives for times are those of the window. -/
theorem filter_isTime (h : compile threads s source = .ok p) :
    p.directives.filter (·.isTime) =
      if (s.trimWindow source).requested then
        [.trimStart (s.trimWindow source).start, .trimDuration p.expectedDuration]
      else [] := by
  obtain ⟨rest, hds, hrest⟩ := exists_directives_eq h
  have hnone : rest.filter (·.isTime) = [] :=
    List.filter_eq_nil_iff.2 fun d hd => Bool.eq_false_iff.1 (hrest d hd)
  rw [hds, List.filter_append, hnone, List.append_nil, expectedDuration_eq h, TrimWindow.part,
    Part.directives]
  cases (s.trimWindow source).requested <;> rfl

theorem exactStart_le_exactStop (h : s.fault? = none)
    (hknown : TrimWindow.isKnown source.duration = true) :
    s.exactStart source ≤ s.exactStop source :=
  TrimWindow.startWithin_le_stopWithin (Settings.hasAmount_duration hknown).2.le
    (Settings.exactValue_trimStart_le h)

theorem follows_of_hasAmount (h : compile threads s source = .ok p)
    (hknown : TrimWindow.isKnown source.duration = true) {frame : ℚ}
    (hframe : HasAmount (frameTime source.frameRate) frame) : p.Follows s source frame := by
  have hfault := (compile_eq_ok_iff.1 h).1
  obtain ⟨htotal, -⟩ := Settings.hasAmount_duration hknown
  obtain ⟨start, stop, hstart, hstop, hwindow⟩ := Settings.exists_trimWindow_eq hfault hknown
  obtain ⟨d, hd, hround⟩ := hstop.exists_sub hstart (exactStart_le_exactStop hfault hknown)
  have htimes := filter_isTime h
  rw [hwindow] at htimes
  refine ⟨⟨d, hround, ?_⟩, ?_, fun homitted => ?_⟩
  · rw [expectedDuration_eq h, hwindow]
    exact hd.larger hframe
  · rw [htimes]
    split_ifs
    · exact .inr ⟨start, hstart, rfl⟩
    · exact .inl rfl
  · obtain ⟨r, hr, hclose⟩ := exists_hasAmount_trimTolerance hframe
    obtain ⟨left, hleft, hround⟩ := htotal.exists_sub hstop (TrimWindow.stopWithin_le _ _)
    rw [htimes] at homitted
    split_ifs at homitted with hrequested
    simp only [Bool.or_eq_true, decide_eq_true_eq, not_or, hr.lt_iff hstart, hr.lt_iff hleft,
      not_lt] at hrequested
    rw [abs_le] at hclose hround
    constructor
    · linarith
    · linarith

/-- Where frames last forever, so do windows, and none is asked for. -/
theorem not_sent_of_infinite (h : compile threads s source = .ok p)
    (hknown : TrimWindow.isKnown source.duration = true)
    (hnone : ∀ frame, ¬ HasAmount (frameTime source.frameRate) frame) :
    p.directives.filter (·.isTime) = [] ∧ p.expectedDuration = frameTime source.frameRate := by
  have hfault := (compile_eq_ok_iff.1 h).1
  have hframe := zero_le_frameTime source.frameRate
  obtain ⟨htotal, -⟩ := Settings.hasAmount_duration hknown
  obtain ⟨start, stop, hstart, hstop, hwindow⟩ := Settings.exists_trimWindow_eq hfault hknown
  obtain ⟨d, hd, -⟩ := hstop.exists_sub hstart (exactStart_le_exactStop hfault hknown)
  obtain ⟨left, hleft, -⟩ := htotal.exists_sub hstop (TrimWindow.stopWithin_le _ _)
  have hlt : ∀ {x : Float}, x.isFinite = true →
      ¬ trimTolerance (frameTime source.frameRate) < x := fun hx hlt => by
    obtain ⟨frame, hamount⟩ := exists_hasAmount_frame hframe hx hlt
    exact hnone frame hamount
  have htimes := filter_isTime h
  rw [hwindow] at htimes
  constructor
  · rw [htimes, if_neg]
    simp only [Bool.or_eq_true, decide_eq_true_eq, not_or]
    exact ⟨hlt hstart.isFinite, hlt hleft.isFinite⟩
  · rw [expectedDuration_eq h, hwindow, Quantity.larger,
      if_pos (hd.lt_of_infinite (unpack_eq_infinity hframe hnone))]

/-- The windows of settings in order are lawful in a source whose duration is
    known, however long its frames are, and their plans follow them; where frames
    last forever, nothing is asked for. -/
theorem follows_exactWindow (h : compile threads s source = .ok p)
    (hknown : TrimWindow.isKnown source.duration = true) :
    0 < exactValue source.duration ∧
      (∀ frame, (s.exactWindow source frame).IsLawful (s.exactStart source) (s.exactStop source)
        (exactValue source.duration) frame) ∧
      (∀ frame, HasAmount (frameTime source.frameRate) frame → p.Follows s source frame) ∧
      ((∀ frame, ¬ HasAmount (frameTime source.frameRate) frame) →
        p.directives.filter (·.isTime) = [] ∧ p.expectedDuration = frameTime source.frameRate) := by
  have hfault := (compile_eq_ok_iff.1 h).1
  have hpos := (Settings.hasAmount_duration hknown).2
  exact ⟨hpos, fun _ => TrimWindow.isLawful_resolve hpos (Settings.exactValue_trimStart_le hfault),
    fun _ => follows_of_hasAmount h hknown, not_sent_of_infinite h hknown⟩

/-- Two seconds of a clip of ten are two seconds. -/
theorem follows_exactWindow_sample :
    let s := { Settings.default with trimStart := 2.0, trimEnd := 4.0 }
    ∃ p, compile none s .sample = .ok p ∧ TrimWindow.isKnown Source.sample.duration = true ∧
      s.exactStart .sample = 2 ∧ s.exactStop .sample = 4 ∧
      (s.exactWindow .sample (1 / 30)).IsLawful 2 4 10 (1 / 30) ∧
      ∃ frame, HasAmount (frameTime Source.sample.frameRate) frame ∧ p.Follows s .sample frame := by
  intro s
  have hknown : TrimWindow.isKnown Source.sample.duration = true := by decide +kernel
  have hvalue : ∀ {x : Float} {n : ℕ}, isExactly n x.toModel.unpack = true → exactValue x = n :=
    fun h => (hasValue_of_isExactly h).hasAmount.exactValue_eq
  have hstart : exactValue s.trimStart = (2 : ℕ) := hvalue (by decide +kernel)
  have hstop : exactValue s.trimEnd = (4 : ℕ) := hvalue (by decide +kernel)
  have htotal : exactValue Source.sample.duration = (10 : ℕ) := hvalue (by decide +kernel)
  have hexactStart : s.exactStart .sample = 2 := by
    rw [Settings.exactStart, TrimWindow.startWithin, hstart, htotal]
    norm_num
  have hexactStop : s.exactStop .sample = 4 := by
    rw [Settings.exactStop, TrimWindow.stopWithin, hstop, htotal]
    norm_num
  obtain ⟨p, hp⟩ := exists_compile none s .sample (by decide +kernel) rfl rfl
  obtain ⟨-, hlawful, hfollows, -⟩ := follows_exactWindow hp hknown
  have hlawful := hlawful (1 / 30)
  rw [hexactStart, hexactStop, htotal] at hlawful
  obtain ⟨frame, hframe⟩ := exists_hasAmount
    (show (frameTime Source.sample.frameRate).isFinite = true by decide +kernel)
    (zero_le_frameTime _)
  exact ⟨p, hp, hknown, hexactStart, hexactStop, hlawful, frame, hframe, hfollows frame hframe⟩

end Plan
end VideoExport
