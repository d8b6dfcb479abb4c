import VideoExport.Proofs.Number.Difference
import VideoExport.Proofs.Number.Exact
import VideoExport.Proofs.Plan.Times

/-!
# Open ends

A window without an end goes on to the end of its source. What is sent is its
start and its duration, each with three places, after a difference that was
rounded; up to that, the two reach the end of every source whose duration is
known. Of other sources nothing but the first frame after the start is left,
unless the start is so early that no window is asked for.

* `Timecode.said?`: the seconds that a time says with its three places;
* `Plan.KeepsTail`: nothing of the end of a source is cut off;
* `Plan.keepsTail_iff`: when an open end keeps it, and what is left if not.
-/

namespace VideoExport

open Number Text Float.Model Float.Model.UnpackedFloat

/-! ## What times say -/

namespace Timecode

/-- The seconds that a time says, exactly, unless it is written as a word. -/
def said? (seconds : Float) : Option ℚ :=
  match Numeral.read? (wire seconds).toList with
  | some (.finite d) => some d.value
  | _ => none

/-- The three places of an amount are off by at most half a thousandth. -/
theorem exists_said? {x : Float} {q : ℚ} (h : HasAmount x q) :
    ∃ r, said? x = some r ∧ |q - r| ≤ 1 / 2000 := by
  obtain ⟨d, hd, rfl⟩ := h.exact
  have hbounds := thousandths_bounds d
  have hvalue : (⟨d.negative, thousandths d, -3⟩ : Decimal).value = thousandths d / 1000 := by
    have hten : (10 : ℚ) ^ (-3 : ℤ) = 1 / 1000 := by norm_num
    rw [Decimal.value, Decimal.magnitude, hten]
    rcases negative_eq_false_or hd h.nonneg with hsign | hzero
    · rw [hsign, if_neg Bool.false_ne_true, mul_one_div]
    · rw [hzero]
      norm_num
  refine ⟨_, by rw [said?, wire, read?_fixed hd], ?_⟩
  rw [hvalue]
  rw [abs_le] at hbounds ⊢
  constructor <;> linarith

end Timecode

/-! ## Windows -/

/-- An amount that is moved between zero and another one. -/
theorem Number.HasAmount.clamp {x y : Float} {p q : ℚ} (hx : HasAmount x p) (hy : HasAmount y q) :
    HasAmount (Quantity.clamp (Quantity.ofNat 0) y x) (max 0 (min p q)) := by
  have hlow : ¬ x < Quantity.ofNat 0 := by
    rw [ofNat_zero, hx.lt_iff (hasAmount_zero unpack_zero)]
    exact hx.zero_le.not_gt
  have hsmaller := hx.smaller hy
  rw [Quantity.clamp, if_neg hlow, max_eq_right (le_min hx.zero_le hy.zero_le)]
  exact hsmaller

/-- Where frames last forever, so does what is not worth leaving out. -/
theorem trimTolerance_of_infinite {frame : Float} (h : frame.toModel.unpack = .infinity .positive) :
    trimTolerance frame = 1.0 / 0.0 := by
  have hhalf : frame / Quantity.ofNat 2 = packed (UnpackedFloat.div Format.binary64
      frame.toModel.unpack (Quantity.ofNat 2 : Float).toModel.unpack) := rfl
  have hinfinite : packed (UnpackedFloat.div Format.binary64 (.infinity .positive)
      (Quantity.ofNat 2 : Float).toModel.unpack) = 1.0 / 0.0 := by decide +kernel
  rw [trimTolerance, hhalf, h, hinfinite]
  decide +kernel

/-- So wherever a window is asked for, a frame is an amount. -/
theorem exists_hasAmount_frame {frame x : Float} (hframe : 0.0 ≤ frame) (hx : x.isFinite = true)
    (h : trimTolerance frame < x) : ∃ q, HasAmount frame q := by
  by_contra hnone
  have hinfinite : (1.0 / 0.0 : Float).toModel.unpack = .infinity .positive := rfl
  rw [trimTolerance_of_infinite (unpack_eq_infinity hframe (not_exists.1 hnone)), Number.lt_iff,
    hinfinite] at h
  -- Nothing finite lies above infinity.
  rw [isFinite_eq] at hx
  cases hv : x.toModel.unpack <;> rw [hv] at h hx <;> first | cases h | cases hx

namespace Settings

variable {s : Settings} {source : Source}

/-- The window of an open end in a source whose duration is known. -/
theorem trimWindow_of_isKnown (hopen : ¬ 0.0 < s.trimEnd)
    (hknown : TrimWindow.isKnown source.duration = true) :
    let start := Quantity.clamp (Quantity.ofNat 0) source.duration s.trimStart
    let tolerance := trimTolerance (frameTime source.frameRate)
    s.trimWindow source =
      { start
        duration := Quantity.larger (source.duration - start) (frameTime source.frameRate)
        requested := tolerance < start || tolerance < source.duration - source.duration } := by
  intro start tolerance
  have hupTo : Quantity.smaller source.duration source.duration = source.duration := ite_self _
  simp only [trimWindow, TrimWindow.resolve, hknown, ofNat_zero, hopen, decide_false,
    Bool.not_false, if_true, hupTo]
  rfl

/-- It reaches the end of the source, up to what is lost where the difference is
    rounded. -/
theorem exists_hasAmount_trimWindow (hfault : s.fault? = none) (hopen : ¬ 0.0 < s.trimEnd)
    (hknown : TrimWindow.isKnown source.duration = true)
    (hrequested : (s.trimWindow source).requested = true) :
    ∃ a b total, HasAmount (s.trimWindow source).start a ∧
      HasAmount (s.trimWindow source).duration b ∧ HasAmount source.duration total ∧ 0 < total ∧
      total ≤ a + b + total / 2 ^ 53 := by
  have hframe := zero_le_frameTime source.frameRate
  obtain ⟨hfinite, hnonneg⟩ := isTime_trimStart hfault
  obtain ⟨asked, hasked⟩ := exists_hasAmount hfinite hnonneg
  obtain ⟨total, hvalue⟩ : ∃ total, HasValue source.duration.toModel.unpack total := by
    rw [TrimWindow.isKnown, Bool.and_eq_true, decide_eq_true_eq, ofNat_zero] at hknown
    exact exists_hasValue hknown.1 hknown.2
  have htotal := hvalue.hasAmount
  have ha := hasked.clamp htotal
  have hle := max_le htotal.zero_le (min_le_right asked total)
  generalize max 0 (min asked total) = a at ha hle
  obtain ⟨d, hd, hround⟩ := htotal.exists_sub ha hle
  obtain ⟨_, hnothing, -⟩ := htotal.exists_sub htotal le_rfl
  rw [trimWindow_of_isKnown hopen hknown] at hrequested ⊢
  simp only [Bool.or_eq_true, decide_eq_true_eq] at hrequested
  obtain ⟨frame, hframe⟩ : ∃ frame, HasAmount (frameTime source.frameRate) frame :=
    hrequested.elim (exists_hasAmount_frame hframe ha.isFinite)
      (exists_hasAmount_frame hframe hnothing.isFinite)
  refine ⟨a, max d frame, total, ha, hd.larger hframe, htotal, hvalue.pos, ?_⟩
  have hloss : (total - a) / 2 ^ 53 ≤ total / 2 ^ 53 :=
    div_le_div_of_nonneg_right (sub_le_self total ha.zero_le) (by norm_num)
  have hmax : d ≤ max d frame := le_max_left d frame
  rw [abs_le] at hround
  linarith

/-- And in any other source. -/
theorem trimWindow_of_not_isKnown (hopen : ¬ 0.0 < s.trimEnd)
    (hknown : ¬ TrimWindow.isKnown source.duration = true) :
    s.trimWindow source =
      { start := s.trimStart
        duration := Quantity.larger (s.trimStart - s.trimStart) (frameTime source.frameRate)
        requested := trimTolerance (frameTime source.frameRate) < s.trimStart } := by
  simp only [trimWindow, TrimWindow.resolve, hknown, ofNat_zero, hopen, decide_false,
    Bool.not_false, if_true, Bool.not_true, Bool.or_false]
  rfl

/-- It is asked for if its start is worth asking for. -/
theorem requested_trimWindow_iff (hopen : ¬ 0.0 < s.trimEnd)
    (hknown : ¬ TrimWindow.isKnown source.duration = true) :
    (s.trimWindow source).requested = true ↔
      trimTolerance (frameTime source.frameRate) < s.trimStart := by
  rw [trimWindow_of_not_isKnown hopen hknown]
  exact decide_eq_true_iff

end Settings

namespace Plan

variable {threads : Option UInt32} {s : Settings} {source : Source} {p : Plan}

/-- Nothing of the end of a source is cut off: a duration is sent only if that of
    the source is known, and the start and the duration that are sent come to it,
    up to a thousandth for their places and to what is lost where their difference
    is rounded. -/
def KeepsTail (p : Plan) (source : Source) : Prop :=
  ∀ duration, .trimDuration duration ∈ p.directives →
    ∃ start a b total, .trimStart start ∈ p.directives ∧
      Timecode.said? start = some a ∧ Timecode.said? duration = some b ∧
      HasAmount source.duration total ∧ 0 < total ∧
      total ≤ a + b + 1 / 1000 + total / 2 ^ 53

/-- The tokens of a plan start with those of its window. -/
theorem prefix_tokens (h : compile threads s source = .ok p) :
    Directive.tokens (s.trimWindow source).part.directives <+: p.tokens := by
  obtain ⟨rest, hrest, -⟩ := exists_directives_eq h
  rw [tokens, hrest, Directive.tokens, Directive.tokens, List.flatMap_append]
  exact List.prefix_append _ _

/-- A plan that asks for no window keeps everything. -/
theorem keepsTail_of_not_requested (h : compile threads s source = .ok p)
    (hrequested : ¬ (s.trimWindow source).requested = true) : p.KeepsTail source :=
  fun _ hmem => absurd ((mem_directives_iff_of_isTime h rfl).1 hmem).1 hrequested

/-- Where the duration of a source is known, a window reaches its end. -/
theorem keepsTail_of_isKnown (h : compile threads s source = .ok p) (hopen : ¬ 0.0 < s.trimEnd)
    (hknown : TrimWindow.isKnown source.duration = true) : p.KeepsTail source := by
  intro duration hmem
  obtain ⟨hrequested, hduration | hduration⟩ := (mem_directives_iff_of_isTime h rfl).1 hmem
  · cases hduration
  · cases hduration
    obtain ⟨a, b, total, ha, hb, htotal, hpos, hreach⟩ :=
      Settings.exists_hasAmount_trimWindow (compile_eq_ok_iff.1 h).1 hopen hknown hrequested
    obtain ⟨a', hsaidStart, hstart⟩ := Timecode.exists_said? ha
    obtain ⟨b', hsaidDuration, hduration⟩ := Timecode.exists_said? hb
    rw [← expectedDuration_eq h] at hsaidDuration
    refine ⟨_, a', b', total, (mem_directives_iff_of_isTime h rfl).2 ⟨hrequested, .inl rfl⟩,
      hsaidStart, hsaidDuration, htotal, hpos, ?_⟩
    rw [abs_le] at hstart hduration
    linarith

/-- Where it is not known, a window cuts off all but its start. -/
theorem not_keepsTail (h : compile threads s source = .ok p) (hopen : ¬ 0.0 < s.trimEnd)
    (hknown : ¬ TrimWindow.isKnown source.duration = true)
    (hlt : trimTolerance (frameTime source.frameRate) < s.trimStart) : ¬ p.KeepsTail source := by
  have hrequested := (Settings.requested_trimWindow_iff hopen hknown).2 hlt
  intro hkeeps
  obtain ⟨-, -, -, total, -, -, -, htotal, hpos, -⟩ :=
    hkeeps _ ((mem_directives_iff_of_isTime h rfl).2 ⟨hrequested, .inr rfl⟩)
  -- A source that lasts for some time is known to do so.
  refine hknown ?_
  have hzero := hasAmount_zero unpack_zero
  rw [TrimWindow.isKnown, ofNat_zero, Bool.and_eq_true, decide_eq_true_eq]
  exact ⟨htotal.isFinite, (hzero.lt_iff htotal).2 hpos⟩

/-- All that is left then is a frame. -/
theorem exists_mem_trimDuration (h : compile threads s source = .ok p) (hopen : ¬ 0.0 < s.trimEnd)
    (hknown : ¬ TrimWindow.isKnown source.duration = true)
    (hlt : trimTolerance (frameTime source.frameRate) < s.trimStart) :
    ∃ duration q, .trimDuration duration ∈ p.directives ∧ HasAmount duration q ∧
      HasAmount (frameTime source.frameRate) q := by
  obtain ⟨hfinite, hnonneg⟩ := Settings.isTime_trimStart (compile_eq_ok_iff.1 h).1
  obtain ⟨start, hstart⟩ := exists_hasAmount hfinite hnonneg
  obtain ⟨d, hd, hround⟩ := hstart.exists_sub hstart le_rfl
  obtain ⟨frame, hframe⟩ := exists_hasAmount_frame (zero_le_frameTime source.frameRate) hfinite hlt
  have hrequested := (Settings.requested_trimWindow_iff hopen hknown).2 hlt
  have hzero : d = 0 := by
    rw [sub_self, zero_sub, zero_div, abs_neg] at hround
    exact abs_nonpos_iff.1 hround
  have hduration := hd.larger hframe
  rw [hzero, max_eq_right hframe.zero_le] at hduration
  refine ⟨p.expectedDuration, frame,
    (mem_directives_iff_of_isTime h rfl).2 ⟨hrequested, .inr rfl⟩, ?_, hframe⟩
  rw [expectedDuration_eq h, Settings.trimWindow_of_not_isKnown hopen hknown]
  exact hduration

/-- An open end keeps the tail of a source exactly if the duration of that is
    known, or if the start is not worth asking for; else a frame is left. -/
theorem keepsTail_iff (h : compile threads s source = .ok p) (hopen : s.trimEnd ≤ 0.0) :
    (p.KeepsTail source ↔ TrimWindow.isKnown source.duration = true ∨
      ¬ trimTolerance (frameTime source.frameRate) < s.trimStart) ∧
      (¬ p.KeepsTail source → ∃ duration q, .trimDuration duration ∈ p.directives ∧
        HasAmount duration q ∧ HasAmount (frameTime source.frameRate) q) := by
  have hopen := not_zero_lt_of_le hopen
  by_cases hknown : TrimWindow.isKnown source.duration = true
  · have hkeeps := keepsTail_of_isKnown h hopen hknown
    exact ⟨iff_of_true hkeeps (.inl hknown), fun hcuts => absurd hkeeps hcuts⟩
  · by_cases hlt : trimTolerance (frameTime source.frameRate) < s.trimStart
    · exact ⟨iff_of_false (not_keepsTail h hopen hknown hlt) (not_or.2 ⟨hknown, not_not.2 hlt⟩),
        fun _ => exists_mem_trimDuration h hopen hknown hlt⟩
    · have hkeeps := keepsTail_of_not_requested h
        (mt (Settings.requested_trimWindow_iff hopen hknown).1 hlt)
      exact ⟨iff_of_true hkeeps (.inr hlt), fun hcuts => absurd hkeeps hcuts⟩

/-- Of a clip of ten seconds everything after the first two is kept. -/
theorem keepsTail_sample :
    let s := { Settings.default with trimStart := 2.0 }
    ∃ p, compile (some 1) s .sample = .ok p ∧ s.trimEnd ≤ 0.0 ∧ p.KeepsTail .sample ∧
      ["-ss", "2.000", "-t", "8.000"] <+: p.tokens := by
  intro s
  obtain ⟨p, hp⟩ := exists_compile (some 1) s .sample (by decide +kernel) rfl rfl
  have hopen : s.trimEnd ≤ 0.0 := by decide +kernel
  have htokens : Directive.tokens (s.trimWindow .sample).part.directives =
      ["-ss", "2.000", "-t", "8.000"] := by decide +kernel
  exact ⟨p, hp, hopen, (keepsTail_iff hp hopen).1.2 (.inl (by decide +kernel)),
    htokens ▸ prefix_tokens hp⟩

/-- If its duration is not known, a thirtieth of a second is left. -/
theorem cuts_tail_of_unknown :
    let s := { Settings.default with trimStart := 2.0 }
    let source := { Source.sample with duration := 0.0 }
    ∃ p, compile (some 1) s source = .ok p ∧ s.trimEnd ≤ 0.0 ∧ ¬ p.KeepsTail source ∧
      ["-ss", "2.000", "-t", "0.033"] <+: p.tokens := by
  intro s source
  obtain ⟨p, hp⟩ := exists_compile (some 1) s source (by decide +kernel) rfl rfl
  have htokens : Directive.tokens (s.trimWindow source).part.directives =
      ["-ss", "2.000", "-t", "0.033"] := by decide +kernel
  exact ⟨p, hp, by decide +kernel,
    not_keepsTail hp (by decide +kernel) (by decide +kernel) (by decide +kernel),
    htokens ▸ prefix_tokens hp⟩

end Plan

end VideoExport
