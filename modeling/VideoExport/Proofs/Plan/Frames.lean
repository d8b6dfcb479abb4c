import VideoExport.Proofs.Plan.Window

/-!
# Windows of single frames

No window is shorter than a frame of its source, but times are sent with three
places. A frame that takes half a thousandth of a second or less is sent as
nothing; this is the case for rates above two thousand, and for no others.

* `le_sizeOf_nearest`, `HasAmount.eq_sizeOf_nearest`: rounding keeps bounds that
  are numbers themselves;
* `exists_pos_seconds?_wire_iff`: the times that are read as more than nothing;
* `Source.HasShortFrames`, `lt_frameTime_iff`: frames that are too short for
  three places;
* `Plan.lasts_iff`: when a plan sends windows that last.
-/

namespace VideoExport

open Number Float.Model Float.Model.UnpackedFloat

/-! ## Numbers nearest to fractions -/

namespace Number

/-- A canonical number that does not exceed a fraction does not exceed the number
    nearest to that. -/
theorem le_sizeOf_nearest {m : ℕ} {e : ℤ} (hc : IsCanonical m e) {q : ℚ} (h : m * 2 ^ e ≤ q)
    (s : Sign) : m * 2 ^ e ≤ sizeOf (nearest s q) := by
  have hpos : (0 : ℚ) < m * 2 ^ e := mul_pos (by exact_mod_cast hc.pos) (zpow_two_pos e)
  have hmono := gridExponent_mono hpos h
  rw [hc.gridExponent_eq] at hmono
  have hgrid := zpow_two_pos (gridExponent q)
  rw [sizeOf_nearest]
  rcases hmono.eq_or_lt with heq | hlt
  · -- On the same grid whole parts keep their order.
    have hle : m ≤ ⌊q / 2 ^ gridExponent q⌋₊ := by
      refine Nat.le_floor ((le_div_iff₀ hgrid).2 ?_)
      rwa [← heq]
    have hround : (m : ℚ) ≤ roundEven (q / 2 ^ gridExponent q) := by
      exact_mod_cast hle.trans (floor_le_roundEven _)
    rw [← heq] at hround ⊢
    exact mul_le_mul_of_nonneg_right hround (zpow_two_pos e).le
  · -- On a coarser one mantissas have their full length.
    have hlog : gridExponent q = Int.log 2 q - 52 := by
      have := hc.least
      unfold gridExponent at *
      omega
    have hfull : 2 ^ 52 ≤ ⌊q / 2 ^ gridExponent q⌋₊ := by
      refine Nat.le_floor ((le_div_iff₀ hgrid).2 ?_)
      refine le_trans (le_of_eq ?_) (zpow_log_le (hpos.trans_le h))
      rw [Nat.cast_pow, Nat.cast_ofNat, ← zpow_natCast, ← zpow_add₀ two_ne_zero, hlog]
      congr 1
      omega
    have hround : (2 : ℚ) ^ (52 : ℤ) ≤ roundEven (q / 2 ^ gridExponent q) := by
      exact_mod_cast hfull.trans (floor_le_roundEven _)
    have hm : (m : ℚ) ≤ 2 ^ (53 : ℤ) := by exact_mod_cast hc.lt.le
    calc (m : ℚ) * 2 ^ e ≤ 2 ^ (53 : ℤ) * 2 ^ e := mul_le_mul_of_nonneg_right hm (zpow_two_pos e).le
      _ = 2 ^ (52 : ℤ) * 2 ^ (e + 1) := by
        rw [← zpow_add₀ two_ne_zero, ← zpow_add₀ two_ne_zero]
        congr 1
        ring
      _ ≤ 2 ^ (52 : ℤ) * 2 ^ gridExponent q :=
        mul_le_mul_of_nonneg_left (zpow_le_zpow_right₀ one_le_two hlt) (zpow_two_pos _).le
      _ ≤ roundEven (q / 2 ^ gridExponent q) * 2 ^ gridExponent q :=
        mul_le_mul_of_nonneg_right hround hgrid.le

theorem HasAmount.unique {x : Float} {p q : ℚ} (hp : HasAmount x p) (hq : HasAmount x q) : p = q :=
  hp.exactValue_eq.symm.trans hq.exactValue_eq

/-- What is too large for its exponent is no amount. -/
theorem not_hasAmount_packed {m : ℕ} {e : ℤ} (hm : 0 < m) (he : 971 < e) (q : ℚ) :
    ¬ HasAmount (packed (.finite .positive m e hm)) q := by
  intro h
  have hinfinite : UnpackedFloat.pack Format.binary64 (.finite .positive m e hm) =
      packedInfinity Format.binary64 .positive := by
    rw [pack_finite, if_pos (by omega)]
  have hfinite := h.isFinite
  rw [isFinite_eq] at hfinite
  change (UnpackedFloat.unpack Format.binary64
    (UnpackedFloat.pack Format.binary64 (.finite .positive m e hm))).isFinite = true at hfinite
  rw [hinfinite] at hfinite
  cases hfinite

/-- An amount that was rounded is the number that it was rounded to. -/
theorem HasAmount.eq_sizeOf_nearest {p q : ℚ} (hp : 0 < p)
    (h : HasAmount (packed (nearest .positive p)) q) : q = sizeOf (nearest .positive p) := by
  by_cases hgrid : gridExponent p ≤ 971 ∧
      (roundEven (p / 2 ^ gridExponent p) = 2 ^ 53 → gridExponent p < 971)
  · rcases nearest_cases_of_grid hp hgrid.1 hgrid.2 .positive with hzero | ⟨m, e, hc, hfinite⟩
    · rw [hzero] at h ⊢
      exact h.unique (hasAmount_zero (unpack_packed_zero .positive))
    · rw [hfinite] at h ⊢
      exact h.unique (HasValue.hasAmount ⟨m, e, hc, unpack_packed hc hc.pos, rfl⟩)
  · rw [not_and_or, not_le, Classical.not_imp, not_lt] at hgrid
    rw [nearest, carried] at h
    split_ifs at h with h0 h53
    · rw [sizeOf_nearest, h0, Nat.cast_zero, zero_mul]
      exact h.unique (hasAmount_zero (unpack_packed_zero .positive))
    · exact absurd h (not_hasAmount_packed _ (by omega) q)
    · exact absurd h (not_hasAmount_packed _ (by omega) q)

/-! ## Thousandths -/

/-- What is not above a half is rounded to zero, and nothing else. -/
theorem roundHalfEven_eq_zero_iff {num den : ℕ} (h : 0 < den) :
    roundHalfEven num den = 0 ↔ 2 * num ≤ den := by
  constructor
  · intro hzero
    have hbound := (roundHalfEven_bounds num h).1
    rw [hzero] at hbound
    omega
  · intro hle
    have hlt : num < den := by omega
    rw [roundHalfEven]
    simp only [Nat.div_eq_of_lt hlt, Nat.mod_eq_of_lt hlt]
    split_ifs
    · rfl
    · omega
    · rfl

/-- A half of a thousandth is rounded to none. -/
theorem thousandths_eq_zero_iff (d : Dyadic) : thousandths d = 0 ↔ d.size ≤ 1 / 2000 := by
  have hden := d.denominator_pos
  have hden' : (0 : ℚ) < d.denominator := by exact_mod_cast hden
  have hsize : d.size = d.numerator / d.denominator := by
    rw [d.numerator_eq, mul_div_cancel_right₀ _ hden'.ne']
  rw [thousandths, roundHalfEven_eq_zero_iff hden, hsize, div_le_iff₀ hden', Nat.pow_eq]
  rw [← Nat.cast_le (α := ℚ)]
  push_cast
  constructor <;> intro h <;> linarith

/-- What is read of three places is above zero if they are. -/
theorem zero_lt_toFloat_thousandths_iff {x : Float} {d : Dyadic} (h : Dyadic.ofFloat? x = some d)
    (hsign : d.negative = false ∨ thousandths d = 0) :
    0.0 < (⟨d.negative, thousandths d, -3⟩ : Decimal).toFloat ↔ 1 / 2000 < d.size := by
  rw [← not_le, ← thousandths_eq_zero_iff]
  by_cases hzero : thousandths d = 0
  · have hmagnitude : (⟨d.negative, 0, -3⟩ : Decimal).magnitudeToFloat = 0.0 := by
      rw [Decimal.magnitudeToFloat_def, if_pos (.inl rfl)]
    refine iff_of_false ?_ (not_not.2 hzero)
    rw [hzero, Decimal.toFloat, hmagnitude]
    cases d.negative <;> decide
  · refine iff_of_true ?_ hzero
    obtain ⟨d', hd', hnegative, hsame⟩ := exists_ofFloat?_reread h hsign
    rw [hsign.resolve_right hzero] at hnegative
    rw [← hsame, thousandths_eq_zero_iff, not_le] at hzero
    rw [← zero_lt_exactValue_iff (isFinite_of_ofFloat? h _), exactValue, hd']
    simp only [hnegative, Bool.false_eq_true, if_false]
    linarith

/-! ## Half a thousandth -/

/-- What is at least half a thousandth is rounded to more than that: the number
    nearest to it lies above it. -/
theorem lt_sizeOf_nearest {q : ℚ} (h : 1 / 2000 ≤ q) : 1 / 2000 < sizeOf (nearest .positive q) := by
  have hc : IsCanonical 4611686018427388 (-63) :=
    ⟨by norm_num, by norm_num, .inl (by norm_num), by norm_num, by norm_num⟩
  have habove : (1 : ℚ) / 2000 < (4611686018427388 : ℕ) * 2 ^ (-63 : ℤ) := by norm_num
  rcases le_or_gt (((4611686018427388 : ℕ) : ℚ) * 2 ^ (-63 : ℤ)) q with hle | hlt
  · exact habove.trans_le (le_sizeOf_nearest hc hle .positive)
  · rw [nearest_eq_of_near hc ?_ ?_ ?_ .positive]
    · exact habove
    · refine le_trans ?_ h
      norm_num
    · refine hlt.trans ?_
      norm_num
    · rw [abs_lt, lt_sub_iff_add_lt, sub_lt_iff_lt_add, lt_div_iff₀ (zpow_two_pos _),
        div_lt_iff₀ (zpow_two_pos _)]
      norm_num at hlt ⊢
      constructor <;> linarith

/-- Numbers above two thousand are so by the step of their grid. -/
theorem HasValue.step_le {u : UnpackedFloat} {v : ℚ} (hv : HasValue u v) (h : 2000 < v) :
    2000 + 2 ^ (-42 : ℤ) ≤ v := by
  obtain ⟨m, e, hc, -, rfl⟩ := hv
  have hgrid : -42 ≤ e := by
    have hc' : IsCanonical 8796093022208000 (-42) :=
      ⟨by norm_num, by norm_num, .inl (by norm_num), by norm_num, by norm_num⟩
    have hvalue : (2000 : ℚ) = (8796093022208000 : ℕ) * 2 ^ (-42 : ℤ) := by norm_num
    have hmono := gridExponent_mono (by norm_num) h.le
    rwa [hvalue, hc'.gridExponent_eq, hc.gridExponent_eq] at hmono
  have hshift := decreaseExponent_eq m hgrid
  rw [← hshift] at h ⊢
  generalize (decreaseExponent m e (-42)).1 = k at h ⊢
  have hstep : (2 : ℚ) ^ (-42 : ℤ) = 1 / 4398046511104 := by norm_num
  rw [hstep] at h ⊢
  have hlt : (8796093022208000 : ℚ) < k := by linarith
  have hlt : 8796093022208000 < k := by exact_mod_cast hlt
  have hle : (8796093022208001 : ℚ) ≤ k := by exact_mod_cast Nat.succ_le_of_lt hlt
  linarith

/-- Their reciprocals are rounded to less than half a thousandth. -/
theorem sizeOf_nearest_lt {u : UnpackedFloat} {v : ℚ} (hv : HasValue u v) (h : 2000 < v) :
    sizeOf (nearest .positive (1 / v)) < 1 / 2000 := by
  have hstep := hv.step_le h
  have hpos : 0 < 1 / v := one_div_pos.2 hv.pos
  have hle : 1 / v ≤ 1 / (2000 + 2 ^ (-42 : ℤ)) := one_div_le_one_div_of_le (by norm_num) hstep
  generalize 1 / v = q at hpos hle ⊢
  have hgrid : gridExponent q ≤ -63 := by
    have := log_lt_of_lt (k := -10) hpos (hle.trans_lt (by norm_num))
    unfold gridExponent
    omega
  have hhalf : (2 : ℚ) ^ gridExponent q ≤ 2 ^ (-63 : ℤ) := zpow_le_zpow_right₀ one_le_two hgrid
  have hnear := abs_sub_nearest_le hpos .positive
  rw [abs_le] at hnear
  norm_num at hle hhalf ⊢
  linarith

end Number

/-! ## Times that are read -/

/-- A time is read as more than nothing exactly if it is an amount of more than
    half a thousandth. -/
theorem exists_pos_seconds?_wire_iff {t : Float} (ht : t.isFinite = true → 0.0 ≤ t) :
    (∃ read, seconds? (Timecode.wire t) = some read ∧ 0.0 < read) ↔
      ∃ q, HasAmount t q ∧ 1 / 2000 < q := by
  cases hfinite : t.isFinite with
  | false =>
    refine iff_of_false ?_ ?_
    · rintro ⟨read, hread, -⟩
      rw [seconds?_wire_eq_none hfinite] at hread
      cases hread
    · rintro ⟨q, hq, -⟩
      rw [hq.isFinite] at hfinite
      cases hfinite
  | true =>
    have hnonneg := ht hfinite
    obtain ⟨d, hd⟩ := exists_ofFloat? hfinite
    have hamount : HasAmount t d.size := ⟨hnonneg, d, hd, rfl⟩
    obtain ⟨read, hreread, hread⟩ := exists_seconds?_wire hfinite hnonneg
    have hfloat : some read = some (⟨d.negative, thousandths d, -3⟩ : Decimal).toFloat :=
      hreread.symm.trans (float?_wire hd)
    have hpos := zero_lt_toFloat_thousandths_iff hd (negative_eq_false_or hd hnonneg)
    rw [hread, hfloat]
    simp only [Option.some.injEq, exists_eq_left', hpos]
    exact ⟨fun h => ⟨_, hamount, h⟩, fun ⟨q, hq, h⟩ => hamount.unique hq ▸ h⟩

/-! ## Frames -/

/-- The frames of a source are shorter than what three places can say: there are
    more than two thousand of them in a second. -/
def Source.HasShortFrames (source : Source) : Prop := ∃ rate ∈ source.frameRate, 2000.0 < rate

theorem hasValue_twoThousand : HasValue (2000.0 : Float).toModel.unpack ((2000 : ℕ) : ℚ) :=
  hasValue_of_isExactly (by decide +kernel)

/-- The time of a frame is the reciprocal of its rate, rounded once. -/
theorem exists_frameTime_eq (source : Source) :
    ∃ v, (∃ fps : Float, HasValue fps.toModel.unpack v) ∧
      frameTime source.frameRate = packed (nearest .positive (1 / v)) ∧
      (source.HasShortFrames ↔ 2000 < v) := by
  have hdiv : ∀ {fps : Float} {v}, HasValue fps.toModel.unpack v →
      1.0 / fps = packed (nearest .positive (1 / v)) := by
    intro fps v hv
    have hone : 1.0 / fps = packed (UnpackedFloat.div Format.binary64 (1.0 : Float).toModel.unpack
        fps.toModel.unpack) := rfl
    rw [hone, unpack_one.div_eq hv, Nat.cast_one]
  rw [Source.HasShortFrames, frameTime, ofNat_one]
  cases hrate : source.frameRate with
  | none =>
    have hfallback : HasValue (Quantity.ofNat fallbackFrameRate : Float).toModel.unpack ((30 : ℕ) : ℚ) :=
      hasValue_of_isExactly (by decide +kernel)
    refine ⟨_, ⟨_, hfallback⟩, hdiv hfallback, iff_of_false ?_ (by norm_num)⟩
    rintro ⟨rate, hnone, -⟩
    cases hnone
  | some fps =>
    obtain ⟨-, hknown⟩ := Option.filter_eq_some_iff.1 hrate
    have hkeep : (some fps).filter (fun fps => Quantity.isFinite fps && Quantity.ofNat 0 < fps) =
        some fps := by
      rw [Option.filter_some, ofNat_zero]
      exact if_pos hknown
    rw [Bool.and_eq_true, decide_eq_true_eq] at hknown
    obtain ⟨v, hv⟩ := exists_hasValue hknown.1 hknown.2
    refine ⟨v, ⟨fps, hv⟩, ?_, ?_⟩
    · rw [hkeep]
      exact hdiv hv
    · simp [hasValue_twoThousand.hasAmount.lt_iff hv.hasAmount]

/-- A frame takes more than half a thousandth of a second exactly if there are
    no more than two thousand in one. -/
theorem lt_frameTime_iff {source : Source} {frame : ℚ}
    (hframe : HasAmount (frameTime source.frameRate) frame) :
    1 / 2000 < frame ↔ ¬ source.HasShortFrames := by
  obtain ⟨v, ⟨fps, hv⟩, htime, hshort⟩ := exists_frameTime_eq source
  have hpos : 0 < 1 / v := one_div_pos.2 hv.pos
  rw [htime] at hframe
  rw [hframe.eq_sizeOf_nearest hpos, hshort, not_lt]
  constructor
  · intro hlt
    by_contra hv'
    exact (sizeOf_nearest_lt hv (not_le.1 hv')).not_gt hlt
  · exact fun hle => lt_sizeOf_nearest (one_div_le_one_div_of_le hv.pos hle)

/-- A clip of ten seconds with so many frames in each of them. -/
def Source.sampleAt (rate : Float) : Source :=
  { sample with streams := sample.streams.map fun a =>
      if a.kind = .video then { a with frameRate := some rate } else a }

/-! ## Plans -/

namespace Plan

variable {threads : Option UInt32} {s : Settings} {source : Source} {p : Plan}

/-- The windows of a plan last: every duration that is sent is read as more than
    nothing. -/
def Lasts (p : Plan) : Prop :=
  ∀ t, .trimDuration t ∈ p.directives →
    ∃ read, seconds? (Timecode.wire t) = some read ∧ 0.0 < read

/-- What is expected of a plan is an amount or a frame, whichever is longer. -/
theorem exists_expectedDuration_eq (h : compile threads s source = .ok p) :
    ∃ x d, HasAmount x d ∧ p.expectedDuration = Quantity.larger x (frameTime source.frameRate) := by
  have hfault := (compile_eq_ok_iff.1 h).1
  rw [expectedDuration_eq h]
  by_cases hknown : TrimWindow.isKnown source.duration = true
  · obtain ⟨start, stop, hstart, hstop, hwindow⟩ := Settings.exists_trimWindow_eq hfault hknown
    obtain ⟨d, hd, -⟩ := hstop.exists_sub hstart (exactStart_le_exactStop hfault hknown)
    exact ⟨_, d, hd, by rw [hwindow]⟩
  · obtain ⟨hfinite, hnonneg⟩ := Settings.isTime_trimStart hfault
    obtain ⟨a, ha⟩ := exists_hasAmount hfinite hnonneg
    obtain ⟨hfinite', hle⟩ := Settings.isTime_trimEnd hfault
    have hdifference : ∃ d, HasAmount
        ((if !decide (Quantity.ofNat 0 < s.trimEnd) then s.trimStart else s.trimEnd) - s.trimStart) d := by
      rw [ofNat_zero]
      by_cases hopen : 0.0 < s.trimEnd
      · obtain ⟨b, hb⟩ := exists_hasAmount hfinite' (zero_le_of_lt hfinite' hopen)
        obtain ⟨d, hd, -⟩ := hb.exists_sub ha (not_lt.1 (mt (hb.lt_iff ha).2 (hle hopen)))
        rw [decide_eq_true hopen]
        exact ⟨d, hd⟩
      · obtain ⟨d, hd, -⟩ := ha.exists_sub ha le_rfl
        rw [decide_eq_false hopen]
        exact ⟨d, hd⟩
    obtain ⟨d, hd⟩ := hdifference
    refine ⟨_, d, hd, ?_⟩
    rw [Settings.trimWindow, TrimWindow.resolve, if_neg hknown]

theorem eq_expectedDuration (h : compile threads s source = .ok p) {t : Float}
    (ht : .trimDuration t ∈ p.directives) : t = p.expectedDuration := by
  obtain ⟨-, hstart | hduration⟩ := (mem_directives_iff_of_isTime h rfl).1 ht
  · cases hstart
  · exact Directive.trimDuration.inj hduration

/-- A duration that is sent is read as more than nothing exactly if it is more
    than half a thousandth. -/
theorem lasts_iff_forall (h : compile threads s source = .ok p) :
    p.Lasts ↔ ∀ t, .trimDuration t ∈ p.directives → ∃ q, HasAmount t q ∧ 1 / 2000 < q := by
  have hsound := Settings.isSound_trimWindow (compile_eq_ok_iff.1 h).1 source
  refine forall_congr' fun t => forall_congr' fun ht => exists_pos_seconds?_wire_iff ?_
  rw [eq_expectedDuration h ht, expectedDuration_eq h]
  exact hsound.zero_le_duration

/-- No window is shorter than a frame, so they last if frames do. -/
theorem lasts_of_not_hasShortFrames (h : compile threads s source = .ok p) {frame : ℚ}
    (hframe : HasAmount (frameTime source.frameRate) frame) (hlong : ¬ source.HasShortFrames) :
    p.Lasts := by
  obtain ⟨x, d, hd, hduration⟩ := exists_expectedDuration_eq h
  refine (lasts_iff_forall h).2 fun t ht => ⟨max d frame, ?_, ?_⟩
  · rw [eq_expectedDuration h ht, hduration]
    exact hd.larger hframe
  · exact lt_max_of_lt_right ((lt_frameTime_iff hframe).2 hlong)

/-- A window of a single frame does not last if frames are short. -/
theorem not_lasts_of_frame (h : compile threads s source = .ok p) {frame : ℚ}
    (hframe : HasAmount (frameTime source.frameRate) frame) (hshort : source.HasShortFrames)
    (hsent : .trimDuration (frameTime source.frameRate) ∈ p.directives) : ¬ p.Lasts := by
  intro hlasts
  obtain ⟨q, hq, hlt⟩ := (lasts_iff_forall h).1 hlasts _ hsent
  rw [hq.unique hframe, lt_frameTime_iff hframe] at hlt
  exact hlt hshort

/-- And none does if frames last forever: nobody reads how long it takes. -/
theorem not_lasts_of_infinite (h : compile threads s source = .ok p)
    (hnone : ∀ frame, ¬ HasAmount (frameTime source.frameRate) frame) {t : Float}
    (hsent : .trimDuration t ∈ p.directives) : ¬ p.Lasts := by
  intro hlasts
  obtain ⟨q, hq, -⟩ := (lasts_iff_forall h).1 hlasts t hsent
  obtain ⟨x, d, hd, hduration⟩ := exists_expectedDuration_eq h
  have hlt := hd.lt_of_infinite (unpack_eq_infinity (zero_le_frameTime _) hnone)
  rw [eq_expectedDuration h hsent, hduration, Quantity.larger, if_pos hlt] at hq
  exact hnone q hq

/-- A plan sends windows that last exactly if what it sends is more than half a
    thousandth. So it is for all windows of a source of up to two thousand frames
    in a second, or of an unknown rate; above that it is for those that are longer,
    but not for those of a single frame. Where frames last forever, nothing that
    is sent is read. -/
theorem lasts_iff (h : compile threads s source = .ok p) :
    (p.Lasts ↔ ∀ t, .trimDuration t ∈ p.directives → ∃ q, HasAmount t q ∧ 1 / 2000 < q) ∧
      (∀ frame, HasAmount (frameTime source.frameRate) frame →
        (1 / 2000 < frame ↔ ¬ source.HasShortFrames) ∧
        (¬ source.HasShortFrames → p.Lasts) ∧
        (source.HasShortFrames → .trimDuration (frameTime source.frameRate) ∈ p.directives →
          ¬ p.Lasts)) ∧
      ((∀ frame, ¬ HasAmount (frameTime source.frameRate) frame) →
        ∀ t, .trimDuration t ∈ p.directives → ¬ p.Lasts) :=
  ⟨lasts_iff_forall h,
    fun _ hframe => ⟨lt_frameTime_iff hframe, lasts_of_not_hasShortFrames h hframe,
      not_lasts_of_frame h hframe⟩,
    fun hnone _ => not_lasts_of_infinite h hnone⟩

/-- An empty window of a clip with two thousand frames in a second lasts, with a
    thousandth for its only frame. -/
theorem lasts_sampleAt :
    let s := { Settings.default with trimStart := 5.0, trimEnd := 5.0 }
    ∃ p, compile none s (.sampleAt 2000.0) = .ok p ∧ p.Lasts ∧
      ["-ss", "5.000", "-t", "0.001"] <+: p.tokens := by
  intro s
  obtain ⟨p, hp⟩ := exists_compile none s (.sampleAt 2000.0) (by decide +kernel) rfl rfl
  have htokens : Directive.tokens (s.trimWindow (.sampleAt 2000.0)).part.directives =
      ["-ss", "5.000", "-t", "0.001"] := by decide +kernel
  obtain ⟨frame, hframe⟩ := exists_hasAmount
    (show (frameTime (Source.sampleAt 2000.0).frameRate).isFinite = true by decide +kernel)
    (zero_le_frameTime _)
  have hlong : ¬ (Source.sampleAt 2000.0).HasShortFrames := by
    rintro ⟨rate, hrate, hlt⟩
    have hnone : (Source.sampleAt 2000.0).frameRate.any (2000.0 < ·) = false := by decide +kernel
    rw [Option.mem_def.1 hrate, Option.any_some, decide_eq_true hlt] at hnone
    cases hnone
  exact ⟨p, hp, ((lasts_iff hp).2.1 frame hframe).2.1 hlong, htokens ▸ prefix_tokens hp⟩

/-- With some more of them nothing is left of it. -/
theorem not_lasts_sampleAt :
    let s := { Settings.default with trimStart := 5.0, trimEnd := 5.0 }
    ∃ p, compile none s (.sampleAt 2400.0) = .ok p ∧ ¬ p.Lasts ∧
      ["-ss", "5.000", "-t", "0.000"] <+: p.tokens := by
  intro s
  obtain ⟨p, hp⟩ := exists_compile none s (.sampleAt 2400.0) (by decide +kernel) rfl rfl
  have htokens : Directive.tokens (s.trimWindow (.sampleAt 2400.0)).part.directives =
      ["-ss", "5.000", "-t", "0.000"] := by decide +kernel
  have hrequested : (s.trimWindow (.sampleAt 2400.0)).requested = true := by decide +kernel
  have hsent : .trimDuration p.expectedDuration ∈ p.directives :=
    (mem_directives_iff_of_isTime hp rfl).2 ⟨hrequested, .inr rfl⟩
  refine ⟨p, hp, fun hlasts => ?_, htokens ▸ prefix_tokens hp⟩
  obtain ⟨read, hread, hpos⟩ := hlasts _ hsent
  have hnothing : (seconds? (Timecode.wire (s.trimWindow (.sampleAt 2400.0)).duration)).any
      (0.0 < ·) = false := by decide +kernel
  rw [← expectedDuration_eq hp, hread, Option.any_some, decide_eq_true hpos] at hnothing
  cases hnothing

end Plan
end VideoExport
