import VideoExport.Proofs.Number.Sign
import VideoExport.Tool.Probe

/-!
# Durations in probe reports

A report may tell the duration of the whole and that of each stream, in texts that need not
be numbers, and in numbers that need not be durations: they may be zero, negative, infinite or
undefined. The number of the whole is taken only if it is finite and positive. The number of a
stream is taken as it is, from the first stream that has one, and those after it are not
looked at.

* `IsDuration`: what the duration should be: the first of all these numbers that is finite and
  positive, or zero;
* `IsLeftWith`: a number that is taken although it is of no use;
* `duration_source_iff`: which number is taken; when it is the duration as it should be, and
  when it is at least finite and not negative.
-/

namespace VideoExport.ProbeReport

/-- A number that can be a duration: finite and positive. -/
def isUsable (d : Float) : Bool := d.isFinite && 0.0 < d

/-- The duration of the whole, if its text is a number. -/
def wholeDuration? (r : ProbeReport) : Option Float := r.duration.bind Number.float?

/-- The durations of the streams whose texts are numbers. -/
def streamDurations (r : ProbeReport) : List Float :=
  r.streams.filterMap fun s => s.duration.bind Number.float?

/-- The first number that can be a duration, that of the whole before those of the streams. -/
def usableDuration? (r : ProbeReport) : Option Float :=
  (r.wholeDuration?.toList ++ r.streamDurations).find? isUsable

/-- A number is the duration that a report tells: the first one that can be a duration, and
    zero, of either sign, if there is none. -/
def IsDuration (r : ProbeReport) (d : Float) : Prop :=
  r.usableDuration? = some d ∨ r.usableDuration? = none ∧ (d == 0.0) = true

/-- The whole has no duration that is of use, and the first stream that has one has this one,
    which is of no use either. -/
def IsLeftWith (r : ProbeReport) (d : Float) : Prop :=
  r.wholeDuration?.filter isUsable = none ∧ r.streamDurations.head? = some d ∧
    isUsable d = false

variable {r : ProbeReport} {d : Float}

/-! ## What is taken -/

theorem isFinite_and_zero_le_of_isUsable (h : isUsable d = true) :
    d.isFinite = true ∧ 0.0 ≤ d := by
  rw [isUsable, Bool.and_eq_true, decide_eq_true_eq] at h
  exact ⟨h.1, Number.zero_le_of_lt h.1 h.2⟩

theorem sourceDuration_eq (r : ProbeReport) :
    r.sourceDuration =
      ((r.wholeDuration?.filter isUsable).or r.streamDurations.head?).getD 0.0 := by
  have hfilter : (r.duration.bind Number.float?).filter (fun d => d.isFinite && 0.0 < d) =
      r.wholeDuration?.filter isUsable := rfl
  rw [streamDurations, List.head?_filterMap, sourceDuration, hfilter]
  cases r.wholeDuration?.filter isUsable <;> rfl

/-- The whole is asked before the streams. -/
theorem usableDuration?_eq (r : ProbeReport) :
    r.usableDuration? =
      (r.wholeDuration?.filter isUsable).or (r.streamDurations.find? isUsable) := by
  rw [usableDuration?, List.find?_append]
  cases r.wholeDuration? with
  | none => rfl
  | some w => cases h : isUsable w <;> simp [h, Option.filter]

/-- A number that is of no use is taken, or else what is taken is the duration. -/
theorem isLeftWith_or_isDuration (r : ProbeReport) :
    r.IsLeftWith r.sourceDuration ∨
      (∀ d, ¬ r.IsLeftWith d) ∧ r.IsDuration r.sourceDuration ∧
        r.sourceDuration.isFinite = true ∧ 0.0 ≤ r.sourceDuration := by
  rw [sourceDuration_eq, IsDuration, usableDuration?_eq]
  cases hwhole : r.wholeDuration?.filter isUsable with
  | some w =>
    have hw : isUsable w = true := (Option.filter_eq_some_iff.1 hwhole).2
    refine .inr ⟨fun d hd => ?_, .inl rfl, isFinite_and_zero_le_of_isUsable hw⟩
    rw [IsLeftWith, hwhole] at hd
    cases hd.1
  | none =>
    cases hstreams : r.streamDurations with
    | nil =>
      refine .inr ⟨fun d hd => ?_, .inr ⟨rfl, by decide⟩, by decide⟩
      rw [IsLeftWith, hstreams] at hd
      cases hd.2.1
    | cons first rest =>
      cases hfirst : isUsable first with
      | false => exact .inl ⟨hwhole, by rw [hstreams]; rfl, hfirst⟩
      | true =>
        rw [List.find?_cons_of_pos hfirst]
        refine .inr ⟨fun d hd => ?_, .inl rfl, isFinite_and_zero_le_of_isUsable hfirst⟩
        rw [IsLeftWith, hstreams] at hd
        obtain rfl : first = d := Option.some.inj hd.2.1
        rw [hfirst] at hd
        cases hd.2.2

theorem IsLeftWith.unique {e : Float} (hd : r.IsLeftWith d) (he : r.IsLeftWith e) : d = e :=
  Option.some.inj (hd.2.1.symm.trans he.2.1)

/-- A number that is of no use is the duration only if it is zero and no stream has one that
    is of use. -/
theorem IsLeftWith.isDuration_iff (h : r.IsLeftWith d) :
    r.IsDuration d ↔ d == 0.0 ∧ ∀ e ∈ r.streamDurations, isUsable e = false := by
  rw [IsDuration, usableDuration?_eq, h.1, Option.none_or]
  constructor
  · rintro (htold | ⟨hnone, hzero⟩)
    · have hunusable := h.2.2
      rw [List.find?_some htold] at hunusable
      cases hunusable
    · exact ⟨hzero, fun e he => by simpa using List.find?_eq_none.1 hnone e he⟩
  · rintro ⟨hzero, hall⟩
    exact .inr ⟨List.find?_eq_none.2 fun e he => by simp [hall e he], hzero⟩

/-! ## The duration of a source -/

/-- The duration of a probed source is that of the whole if this is finite and positive, and
    else the first number that a stream has, or zero. So it is the duration as it should be
    unless the first number of a stream is taken although it is of no use, and this is not
    zero or a later stream has one that is of use; and it is finite and not negative unless
    such a number is not. -/
theorem duration_source_iff (r : ProbeReport) (name : String) :
    let duration := (r.source name).duration
    duration = ((r.wholeDuration?.filter isUsable).or r.streamDurations.head?).getD 0.0 ∧
      (r.IsDuration duration ↔ ∀ d, r.IsLeftWith d →
        d == 0.0 ∧ ∀ e ∈ r.streamDurations, isUsable e = false) ∧
      (duration.isFinite = true ∧ 0.0 ≤ duration ↔ ∀ d, r.IsLeftWith d →
        d.isFinite = true ∧ 0.0 ≤ d) := by
  intro duration
  have hduration : duration = r.sourceDuration := rfl
  rw [hduration]
  refine ⟨r.sourceDuration_eq, ?_⟩
  rcases r.isLeftWith_or_isDuration with hleft | ⟨hnone, hlaw, hsound⟩
  · refine ⟨⟨fun h d hd => ?_, fun h => hleft.isDuration_iff.2 (h _ hleft)⟩,
      fun h d hd => ?_, fun h => h _ hleft⟩
    · exact hleft.unique hd ▸ hleft.isDuration_iff.1 h
    · exact hleft.unique hd ▸ h
  · exact ⟨iff_of_true hlaw fun d hd => absurd hd (hnone d),
      iff_of_true hsound fun d hd => absurd hd (hnone d)⟩

/-- A stream of sound of which no more than its duration is told. -/
def soundStream (index : UInt64) (duration : String) : ProbeStream :=
  ⟨index, some "audio", none, none, none, none, none, none, none, none, some duration, [], []⟩

/-- A stream with a negative number comes before one with a duration, and its number is taken
    as the duration of the source. -/
theorem not_isDuration_negative :
    let r : ProbeReport := ⟨[soundStream 0 "-2", soundStream 1 "9.25"], some "-3"⟩
    ProbeReport.ofBytes? ("\x7b\"streams\":[" ++
        "\x7b\"index\":0,\"codec_type\":\"audio\",\"duration\":\"-2\"\x7d," ++
        "\x7b\"index\":1,\"codec_type\":\"audio\",\"duration\":\"9.25\"\x7d]," ++
        "\"format\":\x7b\"duration\":\"-3\"\x7d\x7d").toUTF8.toList = some r ∧
      (r.source "movie.mkv").duration = -2.0 ∧ r.IsDuration 9.25 ∧
      ¬ r.IsDuration (r.source "movie.mkv").duration ∧
      ¬ 0.0 ≤ (r.source "movie.mkv").duration := by
  intro r
  have hleft : r.IsLeftWith (-2.0) :=
    ⟨by decide +kernel, by decide +kernel, by decide +kernel⟩
  have hduration : (r.source "movie.mkv").duration = -2.0 := by decide +kernel
  refine ⟨by decide +kernel, hduration, .inl (by decide +kernel), fun h => ?_, by decide +kernel⟩
  rw [hduration, hleft.isDuration_iff] at h
  exact absurd h.1 (by decide +kernel)

end VideoExport.ProbeReport
