import Mathlib
import VideoExport.Proofs.Animation.Writer
import VideoExport.Proofs.Plan.Admission
import VideoExport.Proofs.Tool.Framing

/-!
# The end of conversions

Frames that hold anything take something away from what is still to be read, so
that there is an end of them. Frames that hold nothing could be read for ever. A
change of size that asks for a side makes sure that frames hold something; else
they have the size that the probe has reported. A side that a report does not
tell is taken for nothing, which a graded conversion does not look at: it goes on
until it is cancelled. An animation is not begun with such a size.

* `Tools.returns_convertGraded`, `Tools.play_convertGraded_never`: graded
  conversions that end without being cancelled, and others;
* `Tools.returns_convertAnimation`: animations always do;
* `ProbeReport.TellsSize`: what a report has to say for frames to hold anything;
* `Job.ends_iff_tellsSize`: jobs on probed sources whose conversion ends.
-/

namespace VideoExport

/-! ## Frames -/

namespace Pump

variable {σ α : Type} {p : Pump σ} {launcher : Launcher}

/-- A frame is dealt with at once. -/
theorem returns_step {next : Except Failure (State σ) → Activity α}
    (hnext : ∀ taken, (next taken).Returns launcher) (count : ℕ) (state : State σ)
    (frame : Bytes) : (p.step count state frame next).Returns launcher := by
  rw [step]
  split_ifs
  · refine .started ?_
    split
    · exact .report (hnext _)
    · exact hnext _
  · split
    · exact .report (hnext _)
    · exact hnext _

/-- There is an end of frames, also if one of them cannot be passed on. -/
theorem returns_run {next : PumpEnd → State σ → Activity α}
    (hnext : ∀ e state, (next e state).Returns launcher) (count : ℕ) (state : State σ)
    (frames : List Bytes) : (p.run next count state frames).Returns launcher := by
  induction frames generalizing count state with
  | nil => exact .poll fun _ => hnext _ _
  | cons frame frames ih =>
    refine .poll fun cancelled => ?_
    split_ifs
    · exact hnext _ _
    · refine returns_step (fun taken => ?_) _ _ _
      cases taken with
      | ok state => exact ih _ _
      | error f => exact hnext _ _

/-- If frames hold anything, there is an end of them in every output. -/
theorem returns_all (hsize : 0 < p.size.bufferLength) (stream : List Delivery) (state : State σ)
    {next : PumpEnd → State σ → Activity α} (hnext : ∀ e state, (next e state).Returns launcher) :
    (p.all stream state next).Returns launcher := by
  rw [all, if_neg hsize.ne']
  exact returns_run hnext _ _ _

/-- If frames hold nothing, and can be passed on, there is no end of them unless it is asked
    for. -/
theorem play_all_never (hsize : p.size.bufferLength = 0) (stream : List Delivery) {state state' : State σ}
    (htake : p.take state [] = .ok state') (next : PumpEnd → State σ → Activity α) (r : Record) :
    ((p.all stream state next).play launcher .never r).1 = none := by
  rw [all, if_pos hsize]
  simp [runEmpty, step, htake, Activity.play, PollSchedule.never]

end Pump

/-! ## Conversions -/

namespace Tools

variable {t : Tools} {j : Job} {g : Grading} {video : UInt64} {size : FrameSize}
  {launcher : Launcher}

theorem returns_withTool {α : Type} {program : String} {role : ToolRole} {arguments : List String}
    {next : ToolRun → Activity α} (hnext : ∀ run, (next run).Returns launcher) :
    (withTool program role arguments next).Returns launcher := by
  refine .launch ?_
  cases launcher ⟨role, arguments⟩ with
  | ok run => exact hnext run
  | error reason => exact .finish _

theorem returns_unlessCancelled (result : Bytes) : (unlessCancelled result).Returns launcher := by
  refine .poll fun cancelled => ?_
  cases cancelled <;> exact .finish _

theorem returns_convertGraded (hgeometry : j.frameGeometry = .ok (video, size))
    (hsize : 0 < size.bufferLength) : (t.convertGraded j g).Returns launcher := by
  rw [convertGraded, hgeometry]
  refine returns_withTool fun decoder => returns_withTool fun encoder =>
    Pump.returns_all ?_ _ _ fun e state => ?_
  · exact hsize
  · cases e with
    | cancelled | failed f => exact .finish _
    | finished count =>
      simp only
      split_ifs
      · exact .finish _
      · exact .finish _
      · exact returns_unlessCancelled _

theorem play_withTool {α : Type} {program : String} {role : ToolRole} {arguments : List String}
    {run : ToolRun} (hrun : launcher ⟨role, arguments⟩ = .ok run) (next : ToolRun → Activity α)
    (schedule : PollSchedule) (r : Record) :
    (withTool program role arguments next).play launcher schedule r =
      (next run).play launcher schedule { r with calls := ⟨role, arguments⟩ :: r.calls } := by
  rw [withTool, Activity.play, hrun]

/-- A frame that holds nothing can be graded, and given to any encoder. -/
theorem exists_take_empty (encoder : ToolRun) (expected : Float) (g : Grading)
    (hsize : size.byteCount = 0) :
    ∃ state, Pump.take ⟨size, encode encoder, expected⟩ ⟨some (.ofGrading g), []⟩ [] =
      .ok state := by
  obtain ⟨filter, hgraded, -⟩ := exists_graded (some (.ofGrading g))
    (show ([] : Bytes).length = size.byteCount from hsize.symm)
  have hemit : encode encoder [] (filtered (some g) []) = .ok [[]] := by
    rw [encode]
    exact if_pos (Bool.or_true _)
  exact ⟨_, Pump.take_eq_ok hgraded hemit⟩

/-- A graded conversion whose frames hold nothing does not end without being cancelled, whatever its
    programs do once they have been started. -/
theorem play_convertGraded_never (hstarts : ∀ call, ∃ run, launcher call = .ok run)
    (hgeometry : j.frameGeometry = .ok (video, size)) (hempty : size.byteCount = 0) (r : Record) :
    ((t.convertGraded j g).play launcher .never r).1 = none := by
  rw [convertGraded, hgeometry]
  obtain ⟨decoder, hdecoder⟩ := hstarts ⟨.decode, j.decodeArguments video size⟩
  obtain ⟨encoder, hencoder⟩ := hstarts
    ⟨.encode, j.encodeArguments size (t.scratch j.recipe.container.extension)⟩
  obtain ⟨state, htake⟩ := exists_take_empty encoder j.expectedFrames g hempty
  simp only [play_withTool hdecoder, play_withTool hencoder,
    Pump.play_all_never (FrameSize.bufferLength_eq_zero hempty) _ htake]

/-- No animation is begun with frames that hold nothing, or with so many pixels that the number of
    their bytes is no word. -/
theorem bufferLength_pos_of_start {e : AnimationEncoder} {fps : Float} {speed : UInt32}
    {writer : AnimationWriter e} (h : AnimationWriter.start e size fps speed = .ok writer) :
    0 < size.bufferLength := by
  have hstart := AnimationWriter.isStarted_of_start h
  have harea : size.width.toNat * size.height.toNat < 65536 * 65536 :=
    Nat.mul_lt_mul'' hstart.width.2 hstart.height.2
  have hbytes : size.byteCount = size.width.toNat * size.height.toNat * 4 := rfl
  have hword : size.byteCount < UInt64.size := by
    rw [hbytes, UInt64.size]
    omega
  rw [FrameSize.bufferLength_eq hword, hbytes]
  exact Nat.mul_pos (Nat.mul_pos hstart.width.1 hstart.height.1) (by decide)

/-- The conversion into an animation ends without being cancelled: it is not begun if a side of
    its frames is nothing. -/
theorem returns_convertAnimation : (t.convertAnimation j).Returns launcher := by
  rw [convertAnimation]
  cases hgeometry : j.frameGeometry with
  | error f => exact .finish _
  | ok found =>
    obtain ⟨video, size⟩ := found
    cases hstart : AnimationWriter.start t.encoder size j.frameRate
        (j.recipe.video.quality.getD Settings.default.animation.speed) with
    | error f =>
      simp only [bind, Except.bind, hstart]
      exact .finish _
    | ok writer =>
      simp only [bind, Except.bind, pure, Except.pure, hstart]
      refine returns_withTool fun decoder => Pump.returns_all ?_ _ _ fun e state => ?_
      · exact bufferLength_pos_of_start hstart
      · cases e with
        | cancelled | failed f => exact .finish _
        | finished count =>
          simp only
          split_ifs
          · exact .finish _
          · split
            · exact .finish _
            · exact returns_unlessCancelled _

end Tools

/-! ## What reports tell -/

/-- A report tells the size of the frames of a stream: both sides are there, and
    neither is nothing. -/
def ProbeReport.TellsSize (report : ProbeReport) (index : UInt64) : Prop :=
  ∃ s w h, report.streams.find? (·.index == index) = some s ∧
    s.width = some w ∧ s.height = some h ∧ 0 < w ∧ 0 < h

/-- The report of one stream of video, as far as its sides are told. -/
def ProbeReport.ofVideo (width height : Option UInt32) : ProbeReport where
  streams := [{
    index := 0
    codecType := some "video"
    codecName := none
    width := width
    height := height
    averageRate := none
    baseRate := none
    sampleRate := none
    channels := none
    bitRate := none
    duration := none
    tags := []
    disposition := [] }]
  duration := none

theorem ProbeReport.stream?_source (report : ProbeReport) (name : String) (index : UInt64) :
    (report.source name).stream? index =
      (report.streams.find? (·.index == index)).map ProbeStream.stream := by
  rw [source, Source.stream?, List.find?_map]
  rfl

/-- A stream that is known by a side is one of video, and a side that is not told is known as
    nothing. -/
theorem ProbeStream.sides_stream {s : ProbeStream} {w h : UInt32}
    (hwidth : s.stream.width = some w) (hheight : s.stream.height = some h) :
    w = s.width.getD 0 ∧ h = s.height.getD 0 := by
  simp only [stream] at hwidth hheight
  split at hwidth
  case isTrue hvideo =>
    rw [if_pos hvideo] at hheight
    exact ⟨(Option.some.inj hwidth).symm, (Option.some.inj hheight).symm⟩
  case isFalse => cases hwidth

theorem getD_zero_pos_iff {side : Option UInt32} :
    0 < side.getD 0 ↔ ∃ n, side = some n ∧ 0 < n := by
  cases side <;> simp

namespace Job

variable {j : Job} {video : UInt64} {size : FrameSize}

/-- The frames of a job are those of the first track that is kept of its video, in the size
    that is known of its stream, after the change of size. -/
theorem frameGeometry_eq_ok_iff : j.frameGeometry = .ok (video, size) ↔
    ∃ d s w h, j.primary? = some d ∧ j.source.stream? d.index = some s ∧
      s.width = some w ∧ s.height = some h ∧ video = d.index ∧
      size = FrameSize.after ⟨w, h⟩ j.recipe.filters.resize := by
  rw [frameGeometry]
  cases j.primary? with
  | none => simp
  | some d =>
    cases hstream : j.source.stream? d.index with
    | none => simp [hstream]
    | some s =>
      cases hwidth : s.width with
      | none => simp [hstream, hwidth]
      | some w => cases hheight : s.height <;> simp [hstream, hwidth, hheight, eq_comm]

variable {passthrough : Bool} {id : UInt64} {input output name : String} {recipe : Recipe}
  {report : ProbeReport} {hint : Option Float}

/-- The frames of a job on a probed source hold anything exactly if their size is told, or if a
    side of it is asked for. -/
theorem byteCount_pos_iff_tellsSize
    (hjob : prepare passthrough id input output recipe (report.source name) hint = .ok j)
    (hgeometry : j.frameGeometry = .ok (video, size)) :
    0 < size.byteCount ↔
      (∃ box, recipe.filters.resize = some box ∧ (0 < box.width ∨ 0 < box.height)) ∨
        report.TellsSize video := by
  obtain ⟨-, rfl⟩ := prepare_eq_ok_iff.1 hjob
  obtain ⟨d, s, w, h, -, hstream, hwidth, hheight, rfl, rfl⟩ :=
    frameGeometry_eq_ok_iff.1 hgeometry
  rw [ProbeReport.stream?_source, Option.map_eq_some_iff] at hstream
  obtain ⟨probed, hfound, rfl⟩ := hstream
  obtain ⟨rfl, rfl⟩ := ProbeStream.sides_stream hwidth hheight
  rw [FrameSize.byteCount_after_pos_iff, FrameSize.byteCount_pos_iff, getD_zero_pos_iff,
    getD_zero_pos_iff, ProbeReport.TellsSize]
  refine or_congr_right ⟨?_, ?_⟩
  · rintro ⟨⟨w, hw, hwpos⟩, h, hh, hhpos⟩
    exact ⟨probed, w, h, hfound, hw, hh, hwpos, hhpos⟩
  · rintro ⟨s, w, h, hs, hw, hh, hwpos, hhpos⟩
    obtain rfl : probed = s := Option.some.inj (hfound.symm.trans hs)
    exact ⟨⟨w, hw, hwpos⟩, h, hh, hhpos⟩

/-- The frames of a job on a probed source have two sides exactly if the report tells them, or
    if a change of size asks for one. If they have, and the number of their bytes is a word, every
    frame that is read leaves less to be read, and a graded conversion comes to its end whatever its
    programs do and whatever is answered. If they have not, it has no end unless it is cancelled,
    once its programs have been started. A conversion into an animation ends in any case. -/
theorem ends_iff_tellsSize (t : Tools) (g : Grading)
    (hjob : prepare passthrough id input output recipe (report.source name) hint = .ok j)
    (hgeometry : j.frameGeometry = .ok (video, size)) :
    let sized := (∃ box, recipe.filters.resize = some box ∧ (0 < box.width ∨ 0 < box.height)) ∨
      report.TellsSize video
    (1 ≤ size.width ∧ 1 ≤ size.height ↔ sized) ∧
      (sized → 4 * (size.width.toNat * size.height.toNat) < 2 ^ 64 →
        (∀ stream frame rest, nextFrame? size.bufferLength [] stream = some (frame, rest) →
          (Delivery.output rest).length < (Delivery.output stream).length) ∧
        ∀ launcher, (t.convertGraded j g).Returns launcher ∧
          ∀ schedule r, ((t.convertGraded j g).play launcher schedule r).1.isSome = true) ∧
      (¬ sized → ∀ launcher : Launcher, (∀ call, ∃ run, launcher call = .ok run) →
        ∀ r, ((t.convertGraded j g).play launcher .never r).1 = none) ∧
      ∀ launcher, (t.convertAnimation j).Returns launcher := by
  intro sized
  have hsized : 0 < size.byteCount ↔ sized := byteCount_pos_iff_tellsSize hjob hgeometry
  have hside : ∀ n : UInt32, 1 ≤ n ↔ 0 < n := fun n => by
    rw [UInt32.le_iff_toNat_le, UInt32.lt_iff_toNat_lt]
    exact Iff.rfl
  refine ⟨?_, fun h hfits => ?_, fun h launcher hstarts r => ?_,
    fun launcher => Tools.returns_convertAnimation⟩
  · rw [hside, hside, ← FrameSize.byteCount_pos_iff, hsized]
  · have hword : size.byteCount < UInt64.size := by rwa [Nat.mul_comm] at hfits
    have hbuffer : 0 < size.bufferLength := by
      rw [FrameSize.bufferLength_eq hword]
      exact hsized.2 h
    refine ⟨fun stream frame rest => length_output_lt_of_nextFrame? hbuffer, fun launcher => ?_⟩
    have hreturns : (t.convertGraded j g).Returns launcher :=
      Tools.returns_convertGraded hgeometry hbuffer
    exact ⟨hreturns, hreturns.isSome_play⟩
  · exact Tools.play_convertGraded_never hstarts hgeometry
      (Nat.eq_zero_of_not_pos (mt hsized.1 h)) r

/-- The recipe of tokens that ask for other colours. -/
def hueRecipe : Recipe := .read ["-map", "0:v:0", "-vf", "eq=hue=5"] "out.mkv"

/-- A video in other colours is converted whatever is told of it. -/
theorem exists_prepare_hueRecipe (width height : Option UInt32) :
    ∃ j, prepare true 1 "clip.mkv" "out.mkv" hueRecipe
        ((ProbeReport.ofVideo width height).source "clip.mkv") none = .ok j ∧
      j.frameGeometry = .ok (0, ⟨width.getD 0, height.getD 0⟩) := by
  have hresize : hueRecipe.filters.resize = none := by decide +kernel
  refine ⟨_, prepare_eq_ok_iff.2 ⟨rfl, rfl⟩, frameGeometry_eq_ok_iff.2
    ⟨_, _, _, _, rfl, rfl, rfl, rfl, rfl, ?_⟩⟩
  rw [hresize]
  rfl

/-- The frames of a video whose size is told come to an end. -/
theorem ends_iff_tellsSize_told :
    let report := ProbeReport.ofVideo (some 4) (some 2)
    ∃ j, prepare true 1 "clip.mkv" "out.mkv" hueRecipe (report.source "clip.mkv") none = .ok j ∧
      j.frameGeometry = .ok (0, ⟨4, 2⟩) ∧ report.TellsSize 0 ∧
      ∀ (t : Tools) (g : Grading) (launcher : Launcher), (t.convertGraded j g).Returns launcher ∧
        ∀ schedule r, ((t.convertGraded j g).play launcher schedule r).1.isSome = true := by
  intro report
  obtain ⟨j, hj, hgeometry⟩ := exists_prepare_hueRecipe (some 4) (some 2)
  have htold : report.TellsSize 0 := ⟨_, 4, 2, rfl, rfl, rfl, by decide, by decide⟩
  exact ⟨j, hj, hgeometry, htold,
    fun t g => ((ends_iff_tellsSize t g hj hgeometry).2.1 (.inr htold) (by decide)).2⟩

/-- A report need not tell the size of a video, and then its frames hold nothing and do not come
    to an end. -/
theorem not_ends_untold :
    let report := ProbeReport.ofVideo none none
    ProbeReport.ofBytes?
        "\x7b\"streams\":[\x7b\"index\":0,\"codec_type\":\"video\"\x7d]\x7d".toUTF8.toList = some report ∧
      ∃ j, prepare true 1 "clip.mkv" "out.mkv" hueRecipe (report.source "clip.mkv") none = .ok j ∧
        j.frameGeometry = .ok (0, ⟨0, 0⟩) ∧
        ∀ (t : Tools) (g : Grading) (launcher : Launcher), (∀ call, ∃ run, launcher call = .ok run) →
          ∀ r, ((t.convertGraded j g).play launcher .never r).1 = none := by
  intro report
  obtain ⟨j, hj, hgeometry⟩ := exists_prepare_hueRecipe none none
  exact ⟨by decide +kernel, j, hj, hgeometry, fun t g launcher hstarts =>
    Tools.play_convertGraded_never hstarts hgeometry rfl⟩

end Job

end VideoExport
