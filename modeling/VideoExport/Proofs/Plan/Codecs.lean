import VideoExport.Proofs.Plan.Output
import VideoExport.Proofs.Plan.Recipe

/-!
# What was decided is what is read

The settings of an export are known only to whoever makes the plan, and whoever
carries it out has nothing but tokens. Everything that was decided about codecs,
rates and tracks can be told from these: from every plan of video that is made
at all, whatever the settings and the source.

* `Settings.effectiveCodec`, `RateControl.effective`: what an export comes down
  to once codecs and rates are within what container and encoder can do;
* `Plan.IsRecovered`: what a recipe has to say about a plan;
* `Plan.isRecovered_read`: what is read of the tokens of a plan says so.
-/

namespace VideoExport

open Number

/-! ## Effective settings -/

/-- The codec that is asked for, by the preset if there is one. -/
def Settings.requestedCodec (s : Settings) : VideoCodec :=
  (s.chosenPreset?.map (·.codec)).getD s.videoCodec

/-- The rate control that is asked for, by the preset if there is one. -/
def Settings.requestedRate (s : Settings) : RateControl :=
  (s.chosenPreset?.map (·.rateControl)).getD s.rateControl

/-- The codec to encode with: the requested one, or that of the container if it
    cannot hold the requested one. -/
def Settings.effectiveCodec (s : Settings) : VideoCodec :=
  if s.requestedCodec.fits s.container then s.requestedCodec else VideoCodec.default s.container

/-- A preset takes the place of the settings. -/
theorem Settings.codec_videoRequest (s : Settings) :
    (s.videoRequest s.chosenPreset?).codec = s.requestedCodec := by
  rw [requestedCodec]
  cases s.chosenPreset? <;> rfl

theorem Settings.rateControl_videoRequest (s : Settings) :
    (s.videoRequest s.chosenPreset?).rateControl = s.requestedRate := by
  rw [requestedRate]
  cases s.chosenPreset? <;> rfl

theorem Settings.encodedCodec_chosenPreset? (s : Settings) :
    s.encodedCodec s.chosenPreset? = s.effectiveCodec := by
  rw [encodedCodec, codec_videoRequest]
  rfl

/-- The codec to encode sound with, likewise. -/
def Settings.effectiveAudioCodec (s : Settings) : AudioCodec :=
  if s.container.holdsAudio s.audioCodec.name then s.audioCodec else AudioCodec.default s.container

/-- The numbers that control the rate of video. -/
structure RateNumbers where
  crf : Option ℕ
  qp : Option ℕ
  kbps : Option ℕ
  maxKbps : Option ℕ
  bufferKbps : Option ℕ
  deriving DecidableEq, Repr

/-- The numbers that a recipe has. -/
def VideoRecipe.rateNumbers (v : VideoRecipe) : RateNumbers :=
  ⟨v.crf.map (·.toNat), v.qp.map (·.toNat), v.kbps.map (·.toNat), v.maxKbps.map (·.toNat),
    v.bufferKbps.map (·.toNat)⟩

/-- The numbers that a codec's encoder follows: a quality within its range, for
    a quantizer too if it does not know one, and a rate that is not too low,
    with a ceiling and a buffer made from it. -/
def RateControl.effective (c : VideoCodec) : RateControl → RateNumbers
  | .crf value => ⟨some (clamped value), none, none, none, none⟩
  | .qp value =>
    if c = .h264 ∨ c = .hevc then ⟨none, some value.toNat, none, none, none⟩
    else ⟨some (clamped value), none, none, none, none⟩
  | .bitrate kbps =>
    let target := max kbps.toNat 150
    ⟨none, none, some target, some (min ((5 * target + 2) / 4) 4294967295),
      some (max (min (2 * target) 4294967295) 300)⟩
where
  /-- A quality within the range of the codec's encoder. -/
  clamped (value : UInt8) : ℕ := max c.crfRange.1.toNat (min value.toNat c.crfRange.2.toNat)

theorem toNat_clampCrf (c : VideoCodec) (value : UInt8) :
    (c.clampCrf value).toNat = RateControl.effective.clamped c value := by
  have hrange : c.crfRange.1.toNat ≤ c.crfRange.2.toNat := by cases c <;> decide
  rw [VideoCodec.clampCrf, RateControl.effective.clamped]
  split_ifs with hlow hhigh
  · rw [UInt8.lt_iff_toNat_lt] at hlow
    omega
  · rw [UInt8.lt_iff_toNat_lt] at hlow hhigh
    omega
  · rw [UInt8.lt_iff_toNat_lt] at hlow hhigh
    omega

/-- What an encoder is told to follow are the effective numbers. -/
theorem rateNumbers_follow (c : VideoCodec) (rate : RateControl) (encoder : String) :
    ((VideoRecipe.encoded encoder).withRate (c.follow rate)).rateNumbers = rate.effective c := by
  cases rate with
  | crf value =>
    simp [VideoCodec.follow, VideoRecipe.withRate, VideoRecipe.rateNumbers, RateControl.effective,
      VideoRecipe.encoded, VideoRecipe.empty, toNat_clampCrf]
  | qp value =>
    cases c <;>
      simp [VideoCodec.follow, VideoCodec.knowsMode, VideoCodec.rateModes, VideoRecipe.withRate,
        VideoRecipe.rateNumbers, RateControl.effective, VideoRecipe.encoded, VideoRecipe.empty,
        toNat_clampCrf]
  | bitrate kbps =>
    simp [VideoCodec.follow, VideoRecipe.withRate, VideoRecipe.rateNumbers, RateControl.effective,
      VideoRecipe.encoded, VideoRecipe.empty, RateBudget.toNat_ceiling, RateBudget.toNat_buffer,
      RateBudget.toNat_target, Nat.min_comm]

theorem toNat_clampAudioRate (kbps : UInt32) :
    (clampAudioRate kbps).toNat = max 32 (min kbps.toNat 512) := by
  have hlow : audioRates.1.toNat = 32 := rfl
  have hhigh : audioRates.2.toNat = 512 := rfl
  rw [clampAudioRate]
  split_ifs with h h' <;> simp only [UInt32.lt_iff_toNat_lt] at * <;> omega

/-! ## What is recovered -/

namespace Plan

/-- What a recipe has to say about a plan that was made for settings and a
    source: everything that was decided about codecs, rates and tracks. -/
structure IsRecovered (threads : Option UInt32) (s : Settings) (source : Source) (p : Plan)
    (r : Recipe) : Prop where
  container : r.container = s.container
  primaryVideo : r.primaryVideo = true
  video_copy : r.video.copy = p.videoCopy
  /-- What is copied has neither an encoder nor a rate. -/
  video_copied : p.videoCopy = true →
    r.video.codec = none ∧ r.video.transcode = false ∧
      r.video.rateNumbers = ⟨none, none, none, none, none⟩
  video_encoded : p.videoCopy = false →
    r.video.codec = some s.effectiveCodec.encoder ∧ r.video.transcode = true ∧
      r.video.rateNumbers = s.requestedRate.effective s.effectiveCodec
  audio_copy : r.audio.copy = (p.audioCopy == some true)
  audio_encoded : p.audioCopy = some false →
    r.audio.codec = some s.effectiveAudioCodec.encoder ∧
      r.audio.kbps.map (·.toNat) = some (max 32 (min s.audioKbps.toNat 512))
  audio_absent : p.audioCopy ≠ some false → r.audio.codec = none ∧ r.audio.kbps = none
  /-- A number of threads is asked for unless it is left open. -/
  threads_eq : r.threads = threads.filter (0 < ·)
  threads_sent : ∀ n, r.threads = some n ↔ .threads n ∈ p.directives
  subtitleCodec_sent : ∀ name, r.subtitleCodec = some name ↔ .subtitleCodec name ∈ p.directives
  /-- All sound is asked for at once if it was selected so and there is some. -/
  allAudio : r.allAudio = true ↔ s.audioTracks.mode = .all ∧ p.output.audioTracks ≠ []
  /-- And likewise all subtitles, if none of them had to be left out. -/
  allSubtitles : r.allSubtitles = true ↔
    s.subtitleTracks.mode = .all ∧ p.output.subtitleTracks ≠ [] ∧
      p.output.subtitleTracks = (source.ofKind .subtitle).map (·.index)
  tracks_ordered : r.tracks.Pairwise (· < ·)
  mem_tracks : ∀ i, i ∈ r.tracks ↔
    (r.allAudio = false ∧ i ∈ p.output.audioTracks) ∨
      (r.allSubtitles = false ∧ i ∈ p.output.subtitleTracks)

/-- Nothing that has to be said is about times or speed. -/
theorem IsRecovered.of_core {threads : Option UInt32} {s : Settings} {source : Source} {p : Plan}
    {r : Recipe} (h : IsRecovered threads s source p r.core) : IsRecovered threads s source p r where
  container := h.container
  primaryVideo := h.primaryVideo
  video_copy := h.video_copy
  video_copied := h.video_copied
  video_encoded := h.video_encoded
  audio_copy := h.audio_copy
  audio_encoded := h.audio_encoded
  audio_absent := h.audio_absent
  threads_eq := h.threads_eq
  threads_sent := h.threads_sent
  subtitleCodec_sent := h.subtitleCodec_sent
  allAudio := h.allAudio
  allSubtitles := h.allSubtitles
  tracks_ordered := h.tracks_ordered
  mem_tracks := h.mem_tracks

variable {threads : Option UInt32} {s : Settings} {source : Source} {primary : Stream}
  {preset : Option Preset}

/-! ### Directives that are there once -/

/-- The codec of subtitles is told by the only directive of its flag. -/
theorem subtitleCodec_mem_ofVideo {name : String} :
    .subtitleCodec name ∈ (ofVideo threads s source primary preset).directives ↔
      Recipe.subtitleName? (s.subtitleChoice source) source s.container = some name := by
  rw [mem_ofVideo_iff (f := .subtitleCodec) rfl]
  show _ ∈ ((s.subtitleChoice source).codec? source s.container).toList ↔ _
  rw [SubtitleChoice.codec?, Recipe.subtitleName?]
  split <;> simp

/-- And so is the number of threads. -/
theorem threads_mem_ofVideo {n : UInt32} :
    .threads n ∈ (ofVideo threads s source primary preset).directives ↔
      threads.filter (0 < ·) = some n := by
  rw [mem_ofVideo_iff (f := .threads) rfl]
  show _ ∈ (threadsDirective? threads).toList ↔ _
  rw [threadsDirective?]
  cases threads.filter (0 < ·) <;> simp [eq_comm]

/-! ### Recovery -/

/-- The recipe of a plan says all there is to say. -/
theorem isRecovered_recipeOfVideo :
    IsRecovered threads s source (ofVideo threads s source primary s.chosenPreset?)
      (recipeOfVideo threads s source primary s.chosenPreset? (exportName source s.container)) where
  container := by
    simp only [recipeOfVideo]
    exact ofOutput_exportName source s.container
  primaryVideo := rfl
  video_copy := by
    rw [recipeOfVideo]
    generalize (s.encodedCodec _).follow _ = rate
    cases (ofVideo threads s source primary s.chosenPreset?).videoCopy with
    | true => rfl
    | false => cases rate <;> rfl
  video_copied := by
    intro h
    rw [recipeOfVideo]
    rw [h]
    exact ⟨rfl, rfl, rfl⟩
  video_encoded := by
    intro h
    have hnumbers := rateNumbers_follow s.effectiveCodec s.requestedRate s.effectiveCodec.encoder
    rw [recipeOfVideo]
    rw [h, Settings.encodedCodec_chosenPreset?, Settings.rateControl_videoRequest]
    refine ⟨?_, ?_, hnumbers⟩
    · cases s.effectiveCodec.follow s.requestedRate <;> rfl
    · cases s.effectiveCodec.follow s.requestedRate <;> rfl
  audio_copy := by
    rw [recipeOfVideo]
    generalize (ofVideo threads s source primary s.chosenPreset?).audioCopy = copy
    rcases copy with _ | _ | _ <;> rfl
  audio_encoded := by
    intro h
    rw [recipeOfVideo]
    rw [h]
    exact ⟨rfl, congrArg some (toNat_clampAudioRate s.audioKbps)⟩
  audio_absent := by
    rw [recipeOfVideo]
    generalize (ofVideo threads s source primary s.chosenPreset?).audioCopy = copy
    rcases copy with _ | _ | _
    · exact fun _ => ⟨rfl, rfl⟩
    · exact fun h => absurd rfl h
    · exact fun _ => ⟨rfl, rfl⟩
  threads_eq := rfl
  threads_sent := fun _ => threads_mem_ofVideo.symm
  subtitleCodec_sent := fun _ => subtitleCodec_mem_ofVideo.symm
  allAudio := by
    show (_ && _) = true ↔ _
    rw [Bool.and_eq_true, Selection.wildcard_resolve, Bool.not_eq_true', List.isEmpty_eq_false_iff]
    rfl
  allSubtitles := by
    show (_ && _) = true ↔ _
    rw [Bool.and_eq_true, Settings.wildcard_subtitleChoice, Bool.not_eq_true', List.isEmpty_eq_false_iff,
      and_assoc]
    exact and_congr_right fun _ => and_comm
  tracks_ordered :=
    Recipe.pairwise_insertTracks _ (Recipe.pairwise_insertTracks _ List.Pairwise.nil)
  mem_tracks := fun _ => mem_tracks_recipeOfVideo

/-- Everything that was decided about codecs, rates and tracks can be told from
    the tokens of a plan and the name of its output, unless it is an animation. -/
theorem isRecovered_read {p : Plan} (h : compile threads s source = .ok p)
    (hk : s.container ≠ .gif) :
    IsRecovered threads s source p (Recipe.read p.tokens p.output.fileName) := by
  obtain ⟨primary, -, ⟨hgif, -⟩ | ⟨-, hp, hread⟩⟩ := core_read_cases h p.output.fileName
  · exact absurd hgif hk
  · refine IsRecovered.of_core ?_
    rw [hread, hp]
    exact isRecovered_recipeOfVideo

/-- So it is for a plan of the settings to start with. -/
theorem isRecovered_read_default :
    ∃ p, compile none .default .sample = .ok p ∧ Settings.default.container ≠ .gif ∧
      IsRecovered none .default .sample p (Recipe.read p.tokens p.output.fileName) := by
  obtain ⟨p, hp⟩ := exists_compile none .default .sample rfl rfl rfl
  have hk : Settings.default.container ≠ .gif := by decide
  exact ⟨p, hp, hk, isRecovered_read hp hk⟩

end Plan

end VideoExport
