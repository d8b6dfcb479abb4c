import VideoExport.Proofs.Plan.Codecs
import VideoExport.Proofs.Plan.Decisions
import VideoExport.Proofs.Plan.Filters

/-!
# Nothing is changed in silence

Where a request cannot be met, the plan that comes closest is made. Whoever
reads its warnings knows all that was changed, and nothing that they say is
untrue: each kind of warning is there exactly if the rest of the plan, the
settings and the source show the change, with the values that it comes with,
and no warning is there twice.

* `Selection.named`: the tracks that a selection asks for, there or not;
* `PlanWarning.IsTrueOf`: what each warning says of a plan;
* `Plan.IsDisclosed`, `Plan.isDisclosed`: the warnings of an export with sound
  and subtitles are those that are true of it.
-/

namespace VideoExport

/-! ## Tracks that are asked for -/

/-- The tracks of a kind that a selection asks for, whether they are there or
    not. -/
def Selection.named (sel : Selection) (source : Source) (kind : MediaKind) : List UInt64 :=
  match sel.mode with
  | .all => (source.ofKind kind).map (·.index)
  | .single => sel.selected.toList

namespace Selection

variable {sel : Selection} {source : Source} {kind : MediaKind} {i : UInt64}

theorem resolve_single_of_mem (h : i ∈ (source.ofKind kind).map (·.index)) :
    resolve ⟨.single, some i⟩ source kind = ⟨[i], false, .none⟩ :=
  if_pos (by simpa [List.any_eq_true] using h)

theorem resolve_single_of_notMem (h : i ∉ (source.ofKind kind).map (·.index)) :
    resolve ⟨.single, some i⟩ source kind = ⟨[], false, some i⟩ :=
  if_neg (by simpa [List.any_eq_true] using h)

/-- A track is chosen if it is asked for and there. -/
theorem mem_resolve_iff : i ∈ (sel.resolve source kind).indices ↔
    i ∈ sel.named source kind ∧ i ∈ (source.ofKind kind).map (·.index) := by
  obtain ⟨_ | _, _ | index⟩ := sel
  case all.none | all.some => exact (and_self_iff).symm
  case single.none => exact ⟨nofun, fun h => nomatch h.1⟩
  case single.some =>
    show _ ↔ i ∈ [index] ∧ _
    by_cases h : index ∈ (source.ofKind kind).map (·.index)
    · rw [resolve_single_of_mem h]
      exact (and_iff_left_of_imp fun he => List.mem_singleton.1 he ▸ h).symm
    · rw [resolve_single_of_notMem h]
      exact ⟨nofun, fun ⟨he, hmem⟩ => absurd (List.mem_singleton.1 he ▸ hmem) h⟩

/-- And it is missing if it is asked for and not there. -/
theorem missing_resolve_iff : (sel.resolve source kind).missing = some i ↔
    i ∈ sel.named source kind ∧ i ∉ (source.ofKind kind).map (·.index) := by
  obtain ⟨_ | _, _ | index⟩ := sel
  case all.none | all.some => exact ⟨nofun, fun h => absurd h.1 h.2⟩
  case single.none => exact ⟨nofun, fun h => nomatch h.1⟩
  case single.some =>
    show _ ↔ i ∈ [index] ∧ _
    rw [List.mem_singleton]
    by_cases h : index ∈ (source.ofKind kind).map (·.index)
    · rw [resolve_single_of_mem h]
      exact ⟨nofun, fun ⟨he, hno⟩ => absurd (he ▸ h) hno⟩
    · rw [resolve_single_of_notMem h]
      exact ⟨fun he => ⟨(Option.some.inj he).symm, Option.some.inj he ▸ h⟩,
        fun he => congrArg some he.1.symm⟩

end Selection

namespace Source

variable {source : Source}

theorem nodup_ofKind (hindex : (source.streams.map (·.index)).Nodup) (kind : MediaKind) :
    ((source.ofKind kind).map (·.index)).Nodup :=
  hindex.sublist (List.filter_sublist.map _)

theorem codecOf_index (hindex : (source.streams.map (·.index)).Nodup) {a : Stream}
    (ha : a ∈ source.streams) : source.codecOf a.index = a.codec := by
  rw [codecOf, stream?_index hindex ha]
  rfl

/-- Only one stream has the index that it has. -/
theorem filter_index_eq {l : List Stream} (hnodup : (l.map (·.index)).Nodup) {a : Stream}
    (ha : a ∈ l) : l.filter (·.index = a.index) = [a] := by
  obtain ⟨before, after, rfl⟩ := List.append_of_mem ha
  rw [List.map_append, List.map_cons, List.nodup_middle, List.nodup_cons, List.mem_append,
    not_or] at hnodup
  have hnone : ∀ m : List Stream, a.index ∉ m.map (·.index) →
      m.filter (·.index = a.index) = [] := by
    intro m hm
    rw [List.filter_eq_nil_iff]
    exact fun b hb he => hm (List.mem_map.2 ⟨b, hb, of_decide_eq_true he⟩)
  rw [List.filter_append, List.filter_cons_of_pos (by simp), hnone before hnodup.1.1,
    hnone after hnodup.1.2, List.nil_append]

/-- The streams that are chosen are those that are asked for, in the order of
    their source. -/
theorem filterMap_stream?_resolve (hindex : (source.streams.map (·.index)).Nodup)
    (sel : Selection) (kind : MediaKind) :
    (sel.resolve source kind).indices.filterMap source.stream? =
      (source.ofKind kind).filter (·.index ∈ sel.named source kind) := by
  have hmem : ∀ a ∈ source.ofKind kind, source.stream? a.index = some a :=
    fun a ha => stream?_index hindex (mem_ofKind.1 ha).1
  obtain ⟨_ | _, _ | index⟩ := sel
  case all.none | all.some =>
    have hnamed := List.filter_eq_self.2 fun a (ha : a ∈ source.ofKind kind) =>
      decide_eq_true (List.mem_map_of_mem (f := (·.index)) ha)
    refine Eq.trans ?_ hnamed.symm
    rw [Selection.indices_resolve_all rfl, List.filterMap_map]
    exact (List.filterMap_congr hmem).trans List.filterMap_some
  case single.none => exact (List.filter_eq_nil_iff.2 fun a _ => by simp [Selection.named]).symm
  case single.some =>
    show _ = (source.ofKind kind).filter (·.index ∈ [index])
    simp only [List.mem_singleton]
    by_cases h : index ∈ (source.ofKind kind).map (·.index)
    · rw [Selection.resolve_single_of_mem h]
      obtain ⟨a, ha, rfl⟩ := List.mem_map.1 h
      rw [filter_index_eq (nodup_ofKind hindex kind) ha]
      simp [hmem a ha]
    · rw [Selection.resolve_single_of_notMem h]
      refine (List.filter_eq_nil_iff.2 fun a ha he => h ?_).symm
      exact List.mem_map.2 ⟨a, ha, of_decide_eq_true he⟩

end Source

theorem Selection.nodup_resolve {source : Source} (hindex : (source.streams.map (·.index)).Nodup)
    (sel : Selection) (kind : MediaKind) : (sel.resolve source kind).indices.Nodup := by
  obtain ⟨_ | _, _ | index⟩ := sel
  case all.none | all.some => exact Source.nodup_ofKind hindex kind
  case single.none => exact List.nodup_nil
  case single.some =>
    by_cases h : index ∈ (source.ofKind kind).map (·.index)
    · rw [resolve_single_of_mem h]
      exact List.nodup_singleton index
    · rw [resolve_single_of_notMem h]
      exact List.nodup_nil

/-! ## What warnings say -/

/-- The codecs of the tracks of sound that are asked for and are in the way of a
    copy: those that the container cannot hold and those that are not the
    target. -/
def Settings.refusedCodecs (s : Settings) (source : Source) (target : AudioCodec) : List String :=
  ((source.ofKind .audio).filter fun a => a.index ∈ s.audioTracks.named source .audio ∧
    (s.container.holdsAudio a.codec = false ∨
      AudioName.same a.codec target.name = false)).map (·.codec)

/-- What a warning says is true of a plan that was made for settings and a
    source. -/
inductive PlanWarning.IsTrueOf (s : Settings) (source : Source) (p : Plan) : PlanWarning → Prop
  /-- A copy of video was wanted, and there are filters instead. -/
  | filtered {text} (hkeep : s.keepVideo = true) (hcopy : p.videoCopy = false)
      (hfilter : .videoFilter text ∈ p.directives) : IsTrueOf s source p .copyOverriddenByFilters
  /-- A copy of video was wanted, and it is encoded although there are none. -/
  | uncopied {primary} (hkeep : s.keepVideo = true) (hcopy : p.videoCopy = false)
      (hfilter : ∀ text, .videoFilter text ∉ p.directives)
      (hprimary : source.primary? = some primary) :
      IsTrueOf s source p (.videoCopyIncompatible primary.codec s.container)
  /-- The container cannot hold what was asked for. -/
  | replaced (hfits : s.requestedCodec.fits s.container = false) :
      IsTrueOf s source p (.videoCodecIncompatible s.requestedCodec s.container s.effectiveCodec)
  /-- A quantizer was asked for, and this quality is sent to this encoder. -/
  | requantized {q codec crf} (hrate : s.requestedRate = .qp q)
      (hcodec : .videoCodec (.named codec.encoder) ∈ p.directives)
      (hcrf : .crf crf.toUInt32 ∈ p.directives) : IsTrueOf s source p (.qpUnsupported codec crf)
  /-- A copy of sound was wanted, and it is encoded. -/
  | audioForced {target} (hkeep : s.keepAudio = true)
      (htarget : .audioCodec (.named target.encoder) ∈ p.directives) :
      IsTrueOf s source p (.audioReencodeForced (s.refusedCodecs source target) s.container target)
  /-- Sound is encoded otherwise than was asked for. -/
  | audioReplaced {target} (htarget : .audioCodec (.named target.encoder) ∈ p.directives)
      (hne : target ≠ s.audioCodec) :
      IsTrueOf s source p (.audioCodecIncompatible s.audioCodec s.container target)
  /-- Sound that was asked for is not in the output. -/
  | audioMissing {i} (hnamed : i ∈ s.audioTracks.named source .audio)
      (hlost : i ∉ p.output.audioTracks) : IsTrueOf s source p (.selectedTrackMissing .audio i)
  /-- Subtitles that were asked for are not in the source. -/
  | subtitleMissing {i} (hnamed : i ∈ s.subtitleTracks.named source .subtitle)
      (hmissing : i ∉ (source.ofKind .subtitle).map (·.index)) :
      IsTrueOf s source p (.selectedTrackMissing .subtitle i)
  /-- Subtitles that were asked for are in the source but not in the output. -/
  | subtitleSkipped {a} (ha : a ∈ source.ofKind .subtitle)
      (hnamed : a.index ∈ s.subtitleTracks.named source .subtitle)
      (hlost : a.index ∉ p.output.subtitleTracks) :
      IsTrueOf s source p (.bitmapSubtitleSkipped a.index a.codec s.container)

/-- What an export decides on and warnings are about. -/
inductive PlanWarning.Topic
  | codec
  | copy
  | rate
  | sound
  | subtitles
  deriving DecidableEq

/-- What a warning is about. -/
def PlanWarning.topic : PlanWarning → Topic
  | videoCodecIncompatible _ _ _ => .codec
  | copyOverriddenByFilters | videoCopyIncompatible _ _ => .copy
  | qpUnsupported _ _ => .rate
  | audioReencodeForced _ _ _ | audioCodecIncompatible _ _ _ => .sound
  | bitmapSubtitleSkipped _ _ _ => .subtitles
  | selectedTrackMissing kind _ | tracksDropped kind _ _ =>
    if kind = .audio then .sound else .subtitles

/-- The warnings of a plan disclose all that was changed, and nothing else. -/
structure Plan.IsDisclosed (s : Settings) (source : Source) (p : Plan) : Prop where
  nodup : p.warnings.Nodup
  mem_warnings : ∀ w, w ∈ p.warnings ↔ w.IsTrueOf s source p
  /-- That video is not copied is said once, and for one reason. -/
  copy_refused : (p.warnings.filter (·.topic = .copy)).length =
    if s.keepVideo = true ∧ p.videoCopy = false then 1 else 0
  rate_replaced : (∃ codec crf, .qpUnsupported codec crf ∈ p.warnings) ↔
    (∃ q, s.requestedRate = .qp q) ∧ p.videoCopy = false ∧ ∃ value, .crf value ∈ p.directives
  audio_forced : (∃ codecs k target, .audioReencodeForced codecs k target ∈ p.warnings) ↔
    s.keepAudio = true ∧ p.audioCopy = some false
  audio_replaced : (∃ requested k target, .audioCodecIncompatible requested k target ∈ p.warnings) ↔
    p.audioCopy = some false ∧ .audioCodec (.named s.audioCodec.encoder) ∉ p.directives
  audio_lost : ∀ i, i ∈ s.audioTracks.named source .audio ∧ i ∉ p.output.audioTracks ↔
    .selectedTrackMissing .audio i ∈ p.warnings
  subtitle_lost : ∀ i, i ∈ s.subtitleTracks.named source .subtitle ∧ i ∉ p.output.subtitleTracks ↔
    .selectedTrackMissing .subtitle i ∈ p.warnings ∨
      ∃ codec k, .bitmapSubtitleSkipped i codec k ∈ p.warnings

/-! ## What is sent -/

theorem VideoCodec.encoder_injective : Function.Injective VideoCodec.encoder := by
  intro a b h
  rw [← Option.some_inj, ← alias?_encoder, h, alias?_encoder]

theorem AudioCodec.encoder_injective : Function.Injective AudioCodec.encoder := by
  intro a b h
  rw [← Option.some_inj, ← alias?_encoder, h, alias?_encoder]

namespace Plan

variable {threads : Option UInt32} {s : Settings} {source : Source} {primary : Stream}
  {preset : Option Preset}

/-- An encoder is sent for video if this is not copied. -/
theorem videoCodec_mem_ofVideo {c : VideoCodec} :
    .videoCodec (.named c.encoder) ∈ (ofVideo threads s source primary preset).directives ↔
      (ofVideo threads s source primary preset).videoCopy = false ∧ c = s.encodedCodec preset := by
  rw [mem_ofVideo_iff (f := .videoCodec) rfl]
  show _ ∈ (if _ then _ else _) ↔ _
  cases (ofVideo threads s source primary preset).videoCopy with
  | true => simp
  | false =>
    have hrate : .videoCodec (.named c.encoder) ∉
        ((s.encodedCodec preset).follow (s.videoRequest preset).rateControl).directives := by
      intro h
      have := flag?_of_mem_rateControl h
      simp [rateFlags, Directive.flag?] at this
    simp [Settings.encodeDirectives, hrate, VideoCodec.encoder_injective.eq_iff]

/-- And a quality if the rate control comes down to it. -/
theorem crf_mem_ofVideo {value : UInt32} :
    .crf value ∈ (ofVideo threads s source primary preset).directives ↔
      (ofVideo threads s source primary preset).videoCopy = false ∧
        .crf value ∈
          ((s.encodedCodec preset).follow (s.videoRequest preset).rateControl).directives := by
  rw [mem_ofVideo_iff (f := .crf) rfl]
  show _ ∈ (if _ then _ else _) ↔ _
  cases (ofVideo threads s source primary preset).videoCopy with
  | true => simp
  | false => simp [Settings.encodeDirectives]

/-- An encoder is sent for sound if there is some and it is not copied. -/
theorem audioCodec_mem_ofVideo {c : AudioCodec} :
    .audioCodec (.named c.encoder) ∈ (ofVideo threads s source primary preset).directives ↔
      (ofVideo threads s source primary preset).audioCopy = some false ∧
        c = s.effectiveAudioCodec := by
  rw [mem_ofVideo_iff (f := .audioCodec) rfl]
  show _ ∈ (s.audioChoice source (s.audioTracks.resolve source .audio)).directives ↔
    (s.audioChoice source (s.audioTracks.resolve source .audio)).copy = _ ∧ _
  rcases s.audioChoice_cases source (s.audioTracks.resolve source .audio) with
    ⟨-, hcopy, hds⟩ | ⟨-, -, hcopy, hds⟩ | ⟨-, hcopy, hds⟩
  · simp [hcopy, hds]
  · simp [hcopy, hds]
  · simp [hcopy, hds, AudioCodec.encoder_injective.eq_iff]
    rfl

end Plan

/-! ## What is said -/

/-- What is said of sound: what is missing, that it is not copied, and that it
    is of another codec. -/
theorem Settings.warnings_audioChoice (s : Settings) (source : Source) (tracks : ChosenTracks) :
    (s.audioChoice source tracks).warnings =
      tracks.missingWarnings .audio ++
        ((if s.keepAudio = true ∧ (s.audioChoice source tracks).copy = some false then
          [.audioReencodeForced (blockedCodecs source tracks.indices s.container s.effectiveAudioCodec)
            s.container s.effectiveAudioCodec] else []) ++
        if (s.audioChoice source tracks).copy = some false ∧ s.effectiveAudioCodec ≠ s.audioCodec then
          [.audioCodecIncompatible s.audioCodec s.container s.effectiveAudioCodec] else []) := by
  have htarget : s.effectiveAudioCodec = s.audioCodec.within s.container := rfl
  rw [audioChoice, htarget]
  generalize s.audioCodec.within s.container = target
  by_cases hnone : tracks.indices.isEmpty
  · simp [hnone]
  · simp only [hnone]
    cases hkeep : s.keepAudio with
    | false => simp
    | true => cases hblocked : blockedCodecs source tracks.indices s.container target <;> simp

namespace Plan

variable {threads : Option UInt32} {s : Settings} {source : Source} {primary : Stream}

/-- What is said if video is to be copied and is not. -/
def refusal (primary : Stream) (k : Container) (filtered : Bool) : PlanWarning :=
  if filtered then .copyOverriddenByFilters else .videoCopyIncompatible primary.codec k

/-- What is in the way of a copy is what is said. -/
theorem eq_refusal_of_copyObstacle? {k : Container} {filtered : Bool} {w : PlanWarning}
    (h : copyObstacle? primary k filtered = some w) : w = refusal primary k filtered := by
  rw [copyObstacle?] at h
  cases filtered with
  | true => exact (Option.some.inj h).symm
  | false =>
    cases hknown : VideoCodec.known? primary.codec with
    | none => simp [hknown] at h
    | some c =>
      cases hfits : c.fits k <;> simp [hknown, hfits] at h
      exact h.symm

variable (threads s source primary) in
/-- What is said of an export with sound and subtitles, by what it is about. -/
def warningsOn : PlanWarning.Topic → List PlanWarning
  | .codec =>
    if s.requestedCodec.fits s.container = false then
      [.videoCodecIncompatible s.requestedCodec s.container s.effectiveCodec]
    else []
  | .copy =>
    if s.keepVideo = true ∧ (ofVideo threads s source primary s.chosenPreset?).videoCopy = false then
      [refusal primary s.container (Filter.chain? (s.filterParts s.chosenPreset?)).isSome]
    else []
  | .rate =>
    if (ofVideo threads s source primary s.chosenPreset?).videoCopy = false then
      s.effectiveCodec.followWarnings s.requestedRate
    else []
  | .sound => (s.audioChoice source (s.audioTracks.resolve source .audio)).warnings
  | .subtitles => (s.subtitleChoice source).warnings

/-- What is said of a copy of video is why there is none although it is wanted. -/
theorem toList_copyObstacle? :
    (if s.keepVideo then copyObstacle? primary s.container
      (Filter.chain? (s.filterParts s.chosenPreset?)).isSome else none).toList =
      warningsOn threads s source primary .copy := by
  have hcopy : (ofVideo threads s source primary s.chosenPreset?).videoCopy = true ↔ _ :=
    videoCopy_ofVideo_iff
  simp only [warningsOn, ← Bool.not_eq_true (Plan.videoCopy _), hcopy]
  cases s.keepVideo with
  | false => simp
  | true =>
    cases hobstacle : copyObstacle? primary s.container
        (Filter.chain? (s.filterParts s.chosenPreset?)).isSome with
    | none => simp
    | some w => simp [eq_refusal_of_copyObstacle? hobstacle]

/-- Warnings come topic by topic. -/
theorem warnings_ofVideo :
    (ofVideo threads s source primary s.chosenPreset?).warnings =
      [.codec, .copy, .rate, .sound, .subtitles].flatMap (warningsOn threads s source primary) := by
  have hwithin : s.requestedCodec.withinWarnings s.container =
      warningsOn threads s source primary .codec := by
    rw [VideoCodec.withinWarnings, warningsOn, Settings.effectiveCodec]
    cases s.requestedCodec.fits s.container <;> rfl
  simp only [List.flatMap_cons, List.flatMap_nil, List.append_nil]
  rw [← hwithin, ← toList_copyObstacle?, warningsOn, warningsOn, warningsOn, ← s.codec_videoRequest,
    ← s.rateControl_videoRequest, ← s.encodedCodec_chosenPreset?]
  show _ ++ _ ++ (if (ofVideo threads s source primary s.chosenPreset?).videoCopy then [] else _) ++
    _ ++ _ = _
  simp only [List.append_assoc]
  cases (ofVideo threads s source primary s.chosenPreset?).videoCopy <;> rfl

theorem mem_warnings_ofVideo {w : PlanWarning} :
    w ∈ (ofVideo threads s source primary s.chosenPreset?).warnings ↔
      ∃ topic, w ∈ warningsOn threads s source primary topic := by
  rw [warnings_ofVideo, List.mem_flatMap]
  refine exists_congr fun topic => and_iff_right ?_
  cases topic <;> simp

end Plan

/-- What is said of a quantizer is what quality is sent in its place. -/
theorem VideoCodec.mem_followWarnings_iff {c : VideoCodec} {rate : RateControl} {w : PlanWarning} :
    w ∈ c.followWarnings rate ↔ ∃ q, rate = .qp q ∧
      ∃ crf, w = .qpUnsupported c crf ∧ .crf crf.toUInt32 ∈ (c.follow rate).directives := by
  cases rate with
  | crf value => simp [followWarnings]
  | bitrate kbps => simp [followWarnings]
  | qp value =>
    rw [followWarnings, follow]
    cases c.knowsMode .qp <;> simp [RateControl.directives, UInt8.toUInt32_inj]

theorem ChosenTracks.mem_missingWarnings_iff {t : ChosenTracks} {kind : MediaKind} {w : PlanWarning} :
    w ∈ t.missingWarnings kind ↔ ∃ i, t.missing = some i ∧ w = .selectedTrackMissing kind i := by
  simp [missingWarnings, eq_comm]

/-- What is said of subtitles is what is missing and what is left out. -/
theorem Settings.mem_warnings_subtitleChoice {s : Settings} {source : Source} {w : PlanWarning} :
    w ∈ (s.subtitleChoice source).warnings ↔
      (∃ i, (s.subtitleTracks.resolve source .subtitle).missing = some i ∧
        w = .selectedTrackMissing .subtitle i) ∨
      ∃ i ∈ (s.subtitleTracks.resolve source .subtitle).indices,
        i ∉ (s.subtitleChoice source).kept ∧
        w = .bitmapSubtitleSkipped i (source.codecOf i) s.container := by
  rw [subtitleChoice, SubtitleChoice.ofTracks]
  rw [List.mem_append, ChosenTracks.mem_missingWarnings_iff, List.mem_map]
  refine or_congr_right ?_
  simp only [List.mem_filter]
  constructor
  · rintro ⟨i, ⟨hi, hskip⟩, rfl⟩
    exact ⟨i, hi, by simp [hskip], rfl⟩
  · rintro ⟨i, hi, hlost, rfl⟩
    exact ⟨i, ⟨hi, by simpa [hi] using hlost⟩, rfl⟩

namespace Plan

variable {threads : Option UInt32} {s : Settings} {source : Source} {primary : Stream}

/-- What keeps sound from being copied is what of it was asked for. -/
theorem blockedCodecs_eq (hindex : (source.streams.map (·.index)).Nodup) (target : AudioCodec) :
    blockedCodecs source (s.audioTracks.resolve source .audio).indices s.container target =
      s.refusedCodecs source target := by
  rw [blockedCodecs, Source.filterMap_stream?_resolve hindex, List.filter_map, List.filter_filter,
    Settings.refusedCodecs]
  congr 2
  funext a
  rw [Bool.eq_iff_iff]
  simp [and_comm]

/-- What is said of sound is true. -/
theorem mem_audioWarnings_iff (hindex : (source.streams.map (·.index)).Nodup) {w : PlanWarning} :
    w ∈ (s.audioChoice source (s.audioTracks.resolve source .audio)).warnings ↔
      (∃ i, w = .selectedTrackMissing .audio i ∧ i ∈ s.audioTracks.named source .audio ∧
        i ∉ (ofVideo threads s source primary s.chosenPreset?).output.audioTracks) ∨
      (∃ target, w = .audioReencodeForced (s.refusedCodecs source target) s.container target ∧
        s.keepAudio = true ∧ .audioCodec (.named target.encoder) ∈
          (ofVideo threads s source primary s.chosenPreset?).directives) ∨
      ∃ target, w = .audioCodecIncompatible s.audioCodec s.container target ∧
        target ≠ s.audioCodec ∧ .audioCodec (.named target.encoder) ∈
          (ofVideo threads s source primary s.chosenPreset?).directives := by
  have hcopy : (ofVideo threads s source primary s.chosenPreset?).audioCopy =
    (s.audioChoice source (s.audioTracks.resolve source .audio)).copy := rfl
  have hlost : ∀ i, i ∈ s.audioTracks.named source .audio ∧
      i ∉ (ofVideo threads s source primary s.chosenPreset?).output.audioTracks ↔
      (s.audioTracks.resolve source .audio).missing = some i := by
    intro i
    show _ ∧ i ∉ (s.audioTracks.resolve source .audio).indices ↔ _
    rw [Selection.mem_resolve_iff, Selection.missing_resolve_iff]
    tauto
  rw [Settings.warnings_audioChoice, blockedCodecs_eq hindex, ← hcopy]
  simp only [List.mem_append, ChosenTracks.mem_missingWarnings_iff, List.mem_ite_nil_right,
    List.mem_singleton, audioCodec_mem_ofVideo, hlost]
  constructor
  · rintro (⟨i, hmissing, rfl⟩ | ⟨⟨hkeep, hfalse⟩, rfl⟩ | ⟨⟨hfalse, hne⟩, rfl⟩)
    · exact .inl ⟨i, rfl, hmissing⟩
    · exact .inr (.inl ⟨_, rfl, hkeep, hfalse, rfl⟩)
    · exact .inr (.inr ⟨_, rfl, hne, hfalse, rfl⟩)
  · rintro (⟨i, rfl, hmissing⟩ | ⟨_, rfl, hkeep, hfalse, rfl⟩ | ⟨_, rfl, hne, hfalse, rfl⟩)
    · exact .inl ⟨i, hmissing, rfl⟩
    · exact .inr (.inl ⟨⟨hkeep, hfalse⟩, rfl⟩)
    · exact .inr (.inr ⟨⟨hfalse, hne⟩, rfl⟩)

/-- A refusal of a copy says whether there are filters. -/
theorem isTrueOf_refusal (hprimary : source.primary? = some primary) (hkeep : s.keepVideo = true)
    (hcopy : (ofVideo threads s source primary s.chosenPreset?).videoCopy = false) :
    (refusal primary s.container (Filter.chain? (s.filterParts s.chosenPreset?)).isSome).IsTrueOf s
      source (ofVideo threads s source primary s.chosenPreset?) := by
  cases hchain : Filter.chain? (s.filterParts s.chosenPreset?) with
  | some text => exact .filtered hkeep hcopy (videoFilter_mem_ofVideo.2 hchain)
  | none =>
    refine .uncopied hkeep hcopy (fun text htext => ?_) hprimary
    rw [videoFilter_mem_ofVideo, hchain] at htext
    cases htext

/-- The quality that takes the place of a quantizer is sent with its encoder. -/
theorem requantized_iff {codec : VideoCodec} {crf : UInt8} :
    .videoCodec (.named codec.encoder) ∈
        (ofVideo threads s source primary s.chosenPreset?).directives ∧
      .crf crf.toUInt32 ∈ (ofVideo threads s source primary s.chosenPreset?).directives ↔
    (ofVideo threads s source primary s.chosenPreset?).videoCopy = false ∧ codec = s.effectiveCodec ∧
      .crf crf.toUInt32 ∈ (s.effectiveCodec.follow s.requestedRate).directives := by
  rw [videoCodec_mem_ofVideo, crf_mem_ofVideo, s.encodedCodec_chosenPreset?,
    s.rateControl_videoRequest]
  tauto

/-- Exactly what is true of an export is said. -/
theorem mem_warnings_iff (hprimary : source.primary? = some primary)
    (hindex : (source.streams.map (·.index)).Nodup) {w : PlanWarning} :
    w ∈ (ofVideo threads s source primary s.chosenPreset?).warnings ↔
      w.IsTrueOf s source (ofVideo threads s source primary s.chosenPreset?) := by
  rw [mem_warnings_ofVideo]
  constructor
  · rintro ⟨topic, hw⟩
    cases topic with
    | codec =>
      obtain ⟨hfits, hw⟩ := List.mem_ite_nil_right.1 hw
      rw [List.mem_singleton.1 hw]
      exact .replaced hfits
    | copy =>
      obtain ⟨⟨hkeep, hcopy⟩, hw⟩ := List.mem_ite_nil_right.1 hw
      rw [List.mem_singleton.1 hw]
      exact isTrueOf_refusal hprimary hkeep hcopy
    | rate =>
      obtain ⟨hcopy, hw⟩ := List.mem_ite_nil_right.1 hw
      obtain ⟨q, hrate, crf, rfl, hcrf⟩ := VideoCodec.mem_followWarnings_iff.1 hw
      obtain ⟨hcodec, hcrf⟩ := requantized_iff.2 ⟨hcopy, rfl, hcrf⟩
      exact .requantized hrate hcodec hcrf
    | sound =>
      obtain ⟨i, rfl, hnamed, hlost⟩ | ⟨target, rfl, hkeep, htarget⟩ | ⟨target, rfl, hne, htarget⟩ :=
        (mem_audioWarnings_iff hindex).1 hw
      · exact .audioMissing hnamed hlost
      · exact .audioForced hkeep htarget
      · exact .audioReplaced htarget hne
    | subtitles =>
      obtain ⟨i, hmissing, rfl⟩ | ⟨i, hi, hlost, rfl⟩ := Settings.mem_warnings_subtitleChoice.1 hw
      · obtain ⟨hnamed, hmissing⟩ := Selection.missing_resolve_iff.1 hmissing
        exact .subtitleMissing hnamed hmissing
      · obtain ⟨hnamed, hi⟩ := Selection.mem_resolve_iff.1 hi
        obtain ⟨a, ha, rfl⟩ := List.mem_map.1 hi
        rw [Source.codecOf_index hindex (Source.mem_ofKind.1 ha).1]
        exact .subtitleSkipped ha hnamed hlost
  · intro h
    cases h with
    | filtered hkeep hcopy hfilter =>
      rw [videoFilter_mem_ofVideo] at hfilter
      refine ⟨.copy, List.mem_ite_nil_right.2 ⟨⟨hkeep, hcopy⟩, ?_⟩⟩
      rw [hfilter]
      exact List.mem_singleton_self _
    | uncopied hkeep hcopy hfilter hprimary' =>
      cases hprimary.symm.trans hprimary'
      have hchain : Filter.chain? (s.filterParts s.chosenPreset?) = none :=
        Option.eq_none_iff_forall_ne_some.2 fun text h => hfilter text (videoFilter_mem_ofVideo.2 h)
      refine ⟨.copy, List.mem_ite_nil_right.2 ⟨⟨hkeep, hcopy⟩, ?_⟩⟩
      rw [hchain]
      exact List.mem_singleton_self _
    | replaced hfits => exact ⟨.codec, List.mem_ite_nil_right.2 ⟨hfits, List.mem_singleton_self _⟩⟩
    | requantized hrate hcodec hcrf =>
      obtain ⟨hcopy, rfl, hcrf⟩ := requantized_iff.1 ⟨hcodec, hcrf⟩
      exact ⟨.rate, List.mem_ite_nil_right.2
        ⟨hcopy, VideoCodec.mem_followWarnings_iff.2 ⟨_, hrate, _, rfl, hcrf⟩⟩⟩
    | audioForced hkeep htarget =>
      exact ⟨.sound, (mem_audioWarnings_iff hindex).2 (.inr (.inl ⟨_, rfl, hkeep, htarget⟩))⟩
    | audioReplaced htarget hne =>
      exact ⟨.sound, (mem_audioWarnings_iff hindex).2 (.inr (.inr ⟨_, rfl, hne, htarget⟩))⟩
    | audioMissing hnamed hlost =>
      exact ⟨.sound, (mem_audioWarnings_iff hindex).2 (.inl ⟨_, rfl, hnamed, hlost⟩)⟩
    | subtitleMissing hnamed hmissing =>
      exact ⟨.subtitles, Settings.mem_warnings_subtitleChoice.2
        (.inl ⟨_, Selection.missing_resolve_iff.2 ⟨hnamed, hmissing⟩, rfl⟩)⟩
    | @subtitleSkipped a ha hnamed hlost =>
      refine ⟨.subtitles, Settings.mem_warnings_subtitleChoice.2 (.inr ⟨a.index, ?_, hlost, ?_⟩)⟩
      · exact Selection.mem_resolve_iff.2 ⟨hnamed, List.mem_map_of_mem ha⟩
      · rw [Source.codecOf_index hindex (Source.mem_ofKind.1 ha).1]

/-- A warning is among those on its topic. -/
theorem topic_of_mem_warningsOn {topic : PlanWarning.Topic} {w : PlanWarning}
    (h : w ∈ warningsOn threads s source primary topic) : w.topic = topic := by
  cases topic with
  | codec =>
    rw [List.mem_singleton.1 (List.mem_ite_nil_right.1 h).2]
    rfl
  | copy =>
    rw [List.mem_singleton.1 (List.mem_ite_nil_right.1 h).2, refusal]
    split <;> rfl
  | rate =>
    obtain ⟨q, -, crf, rfl, -⟩ := VideoCodec.mem_followWarnings_iff.1 (List.mem_ite_nil_right.1 h).2
    rfl
  | sound =>
    rw [warningsOn, Settings.warnings_audioChoice] at h
    simp only [List.mem_append, ChosenTracks.mem_missingWarnings_iff, List.mem_ite_nil_right,
      List.mem_singleton] at h
    obtain ⟨i, -, rfl⟩ | ⟨-, rfl⟩ | ⟨-, rfl⟩ := h <;> rfl
  | subtitles =>
    obtain ⟨i, -, rfl⟩ | ⟨i, -, -, rfl⟩ := Settings.mem_warnings_subtitleChoice.1 h <;> rfl

/-- Nothing is said twice on a topic. -/
theorem nodup_warningsOn (hindex : (source.streams.map (·.index)).Nodup) (topic : PlanWarning.Topic) :
    (warningsOn threads s source primary topic).Nodup := by
  cases topic with
  | codec => rw [warningsOn]; split <;> simp
  | copy => rw [warningsOn]; split <;> simp
  | rate =>
    rw [warningsOn]
    split
    · cases s.requestedRate with
      | qp value => rw [VideoCodec.followWarnings]; split <;> simp
      | crf value => exact List.nodup_nil
      | bitrate kbps => exact List.nodup_nil
    · exact List.nodup_nil
  | sound =>
    rw [warningsOn, Settings.warnings_audioChoice, ChosenTracks.missingWarnings]
    cases (s.audioTracks.resolve source .audio).missing <;> split <;> split <;> simp
  | subtitles =>
    rw [warningsOn, Settings.subtitleChoice, SubtitleChoice.ofTracks, ChosenTracks.missingWarnings]
    refine List.nodup_append'.2 ⟨?_, ?_, ?_⟩
    · cases (s.subtitleTracks.resolve source .subtitle).missing <;> simp
    · refine ((Selection.nodup_resolve hindex _ _).filter _).map fun i j h => ?_
      injection h
    · simp [List.disjoint_left]

/-- Nothing is said twice. -/
theorem nodup_warnings (hindex : (source.streams.map (·.index)).Nodup) :
    (ofVideo threads s source primary s.chosenPreset?).warnings.Nodup := by
  rw [warnings_ofVideo, List.nodup_flatMap]
  refine ⟨fun topic _ => nodup_warningsOn hindex topic, ?_⟩
  have hnodup : [PlanWarning.Topic.codec, .copy, .rate, .sound, .subtitles].Nodup := by decide
  refine hnodup.imp fun hne w h h' => hne ?_
  rw [← topic_of_mem_warningsOn h, topic_of_mem_warningsOn h']

/-- What is said on a topic is what is said of it. -/
theorem filter_topic_warnings (topic : PlanWarning.Topic) :
    (ofVideo threads s source primary s.chosenPreset?).warnings.filter (·.topic = topic) =
      warningsOn threads s source primary topic := by
  have hfilter : ∀ other, (warningsOn threads s source primary other).filter (·.topic = topic) =
      if other = topic then warningsOn threads s source primary topic else [] := by
    intro other
    split
    case isTrue h =>
      subst h
      exact List.filter_eq_self.2 fun w hw => decide_eq_true (topic_of_mem_warningsOn hw)
    case isFalse h =>
      refine List.filter_eq_nil_iff.2 fun w hw ht => h ?_
      rw [← topic_of_mem_warningsOn hw, of_decide_eq_true ht]
  rw [warnings_ofVideo]
  simp only [List.flatMap_cons, List.flatMap_nil, List.filter_append, hfilter]
  cases topic <;> simp

/-- What is sent of a quality is what is followed. -/
theorem crf_mem_directives {rate : RateControl} {value : UInt32} :
    .crf value ∈ rate.directives ↔ ∃ crf, rate = .crf crf ∧ value = crf.toUInt32 := by
  cases rate <;> simp [RateControl.directives]

/-- What an export changes is disclosed. -/
theorem isDisclosed_ofVideo (hprimary : source.primary? = some primary)
    (hindex : (source.streams.map (·.index)).Nodup) :
    IsDisclosed s source (ofVideo threads s source primary s.chosenPreset?) where
  nodup := nodup_warnings hindex
  mem_warnings := fun w => mem_warnings_iff hprimary hindex
  copy_refused := by
    rw [filter_topic_warnings, warningsOn]
    split <;> rfl
  rate_replaced := by
    simp only [mem_warnings_iff hprimary hindex]
    constructor
    · rintro ⟨codec, crf, h⟩
      cases h with
      | requantized hrate hcodec hcrf =>
        exact ⟨⟨_, hrate⟩, (videoCodec_mem_ofVideo.1 hcodec).1, _, hcrf⟩
    · rintro ⟨⟨q, hrate⟩, hcopy, value, hcrf⟩
      obtain ⟨crf, -, rfl⟩ := crf_mem_directives.1 (crf_mem_ofVideo.1 hcrf).2
      exact ⟨_, crf, .requantized hrate (videoCodec_mem_ofVideo.2 ⟨hcopy, rfl⟩) hcrf⟩
  audio_forced := by
    simp only [mem_warnings_iff hprimary hindex]
    constructor
    · rintro ⟨codecs, k, target, h⟩
      cases h with
      | audioForced hkeep htarget => exact ⟨hkeep, (audioCodec_mem_ofVideo.1 htarget).1⟩
    · rintro ⟨hkeep, hcopy⟩
      exact ⟨_, _, _, .audioForced hkeep (audioCodec_mem_ofVideo.2 ⟨hcopy, rfl⟩)⟩
  audio_replaced := by
    simp only [mem_warnings_iff hprimary hindex, audioCodec_mem_ofVideo]
    constructor
    · rintro ⟨requested, k, target, h⟩
      cases h with
      | audioReplaced htarget hne =>
        obtain ⟨hcopy, rfl⟩ := audioCodec_mem_ofVideo.1 htarget
        exact ⟨hcopy, fun h => hne h.2.symm⟩
    · rintro ⟨hcopy, hne⟩
      have hother : s.effectiveAudioCodec ≠ s.audioCodec := fun h => hne ⟨hcopy, h.symm⟩
      exact ⟨_, _, _, .audioReplaced (audioCodec_mem_ofVideo.2 ⟨hcopy, rfl⟩) hother⟩
  audio_lost := by
    intro i
    rw [mem_warnings_iff hprimary hindex]
    constructor
    · rintro ⟨hnamed, hlost⟩
      exact .audioMissing hnamed hlost
    · intro h
      cases h with
      | audioMissing hnamed hlost => exact ⟨hnamed, hlost⟩
  subtitle_lost := by
    intro i
    simp only [mem_warnings_iff hprimary hindex]
    constructor
    · rintro ⟨hnamed, hlost⟩
      by_cases hi : i ∈ (source.ofKind .subtitle).map (·.index)
      · obtain ⟨a, ha, rfl⟩ := List.mem_map.1 hi
        exact .inr ⟨_, _, .subtitleSkipped ha hnamed hlost⟩
      · exact .inl (.subtitleMissing hnamed hi)
    · rintro (h | ⟨codec, k, h⟩)
      · cases h with
        | subtitleMissing hnamed hmissing =>
          refine ⟨hnamed, fun hkept => hmissing ?_⟩
          exact s.subtitleTracks.resolve_indices_subset source .subtitle (List.mem_of_mem_filter hkept)
      · cases h with
        | subtitleSkipped ha hnamed hlost => exact ⟨hnamed, hlost⟩

/-- The warnings of every plan disclose all that was changed, and nothing else,
    unless it is that of an animation. -/
theorem isDisclosed {p : Plan} (h : compile threads s source = .ok p) (hk : s.container ≠ .gif)
    (hindex : (source.streams.map (·.index)).Nodup) : p.IsDisclosed s source := by
  obtain ⟨-, -, primary, hprimary, rfl⟩ := compile_eq_ok_iff.1 h
  rw [if_neg (mt Container.isAnimation_iff.1 hk)]
  exact isDisclosed_ofVideo hprimary hindex

/-- So it is where next to nothing can be done as it was asked for. -/
theorem isDisclosed_webm :
    let s := { Settings.default with
      container := .webm, rateControl := .qp 40, keepVideo := true, keepAudio := true,
      subtitleTracks := .single 7 }
    s.container ≠ .gif ∧ (Source.sample.streams.map (·.index)).Nodup ∧
      ∃ p, compile none s .sample = .ok p ∧ p.IsDisclosed s .sample ∧
        p.warnings = [.videoCodecIncompatible .h264 .webm .vp9, .videoCopyIncompatible "h264" .webm,
          .qpUnsupported .vp9 40, .audioReencodeForced ["aac"] .webm .opus,
          .audioCodecIncompatible .aac .webm .opus, .selectedTrackMissing .subtitle 7] := by
  intro s
  have hk : s.container ≠ .gif := by decide
  have hindex : (Source.sample.streams.map (·.index)).Nodup := by decide
  obtain ⟨p, hp⟩ := exists_compile none s .sample (by decide) rfl rfl
  refine ⟨hk, hindex, p, hp, isDisclosed hp hk hindex, ?_⟩
  obtain ⟨-, -, primary, hprimary, rfl⟩ := compile_eq_ok_iff.1 hp
  cases hprimary
  decide +kernel

end Plan

end VideoExport
