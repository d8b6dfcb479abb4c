import VideoExport.Proofs.Plan.Targets

/-!
# Subtitles of plans

Subtitles are text or pictures. No encoder of text can take pictures, and only
one container can hold them, so elsewhere they are left out; and where one track
of pictures is taken along, all tracks are copied. Whoever carries out a plan
must not take along what was left out, so all subtitles are asked for at once
only if none of the source is missing.

* `Settings.keptSubtitles`: the subtitles that an export takes along;
* `Plan.IsSubtitled`, `Plan.isSubtitled`: what a plan says of them.
-/

namespace VideoExport

/-- The subtitles that an export takes along: those that settings ask for and
    that the source has, without pictures unless the container can hold them. -/
def Settings.keptSubtitles (s : Settings) (source : Source) : List Stream :=
  (source.ofKind .subtitle).filter fun a =>
    a.index ∈ s.subtitleTracks.named source .subtitle ∧
      (Subtitle.isBitmap a.codec = true → s.container = .mkv)

/-- Whether some of these tracks of a source are pictures. -/
def Source.HasPictures (source : Source) (tracks : List UInt64) : Prop :=
  ∃ a ∈ source.streams, a.index ∈ tracks ∧ Subtitle.isBitmap a.codec = true

/-- What a plan says of subtitles. -/
structure Plan.IsSubtitled (s : Settings) (source : Source) (p : Plan) : Prop where
  kept : p.output.subtitleTracks = (s.keptSubtitles source).map (·.index)
  /-- There is a codec if there are subtitles, and only one. -/
  codec_iff : (∃ name, .subtitleCodec name ∈ p.directives) ↔ p.output.subtitleTracks ≠ []
  codec_unique : ∀ name name', .subtitleCodec name ∈ p.directives →
    .subtitleCodec name' ∈ p.directives → name = name'
  copy_iff : .subtitleCodec "copy" ∈ p.directives ↔ source.HasPictures p.output.subtitleTracks
  /-- An encoder of text gets no pictures, -/
  encoded : ∀ name, .subtitleCodec name ∈ p.directives → name ≠ "copy" →
    Subtitle.textCodec s.container = some name ∧ ¬ source.HasPictures p.output.subtitleTracks
  /-- and neither does a container that cannot hold them. -/
  held : source.HasPictures p.output.subtitleTracks → s.container = .mkv
  wildcard_iff : .allSubtitles ∈ p.targets ↔
    s.subtitleTracks.mode = .all ∧ p.output.subtitleTracks ≠ [] ∧
      p.output.subtitleTracks = (source.ofKind .subtitle).map (·.index)
  /-- Else every track is asked for by its index, and once. -/
  count_track : ∀ i ∈ p.output.subtitleTracks,
    p.targets.count (.track i) = if .allSubtitles ∈ p.targets then 0 else 1
  /-- What is asked for, either way, is what is kept. -/
  asked_iff : ∀ a ∈ source.ofKind .subtitle,
    .allSubtitles ∈ p.targets ∨ .track a.index ∈ p.targets ↔ a.index ∈ p.output.subtitleTracks

/-! ## Tracks -/

section Tracks

variable {source : Source} {s : Settings}

/-- The indices that are chosen are those of the streams that are asked for. -/
theorem Selection.indices_resolve (hindex : (source.streams.map (·.index)).Nodup)
    (sel : Selection) (kind : MediaKind) :
    (sel.resolve source kind).indices =
      ((source.ofKind kind).filter (·.index ∈ sel.named source kind)).map (·.index) := by
  have hstream : ∀ i ∈ (sel.resolve source kind).indices,
      (source.stream? i).map (·.index) = some i := by
    intro i hi
    obtain ⟨a, ha, rfl⟩ := List.mem_map.1 (sel.resolve_indices_subset source kind hi)
    rw [Source.stream?_index hindex (Source.mem_ofKind.1 ha).1]
    rfl
  rw [← Source.filterMap_stream?_resolve hindex, List.map_filterMap, List.filterMap_congr hstream,
    List.filterMap_some]

theorem kept_subtitleChoice (hindex : (source.streams.map (·.index)).Nodup) :
    (s.subtitleChoice source).kept = (s.keptSubtitles source).map (·.index) := by
  rw [Settings.subtitleChoice, SubtitleChoice.ofTracks, Settings.keptSubtitles]
  rw [Selection.indices_resolve hindex, List.filter_map, List.filter_filter]
  refine congrArg _ (List.filter_congr fun a ha => ?_)
  have hcodec := Source.codecOf_index hindex (Source.mem_ofKind.1 ha).1
  simp only [Function.comp_apply, hcodec, Subtitle.bitmapsFit]
  cases Subtitle.isBitmap a.codec <;> simp [and_comm, Bool.beq_eq_decide_eq]

theorem codecs_subtitleChoice (hindex : (source.streams.map (·.index)).Nodup) :
    ((s.subtitleChoice source).kept.filterMap source.stream?).map (·.codec) =
      (s.keptSubtitles source).map (·.codec) := by
  have hstream : ∀ a ∈ s.keptSubtitles source, source.stream? a.index = some a :=
    fun a ha => Source.stream?_index hindex (Source.mem_ofKind.1 (List.mem_filter.1 ha).1).1
  rw [kept_subtitleChoice hindex, List.filterMap_map]
  exact congrArg _ ((List.filterMap_congr hstream).trans List.filterMap_some)

/-- Some tracks are pictures if one of the codecs is that of pictures. -/
theorem any_isBitmap_iff (hindex : (source.streams.map (·.index)).Nodup) :
    ((s.keptSubtitles source).map (·.codec)).any Subtitle.isBitmap = true ↔
      source.HasPictures ((s.keptSubtitles source).map (·.index)) := by
  have hmem : ∀ a ∈ s.keptSubtitles source, a ∈ source.streams :=
    fun a ha => (Source.mem_ofKind.1 (List.mem_filter.1 ha).1).1
  simp only [List.any_map, List.any_eq_true, Function.comp_apply]
  constructor
  · rintro ⟨a, ha, hbitmap⟩
    exact ⟨a, hmem a ha, List.mem_map_of_mem ha, hbitmap⟩
  · rintro ⟨a, ha, hi, hbitmap⟩
    obtain ⟨b, hb, he⟩ := List.mem_map.1 hi
    rw [← Source.eq_of_index_eq hindex (hmem b hb) ha he] at hbitmap
    exact ⟨b, hb, hbitmap⟩

/-- Pictures are kept in one container only. -/
theorem eq_mkv_of_hasPictures (hindex : (source.streams.map (·.index)).Nodup)
    (h : source.HasPictures ((s.keptSubtitles source).map (·.index))) : s.container = .mkv := by
  obtain ⟨codec, hcodec, hbitmap⟩ := List.any_eq_true.1 ((any_isBitmap_iff hindex).2 h)
  obtain ⟨a, ha, rfl⟩ := List.mem_map.1 hcodec
  exact (of_decide_eq_true (List.mem_filter.1 ha).2).2 hbitmap

end Tracks

namespace Subtitle

variable {k : Container}

/-- Every container but an animation has a codec for text, -/
theorem exists_textCodec (hk : k ≠ .gif) : ∃ text, textCodec k = some text := by
  cases k <;> first | exact ⟨_, rfl⟩ | exact absurd rfl hk

/-- which is not a copy. -/
theorem textCodec_ne_copy : textCodec k ≠ some "copy" := by
  cases k <;> decide

end Subtitle

namespace Plan

variable {threads : Option UInt32} {s : Settings} {source : Source} {primary : Stream}
  {preset : Option Preset}

/-! ## The codec -/

theorem subtitleTracks_ofVideo (hindex : (source.streams.map (·.index)).Nodup) :
    (ofVideo threads s source primary preset).output.subtitleTracks =
      (s.keptSubtitles source).map (·.index) :=
  kept_subtitleChoice hindex

/-- Subtitles have a codec if there are any: a copy if some are pictures, else
    that of text. -/
theorem subtitleCodec_mem_iff (hindex : (source.streams.map (·.index)).Nodup)
    (hk : s.container ≠ .gif) {name : String} :
    .subtitleCodec name ∈ (ofVideo threads s source primary preset).directives ↔
      s.keptSubtitles source ≠ [] ∧
        ((source.HasPictures ((s.keptSubtitles source).map (·.index)) ∧ name = "copy") ∨
          (¬ source.HasPictures ((s.keptSubtitles source).map (·.index)) ∧
            Subtitle.textCodec s.container = some name)) := by
  obtain ⟨text, htext⟩ := Subtitle.exists_textCodec hk
  have hempty : (s.subtitleChoice source).kept.isEmpty = true ↔ s.keptSubtitles source = [] := by
    rw [List.isEmpty_iff, kept_subtitleChoice hindex, List.map_eq_nil_iff]
  rw [subtitleCodec_mem_ofVideo, Recipe.subtitleName?, Option.ite_none_left_eq_some, hempty,
    Subtitle.codecFor, htext, codecs_subtitleChoice hindex, Option.map_some, Option.some.injEq]
  refine and_congr_right fun _ => ?_
  by_cases hpictures : source.HasPictures ((s.keptSubtitles source).map (·.index))
  · rw [if_pos ((any_isBitmap_iff hindex).2 hpictures)]
    simp [hpictures, eq_comm]
  · rw [if_neg (mt (any_isBitmap_iff hindex).1 hpictures)]
    simp [hpictures]

/-! ## Targets -/

/-- Targets that are neither video nor sound are those of subtitles. -/
theorem mem_targets_iff {t : MapTarget} (hvideo : t ≠ .primaryVideo)
    (haudio : t ∉ s.audioTargets source) :
    t ∈ (ofVideo threads s source primary preset).targets ↔ t ∈ s.subtitleTargets source := by
  rw [targets_ofVideo, List.mem_cons, List.mem_append, or_iff_right hvideo, or_iff_right haudio]

theorem allSubtitles_mem_iff :
    .allSubtitles ∈ (ofVideo threads s source primary preset).targets ↔
      (s.subtitleChoice source).wildcard = true ∧ (s.subtitleChoice source).kept ≠ [] := by
  rw [mem_targets_iff (by decide) allSubtitles_notMem_audioTargets, Settings.subtitleTargets,
    mem_trackTargets]
  simp

/-- A track of subtitles is asked for by its index if it is kept, unless all of
    them are asked for at once. -/
theorem track_mem_iff (hindex : (source.streams.map (·.index)).Nodup) {a : Stream}
    (ha : a ∈ source.ofKind .subtitle) :
    .track a.index ∈ (ofVideo threads s source primary preset).targets ↔
      .allSubtitles ∉ (ofVideo threads s source primary preset).targets ∧
        a.index ∈ (s.subtitleChoice source).kept := by
  have htrack : MapTarget.track a.index ≠ .primaryVideo := by simp
  rw [mem_targets_iff htrack (track_notMem_audioTargets hindex ha), allSubtitles_mem_iff,
    Settings.subtitleTargets, mem_trackTargets]
  constructor
  · rintro (⟨-, -, h⟩ | ⟨hwildcard, i, hi, h⟩)
    · cases h
    · cases h
      exact ⟨fun h => Bool.false_ne_true (hwildcard.symm.trans h.1), hi⟩
  · rintro ⟨hall, hi⟩
    refine .inr ⟨Bool.eq_false_iff.2 fun hwildcard => hall ⟨hwildcard, ?_⟩, _, hi, rfl⟩
    exact List.ne_nil_of_mem hi

/-! ## Plans -/

theorem isSubtitled_ofVideo (hindex : (source.streams.map (·.index)).Nodup)
    (hk : s.container ≠ .gif) (hnodup : (ofVideo threads s source primary preset).targets.Nodup) :
    IsSubtitled s source (ofVideo threads s source primary preset) where
  kept := subtitleTracks_ofVideo hindex
  codec_iff := by
    obtain ⟨text, htext⟩ := Subtitle.exists_textCodec hk
    simp only [subtitleTracks_ofVideo hindex, subtitleCodec_mem_iff hindex hk, Ne, List.map_eq_nil_iff]
    refine ⟨fun ⟨_, h, _⟩ => h, fun h => ?_⟩
    by_cases hpictures : source.HasPictures ((s.keptSubtitles source).map (·.index))
    · exact ⟨"copy", h, .inl ⟨hpictures, rfl⟩⟩
    · exact ⟨text, h, .inr ⟨hpictures, htext⟩⟩
  codec_unique := by
    intro name name' h h'
    obtain ⟨-, ⟨hpictures, rfl⟩ | ⟨hno, htext⟩⟩ := (subtitleCodec_mem_iff hindex hk).1 h
    · obtain ⟨-, ⟨-, rfl⟩ | ⟨hno, -⟩⟩ := (subtitleCodec_mem_iff hindex hk).1 h'
      · rfl
      · exact absurd hpictures hno
    · obtain ⟨-, ⟨hpictures, -⟩ | ⟨-, htext'⟩⟩ := (subtitleCodec_mem_iff hindex hk).1 h'
      · exact absurd hpictures hno
      · exact Option.some.inj (htext.symm.trans htext')
  copy_iff := by
    rw [subtitleTracks_ofVideo hindex, subtitleCodec_mem_iff hindex hk]
    constructor
    · rintro ⟨-, ⟨hpictures, -⟩ | ⟨-, htext⟩⟩
      · exact hpictures
      · exact absurd htext Subtitle.textCodec_ne_copy
    · intro hpictures
      obtain ⟨a, -, hi, -⟩ := id hpictures
      exact ⟨fun h => List.ne_nil_of_mem hi (by rw [h]; rfl), .inl ⟨hpictures, rfl⟩⟩
  encoded := by
    intro name h hne
    rw [subtitleTracks_ofVideo hindex]
    obtain ⟨-, ⟨-, rfl⟩ | ⟨hno, htext⟩⟩ := (subtitleCodec_mem_iff hindex hk).1 h
    · exact absurd rfl hne
    · exact ⟨htext, hno⟩
  held := by
    rw [subtitleTracks_ofVideo hindex]
    exact eq_mkv_of_hasPictures hindex
  wildcard_iff := by
    rw [allSubtitles_mem_iff, Settings.wildcard_subtitleChoice, and_assoc]
    exact and_congr_right fun _ => and_comm
  count_track := by
    intro i hi
    have hchosen := s.subtitleTracks.resolve_indices_subset source .subtitle (kept_subset s source hi)
    obtain ⟨a, ha, rfl⟩ := List.mem_map.1 hchosen
    split
    case isTrue hall =>
      exact List.count_eq_zero_of_not_mem fun h => ((track_mem_iff hindex ha).1 h).1 hall
    case isFalse hall =>
      exact List.count_eq_one_of_mem hnodup ((track_mem_iff hindex ha).2 ⟨hall, hi⟩)
  asked_iff := by
    intro a ha
    rw [track_mem_iff hindex ha]
    by_cases hall : .allSubtitles ∈ (ofVideo threads s source primary preset).targets
    · -- All of them are asked for only if none is missing.
      have hkept := ((s.wildcard_subtitleChoice source).1 (allSubtitles_mem_iff.1 hall).1).2
      refine iff_of_true (.inl hall) ?_
      show a.index ∈ (s.subtitleChoice source).kept
      rw [hkept]
      exact List.mem_map_of_mem ha
    · rw [or_iff_right fun h => hall h, and_iff_right hall]
      rfl

/-- The subtitles of an export are those that its settings choose, as far as
    its container can hold them. Their codec fits all of them, and what is asked
    for is what is kept. -/
theorem isSubtitled {p : Plan} (h : compile threads s source = .ok p) (hk : s.container ≠ .gif)
    (hindex : (source.streams.map (·.index)).Nodup) : IsSubtitled s source p := by
  have hnodup := nodup_targets h hindex
  obtain ⟨primary, -, ⟨hgif, -⟩ | ⟨-, rfl, -⟩⟩ := core_read_cases h p.output.fileName
  · exact absurd hgif hk
  · exact isSubtitled_ofVideo hindex hk hnodup

/-- So it is where all subtitles are chosen and those that are pictures do not
    fit. -/
theorem isSubtitled_without_pictures :
    let pictures : Stream := { (default : Stream) with
      index := 7, kind := .subtitle, codec := "hdmv_pgs_subtitle" }
    let source := { Source.sample with streams := Source.sample.streams ++ [pictures] }
    let s := { Settings.default with subtitleTracks := .all }
    s.container ≠ .gif ∧ (source.streams.map (·.index)).Nodup ∧
      ∃ p, compile none s source = .ok p ∧ p.IsSubtitled s source ∧
        p.output.subtitleTracks = [3] ∧ p.targets = [.primaryVideo, .allAudio, .track 3] := by
  intro pictures source s
  have hk : s.container ≠ .gif := by decide
  have hindex : (source.streams.map (·.index)).Nodup := by decide
  obtain ⟨p, hp⟩ := exists_compile none s source (by decide) rfl rfl
  refine ⟨hk, hindex, p, hp, isSubtitled hp hk hindex, ?_⟩
  obtain ⟨-, -, primary, hprimary, rfl⟩ := compile_eq_ok_iff.1 hp
  cases hprimary
  decide +kernel

end Plan

end VideoExport
