import VideoExport.Plan.Compile
import VideoExport.Proofs.Filter.Chain

/-!
# What plans are made of

A plan is made only from settings that are in order, for a source with video.
Which parts it has depends on decisions that are described here once, so that
nothing else has to look into how they are made.

* `Plan.compile_eq_ok_iff`: when there is a plan, and which one;
* `Settings.audioChoice_cases`: the three outcomes for sound;
* `Settings.isFound_filterParts`: what is found of the filters of settings.
-/

namespace VideoExport

open Number

theorem Container.isAnimation_iff {k : Container} : k.isAnimation = true ↔ k = .gif := beq_iff_eq

/-! ## Settings in order -/

/-- The preset that settings name. -/
def Settings.chosenPreset? (s : Settings) : Option Preset :=
  s.preset.bind fun name => (Preset.find name).toOption

namespace Settings

variable {s : Settings}

theorem mem_presets_of_chosenPreset? {p : Preset} (h : s.chosenPreset? = some p) : p ∈ presets := by
  obtain ⟨name, -, hp⟩ := Option.bind_eq_some_iff.1 h
  cases hfind : Preset.find name with
  | error e => rw [hfind] at hp; cases hp
  | ok q =>
    rw [hfind] at hp
    cases hp
    exact Preset.mem_of_find hfind

/-- Settings in order have finite colours. -/
theorem isFinite_color (h : s.fault? = none) : s.color.isFinite = true := by
  by_contra hc
  rw [Bool.not_eq_true] at hc
  have hfault : colorFault? s.color = some .colorNotFinite := by simp [colorFault?, hc]
  simp [fault?, hfault] at h

end Settings

namespace Plan

/-- There is a plan exactly if the settings are in order, their preset is
    known, and the source has video. -/
theorem compile_eq_ok_iff {threads : Option UInt32} {s : Settings} {source : Source} {p : Plan} :
    compile threads s source = .ok p ↔
      s.fault? = none ∧ (∀ name ∈ s.preset, ∃ q, Preset.find name = .ok q) ∧
      ∃ primary, source.primary? = some primary ∧
        p = if s.container.isAnimation then ofAnimation threads s source primary s.chosenPreset?
          else ofVideo threads s source primary s.chosenPreset? := by
  rw [compile, Settings.validate, Settings.chosenPreset?]
  cases hfault : s.fault? with
  | some f => simp [bind, Except.bind]
  | none =>
    cases hprimary : source.primary? with
    | none => simp [bind, Except.bind, throw, throwThe, MonadExceptOf.throw]
    | some primary =>
      cases hpreset : s.preset with
      | none =>
        simp [bind, Except.bind, pure, Except.pure]
        exact eq_comm
      | some name =>
        cases hfind : Preset.find name with
        | error e => simp [bind, Except.bind, Functor.map, Except.map, hfind]
        | ok q =>
          simp [bind, Except.bind, Functor.map, Except.map, hfind, pure, Except.pure,
            Except.toOption]
          exact eq_comm

end Plan

/-! ## Sound -/

/-- The codecs of tracks of sound that can be copied together. -/
def AllHeld (source : Source) (tracks : List UInt64) (k : Container) : Prop :=
  ∀ stream ∈ tracks.filterMap source.stream?, k.holdsAudio stream.codec = true

theorem allHeld_of_blockedCodecs {source : Source} {tracks : List UInt64} {k : Container}
    {target : AudioCodec} (h : blockedCodecs source tracks k target = []) :
    AllHeld source tracks k := by
  intro stream hstream
  have hblocked := List.filter_eq_nil_iff.1 h stream.codec (List.mem_map_of_mem hstream)
  by_contra hheld
  rw [Bool.not_eq_true] at hheld
  simp [hheld] at hblocked

/-- Sound is left out, copied, or encoded: there is none, or every track can be
    copied, or the target's encoder takes all of them. -/
theorem Settings.audioChoice_cases (s : Settings) (source : Source) (tracks : ChosenTracks) :
    (tracks.indices = [] ∧ (s.audioChoice source tracks).copy = none ∧
      (s.audioChoice source tracks).directives = []) ∨
    (tracks.indices ≠ [] ∧ AllHeld source tracks.indices s.container ∧
      (s.audioChoice source tracks).copy = some true ∧
      (s.audioChoice source tracks).directives = [.audioCodec .copy]) ∨
    (tracks.indices ≠ [] ∧ (s.audioChoice source tracks).copy = some false ∧
      (s.audioChoice source tracks).directives =
        [.audioCodec (.named (s.audioCodec.within s.container).encoder),
          .audioRate ⟨clampAudioRate s.audioKbps⟩]) := by
  rw [audioChoice]
  by_cases hnone : tracks.indices = []
  · exact .inl ⟨hnone, by simp [hnone], by simp [hnone]⟩
  right
  have hsome : tracks.indices.isEmpty = false := by simpa using hnone
  simp only [hsome, Bool.false_eq_true, if_false]
  -- There is sound; it is copied if that is wanted and no track is in the way.
  cases hkeep : s.keepAudio with
  | false => exact .inr ⟨hnone, by simp, by simp⟩
  | true =>
    cases hblocked : blockedCodecs source tracks.indices s.container
        (s.audioCodec.within s.container) with
    | nil => exact .inl ⟨hnone, allHeld_of_blockedCodecs hblocked, by simp, by simp⟩
    | cons c cs => exact .inr ⟨hnone, by simp, by simp⟩

/-! ## Filters -/

/-- What is found of the filters of settings. -/
def Settings.filterItems (s : Settings) (preset : Option Preset) : List FilterItem :=
  ((preset.bind (·.filter)).map FilterItem.single).toList ++ (s.resize.map Resize.item).toList ++
    (s.color.filter?.map fun e => .eq e s.color.reread).toList

theorem forall₂_toList_map {α β : Type} {R : α → β → Prop} {f : α → β} {x : Option α}
    (h : ∀ a ∈ x, R a (f a)) : List.Forall₂ R x.toList (x.map f).toList := by
  cases x with
  | none => exact .nil
  | some a => exact .cons (h a rfl) .nil

theorem isFound_presetParts {preset : Option Preset} (hpreset : ∀ p ∈ preset, p ∈ presets) :
    List.Forall₂ FilterItem.IsFound (preset.bind (·.filter)).toList
      ((preset.bind (·.filter)).map FilterItem.single).toList := by
  refine forall₂_toList_map fun e he => ?_
  obtain ⟨p, hp, he⟩ := Option.bind_eq_some_iff.1 he
  exact (isFound_presetFilter (hpreset p hp) he).1

theorem Color.isFound_filterParts {c : Color} (hcolor : c.isFinite = true) :
    List.Forall₂ FilterItem.IsFound c.filter?.toList
      (c.filter?.map fun e => .eq e c.reread).toList :=
  forall₂_toList_map fun _ he => Color.isFound_filter hcolor he

/-- What is found of the filters of settings in order, whose resize fits. -/
theorem Settings.isFound_filterParts {s : Settings} {preset : Option Preset}
    (hcolor : s.color.isFinite = true) (hresize : ∀ r ∈ s.resize, r.Fits)
    (hpreset : ∀ p ∈ preset, p ∈ presets) :
    List.Forall₂ FilterItem.IsFound (s.filterParts preset) (s.filterItems preset) := by
  have hr : List.Forall₂ FilterItem.IsFound (s.resize.map Resize.filter).toList
      (s.resize.map Resize.item).toList := by
    cases hs : s.resize with
    | none => exact .nil
    | some r => exact .cons (Resize.isFound_filter (hresize r hs)) .nil
  exact List.rel_append (List.rel_append (isFound_presetParts hpreset) hr)
    (Color.isFound_filterParts hcolor)

/-! ## Directives -/

/-- The codec that settings are encoded with. -/
def Settings.encodedCodec (s : Settings) (preset : Option Preset) : VideoCodec :=
  (s.videoRequest preset).codec.within s.container

/-- The directives for video that is encoded. -/
def Settings.encodeDirectives (s : Settings) (preset : Option Preset) : List Directive :=
  .videoCodec (.named (s.encodedCodec preset).encoder) ::
    (((s.videoRequest preset).speed.map .speed).toList ++
      (((s.encodedCodec preset).follow (s.videoRequest preset).rateControl).directives ++
      ((Filter.chain? (s.filterParts preset)).map .videoFilter).toList))

/-- The subtitles that are decided on. -/
def Settings.subtitleChoice (s : Settings) (source : Source) : SubtitleChoice :=
  .ofTracks source s.container (s.subtitleTracks.resolve source .subtitle)

namespace Plan

variable (threads : Option UInt32) (s : Settings) (source : Source) (primary : Stream)
  (preset : Option Preset)

/-- The directives of an export with sound and subtitles after those for video,
    kind by kind. -/
def tailDirectives : List Directive :=
  (s.audioChoice source (s.audioTracks.resolve source .audio)).directives ++
    (((s.subtitleChoice source).codec? source s.container).toList ++
    ((threadsDirective? threads).toList ++
    (.map .primaryVideo ::
      (mapTracks (s.audioTracks.resolve source .audio).indices
        (s.audioTracks.resolve source .audio).wildcard .allAudio ++
      mapTracks (s.subtitleChoice source).kept (s.subtitleChoice source).wildcard .allSubtitles))))

/-- The directives of an export with sound and subtitles. -/
theorem directives_ofVideo :
    (ofVideo threads s source primary preset).directives =
      (s.trimWindow source).part.directives ++
      ((if (ofVideo threads s source primary preset).videoCopy then [.videoCodec .copy]
        else s.encodeDirectives preset) ++
      tailDirectives threads s source) := by
  rw [ofVideo, tailDirectives]
  simp only [Directive.ofParts, List.flatMap_append, apply_ite (List.flatMap Part.directives),
    List.flatMap_cons, List.flatMap_nil, List.append_nil, List.append_assoc]
  rfl

/-- The directives of an animation. -/
theorem directives_ofAnimation :
    (ofAnimation threads s source primary preset).directives =
      (s.trimWindow source).part.directives ++
      (.videoCodec (.named "gif") ::
        .videoFilter (Filter.chain (("fps=" ++ Number.text s.animation.fps.toNat) ::
          s.filterParts preset)) ::
        .quality s.animation.speed ::
        ((threadsDirective? threads).toList ++ [.map .primaryVideo])) := by
  rw [ofAnimation]
  simp [Directive.ofParts, Part.directives]

end Plan

/-! ## Copies of video -/

namespace Plan

variable {threads : Option UInt32} {s : Settings} {source : Source} {primary : Stream}
  {preset : Option Preset}

/-- Video is copied if that is asked for and nothing is in the way. -/
theorem videoCopy_ofVideo_iff :
    (ofVideo threads s source primary preset).videoCopy = true ↔
      s.keepVideo = true ∧
        copyObstacle? primary s.container (Filter.chain? (s.filterParts preset)).isSome = none := by
  show (s.keepVideo && Option.isNone (if s.keepVideo then _ else none)) = true ↔ _
  cases s.keepVideo <;> simp

theorem isSome_chain? {parts : List String} :
    (Filter.chain? parts).isSome = false ↔ parts = [] := by
  rw [Filter.chain?]
  cases parts <;> simp

/-- What nobody can check is copied unless there are filters. -/
theorem copyObstacle?_eq_none_iff {k : Container} {filtered : Bool} :
    copyObstacle? primary k filtered = none ↔
      filtered = false ∧ ∀ c, VideoCodec.known? primary.codec = some c → c.fits k = true := by
  rw [copyObstacle?]
  cases filtered with
  | true => simp
  | false =>
    cases hknown : VideoCodec.known? primary.codec with
    | none => simp
    | some c => simp

end Plan

/-! ## Tracks -/

/-- A selection is resolved to all tracks of a kind at once exactly if it says
    so, and then they are all there are. -/
theorem Selection.wildcard_resolve (sel : Selection) (source : Source) (kind : MediaKind) :
    (sel.resolve source kind).wildcard = true ↔ sel.mode = .all := by
  obtain ⟨mode, selected⟩ := sel
  cases mode with
  | all => exact ⟨fun _ => rfl, fun _ => rfl⟩
  | single =>
    have hsingle : (Selection.resolve ⟨.single, selected⟩ source kind).wildcard = false := by
      cases selected with
      | none => rfl
      | some index =>
        rw [Selection.resolve]
        simp only
        split <;> rfl
    rw [hsingle]
    constructor <;> intro h <;> cases h

theorem Selection.indices_resolve_all {sel : Selection} (h : sel.mode = .all) (source : Source)
    (kind : MediaKind) : (sel.resolve source kind).indices = (source.ofKind kind).map (·.index) := by
  rw [Selection.resolve]
  rw [h]

/-- Subtitles stay all of them at once exactly if none is left out. -/
theorem Settings.wildcard_subtitleChoice (s : Settings) (source : Source) :
    (s.subtitleChoice source).wildcard = true ↔
      s.subtitleTracks.mode = .all ∧
        (s.subtitleChoice source).kept = (source.ofKind .subtitle).map (·.index) := by
  rw [subtitleChoice, SubtitleChoice.ofTracks]
  rw [Bool.and_eq_true, Selection.wildcard_resolve, List.isEmpty_iff]
  refine and_congr_right fun hmode => ?_
  rw [Selection.indices_resolve_all hmode, List.filter_eq_nil_iff, List.filter_eq_self]
  simp only [Bool.not_eq_true, Bool.not_eq_true']

/-! ## Flags -/

/-- The flags of trim windows. -/
def windowFlags : List (Option Flag) := [some .trimStart, some .trimDuration]

/-- The flags of rate controls. -/
def rateFlags : List (Option Flag) :=
  [some .crf, some .qp, some .videoRate, some .maxRate, some .bufferSize]

/-- The flags of what is said about video. -/
def videoFlags : List (Option Flag) :=
  some .videoCodec :: some .speed :: some .videoFilter :: rateFlags

/-- The flags of what is said about the rest. -/
def tailFlags : List (Option Flag) :=
  [some .audioCodec, some .audioRate, some .subtitleCodec, some .threads, some .map]

theorem flag?_of_mem_window {w : TrimWindow Float} {d : Directive} (h : d ∈ w.part.directives) :
    d.flag? ∈ windowFlags := by
  have h : d ∈ (if w.requested then [Directive.trimStart w.start, .trimDuration w.duration] else []) :=
    h
  split at h
  · simp only [List.mem_cons, List.not_mem_nil, or_false] at h
    rcases h with rfl | rfl <;> simp [windowFlags, Directive.flag?]
  · cases h

theorem flag?_of_mem_rateControl {r : RateControl} {d : Directive} (h : d ∈ r.directives) :
    d.flag? ∈ rateFlags := by
  cases r with
  | crf value => rw [List.mem_singleton.1 h]; simp [rateFlags, Directive.flag?]
  | qp value => rw [List.mem_singleton.1 h]; simp [rateFlags, Directive.flag?]
  | bitrate kbps =>
    simp only [RateControl.directives, List.mem_cons, List.not_mem_nil, or_false] at h
    rcases h with rfl | rfl | rfl <;> simp [rateFlags, Directive.flag?]

theorem flag?_of_mem_audioChoice {s : Settings} {source : Source} {tracks : ChosenTracks}
    {d : Directive} (h : d ∈ (s.audioChoice source tracks).directives) :
    d.flag? = some .audioCodec ∨ d.flag? = some .audioRate := by
  rcases s.audioChoice_cases source tracks with ⟨-, -, hds⟩ | ⟨-, -, -, hds⟩ | ⟨-, -, hds⟩
  · rw [hds] at h
    cases h
  · rw [hds] at h
    rw [List.mem_singleton.1 h]
    exact .inl rfl
  · rw [hds] at h
    simp only [List.mem_cons, List.not_mem_nil, or_false] at h
    rcases h with rfl | rfl
    · exact .inl rfl
    · exact .inr rfl

theorem flag?_of_mem_subtitleCodec {c : SubtitleChoice} {source : Source} {k : Container}
    {d : Directive} (h : d ∈ (c.codec? source k).toList) : d.flag? = some .subtitleCodec := by
  obtain ⟨-, h⟩ := Option.ite_none_left_eq_some.1 (Option.mem_toList.1 h)
  obtain ⟨name, -, rfl⟩ := Option.map_eq_some_iff.1 h
  rfl

theorem flag?_of_mem_threads {threads : Option UInt32} {d : Directive}
    (h : d ∈ (threadsDirective? threads).toList) : d.flag? = some .threads := by
  obtain ⟨n, -, rfl⟩ := Option.map_eq_some_iff.1 (Option.mem_toList.1 h)
  rfl

theorem flag?_of_mem_mapTracks {tracks : List UInt64} {wildcard : Bool} {all : MapTarget}
    {d : Directive} (h : d ∈ mapTracks tracks wildcard all) : d.flag? = some .map := by
  rw [mapTracks] at h
  split at h
  · cases h
  · split at h
    · rw [List.mem_singleton.1 h]
      rfl
    · obtain ⟨i, -, rfl⟩ := List.mem_map.1 h
      rfl

theorem flag?_of_mem_encodeDirectives {s : Settings} {preset : Option Preset} {d : Directive}
    (h : d ∈ s.encodeDirectives preset) : d.flag? ∈ videoFlags := by
  rw [Settings.encodeDirectives] at h
  simp only [List.mem_cons, List.mem_append, Option.mem_toList] at h
  rcases h with rfl | h | h | h
  · simp [videoFlags, Directive.flag?]
  · obtain ⟨name, -, rfl⟩ := Option.map_eq_some_iff.1 h
    simp [videoFlags, Directive.flag?]
  · simp [videoFlags, flag?_of_mem_rateControl h]
  · obtain ⟨text, -, rfl⟩ := Option.map_eq_some_iff.1 h
    simp [videoFlags, Directive.flag?]

namespace Plan

variable {threads : Option UInt32} {s : Settings} {source : Source} {primary : Stream}
  {preset : Option Preset}

theorem flag?_of_mem_video {copy : Bool} {d : Directive}
    (h : d ∈ if copy then [Directive.videoCodec .copy] else s.encodeDirectives preset) :
    d.flag? ∈ videoFlags := by
  split at h
  · rw [List.mem_singleton.1 h]
    simp [videoFlags, Directive.flag?]
  · exact flag?_of_mem_encodeDirectives h

theorem flag?_of_mem_tail {d : Directive} (h : d ∈ tailDirectives threads s source) :
    d.flag? ∈ tailFlags := by
  rw [tailDirectives] at h
  simp only [List.mem_append, List.mem_cons] at h
  rcases h with h | h | h | rfl | h | h
  · rcases flag?_of_mem_audioChoice h with hf | hf <;> simp [tailFlags, hf]
  · simp [tailFlags, flag?_of_mem_subtitleCodec h]
  · simp [tailFlags, flag?_of_mem_threads h]
  · simp [tailFlags, Directive.flag?]
  · simp [tailFlags, flag?_of_mem_mapTracks h]
  · simp [tailFlags, flag?_of_mem_mapTracks h]

/-- Directives that are told by flags of video are found among those for video. -/
theorem filter_ofVideo {q : Option Flag → Bool} (h : ∀ f ∈ windowFlags ++ tailFlags, ¬ q f = true) :
    (ofVideo threads s source primary preset).directives.filter (fun d => q d.flag?) =
      (if (ofVideo threads s source primary preset).videoCopy then [.videoCodec .copy]
        else s.encodeDirectives preset).filter fun d => q d.flag? := by
  have hwindow : (s.trimWindow source).part.directives.filter (fun d => q d.flag?) = [] :=
    List.filter_eq_nil_iff.2 fun d hd => h _ (List.mem_append_left _ (flag?_of_mem_window hd))
  have htail : (tailDirectives threads s source).filter (fun d => q d.flag?) = [] :=
    List.filter_eq_nil_iff.2 fun d hd => h _ (List.mem_append_right _ (flag?_of_mem_tail hd))
  rw [directives_ofVideo, List.filter_append, List.filter_append, hwindow, htail, List.nil_append,
    List.append_nil]

variable (threads s source primary preset) in
/-- Where in the plan of an export the directives of a flag are. -/
def directivesFor : Flag → List Directive
  | .trimStart | .trimDuration => (s.trimWindow source).part.directives
  | .audioCodec | .audioRate => (s.audioChoice source (s.audioTracks.resolve source .audio)).directives
  | .subtitleCodec => ((s.subtitleChoice source).codec? source s.container).toList
  | .threads => (threadsDirective? threads).toList
  | .map =>
    .map .primaryVideo ::
      (mapTracks (s.audioTracks.resolve source .audio).indices
        (s.audioTracks.resolve source .audio).wildcard .allAudio ++
      mapTracks (s.subtitleChoice source).kept (s.subtitleChoice source).wildcard .allSubtitles)
  | .quality => []
  | .videoCodec | .speed | .crf | .qp | .videoRate | .maxRate | .bufferSize | .videoFilter =>
    if (ofVideo threads s source primary preset).videoCopy then [.videoCodec .copy]
    else s.encodeDirectives preset

/-- A directive is found where those of its flag are. -/
theorem mem_ofVideo_iff {d : Directive} {f : Flag} (hf : d.flag? = some f) :
    d ∈ (ofVideo threads s source primary preset).directives ↔
      d ∈ directivesFor threads s source primary preset f := by
  rw [directives_ofVideo, tailDirectives]
  simp only [List.mem_append]
  constructor
  -- Every part has directives of its own flags only, so the flag tells the part.
  · rintro (h | h | h | h | h | h)
    · rcases List.mem_pair.1 (flag?_of_mem_window h) with hw | hw <;> cases hf.symm.trans hw <;> exact h
    · have hv := flag?_of_mem_video h
      rw [hf] at hv
      simp only [videoFlags, rateFlags, List.mem_cons, Option.some.injEq, List.not_mem_nil, or_false] at hv
      rcases hv with rfl | rfl | rfl | rfl | rfl | rfl | rfl | rfl <;> exact h
    · rcases flag?_of_mem_audioChoice h with ha | ha <;> cases hf.symm.trans ha <;> exact h
    · cases hf.symm.trans (flag?_of_mem_subtitleCodec h)
      exact h
    · cases hf.symm.trans (flag?_of_mem_threads h)
      exact h
    · have hm : d.flag? = some .map := by
        rcases List.mem_cons.1 h with rfl | h
        · rfl
        · rcases List.mem_append.1 h with h | h <;> exact flag?_of_mem_mapTracks h
      cases hf.symm.trans hm
      exact h
  · intro h
    cases f with
    | trimStart | trimDuration => exact .inl h
    | audioCodec | audioRate => exact .inr (.inr (.inl h))
    | subtitleCodec => exact .inr (.inr (.inr (.inl h)))
    | threads => exact .inr (.inr (.inr (.inr (.inl h))))
    | map => exact .inr (.inr (.inr (.inr (.inr h))))
    | quality => cases h
    | videoCodec | speed | crf | qp | videoRate | maxRate | bufferSize | videoFilter =>
      exact .inr (.inl h)

end Plan

/-! ## A source -/

/-- A clip of ten seconds with video, two tracks of sound, and subtitles. -/
def Source.sample : Source :=
  let stream (index : UInt64) (kind : MediaKind) (codec : String) : Stream :=
    { index, kind, codec, width := none, height := none, frameRate := none, sampleRate := none
      channels := none, language := none, title := none, isDefault := false, isForced := false
      bitRate := none }
  { name := "clip.mkv"
    duration := 10.0
    streams := [stream 0 .video "h264", stream 1 .audio "aac", stream 2 .audio "opus",
      stream 3 .subtitle "subrip"] }

/-- Settings in order without a preset make a plan of a source with video. -/
theorem Plan.exists_compile (threads : Option UInt32) (s : Settings) (source : Source)
    (hfault : s.fault? = none) (hpreset : s.preset = none)
    (hvideo : source.primary?.isSome = true) : ∃ p, compile threads s source = .ok p := by
  obtain ⟨primary, hprimary⟩ := Option.isSome_iff_exists.1 hvideo
  exact ⟨_, compile_eq_ok_iff.2 ⟨hfault, by simp [hpreset], primary, hprimary, rfl⟩⟩

end VideoExport
