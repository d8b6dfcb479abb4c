import Mathlib.Data.List.Basic
import VideoExport.Settings.Overrides

/-!
# The layers of settings

A field of settings is what the first layer says about it that says anything: the options of a
command in their order, what the marks of the source suggest if that is asked for, a file, and last
what is usual. A layer that has the word but cannot be understood is not passed over: then there
are no settings at all.

* `firstSaid`: what the first layer says;
* `Source.suggested_eq`, `Preset.find_eq_ok_iff`: what marks suggest and what names mean;
* `Settings.IsLayered`: every field is from the first layer that says anything about it;
* `Overrides.resolve_eq_ok_iff`: resolving gives the settings that are so.
-/

namespace VideoExport

section

variable {α : Type}

/-- What the first layer says that says anything, or what is usual. -/
def firstSaid (layers : List (Option α)) (usual : α) : α := layers.foldr Option.getD usual

/-- What a switch says: nothing if it is off. -/
def switched (on : Bool) (a : α) : Option α := if on then some a else none

end

/-! ## Marks and names -/

namespace Source

/-- The first stream of a kind that has a mark. -/
def marked? (s : Source) (kind : MediaKind) (mark : Stream → Bool) : Option Stream :=
  s.streams.find? fun t => t.kind == kind && mark t

/-- The sound that the marks suggest: the first track marked as default, or else the first one. -/
def audioByMarks (s : Source) : Selection :=
  firstSaid [(s.marked? .audio (·.isDefault)).map (.single ·.index),
    (s.marked? .audio fun _ => true).map (.single ·.index)] .none

/-- The subtitles that the marks suggest: the first track marked as forced. -/
def subtitlesByMarks (s : Source) : Selection :=
  firstSaid [(s.marked? .subtitle (·.isForced)).map (.single ·.index)] .none

theorem find?_ofKind (s : Source) (kind : MediaKind) (mark : Stream → Bool) :
    (s.ofKind kind).find? mark = s.marked? kind mark := by
  simp only [ofKind, marked?, List.find?_filter, Bool.decide_and, Bool.decide_eq_true]

theorem head?_ofKind (s : Source) (kind : MediaKind) :
    (s.ofKind kind).head? = s.marked? kind fun _ => true := by
  rw [← find?_ofKind]
  cases s.ofKind kind <;> rfl

theorem suggested_eq (s : Source) : s.suggested = (s.audioByMarks, s.subtitlesByMarks) := by
  rw [suggested, suggestedAudio?, suggestedSubtitle?, head?_ofKind, find?_ofKind, find?_ofKind,
    audioByMarks, subtitlesByMarks]
  cases s.marked? .audio (·.isDefault) <;> cases s.marked? .audio (fun _ => true) <;>
    cases s.marked? .subtitle (·.isForced) <;> rfl

end Source

namespace Preset

/-- No two presets have names that differ in their case alone. -/
theorem eq_of_sameIgnoringCase {p q : Preset} (hp : p ∈ presets) (hq : q ∈ presets)
    (h : Text.sameIgnoringCase p.name q.name = true) : p = q := by
  have hdistinct : ∀ p ∈ presets, ∀ q ∈ presets,
      Text.sameIgnoringCase p.name q.name = true → p = q := by decide
  exact hdistinct p hp q hq h

/-- The only preset of a name is found. -/
theorem find_eq_ok_iff {name : String} {p : Preset} : find name = .ok p ↔
    p ∈ presets ∧ Text.sameIgnoringCase p.name (Text.trim name) = true := by
  rw [find]
  cases hfind : presets.find? fun p => Text.sameIgnoringCase p.name (Text.trim name) with
  | none =>
    have hnone := List.find?_eq_none.1 hfind
    simp only [reduceCtorEq, false_iff, not_and]
    exact hnone p
  | some q =>
    have hq := List.mem_of_find?_eq_some hfind
    have hname := List.find?_some hfind
    simp only [Except.ok.injEq]
    constructor
    · rintro rfl
      exact ⟨hq, hname⟩
    · rintro ⟨hp, hp'⟩
      refine eq_of_sameIgnoringCase hq hp ?_
      rw [Text.sameIgnoringCase, beq_iff_eq] at hname hp' ⊢
      rw [hname, hp']

/-- What a name of a preset means: the name that the preset itself has. Where nothing is named,
    nothing is meant. -/
inductive Means : Option String → Option String → Prop
  | unnamed : Means none none
  | named {name : String} {p : Preset} : p ∈ presets →
      Text.sameIgnoringCase p.name (Text.trim name) = true → Means (some name) (some p.name)

end Preset

/-! ## Layers -/

/-- Every field of settings is from the first layer that says anything about it, and they are in
    order. -/
structure Settings.IsLayered (o : Overrides) (file : Option Settings) (source : Source)
    (defaultPreset : Option String) (s : Settings) : Prop where
  trimStart : firstSaid [o.start.map Timecode.read, file.map (.ok ·.trimStart)]
    (.ok default.trimStart) = .ok s.trimStart
  /-- A file with an end that is not positive says nothing about the end. -/
  trimEnd : firstSaid [o.stop.map Timecode.read,
      (file.filter fun f => ¬ f.trimEnd ≤ 0.0).map (.ok ·.trimEnd)]
    (.ok source.duration) = .ok s.trimEnd
  container : firstSaid [o.container.map Container.read, file.map (.ok ·.container)]
    (.ok default.container) = .ok s.container
  videoCodec : firstSaid [o.videoCodec.map VideoCodec.read, file.map (.ok ·.videoCodec)]
    (.ok default.videoCodec) = .ok s.videoCodec
  rateControl : firstSaid [o.crf.map .crf, o.bitrate.map .bitrate, o.qp.map .qp,
    file.map (·.rateControl)] default.rateControl = s.rateControl
  speed : firstSaid [o.speed.map some, file.map (·.speed)] default.speed = s.speed
  /-- The preset has a default that does not belong to the settings. -/
  preset : Preset.Means ((o.preset.or (file.bind (·.preset))).or defaultPreset) s.preset
  /-- The fit is a part of what the option for the box says. -/
  resize : firstSaid [o.resize.map fun r => some { r with fit := o.fit.getD .stretch },
    file.map (·.resize)] default.resize = s.resize
  brightness : firstSaid [o.brightness, file.map (·.color.brightness)]
    default.color.brightness = s.color.brightness
  contrast : firstSaid [o.contrast, file.map (·.color.contrast)]
    default.color.contrast = s.color.contrast
  saturation : firstSaid [o.saturation, file.map (·.color.saturation)]
    default.color.saturation = s.color.saturation
  hue : firstSaid [o.hue, file.map (·.color.hue)] default.color.hue = s.color.hue
  audioCodec : firstSaid [o.audioCodec.map AudioCodec.read, file.map (.ok ·.audioCodec)]
    (.ok default.audioCodec) = .ok s.audioCodec
  audioKbps : firstSaid [o.audioKbps, file.map (·.audioKbps)] default.audioKbps = s.audioKbps
  /-- A switch can turn copying on only. -/
  keepVideo : firstSaid [switched o.copyVideo true, file.map (·.keepVideo)]
    default.keepVideo = s.keepVideo
  keepAudio : firstSaid [switched o.copyAudio true, file.map (·.keepAudio)]
    default.keepAudio = s.keepAudio
  audioTracks : firstSaid [switched o.noAudio .none, o.audioTrack.map .single,
    switched o.suggestedTracks source.audioByMarks, file.map (·.audioTracks)]
    default.audioTracks = s.audioTracks
  subtitleTracks : firstSaid [switched o.allSubtitles .all, o.subtitleTrack.map .single,
    switched o.suggestedTracks source.subtitlesByMarks, file.map (·.subtitleTracks)]
    default.subtitleTracks = s.subtitleTracks
  frameRate : firstSaid [o.frameRate, file.map (·.animation.fps)]
    default.animation.fps = s.animation.fps
  paletteSpeed : firstSaid [o.paletteSpeed, file.map (·.animation.speed)]
    default.animation.speed = s.animation.speed
  valid : s.validate = .ok ()

attribute [ext] Settings Color AnimationOptions

namespace Overrides

variable {o : Overrides} {file : Option Settings} {source : Source} {defaultPreset : Option String}
  {s : Settings}

/-! ### Single fields -/

theorem reading_eq_ok_iff {α ε : Type} {read : String → Except ε α} {wrap : String → ε → Fault}
    {text : Option String} {a b : α} :
    reading read wrap text a = .ok b ↔ firstSaid [text.map read] (.ok a) = .ok b := by
  cases text with
  | none => simp [reading, firstSaid]
  | some t => cases h : read t <;> simp [reading, firstSaid, h]

theorem presetName_eq_ok_iff {inFile n : Option String} :
    o.presetName inFile defaultPreset = .ok n ↔
      Preset.Means ((o.preset.or inFile).or defaultPreset) n := by
  rw [presetName]
  cases (o.preset.or inFile).or defaultPreset with
  | none =>
    constructor
    · rintro ⟨⟩
      exact .unnamed
    · rintro ⟨⟩
      rfl
  | some name =>
    simp only [named, reading]
    constructor
    · intro h
      cases hfind : Preset.find name with
      | error f => simp [hfind, Except.map] at h
      | ok p =>
        obtain ⟨hp, hname⟩ := Preset.find_eq_ok_iff.1 hfind
        simp only [hfind, Except.map, Except.ok.injEq] at h
        exact h ▸ .named hp hname
    · intro h
      cases h with
      | named hp hname =>
        rw [Preset.find_eq_ok_iff.2 ⟨hp, hname⟩]
        rfl

theorem rateControl_eq (o : Overrides) (otherwise : RateControl) : o.rateControl otherwise =
    firstSaid [o.crf.map .crf, o.bitrate.map .bitrate, o.qp.map .qp] otherwise := by
  rw [rateControl]
  cases o.crf <;> cases o.bitrate <;> cases o.qp <;> rfl

theorem audioTracks_eq (o : Overrides) (source : Source) (otherwise : Selection) :
    o.audioTracks source otherwise = firstSaid [switched o.noAudio .none, o.audioTrack.map .single,
      switched o.suggestedTracks source.audioByMarks] otherwise := by
  rw [audioTracks, source.suggested_eq]
  cases o.noAudio <;> cases o.audioTrack <;> cases o.suggestedTracks <;> rfl

theorem subtitleTracks_eq (o : Overrides) (source : Source) (otherwise : Selection) :
    o.subtitleTracks source otherwise = firstSaid [switched o.allSubtitles .all,
      o.subtitleTrack.map .single, switched o.suggestedTracks source.subtitlesByMarks]
      otherwise := by
  rw [subtitleTracks, source.suggested_eq]
  cases o.allSubtitles <;> cases o.subtitleTrack <;> cases o.suggestedTracks <;> rfl

/-- A field that may be empty is overridden by an option that is given. -/
theorem or_eq_firstSaid {α β : Type} (f : α → β) (said : Option α) (otherwise : Option β) :
    (said.map f).or otherwise = firstSaid [said.map fun a => some (f a)] otherwise := by
  cases said <;> rfl

theorem copy_eq_firstSaid (kept on : Bool) : (kept || on) = firstSaid [switched on true] kept := by
  cases kept <;> cases on <;> rfl

/-! ### All fields -/

/-- The settings of file and defaults: only the end depends on the source. -/
theorem ofLayers_eq (file : Option Settings) (source : Source) :
    Settings.ofLayers file source = { file.getD Settings.default with
      trimEnd := ((file.filter fun f => ¬ f.trimEnd ≤ 0.0).map (·.trimEnd)).getD
        source.duration } := by
  cases file with
  | none => rfl
  | some f =>
    by_cases h : f.trimEnd ≤ 0.0
    · rw [Option.filter_some, if_neg (by simpa using h)]
      simp [Settings.ofLayers, h]
    · rw [Option.filter_some, if_pos (by simpa using h)]
      simp [Settings.ofLayers, h]

/-- A file and what is usual count as one layer. -/
theorem firstSaid_file {α : Type} (layers : List (Option α)) (file : Option Settings)
    (field : Settings → α) : firstSaid (layers ++ [file.map field]) (field .default) =
      firstSaid layers (field (file.getD .default)) := by
  rw [firstSaid, List.foldr_append, List.foldr_cons, List.foldr_nil, Option.getD_map, firstSaid]

theorem reading_file_iff {α ε : Type} {read : String → Except ε α} {wrap : String → ε → Fault}
    {text : Option String} {a : α} (field : Settings → α) :
    reading read wrap text (field (file.getD .default)) = .ok a ↔
      firstSaid [text.map read, file.map fun f => .ok (field f)] (.ok (field .default)) =
        .ok a := by
  rw [reading_eq_ok_iff, ← firstSaid_file [text.map read] file fun f => .ok (field f)]
  rfl

theorem reading_stop_iff {x : Float} :
    reading Timecode.read .stop o.stop (((file.filter fun f => ¬ f.trimEnd ≤ 0.0).map
        (·.trimEnd)).getD source.duration) = .ok x ↔
      firstSaid [o.stop.map Timecode.read,
        (file.filter fun f => ¬ f.trimEnd ≤ 0.0).map (.ok ·.trimEnd)] (.ok source.duration) =
          .ok x := by
  rw [reading_eq_ok_iff]
  cases file.filter fun f => ¬ f.trimEnd ≤ 0.0 <;> rfl

theorem resolve_eq_ok_iff_apply : o.resolve file source defaultPreset = .ok s ↔
    o.apply (.ofLayers file source) source defaultPreset = .ok s ∧ s.validate = .ok () := by
  rw [resolve, bind_eq_ok_iff]
  constructor
  · rintro ⟨s', hs', h⟩
    cases hvalid : s'.validate with
    | error f => simp [hvalid, throw, throwThe, MonadExceptOf.throw] at h
    | ok u =>
      simp only [hvalid, pure, Except.pure, Except.ok.injEq] at h
      exact h ▸ ⟨hs', hvalid⟩
  · rintro ⟨hs, hvalid⟩
    refine ⟨s, hs, ?_⟩
    rw [hvalid]
    rfl

/-- Settings are resolved exactly to what is from the first layers that say anything. -/
theorem resolve_eq_ok_iff :
    o.resolve file source defaultPreset = .ok s ↔ s.IsLayered o file source defaultPreset := by
  have hpreset : (file.getD Settings.default).preset = file.bind (·.preset) := by cases file <;> rfl
  have hspeed : ∀ b : Settings, o.speed.or b.speed = firstSaid [o.speed.map some] b.speed := by
    intro b
    cases o.speed <;> rfl
  rw [resolve_eq_ok_iff_apply, ofLayers_eq, apply]
  simp only [bind_eq_ok_iff, named, presetName_eq_ok_iff, pure, Except.pure, Except.ok.injEq,
    rateControl_eq, audioTracks_eq, subtitleTracks_eq, or_eq_firstSaid, copy_eq_firstSaid, hpreset,
    hspeed]
  constructor
  · rintro ⟨⟨start, h₁, stop, h₂, container, h₃, video, h₄, preset, h₅, audio, h₆, rfl⟩, hvalid⟩
    exact {
      trimStart := (reading_file_iff (·.trimStart)).1 h₁
      trimEnd := reading_stop_iff.1 h₂
      container := (reading_file_iff (·.container)).1 h₃
      videoCodec := (reading_file_iff (·.videoCodec)).1 h₄
      rateControl := firstSaid_file [_, _, _] file (·.rateControl)
      speed := firstSaid_file [_] file (·.speed)
      preset := h₅
      resize := firstSaid_file [_] file (·.resize)
      brightness := firstSaid_file [_] file (·.color.brightness)
      contrast := firstSaid_file [_] file (·.color.contrast)
      saturation := firstSaid_file [_] file (·.color.saturation)
      hue := firstSaid_file [_] file (·.color.hue)
      audioCodec := (reading_file_iff (·.audioCodec)).1 h₆
      audioKbps := firstSaid_file [_] file (·.audioKbps)
      keepVideo := firstSaid_file [_] file (·.keepVideo)
      keepAudio := firstSaid_file [_] file (·.keepAudio)
      audioTracks := firstSaid_file [_, _, _] file (·.audioTracks)
      subtitleTracks := firstSaid_file [_, _, _] file (·.subtitleTracks)
      frameRate := firstSaid_file [_] file (·.animation.fps)
      paletteSpeed := firstSaid_file [_] file (·.animation.speed)
      valid := hvalid }
  · intro h
    refine ⟨⟨_, (reading_file_iff (·.trimStart)).2 h.trimStart, _, reading_stop_iff.2 h.trimEnd,
      _, (reading_file_iff (·.container)).2 h.container, _,
      (reading_file_iff (·.videoCodec)).2 h.videoCodec, _, h.preset, _,
      (reading_file_iff (·.audioCodec)).2 h.audioCodec, ?_⟩, h.valid⟩
    apply Settings.ext
    case rateControl =>
      exact (firstSaid_file [_, _, _] file (·.rateControl)).symm.trans h.rateControl
    case speed => exact (firstSaid_file [_] file (·.speed)).symm.trans h.speed
    case resize => exact (firstSaid_file [_] file (·.resize)).symm.trans h.resize
    case color =>
      exact Color.ext ((firstSaid_file [_] file (·.color.brightness)).symm.trans h.brightness)
        ((firstSaid_file [_] file (·.color.contrast)).symm.trans h.contrast)
        ((firstSaid_file [_] file (·.color.saturation)).symm.trans h.saturation)
        ((firstSaid_file [_] file (·.color.hue)).symm.trans h.hue)
    case audioKbps => exact (firstSaid_file [_] file (·.audioKbps)).symm.trans h.audioKbps
    case keepVideo => exact (firstSaid_file [_] file (·.keepVideo)).symm.trans h.keepVideo
    case keepAudio => exact (firstSaid_file [_] file (·.keepAudio)).symm.trans h.keepAudio
    case audioTracks =>
      exact (firstSaid_file [_, _, _] file (·.audioTracks)).symm.trans h.audioTracks
    case subtitleTracks =>
      exact (firstSaid_file [_, _, _] file (·.subtitleTracks)).symm.trans h.subtitleTracks
    case animation =>
      exact AnimationOptions.ext
        ((firstSaid_file [_] file (·.animation.fps)).symm.trans h.frameRate)
        ((firstSaid_file [_] file (·.animation.speed)).symm.trans h.paletteSpeed)
    all_goals rfl

end Overrides

end VideoExport
