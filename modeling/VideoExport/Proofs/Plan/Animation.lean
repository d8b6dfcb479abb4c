import VideoExport.Proofs.Job.Admission
import VideoExport.Proofs.Plan.Filters

/-!
# Animations

Half of the settings mean nothing to an animation, and most of the other half
is fixed: what is left are the frame rate, the speed at which its palette is
chosen, and the filters. A preset has no say in anything but the filters, but
one that sets a frame rate there takes the place of the settings, as the last
rate in a chain counts.

* `FilterItem.rate?_text`, `Settings.rateIn?_filterParts`: the rate that is in
  force;
* `Settings.IsAnimated`: a recipe that is what settings say of an animation;
* `Plan.isAnimated_read`: the tokens of every plan of an animation make one, it
  is admitted, and what is kept is the primary video.
-/

namespace VideoExport

open Number Text

/-! ## Frame rates -/

/-- A whole number is read as the floating-point number that it is. -/
theorem Number.float?_text {n : ℕ} (hpos : 0 < n) (hlt : n < 2 ^ 53) :
    float? (Number.text n) = some (Float.ofNat n) ∧
      (Float.ofNat n).isFinite = true ∧ 0.0 < Float.ofNat n := by
  have hlen : (Number.digits n).length ≤ 310 :=
    (length_digits_le (k := 16) (by decide) (hlt.trans (by decide))).trans (by decide)
  have hdecimal : (⟨false, n, 0⟩ : Decimal).toFloat = Float.ofNat n := by
    show Decimal.magnitudeToFloat _ = _
    have hsize : (⟨false, n, 0⟩ : Decimal).size = (Number.digits n).length := add_zero _
    have hno : ¬ (n = 0 ∨ (⟨false, n, 0⟩ : Decimal).size < -330) := by omega
    rw [Decimal.magnitudeToFloat_def, if_neg hno, if_neg (by omega)]
    rfl
  have hvalue := Decimal.hasValue_natural hpos hlt
  rw [hdecimal] at hvalue
  refine ⟨?_, hvalue.isFinite, hvalue.zero_lt⟩
  have hread : Numeral.read? (digits n) = some (.finite ⟨false, n, 0⟩) := Numeral.read?_digits false n
  rw [float?, Number.text, String.toList_ofList, hread, Option.map_some, Numeral.toFloat, hdecimal]

namespace FilterItem

/-- The rate of a whole number is that number. -/
theorem rate?_text {n : ℕ} (hpos : 0 < n) (hlt : n < 2 ^ 53) :
    rate? (Number.text n) = some (Float.ofNat n) := by
  obtain ⟨hread, hfinite, hzero⟩ := Number.float?_text hpos hlt
  have hnamed : namedRate? (Number.text n) = some (Float.ofNat n) := by
    unfold namedRate?
    split
    case h_4 => rw [cut?_eq_none (Filter.notMem_text rfl), hread]
    all_goals exact absurd ‹_› (text_ne_of_head? rfl rfl)
  have hafter : Text.after? "fps=" (Number.text n) = none := by
    refine Text.after?_eq_none rfl ?_
    rw [Number.text, String.toList_ofList]
    exact head?_digits_ne rfl
  rw [rate?, splitOn_eq_singleton (Filter.notMem_text rfl), List.headD_cons, (hasNoBlank_text n).trim,
    hafter, Option.getD_none, hnamed]
  simp [hfinite, hzero]

/-- The rate of the last of some expressions that has one. -/
def rateIn? (texts : List String) : Option Float :=
  texts.reverse.findSome? fun e => (Text.after? "fps=" e).bind rate?

theorem rateIn?_append (texts texts' : List String) :
    rateIn? (texts ++ texts') = (rateIn? texts').or (rateIn? texts) := by
  rw [rateIn?, List.reverse_append, List.findSome?_append]
  rfl

/-- Expressions of other kinds have no rate. -/
theorem rateIn?_eq_none {texts : List String} (h : ∀ e ∈ texts, Text.after? "fps=" e = none) :
    rateIn? texts = none := by
  rw [rateIn?, List.findSome?_eq_none_iff]
  intro e he
  rw [h e (List.mem_reverse.1 he)]
  rfl

end FilterItem

/-- The frame rate that a preset sets: the number in its filter, if that is a
    rate. -/
def Preset.frameRate? (p : Preset) : Option ℕ :=
  p.filter.bind fun e => (Text.after? "fps=" e).bind fun digits => digitsValue? digits.toList

/-- It is in force if no other rate comes after it. -/
theorem Preset.rateIn?_filter {p : Preset} (hp : p ∈ presets) :
    FilterItem.rateIn? (p.filter.toList.flatMap FilterItem.expressions) =
      p.frameRate?.map Float.ofNat := by
  have hall : ∀ p ∈ presets, FilterItem.rateIn? (p.filter.toList.flatMap FilterItem.expressions) =
      p.frameRate?.map Float.ofNat := by
    decide +kernel
  exact hall p hp

/-- One preset sets a rate. -/
example : presets.map Preset.frameRate? = [none, none, some 30, none] := by decide

/-- What starts with another name has no rate. -/
theorem after?_fps_append {lead : String} (rest : String)
    (h : lead.toList.head?.any (· != 'f') = true) : Text.after? "fps=" (lead ++ rest) = none := by
  refine Text.after?_eq_none rfl ?_
  rw [String.toList_append]
  cases hlead : lead.toList with
  | nil =>
    rw [hlead] at h
    cases h
  | cons c s =>
    rw [hlead, List.head?_cons, Option.any_some, bne_iff_ne] at h
    rw [List.cons_append, List.head?_cons, Ne, Option.some.injEq]
    exact h

/-- A change of size has no rate. -/
theorem Resize.rateIn?_filter (r : Resize) :
    FilterItem.rateIn? (FilterItem.expressions r.filter) = none := by
  refine FilterItem.rateIn?_eq_none fun e he => ?_
  rw [expressions_filter, item, FilterItem.texts, List.mem_cons, Option.mem_toList] at he
  rcases he with rfl | he
  · exact after?_fps_append _ (by decide)
  · obtain ⟨-, he⟩ := Option.ite_none_right_eq_some.1 he
    rw [← Option.some.inj he]
    exact after?_fps_append _ (by decide)

/-- Nor has a change of colours. -/
theorem Color.rateIn?_filter {c : Color} (h : c.isFinite = true) {e : String}
    (he : c.filter? = some e) : FilterItem.rateIn? (FilterItem.expressions e) = none := by
  refine FilterItem.rateIn?_eq_none fun e' he' => ?_
  rw [(isFound_filter h he).expressions_eq, FilterItem.texts, List.mem_singleton] at he'
  obtain ⟨-, he⟩ := Option.ite_none_left_eq_some.1 he
  rw [he', ← Option.some.inj he]
  exact after?_fps_append _ (by decide)

/-- The rate of a chain is that of the preset, or else the one that the chain starts
    with. -/
theorem Settings.rateIn?_chain {s : Settings} (hfps : 0 < s.animation.fps.toNat)
    (hcolor : s.color.isFinite = true) :
    FilterItem.rateIn? (FilterItem.expressions (Filter.chain
        (("fps=" ++ Number.text s.animation.fps.toNat) :: s.filterParts s.chosenPreset?))) =
      some (Float.ofNat ((s.chosenPreset?.bind Preset.frameRate?).getD s.animation.fps.toNat)) := by
  have hlt : s.animation.fps.toNat < 2 ^ 53 := s.animation.fps.toNat_lt.trans (by decide)
  have hrate : FilterItem.rateIn? ["fps=" ++ Number.text s.animation.fps.toNat] =
      some (Float.ofNat s.animation.fps.toNat) := by
    simp [FilterItem.rateIn?, FilterItem.rate?_text hfps hlt, Text.after?_append]
  have hpreset : FilterItem.rateIn?
      (((s.chosenPreset?.bind (·.filter)).toList).flatMap FilterItem.expressions) =
        (s.chosenPreset?.bind Preset.frameRate?).map Float.ofNat := by
    cases hp : s.chosenPreset? with
    | none => rfl
    | some p => exact Preset.rateIn?_filter (mem_presets_of_chosenPreset? hp)
  have hresize : FilterItem.rateIn?
      (((s.resize.map Resize.filter).toList).flatMap FilterItem.expressions) = none := by
    cases s.resize with
    | none => rfl
    | some r => simpa using r.rateIn?_filter
  have hcolors : FilterItem.rateIn? (s.color.filter?.toList.flatMap FilterItem.expressions) =
      none := by
    cases he : s.color.filter? with
    | none => rfl
    | some e => simpa using Color.rateIn?_filter hcolor he
  rw [FilterItem.expressions_chain (List.cons_ne_nil _ _), List.flatMap_cons,
    (isFound_rate s.animation.fps).expressions_eq, FilterItem.texts, filterParts,
    List.flatMap_append, List.flatMap_append, FilterItem.rateIn?_append, FilterItem.rateIn?_append,
    FilterItem.rateIn?_append, hcolors, hresize, hpreset, hrate]
  cases s.chosenPreset?.bind Preset.frameRate? <;> rfl

/-- The options of an animation in order are not zero. -/
theorem Settings.fps_pos {s : Settings} (h : s.fault? = none) (hk : s.container = .gif) :
    0 < s.animation.fps.toNat := by
  by_contra hzero
  have hfps : s.animation.fps < AnimationOptions.fpsRange.1 := by
    rw [UInt32.lt_iff_toNat_lt]
    exact Nat.lt_succ_of_le (Nat.le_of_not_lt hzero)
  have hfault : animationFault? s.animation = some (.animationRate s.animation.fps) := by
    simp [animationFault?, hfps]
  simp [fault?, hfault, hk, Container.isAnimation] at h

/-- A job that keeps nothing but video keeps the primary one. -/
theorem Job.kept_eq_singleton {r : Recipe} {source : Source} {passthrough : Bool} {primary : Stream}
    (hindex : (source.streams.map (·.index)).Nodup) (hprimary : source.primary? = some primary)
    (hvideo : ∀ a ∈ source.streams, r.Keeps source passthrough a → a.kind = .video) {j : Job}
    (hj : j.tracks = r.decisions source passthrough) :
    (j.tracks.filter (·.kept)).map (fun d => (d.index, d.kind)) = [(primary.index, .video)] := by
  have hkind : ∀ d ∈ j.tracks, d.kept = (d.kept && d.kind == .video) := by
    intro d hd
    rw [hj] at hd
    obtain ⟨a, ha, rfl⟩ := List.mem_map.1 hd
    cases hkept : (r.verdict (source.primary?.map (·.index)) passthrough a).keeps with
    | false => simp [TrackDecision.kept, hkept]
    | true => simp [TrackDecision.kept, hkept, hvideo a ha ((Recipe.keeps_verdict_iff hindex ha).1 hkept)]
  have hindices := index_keptTracks_video hindex hj
  rw [hprimary, Option.map_some, Option.toList_some, List.map_eq_singleton_iff] at hindices
  obtain ⟨d, hd, hi⟩ := hindices
  have hmem : d ∈ j.keptTracks .video := by
    rw [hd]
    exact List.mem_singleton_self d
  simp only [keptTracks, List.mem_filter, Bool.and_eq_true, beq_iff_eq] at hmem
  rw [List.filter_congr hkind]
  show (j.keptTracks .video).map _ = _
  rw [hd, List.map_singleton, hi, hmem.2.2]

/-! ## Recipes of animations -/

/-- A recipe is what settings say of an animation. -/
structure Settings.IsAnimated (s : Settings) (r : Recipe) : Prop where
  container : r.container = .gif
  codec : r.video.codec = some "gif"
  copy : r.video.copy = false
  quality : r.video.quality = some s.animation.speed
  /-- No number controls the rate. -/
  rate : r.video.rateMode? = none ∧ r.video.crf = none ∧ r.video.qp = none ∧
    r.video.kbps = none ∧ r.video.maxKbps = none ∧ r.video.bufferKbps = none
  audio : r.audio = .empty
  subtitles : r.subtitleCodec = none
  /-- No track is asked for but the primary video. -/
  maps : r.primaryVideo = true ∧ r.allAudio = false ∧ r.allSubtitles = false ∧ r.tracks = []
  frameRate : r.filters.frameRate? =
    some (Float.ofNat ((s.chosenPreset?.bind Preset.frameRate?).getD s.animation.fps.toNat))

/-- Nothing of this is about times or the speed of an encoder. -/
theorem Settings.IsAnimated.of_core {s : Settings} {r : Recipe} (h : s.IsAnimated r.core) :
    s.IsAnimated r where
  container := h.container
  codec := h.codec
  copy := h.copy
  quality := h.quality
  rate := h.rate
  audio := h.audio
  subtitles := h.subtitles
  maps := h.maps
  frameRate := h.frameRate

/-- Such a recipe asks for no stream but the primary video. -/
theorem Settings.IsAnimated.keeps_iff {s : Settings} {r : Recipe} (h : s.IsAnimated r)
    {source : Source} {passthrough : Bool} {a : Stream} :
    r.Keeps source passthrough a ↔ a.kind = .video ∧ source.primary? = some a := by
  obtain ⟨-, haudio, hsubtitles, htracks⟩ := h.maps
  rw [Recipe.Keeps, haudio, hsubtitles, htracks]
  cases a.kind <;> simp

/-- It can be carried out on every source with video. -/
theorem Settings.IsAnimated.isAdmissible {s : Settings} {r : Recipe} (h : s.IsAnimated r)
    {source : Source} {primary : Stream} (hprimary : source.primary? = some primary)
    (passthrough : Bool) : r.IsAdmissible source passthrough where
  tracks i hi := by
    rw [h.maps.2.2.2] at hi
    cases hi
  animation _ := ⟨h.codec, h.copy, fun _ _ hkeeps => (h.keeps_iff.1 hkeeps).1⟩
  video hno := absurd h.container hno
  audio hcopy := by
    rw [h.audio] at hcopy
    cases hcopy
  kept := by
    obtain ⟨ha, hkind⟩ := Source.mem_ofKind.1 (Source.primary?_mem hprimary)
    exact ⟨primary, ha, h.keeps_iff.2 ⟨hkind, hprimary⟩⟩

namespace Plan

variable {threads : Option UInt32} {s : Settings} {source : Source}

theorem isAnimated_recipeOfAnimation (hfault : s.fault? = none) (hk : s.container = .gif)
    {output : String} (houtput : Container.ofOutput output = .gif) :
    s.IsAnimated (recipeOfAnimation threads s s.chosenPreset? output) where
  container := houtput
  codec := rfl
  copy := rfl
  quality := rfl
  rate := ⟨rfl, rfl, rfl, rfl, rfl, rfl⟩
  audio := rfl
  subtitles := rfl
  maps := ⟨rfl, rfl, rfl, rfl⟩
  frameRate := by
    have hchain := s.rateIn?_chain (s.fps_pos hfault hk) (s.isFinite_color hfault)
    rw [← FilterItem.flatMap_texts_scan (FilterItem.expressions _)] at hchain
    exact hchain

/-- The tokens of a plan of an animation make a recipe that is what the settings say
    of one. It is admitted, and of all tracks of the source the primary video is kept. -/
theorem isAnimated_read {p : Plan} (h : compile threads s source = .ok p)
    (hk : s.container = .gif) (hindex : (source.streams.map (·.index)).Nodup) :
    let r := Recipe.read p.tokens p.output.fileName
    s.IsAnimated r ∧ ∃ primary, source.primary? = some primary ∧
      ∀ passthrough id input output hint, ∃ j,
        Job.prepare passthrough id input output r source hint = .ok j ∧
          (j.tracks.filter (·.kept)).map (fun d => (d.index, d.kind)) = [(primary.index, .video)] := by
  intro r
  have hfault := (compile_eq_ok_iff.1 h).1
  obtain ⟨primary, hprimary, ⟨-, hp, hread⟩ | ⟨hno, -⟩⟩ := core_read_cases h p.output.fileName
  case inr => exact absurd hk hno
  have houtput : Container.ofOutput p.output.fileName = .gif := by
    rw [hp]
    exact (ofOutput_exportName source s.container).trans hk
  have hanimated : s.IsAnimated r := by
    refine Settings.IsAnimated.of_core ?_
    rw [hread]
    exact isAnimated_recipeOfAnimation hfault hk houtput
  refine ⟨hanimated, primary, hprimary, fun passthrough id input output hint => ?_⟩
  have hadmissible := hanimated.isAdmissible hprimary passthrough
  obtain ⟨j, hj⟩ := Job.exists_prepare_iff.2 ((Recipe.objections_eq_nil_iff hindex).2 hadmissible)
  exact ⟨j, hj, Job.kept_eq_singleton hindex hprimary (fun _ _ hkeeps => (hanimated.keeps_iff.1 hkeeps).1)
    (Job.tracks_of_prepare hj)⟩

/-- So it is for a preset that sets the frame rate, whatever else the settings ask for. -/
theorem isAnimated_read_social :
    let s := { Settings.default with
      container := .gif, preset := some "social", animation := ⟨12, 20⟩, keepVideo := true }
    s.container = .gif ∧ (Source.sample.streams.map (·.index)).Nodup ∧
      ∃ p, compile (some 2) s .sample = .ok p ∧
        s.IsAnimated (Recipe.read p.tokens p.output.fileName) ∧
        (Recipe.read p.tokens p.output.fileName).filters.frameRate? = some 30 := by
  intro s
  have hindex : (Source.sample.streams.map (·.index)).Nodup := by decide
  have hpreset : s.chosenPreset?.bind Preset.frameRate? = some 30 := by decide +kernel
  have hknown : ∀ name ∈ s.preset, ∃ q, Preset.find name = .ok q := by
    rintro name ⟨⟩
    cases hfind : Preset.find "social" with
    | ok q => exact ⟨q, rfl⟩
    | error e =>
      rw [Settings.chosenPreset?, Option.bind_some, hfind] at hpreset
      cases hpreset
  obtain ⟨p, hp⟩ : ∃ p, compile (some 2) s .sample = .ok p :=
    ⟨_, compile_eq_ok_iff.2 ⟨by decide, hknown, _, rfl, rfl⟩⟩
  have hanimated := (isAnimated_read hp rfl hindex).1
  refine ⟨rfl, hindex, p, hp, hanimated, ?_⟩
  rw [hanimated.frameRate, hpreset]
  rfl

end Plan

end VideoExport
