import VideoExport.Proofs.Filter.Lost
import VideoExport.Proofs.Plan.Arguments
import VideoExport.Proofs.Plan.Filters
import VideoExport.Proofs.Plan.Times
import VideoExport.Proofs.Recipe.Leftover

/-!
# Plans that are understood

Settings are checked before a plan is made of them, but not for all that
tokens can say. A speed may be blank or spelled like a flag, a window may last
forever, and a side may be too long for a filter. Those are the only ways in
which something of a plan gets lost.

* `Directive.isUnderstood_iff`: when a directive is understood after it was sent;
* `Settings.CanBeSent`: settings whose plan is understood;
* `Plan.understood_iff`: no token of a plan is left over exactly for those.
-/

namespace VideoExport

open Number Text

namespace Directive

/-! ## Directives -/

/-- A directive none of whose tokens is left over after it was sent. -/
def IsUnderstood (d : Directive) : Prop := ∀ d' ∈ lex d.toTokens, d'.flag?.isSome = true

theorem IsFaithful.isUnderstood {d : Directive} (h : d.IsFaithful) (hd : d.flag?.isSome = true) :
    d.IsUnderstood := by
  intro d' hd'
  rw [show lex d.toTokens = [d] from h, List.mem_singleton] at hd'
  rw [hd']
  exact hd

/-- A directive is understood exactly if its value is one of its flag, and no
    flag itself. -/
theorem isUnderstood_iff {d : Directive} {f : Flag} {value : String}
    (h : d.toTokens = [f.text, value]) :
    d.IsUnderstood ↔ Flag.named? value = none ∧ (ofPair? f value).isSome = true := by
  rw [IsUnderstood, h]
  cases hflag : Flag.named? value with
  | none =>
    rw [lex_flag_value f hflag, lex]
    cases hpair : ofPair? f value with
    | none => simp [flag?]
    | some d' => simp [flag?_of_ofPair? hpair]
  | some v =>
    rw [Flag.text_of_named? hflag, lex_flag_flag, lex]
    simp [flag?]

end Directive

/-! ## Settings -/

/-- Settings whose plan can be sent: the speed is a word, unless it is not sent,
    and the window ends, unless it is not asked for. Presets have speeds of their
    own; copies and animations have none. -/
structure Settings.CanBeSent (s : Settings) (source : Source) (p : Plan) : Prop where
  speed : s.container ≠ .gif → p.videoCopy = false → s.preset = none →
    ∀ name ∈ s.speed, trim name ≠ "" ∧ Flag.named? name = none
  duration : (s.trimWindow source).requested = true → p.expectedDuration.isFinite = true

/-- A box has exactly the sides of a resize. -/
def ScaleBox.HasSides (box : ScaleBox) (r : Resize) : Prop :=
  box.width.toInt = r.width.toNat ∧ box.height.toInt = r.height.toNat

/-- No box has sides that do not fit into a filter. -/
theorem ScaleBox.HasSides.fits {box : ScaleBox} {r : Resize} (h : box.HasSides r) : r.Fits := by
  have h31 : signBit32 = 2147483648 := rfl
  have hwidth := box.width.toInt_lt
  have hheight := box.height.toInt_lt
  rw [h.1] at hwidth
  rw [h.2] at hheight
  constructor <;> omega

/-! ## Resizes -/

/-- What is found of the filters of settings whose resize does not fit. -/
def Settings.lostFilterItems (s : Settings) (preset : Option Preset) (r : Resize) :
    List FilterItem :=
  ((preset.bind (·.filter)).map FilterItem.single).toList ++ r.lostItems ++
    (s.color.filter?.map fun e => .eq e s.color.reread).toList

namespace Settings

variable {s : Settings} {preset : Option Preset} {r : Resize}

theorem scans_filterParts (hcolor : s.color.isFinite = true) (hpreset : ∀ p ∈ preset, p ∈ presets)
    (hr : s.resize = some r) (hfits : ¬ r.Fits) :
    FilterItem.Scans ((s.filterParts preset).flatMap FilterItem.expressions)
      (s.lostFilterItems preset r) := by
  have hresize : FilterItem.Scans ([r.filter].flatMap FilterItem.expressions) r.lostItems := by
    rw [List.flatMap_singleton]
    exact Resize.scans_filter hfits
  rw [filterParts, hr, List.flatMap_append, List.flatMap_append]
  exact ((FilterItem.scans_flatMap (isFound_presetParts hpreset)).append hresize).append
    (FilterItem.scans_flatMap (Color.isFound_filterParts hcolor))

/-- Only the preset has a box left. -/
theorem findSome?_boxOf?_lost (hpreset : ∀ p ∈ preset, p ∈ presets) :
    (s.lostFilterItems preset r).reverse.findSome? FilterItem.boxOf? =
      preset.bind Preset.box? := by
  rw [lostFilterItems, List.reverse_append, List.reverse_append, List.findSome?_append,
    List.findSome?_append, findSome?_boxOf?_preset hpreset, Resize.lostItems]
  cases s.color.filter? <;> cases r.cropText? <;> simp [FilterItem.boxOf?, List.findSome?]

end Settings

theorem Filters.resize_append (items : List FilterItem) :
    (Filters.none.append items).resize = items.reverse.findSome? FilterItem.boxOf? := by
  simp [Filters.append, Filters.none]

/-! ## Directives -/

namespace Directive

theorem isUnderstood_speed_iff {name : String} :
    (speed name).IsUnderstood ↔ trim name ≠ "" ∧ Flag.named? name = none := by
  have hblank : (ofPair? .speed name).isSome = true ↔ trim name ≠ "" := by
    rw [ofPair?, nonBlank?, Option.isSome_map]
    simp
  rw [isUnderstood_iff (f := .speed) rfl, hblank]
  exact and_comm

theorem isUnderstood_trimDuration_iff {t : Float} (h : t.isFinite = true → 0.0 ≤ t) :
    (trimDuration t).IsUnderstood ↔ t.isFinite = true := by
  rw [isUnderstood_iff (f := .trimDuration) rfl, ofPair?, Option.isSome_map]
  constructor
  · rintro ⟨-, hread⟩
    cases hfinite : t.isFinite with
    | true => rfl
    | false =>
      rw [seconds?_wire_eq_none hfinite] at hread
      cases hread
  · intro hfinite
    obtain ⟨read, -, hread⟩ := exists_seconds?_wire hfinite (h hfinite)
    exact ⟨named?_wire t, by rw [hread]; rfl⟩

theorem isUnderstood_trimStart {t : Float} (hfinite : t.isFinite = true) (h : 0.0 ≤ t) :
    (trimStart t).IsUnderstood := by
  obtain ⟨read, -, hlex⟩ := lex_trimStart hfinite h
  intro d hd
  rw [hlex, List.mem_singleton] at hd
  rw [hd]
  rfl

end Directive

namespace Plan

variable {threads : Option UInt32} {s : Settings} {source : Source} {p : Plan}

/-- Video is copied only if that is asked for. -/
theorem videoCopy_eq_false (h : compile threads s source = .ok p) (hkeep : s.keepVideo = false) :
    p.videoCopy = false := by
  obtain ⟨-, -, primary, -, rfl⟩ := compile_eq_ok_iff.1 h
  split
  · rfl
  · rw [← Bool.not_eq_true, videoCopy_ofVideo_iff, hkeep]
    simp

/-- A plan says the speed that was asked for, unless it copies video or makes an
    animation. -/
theorem mem_speed_iff (h : compile threads s source = .ok p) {name : String} :
    .speed name ∈ p.directives ↔
      s.container ≠ .gif ∧ p.videoCopy = false ∧ name ∈ (s.videoRequest s.chosenPreset?).speed := by
  have hfilter : .speed name ∈ p.directives ↔ .speed name ∈ p.directives.filter (·.isSpeed) := by
    rw [List.mem_filter]
    exact (and_iff_left rfl).symm
  obtain ⟨primary, -, ⟨hk, rfl, -⟩ | ⟨hk, rfl, -⟩⟩ := core_read_cases h p.output.fileName
  · have hflags : ∀ f ∈ windowFlags ++ [some .threads], ¬ f = some Flag.speed := by decide
    refine iff_of_false (fun hmem => ?_) fun hc => hc.1 hk
    rw [directives_ofAnimation] at hmem
    simp only [List.mem_append, List.mem_cons, reduceCtorEq, List.not_mem_nil, or_false,
      false_or] at hmem
    rcases hmem with hmem | hmem
    · exact hflags _ (List.mem_append_left _ (flag?_of_mem_window hmem)) rfl
    · cases flag?_of_mem_threads hmem
  · rw [hfilter, filter_isSpeed_ofVideo]
    cases (ofVideo threads s source primary s.chosenPreset?).videoCopy <;> simp [hk]

/-- What is asked of the speed of settings is asked of the speed that is sent. -/
theorem forall_speed_iff (h : compile threads s source = .ok p) :
    (∀ name, .speed name ∈ p.directives → trim name ≠ "" ∧ Flag.named? name = none) ↔
      (s.container ≠ .gif → p.videoCopy = false → s.preset = none →
        ∀ name ∈ s.speed, trim name ≠ "" ∧ Flag.named? name = none) := by
  constructor
  · intro hall hk hcopy hpreset name hname
    have hnone : s.chosenPreset? = none := by rw [Settings.chosenPreset?, hpreset]; rfl
    refine hall name ((mem_speed_iff h).2 ⟨hk, hcopy, ?_⟩)
    rw [hnone]
    exact hname
  · intro hspeed name hmem
    obtain ⟨hk, hcopy, hname⟩ := (mem_speed_iff h).1 hmem
    cases hpreset : s.chosenPreset? with
    | none =>
      rw [hpreset] at hname
      exact hspeed hk hcopy (preset_eq_none h hpreset) name hname
    | some q =>
      rw [hpreset] at hname
      obtain ⟨⟨hne, htrim⟩, hflag⟩ :=
        isPlain_presetSpeed (Settings.mem_presets_of_chosenPreset? hpreset) name hname
      exact ⟨by rwa [htrim], hflag⟩

/-- The directives of a plan are understood exactly if its settings can be sent. -/
theorem forall_isUnderstood_iff (h : compile threads s source = .ok p) :
    (∀ d ∈ p.directives, d.IsUnderstood) ↔ s.CanBeSent source p := by
  have hwindow := Settings.isSound_trimWindow (compile_eq_ok_iff.1 h).1 source
  have hduration : p.expectedDuration.isFinite = true → 0.0 ≤ p.expectedDuration := by
    rw [expectedDuration_eq h]
    exact hwindow.zero_le_duration
  constructor
  · intro hall
    refine ⟨(forall_speed_iff h).1 fun name hmem => ?_, fun hrequested => ?_⟩
    · exact Directive.isUnderstood_speed_iff.1 (hall _ hmem)
    · exact (Directive.isUnderstood_trimDuration_iff hduration).1
        (hall _ ((mem_directives_iff_of_isTime h rfl).2 ⟨hrequested, .inr rfl⟩))
  · intro hsent d hd
    obtain ⟨hflag, hexact⟩ := isSent_of_mem_directives h d hd
    cases hessential : d.isEssential with
    | true => exact (hexact hessential).isFaithful.isUnderstood hflag
    | false =>
      -- All that is left are times and the speed.
      cases d with
      | trimStart t =>
        obtain ⟨-, he | he⟩ := (mem_directives_iff_of_isTime h rfl).1 hd
        · cases he
          exact Directive.isUnderstood_trimStart hwindow.isFinite_start hwindow.zero_le_start
        · cases he
      | trimDuration t =>
        obtain ⟨hrequested, he | he⟩ := (mem_directives_iff_of_isTime h rfl).1 hd
        · cases he
        · cases he
          exact (Directive.isUnderstood_trimDuration_iff hduration).2 (hsent.duration hrequested)
      | speed name =>
        exact Directive.isUnderstood_speed_iff.2 ((forall_speed_iff h).2 hsent.speed name hd)
      | unknown tokens => cases hflag
      | _ => cases hessential

/-- A resize that does not fit is lost; at most the box of a preset is read. -/
theorem resize_read_of_not_fits (h : compile threads s source = .ok p) {r : Resize}
    (hr : r ∈ s.resize) (hfits : ¬ r.Fits) (output : String) :
    (Recipe.read p.tokens output).filters.resize = s.chosenPreset?.bind Preset.box? := by
  have hpreset : ∀ q ∈ s.chosenPreset?, q ∈ presets := fun _ => Settings.mem_presets_of_chosenPreset?
  have hscans := Settings.scans_filterParts (Settings.isFinite_color (compile_eq_ok_iff.1 h).1)
    hpreset (Option.mem_def.1 hr) hfits
  have hne : s.filterParts s.chosenPreset? ≠ [] := by
    rw [Settings.filterParts, Option.mem_def.1 hr]
    simp
  have hcore : (Recipe.read p.tokens output).filters.resize =
      (Recipe.read p.tokens output).core.filters.resize := rfl
  obtain ⟨primary, -, ⟨-, -, hread⟩ | ⟨-, -, hread⟩⟩ := core_read_cases h output
  · have hscans := FilterItem.Scans.append (isFound_rate s.animation.fps) hscans
    rw [← List.flatMap_cons] at hscans
    rw [hcore, hread]
    show (Filters.none.append (FilterItem.ofChain (Filter.chain _))).resize = _
    rw [FilterItem.ofChain_of_scans (List.cons_ne_nil _ _) hscans, Filters.resize_append,
      List.reverse_append, List.findSome?_append, Settings.findSome?_boxOf?_lost hpreset]
    simp [FilterItem.boxOf?]
  · have hcopy : ¬ (ofVideo threads s source primary s.chosenPreset?).videoCopy = true := by
      intro hcopy
      exact hne (isSome_chain?.1 (copyObstacle?_eq_none_iff.1 (videoCopy_ofVideo_iff.1 hcopy).2).1)
    have hchain : Filter.chain? (s.filterParts s.chosenPreset?) =
        some (Filter.chain (s.filterParts s.chosenPreset?)) :=
      if_neg (mt List.isEmpty_iff.1 hne)
    rw [hcore, hread, recipeOfVideo]
    simp only [if_neg hcopy]
    rw [Recipe.chainFilters, hchain, Option.map_some, Option.getD_some,
      FilterItem.ofChain_of_scans hne hscans, Filters.resize_append,
      Settings.findSome?_boxOf?_lost hpreset]

/-- The resize that is read of a plan has the sides that were asked for exactly
    if they fit into a filter. -/
theorem exists_hasSides_iff (h : compile threads s source = .ok p) {r : Resize} (hr : r ∈ s.resize)
    (output : String) :
    (∃ box, (Recipe.read p.tokens output).filters.resize = some box ∧ box.HasSides r) ↔
      r.Fits := by
  constructor
  · rintro ⟨box, -, hsides⟩
    exact hsides.fits
  · intro hfits
    have hresize : ∀ r' ∈ s.resize, r'.Fits := by
      intro r' hr'
      rwa [Option.mem_unique hr' hr]
    rw [filters_read h hresize, Settings.append_sentItems, Option.mem_def.1 hr]
    exact ⟨r.box, rfl, toInt_sideOf hfits.1, toInt_sideOf hfits.2⟩

theorem forall_mem_lex_iff (h : compile threads s source = .ok p) :
    (∀ d ∈ Directive.lex p.tokens, d.flag?.isSome = true) ↔ s.CanBeSent source p := by
  rw [← forall_isUnderstood_iff h, tokens, Directive.lex_tokens (isSome_flag? h)]
  exact List.forall_mem_flatMap

/-- All tokens of a plan are understood, and none is ignored, exactly if its
    settings can be sent. A resize keeps its sides exactly if they fit; else it is
    lost. -/
theorem understood_iff (h : compile threads s source = .ok p) :
    let r := Recipe.read p.tokens p.output.fileName
    ((∀ d ∈ Directive.lex p.tokens, d.flag?.isSome = true) ↔ s.CanBeSent source p) ∧
      (r.ignored = [] ↔ s.CanBeSent source p) ∧
      ∀ resize ∈ s.resize,
        ((∃ box, r.filters.resize = some box ∧ box.HasSides resize) ↔ resize.Fits) ∧
        (¬ resize.Fits → r.filters.resize = s.chosenPreset?.bind Preset.box?) := by
  intro r
  refine ⟨forall_mem_lex_iff h, Recipe.ignored_read_eq_nil_iff.trans (forall_mem_lex_iff h),
    fun resize hresize => ⟨exists_hasSides_iff h hresize _, fun hfits => ?_⟩⟩
  exact resize_read_of_not_fits h hresize hfits _

/-- Settings without a speed can be sent for a clip, and so they are. -/
theorem understood_default :
    ∃ p, compile none .default .sample = .ok p ∧
      (∀ d ∈ Directive.lex p.tokens, d.flag?.isSome = true) ∧
      (Recipe.read p.tokens p.output.fileName).ignored = [] := by
  obtain ⟨p, hp⟩ := exists_compile none .default .sample rfl rfl rfl
  have hsent : Settings.default.CanBeSent .sample p := by
    refine ⟨fun _ _ _ name hname => (by cases hname), fun _ => ?_⟩
    rw [expectedDuration_eq hp]
    decide +kernel
  obtain ⟨hlex, hignored, -⟩ := understood_iff hp
  exact ⟨p, hp, hlex.2 hsent, hignored.2 hsent⟩

/-- But settings in order may ask for a side that is too long for a filter, or
    for a speed that is spelled like a flag; then the one is lost and the other
    is not understood. -/
theorem loses_resize_and_speed :
    (let s := { Settings.default with resize := some ⟨2147483648, 720, .stretch⟩ }
      ∃ p, compile (some 1) s .sample = .ok p ∧
        (Recipe.read p.tokens p.output.fileName).filters.resize = none) ∧
      (let s := { Settings.default with speed := some "-crf" }
        ∃ p, compile (some 1) s .sample = .ok p ∧
          ¬ (∀ d ∈ Directive.lex p.tokens, d.flag?.isSome = true) ∧
          (Recipe.read p.tokens p.output.fileName).ignored ≠ []) := by
  constructor
  · intro s
    obtain ⟨p, hp⟩ := exists_compile (some 1) s .sample (by decide +kernel) rfl rfl
    have hfits : ¬ Resize.Fits ⟨2147483648, 720, .stretch⟩ := fun h => absurd h.1 (by decide)
    exact ⟨p, hp, resize_read_of_not_fits hp rfl hfits _⟩
  · intro s
    obtain ⟨p, hp⟩ := exists_compile (some 1) s .sample (by decide +kernel) rfl rfl
    have hnot : ¬ s.CanBeSent .sample p := by
      intro hsent
      have hflag := (hsent.speed (by decide) (videoCopy_eq_false hp rfl) rfl "-crf" rfl).2
      cases hflag
    have hlex := mt (forall_mem_lex_iff hp).1 hnot
    exact ⟨p, hp, hlex, mt Recipe.ignored_read_eq_nil_iff.1 hlex⟩

end Plan

end VideoExport
