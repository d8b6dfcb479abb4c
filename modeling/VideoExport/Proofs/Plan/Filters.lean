import VideoExport.Proofs.Plan.Recipe

/-!
# Filters on both sides

The filters of an export travel as one chain. Whatever puts a preset's filter,
a resize and a change of colours together, a comma joins all of it, even the
two expressions of one resize; what is read of the chain are the box and the
colours that were asked for.

* `Settings.sentItems`: what an export's chain consists of;
* `Plan.filters_read`: it is what is read;
* `Settings.AskFor`, `Plan.askFor_read`: so its box, its colours and its
  expressions are those of the settings.
-/

namespace VideoExport

open Number Text

/-! ## Texts of items -/

namespace FilterItem

theorem texts_ne_nil (item : FilterItem) : item.texts ≠ [] := by
  cases item <;> exact List.cons_ne_nil _ _

/-- The expressions of items make the same chain as the items do. -/
theorem chain_flatMap_texts (items : List FilterItem) :
    Filter.chain (items.flatMap texts) = Filter.chain (items.map fun item => Filter.chain item.texts) := by
  induction items with
  | nil => rfl
  | cons item items ih =>
    unfold Filter.chain at ih ⊢
    rw [List.flatMap_cons, List.map_cons]
    cases items with
    | nil => simp
    | cons next rest =>
      have hnext : (next :: rest).flatMap texts ≠ [] := by
        rw [List.flatMap_cons]
        exact List.append_ne_nil_of_left_ne_nil next.texts_ne_nil _
      rw [String.intercalate_append_of_ne_nil item.texts_ne_nil hnext, ih, List.map_cons,
        String.intercalate_cons_cons]

theorem chain?_flatMap_texts (items : List FilterItem) :
    Filter.chain? (items.flatMap texts) =
      Filter.chain? (items.map fun item => Filter.chain item.texts) := by
  rw [Filter.chain?]
  rw [chain_flatMap_texts]
  cases items with
  | nil => rfl
  | cons item items =>
    have hne : (item :: items).flatMap texts ≠ [] := by
      rw [List.flatMap_cons]
      exact List.append_ne_nil_of_left_ne_nil item.texts_ne_nil _
    rw [List.isEmpty_eq_false_iff.2 hne]
    rfl

/-- Whether an item has no expression that changes colours. -/
def IsGeometric (item : FilterItem) : Prop := ∀ e ∈ item.texts, Text.startsWith "eq=" e = false

end FilterItem

theorem Color.startsWith_filter {c : Color} {e : String} (h : c.filter? = some e) :
    Text.startsWith "eq=" e = true := by
  obtain ⟨-, he⟩ := Option.ite_none_left_eq_some.1 h
  rw [← Option.some.inj he]
  exact startsWith_append _ _

/-! ## Items of settings -/

/-- The expression for the frame rate of an animation. -/
def Settings.rateItems (s : Settings) : List FilterItem :=
  if s.container.isAnimation then [.other ("fps=" ++ Number.text s.animation.fps.toNat)] else []

/-- What the chain of an export consists of. -/
def Settings.sentItems (s : Settings) : List FilterItem :=
  s.rateItems ++ s.filterItems s.chosenPreset?

namespace Settings

variable {s : Settings} {preset : Option Preset}

/-- The filters of settings are the chains of their items. -/
theorem filterParts_eq (s : Settings) (preset : Option Preset) :
    s.filterParts preset = (s.filterItems preset).map fun item => Filter.chain item.texts := by
  have hsingle : ∀ e, Filter.chain (FilterItem.single e).texts = e := by
    intro e
    rw [FilterItem.texts_single, Filter.chain, String.intercalate_singleton]
  rw [filterParts, filterItems]
  rw [List.map_append, List.map_append]
  congr 1
  · congr 1
    · cases preset.bind (·.filter) with
      | none => rfl
      | some e => simp [hsingle]
    · cases s.resize with
      | none => rfl
      | some r => simp [r.filter_eq, Resize.item, FilterItem.texts]
  · cases s.color.filter? with
    | none => rfl
    | some e => simp [FilterItem.texts, Filter.chain]

/-- The change of size of a preset is found in its filter. -/
theorem findSome?_boxOf?_preset (hpreset : ∀ p ∈ preset, p ∈ presets) :
    (((preset.bind (·.filter)).map FilterItem.single).toList).reverse.findSome?
      FilterItem.boxOf? = preset.bind Preset.box? := by
  cases preset with
  | none => rfl
  | some p =>
    rw [Option.bind_some, Option.bind_some]
    cases hfilter : p.filter with
    | none => simp [Preset.box?, hfilter]
    | some e => simp [(isFound_presetFilter (hpreset p rfl) hfilter).2.1]

/-- The last change of size is the resize, or else that of the preset. -/
theorem findSome?_boxOf? (hpreset : ∀ p ∈ preset, p ∈ presets) :
    (s.filterItems preset).reverse.findSome? FilterItem.boxOf? =
      (s.resize.map Resize.box <|> preset.bind Preset.box?) := by
  rw [filterItems]
  rw [List.reverse_append, List.reverse_append, List.findSome?_append, List.findSome?_append,
    findSome?_boxOf?_preset hpreset]
  cases s.color.filter? <;> cases s.resize <;> simp [FilterItem.boxOf?, Resize.item]

/-- The only change of colours is that of the settings. -/
theorem findSome?_colorOf? (hpreset : ∀ p ∈ preset, p ∈ presets) :
    (s.filterItems preset).reverse.findSome? FilterItem.colorOf? =
      s.color.filter?.map fun _ => s.color.reread := by
  have hcolor : (((preset.bind (·.filter)).map FilterItem.single).toList).reverse.findSome?
      FilterItem.colorOf? = none := by
    cases preset with
    | none => rfl
    | some p =>
      rw [Option.bind_some]
      cases hfilter : p.filter with
      | none => rfl
      | some e => simp [(isFound_presetFilter (hpreset p rfl) hfilter).2.2]
  rw [filterItems]
  rw [List.reverse_append, List.reverse_append, List.findSome?_append, List.findSome?_append, hcolor]
  cases s.color.filter? <;> cases s.resize <;> simp [FilterItem.colorOf?, Resize.item]

theorem sentItems_of_animation (hk : s.container = .gif) :
    s.sentItems = .other ("fps=" ++ Number.text s.animation.fps.toNat) ::
      s.filterItems s.chosenPreset? := by
  rw [sentItems, rateItems, hk]
  rfl

theorem sentItems_of_video (hk : s.container ≠ .gif) :
    s.sentItems = s.filterItems s.chosenPreset? := by
  rw [sentItems, rateItems, if_neg (mt Container.isAnimation_iff.1 hk), List.nil_append]

/-- The items before a change of colours. -/
def geometricItems (s : Settings) : List FilterItem :=
  s.rateItems ++ ((s.chosenPreset?.bind (·.filter)).map FilterItem.single).toList ++
    (s.resize.map Resize.item).toList

theorem isGeometric_of_mem_geometricItems {item : FilterItem} (h : item ∈ s.geometricItems) :
    item.IsGeometric := by
  intro e he
  rw [geometricItems] at h
  rw [List.mem_append, List.mem_append] at h
  -- The items are the frame rate, the filter of a preset, and a resize.
  rcases h with (h | h) | h
  · rw [rateItems] at h
    split at h
    · rw [List.mem_singleton.1 h, FilterItem.texts, List.mem_singleton] at he
      rw [he]
      simp [Text.startsWith, Chars.after?, String.toList_append]
    · cases h
  · have hall : ∀ p ∈ presets, ∀ e ∈ p.filter, Text.startsWith "eq=" e = false := by decide
    obtain ⟨e', hfilter, rfl⟩ := Option.map_eq_some_iff.1 (Option.mem_toList.1 h)
    obtain ⟨p, hp, hfilter⟩ := Option.bind_eq_some_iff.1 hfilter
    rw [FilterItem.texts_single, List.mem_singleton] at he
    rw [he]
    exact hall p (mem_presets_of_chosenPreset? hp) e' hfilter
  · obtain ⟨r, -, rfl⟩ := Option.map_eq_some_iff.1 (Option.mem_toList.1 h)
    rw [Resize.item, FilterItem.texts, List.mem_cons, Option.mem_toList] at he
    rcases he with rfl | he
    · simp [Resize.scaleText, Text.startsWith, Chars.after?, String.toList_append]
    · obtain ⟨-, he⟩ := Option.ite_none_right_eq_some.1 he
      rw [← Option.some.inj he]
      simp [Text.startsWith, Chars.after?, String.toList_append]

/-- A change of colours comes last. -/
theorem flatMap_texts_sentItems (s : Settings) :
    s.sentItems.flatMap FilterItem.texts =
      s.geometricItems.flatMap FilterItem.texts ++ s.color.filter?.toList := by
  have hcolor : ((s.color.filter?.map fun e => FilterItem.eq e s.color.reread).toList).flatMap
      FilterItem.texts = s.color.filter?.toList := by
    cases s.color.filter? <;> rfl
  rw [← hcolor, ← List.flatMap_append]
  rw [sentItems, filterItems, geometricItems]
  simp only [List.append_assoc]

theorem startsWith_geometricItems {e : String}
    (h : e ∈ s.geometricItems.flatMap FilterItem.texts) : Text.startsWith "eq=" e = false := by
  obtain ⟨item, hitem, he⟩ := List.mem_flatMap.1 h
  exact isGeometric_of_mem_geometricItems hitem e he

/-- The expressions that change no colours are those before it. -/
theorem filter_flatMap_texts (s : Settings) :
    (s.geometricItems.flatMap FilterItem.texts ++ s.color.filter?.toList).filter
        (fun e => !Text.startsWith "eq=" e) =
      s.geometricItems.flatMap FilterItem.texts := by
  have hgeometric : ∀ e ∈ s.geometricItems.flatMap FilterItem.texts,
      (!Text.startsWith "eq=" e) = true := by
    intro e he
    rw [startsWith_geometricItems he]
    rfl
  have hcolor : ∀ e ∈ s.color.filter?.toList, ¬ (!Text.startsWith "eq=" e) = true := by
    intro e he
    rw [Color.startsWith_filter (Option.mem_toList.1 he)]
    exact Bool.false_ne_true
  rw [List.filter_append, List.filter_eq_self.2 hgeometric, List.filter_eq_nil_iff.2 hcolor,
    List.append_nil]

/-- What the items of an export come down to. -/
theorem append_sentItems (s : Settings) :
    Filters.none.append s.sentItems =
      { chain := s.geometricItems.flatMap FilterItem.texts ++ s.color.filter?.toList
        resize := s.resize.map Resize.box <|> s.chosenPreset?.bind Preset.box?
        color := s.color.filter?.map fun _ => s.color.reread } := by
  have hpreset : ∀ q ∈ s.chosenPreset?, q ∈ presets := fun _ => mem_presets_of_chosenPreset?
  have hbox : s.rateItems.reverse.findSome? FilterItem.boxOf? = none := by
    rw [rateItems]
    split <;> rfl
  have hcolor : s.rateItems.reverse.findSome? FilterItem.colorOf? = none := by
    rw [rateItems]
    split <;> rfl
  rw [Filters.append]
  rw [flatMap_texts_sentItems, sentItems, List.reverse_append, List.findSome?_append,
    List.findSome?_append, hbox, hcolor, findSome?_boxOf? hpreset, findSome?_colorOf? hpreset]
  simp [Filters.none]

end Settings

/-! ## What is recovered -/

/-- Filters are those that settings ask for and that a plan sends. -/
structure Settings.AskFor (s : Settings) (p : Plan) (f : Filters) : Prop where
  resize_eq : ∀ r ∈ s.resize, ∃ box, f.resize = some box ∧ box.width.toInt = r.width.toNat ∧
    box.height.toInt = r.height.toNat ∧ box.fit = r.fit
  /-- Only without a resize the filter of a preset counts. -/
  resize_preset : s.resize = none → f.resize = s.chosenPreset?.bind Preset.box?
  color_none_iff : f.color = none ↔ s.color.filter? = none
  /-- Colours are read exactly if an expression changes them. -/
  color_some_iff : f.color ≠ none ↔ ∃ e ∈ f.chain, Text.startsWith "eq=" e = true
  color_values : ∀ c ∈ f.color, s.color.IsReadAs c
  /-- What is sent is the expressions that are kept. -/
  chain_sent : ∀ text, .videoFilter text ∈ p.directives ↔ Filter.chain? f.chain = some text
  geometry_append : f.geometry ++ s.color.filter?.toList = f.chain

/-- What the items of settings in order come down to is what these ask for. -/
theorem Settings.askFor_append_sentItems {s : Settings} {p : Plan}
    (hcolor : s.color.isFinite = true) (hresize : ∀ r ∈ s.resize, r.Fits)
    (hsent : ∀ text, .videoFilter text ∈ p.directives ↔
      Filter.chain? (s.sentItems.flatMap FilterItem.texts) = some text) :
    s.AskFor p (Filters.none.append s.sentItems) := by
  rw [flatMap_texts_sentItems] at hsent
  rw [append_sentItems]
  refine ⟨?_, ?_, ?_, ?_, ?_, hsent, ?_⟩
  · intro r hr
    have hfits := hresize r hr
    refine ⟨r.box, ?_, toInt_sideOf hfits.1, toInt_sideOf hfits.2, rfl⟩
    simp only [Option.mem_def.1 hr]
    rfl
  · intro hnone
    simp only [hnone]
    rfl
  · exact Option.map_eq_none_iff
  · constructor
    · intro hne
      cases hfilter : s.color.filter? with
      | none =>
        rw [hfilter] at hne
        exact absurd rfl hne
      | some e =>
        exact ⟨e, List.mem_append_right _ (List.mem_singleton_self e), Color.startsWith_filter hfilter⟩
    · rintro ⟨e, he, hstarts⟩ hnone
      rw [Option.map_eq_none_iff.1 hnone, Option.toList_none, List.append_nil] at he
      rw [startsWith_geometricItems he] at hstarts
      cases hstarts
  · intro c hc
    obtain ⟨e, -, rfl⟩ := Option.map_eq_some_iff.1 hc
    exact Color.isReadAs_reread hcolor
  · exact congrArg (· ++ s.color.filter?.toList) s.filter_flatMap_texts

/-! ## Plans -/

namespace Plan

variable {threads : Option UInt32} {s : Settings} {source : Source} {primary : Stream}
  {preset : Option Preset}

/-- The filters of an animation are in its only directive for filters. -/
theorem videoFilter_mem_ofAnimation {text : String} :
    .videoFilter text ∈ (ofAnimation threads s source primary preset).directives ↔
      text = Filter.chain (("fps=" ++ Number.text s.animation.fps.toNat) :: s.filterParts preset) := by
  have hwindow : .videoFilter text ∉ (s.trimWindow source).part.directives := by
    intro h
    rcases List.mem_pair.1 (flag?_of_mem_window h) with h | h <;> cases h
  have hthreads : .videoFilter text ∉ (threadsDirective? threads).toList := by
    intro h
    cases flag?_of_mem_threads h
  rw [directives_ofAnimation]
  simp [hwindow, hthreads]

/-- The filters of an export are in its only directive for filters, if there are
    any. What is filtered is not copied. -/
theorem videoFilter_mem_ofVideo {text : String} :
    .videoFilter text ∈ (ofVideo threads s source primary preset).directives ↔
      Filter.chain? (s.filterParts preset) = some text := by
  rw [mem_ofVideo_iff (f := .videoFilter) rfl]
  show _ ∈ (if _ then _ else _) ↔ _
  split
  case isTrue hcopy =>
    have hparts := isSome_chain?.1 (copyObstacle?_eq_none_iff.1 (videoCopy_ofVideo_iff.1 hcopy).2).1
    rw [hparts]
    exact iff_of_false (by simp) (by simp [Filter.chain?])
  case isFalse =>
    have hspeed : .videoFilter text ∉ ((s.videoRequest preset).speed.map Directive.speed).toList := by
      simp
    have hrate : .videoFilter text ∉
        ((s.encodedCodec preset).follow (s.videoRequest preset).rateControl).directives := by
      intro h
      have := flag?_of_mem_rateControl h
      simp [rateFlags, Directive.flag?] at this
    rw [Settings.encodeDirectives]
    simp [hspeed, hrate]

/-- What is read of a chain is what is found of its parts. -/
theorem chainFilters_eq {parts : List String} {items : List FilterItem}
    (h : List.Forall₂ FilterItem.IsFound parts items) :
    Recipe.chainFilters parts = Filters.none.append items := by
  rw [Recipe.chainFilters]
  cases h with
  | nil => rfl
  | cons hitem hitems =>
    have hchain := FilterItem.ofChain_chain (List.cons_ne_nil _ _) (.cons hitem hitems)
    rw [Filter.chain?, if_neg (by simp), Option.map_some, Option.getD_some, hchain]

/-- What is sent of filters is what is read of them. -/
theorem filters_read {p : Plan} (h : compile threads s source = .ok p)
    (hresize : ∀ r ∈ s.resize, r.Fits) (output : String) :
    (Recipe.read p.tokens output).filters = Filters.none.append s.sentItems := by
  have hpreset : ∀ q ∈ s.chosenPreset?, q ∈ presets := fun _ => Settings.mem_presets_of_chosenPreset?
  have hfound := Settings.isFound_filterParts (Settings.isFinite_color (compile_eq_ok_iff.1 h).1)
    hresize hpreset
  have hcore : (Recipe.read p.tokens output).filters =
      (Recipe.read p.tokens output).core.filters := rfl
  obtain ⟨primary, -, ⟨hk, -, hread⟩ | ⟨hk, -, hread⟩⟩ := core_read_cases h output
  · have hchain := FilterItem.ofChain_chain (List.cons_ne_nil _ _)
      (.cons (isFound_rate s.animation.fps) hfound)
    rw [hcore, hread, Settings.sentItems_of_animation hk, ← hchain]
    rfl
  · rw [hcore, hread, Settings.sentItems_of_video hk]
    show (if _ then _ else _) = _
    split
    -- What is copied is not filtered, so nothing is sent, and nothing was asked
    -- for.
    case isTrue hcopy =>
      have hparts := isSome_chain?.1 (copyObstacle?_eq_none_iff.1 (videoCopy_ofVideo_iff.1 hcopy).2).1
      rw [hparts] at hfound
      rw [List.forall₂_nil_left_iff.1 hfound]
      rfl
    case isFalse => exact chainFilters_eq hfound

/-- And it is what the directive for filters says. -/
theorem videoFilter_mem_iff {p : Plan} (h : compile threads s source = .ok p) {text : String} :
    .videoFilter text ∈ p.directives ↔
      Filter.chain? (s.sentItems.flatMap FilterItem.texts) = some text := by
  rw [FilterItem.chain?_flatMap_texts]
  obtain ⟨primary, -, ⟨hk, hp, -⟩ | ⟨hk, hp, -⟩⟩ := core_read_cases h p.output.fileName
  · rw [hp, videoFilter_mem_ofAnimation, Settings.sentItems_of_animation hk, List.map_cons,
      ← Settings.filterParts_eq, FilterItem.texts, Filter.chain?, if_neg (by simp),
      Option.some.injEq]
    exact eq_comm
  · rw [hp, videoFilter_mem_ofVideo, Settings.sentItems_of_video hk, ← Settings.filterParts_eq]

/-- The filters that are read of the tokens of a plan are those that were asked
    for, if a filter can say the sides of the resize. -/
theorem askFor_read {p : Plan} (h : compile threads s source = .ok p)
    (hresize : ∀ r ∈ s.resize, r.width.toNat < 2 ^ 31 ∧ r.height.toNat < 2 ^ 31) :
    s.AskFor p (Recipe.read p.tokens p.output.fileName).filters := by
  have hfits : ∀ r ∈ s.resize, r.Fits := hresize
  have hpreset : ∀ q ∈ s.chosenPreset?, q ∈ presets := fun _ => Settings.mem_presets_of_chosenPreset?
  have hcolor := Settings.isFinite_color (compile_eq_ok_iff.1 h).1
  rw [filters_read h hfits]
  exact Settings.askFor_append_sentItems hcolor hfits fun _ => videoFilter_mem_iff h

/-- So it is for frames that are cut to a box and brightened. -/
theorem askFor_read_cover :
    let s := { Settings.default with
      resize := some ⟨640, 360, .cover⟩, color := { Color.identity with brightness := 0.1 } }
    (∀ r ∈ s.resize, r.width.toNat < 2 ^ 31 ∧ r.height.toNat < 2 ^ 31) ∧
      ∃ p, compile none s .sample = .ok p ∧
        s.AskFor p (Recipe.read p.tokens p.output.fileName).filters := by
  intro s
  have hresize : ∀ r ∈ s.resize, r.width.toNat < 2 ^ 31 ∧ r.height.toNat < 2 ^ 31 := by decide
  obtain ⟨p, hp⟩ := exists_compile none s .sample (by decide) rfl rfl
  exact ⟨hresize, p, hp, askFor_read hp hresize⟩

end Plan

end VideoExport
