import VideoExport.Proofs.Plan.Copies
import VideoExport.Proofs.Plan.Targets
import VideoExport.Proofs.Recipe.Last

/-!
# The order of a plan

The directives of a plan come in a fixed order, whichever of them are there: the
trim window, video, sound, subtitles and threads, and then the tracks. No flag
but that for tracks is there twice, and of flags that exclude each other there is
one at most. So it makes no difference whether the first or the last directive of
a flag is taken to count.

* `Flag.InOrder`: the order of flags;
* `Flag.InOrder.countP_replaces_le`: what excludes each other is there once;
* `Plan.inOrder_flags`: the flags of a plan are in order;
* `Plan.IsOrdered`, `Plan.isOrdered`: what follows from that.
-/

namespace VideoExport

/-! ## Flags in order -/

/-- The flags of trim windows: both of them, or none. -/
def trimGroups : List (List Flag) := [[], [.trimStart, .trimDuration]]

/-- The flags of rate controls: a quality, a quantizer, or rates. -/
def rateGroups : List (List Flag) := [[], [.crf], [.qp], [.videoRate, .maxRate, .bufferSize]]

/-- The flags between those of trim windows and those of rate controls. -/
def encoderOrder : List Flag := [.videoCodec, .speed]

/-- The flags between those of rate controls and those for tracks. -/
def restOrder : List Flag :=
  [.videoFilter, .audioCodec, .audioRate, .quality, .subtitleCodec, .threads]

/-- Flags in the order in which a plan has them. Those for tracks come last, any
    number of them. -/
inductive Flag.InOrder : List Flag → Prop
  | intro {trim encoder rate rest : List Flag} (htrim : trim ∈ trimGroups)
      (hencoder : encoder.Sublist encoderOrder) (hrate : rate ∈ rateGroups)
      (hrest : rest.Sublist restOrder) (n : ℕ) :
      InOrder (trim ++ encoder ++ rate ++ rest ++ List.replicate n .map)

namespace Flag.InOrder

variable {fs : List Flag} {f : Flag}

/-- At most one flag is, or takes the place of, a flag that is not for tracks. -/
theorem countP_replaces_le (h : InOrder fs) (hmap : f ≠ .map) : fs.countP (·.replaces f) ≤ 1 := by
  obtain @⟨trim, encoder, rate, rest, htrim, hencoder, hrate, hrest, n⟩ := h
  have hmaps : (List.replicate n Flag.map).countP (·.replaces f) = 0 := by
    rw [List.countP_replicate, if_neg]
    cases f <;> first | contradiction | decide
  -- A part of an order has at most as many as all of it, where they can be counted.
  have hall : ∀ trim ∈ trimGroups, ∀ rate ∈ rateGroups, trim.countP (·.replaces f) +
      encoderOrder.countP (·.replaces f) + rate.countP (·.replaces f) +
      restOrder.countP (·.replaces f) ≤ 1 := by
    cases f <;> first | contradiction | decide
  have hsum := hall trim htrim rate hrate
  have hencoder := hencoder.countP_le (p := (·.replaces f))
  have hrest := hrest.countP_le (p := (·.replaces f))
  simp only [List.countP_append, hmaps]
  omega

/-- So no flag but that for tracks is there twice. -/
theorem count_le (h : InOrder fs) (hmap : f ≠ .map) : fs.count f ≤ 1 := by
  refine (List.countP_mono_left fun g _ hg => ?_).trans (h.countP_replaces_le hmap)
  rw [beq_iff_eq.1 hg]
  cases f <;> rfl

/-- The flags of a trim window come with each other. -/
theorem mem_trim_iff (h : InOrder fs) : .trimStart ∈ fs ↔ .trimDuration ∈ fs := by
  obtain @⟨trim, encoder, rate, rest, htrim, hencoder, hrate, hrest, n⟩ := h
  have hgroup : .trimStart ∈ trim ↔ .trimDuration ∈ trim :=
    (by decide : ∀ trim ∈ trimGroups, .trimStart ∈ trim ↔ .trimDuration ∈ trim) trim htrim
  have htail : ∀ f ∈ [Flag.trimStart, .trimDuration],
      f ∉ encoder ∧ f ∉ rate ∧ f ∉ rest ∧ f ∉ List.replicate n .map := by
    intro f hf
    obtain ⟨hencoder', hrate', hrest', hmap⟩ :=
      (by decide : ∀ f ∈ [Flag.trimStart, .trimDuration],
        f ∉ encoderOrder ∧ (∀ rate ∈ rateGroups, f ∉ rate) ∧ f ∉ restOrder ∧ f ≠ .map) f hf
    exact ⟨fun h => hencoder' (hencoder.subset h), hrate' rate hrate,
      fun h => hrest' (hrest.subset h), fun h => hmap (List.eq_of_mem_replicate h)⟩
  simp only [List.mem_append]
  simp [htail, hgroup]

end Flag.InOrder

/-! ## Flags of plans -/

/-- The flags of directives. -/
def Directive.flags (ds : List Directive) : List Flag := ds.filterMap (·.flag?)

namespace Directive

theorem flags_append (ds ds' : List Directive) : flags (ds ++ ds') = flags ds ++ flags ds' :=
  List.filterMap_append

/-- Directives of a single flag have this one only. -/
theorem flags_eq_replicate {f : Flag} {ds : List Directive} (h : ∀ d ∈ ds, d.flag? = some f) :
    flags ds = List.replicate ds.length f := by
  rw [flags, List.filterMap_congr h, ← List.map_const', List.filterMap_eq_map']

theorem flags_sublist {f : Flag} {x : Option Directive} (h : ∀ d ∈ x.toList, d.flag? = some f) :
    (flags x.toList).Sublist [f] := by
  rw [flags_eq_replicate h]
  cases x with
  | none => exact List.nil_sublist _
  | some d => exact List.Sublist.refl _

theorem flags_map_sublist {α : Type} {f : Flag} {g : α → Directive} (x : Option α)
    (h : ∀ a, (g a).flag? = some f) : (flags (x.map g).toList).Sublist [f] := by
  refine flags_sublist fun d hd => ?_
  obtain ⟨a, -, rfl⟩ := Option.map_eq_some_iff.1 (Option.mem_toList.1 hd)
  exact h a

/-- How many directives take the place of those of a flag can be told from the flags. -/
theorem length_filter_replaces (ds : List Directive) (f : Flag) :
    (ds.filter (·.replaces f)).length = (flags ds).countP (·.replaces f) := by
  rw [flags, List.countP_filterMap, ← List.countP_eq_length_filter]
  refine congrArg (List.countP · ds) (funext fun d => ?_)
  rw [replaces]
  cases d.flag? <;> rfl

end Directive

theorem flags_window (w : TrimWindow Float) : Directive.flags w.part.directives ∈ trimGroups := by
  show Directive.flags (if w.requested then _ else _) ∈ _
  split
  · exact .tail _ (.head _)
  · exact .head _

theorem flags_rateControl (r : RateControl) : Directive.flags r.directives ∈ rateGroups := by
  cases r with
  | crf value => exact .tail _ (.head _)
  | qp value => exact .tail _ (.tail _ (.head _))
  | bitrate kbps => exact .tail _ (.tail _ (.tail _ (.head _)))

theorem flags_audioChoice (s : Settings) (source : Source) (tracks : ChosenTracks) :
    (Directive.flags (s.audioChoice source tracks).directives).Sublist [.audioCodec, .audioRate] := by
  rcases s.audioChoice_cases source tracks with ⟨-, -, h⟩ | ⟨-, -, -, h⟩ | ⟨-, -, h⟩
  · rw [h]
    exact List.nil_sublist _
  · rw [h]
    exact (List.nil_sublist [Flag.audioRate]).cons_cons .audioCodec
  · rw [h]
    exact List.Sublist.refl _

theorem flags_threads (threads : Option UInt32) :
    (Directive.flags (threadsDirective? threads).toList).Sublist [.threads] :=
  Directive.flags_map_sublist _ fun _ => rfl

namespace Plan

/-- The flags of a plan. -/
def flags (p : Plan) : List Flag := Directive.flags p.directives

variable {threads : Option UInt32} {s : Settings} {source : Source} {primary : Stream}
  {preset : Option Preset} {p : Plan}

/-- The flags of what is said about video. -/
theorem exists_flags_video (s : Settings) (preset : Option Preset) (copy : Bool) :
    ∃ encoder rate filter, Directive.flags (if copy then [Directive.videoCodec .copy]
        else s.encodeDirectives preset) = encoder ++ (rate ++ filter) ∧
      encoder.Sublist encoderOrder ∧ rate ∈ rateGroups ∧ filter.Sublist [.videoFilter] := by
  cases copy with
  | true =>
    exact ⟨[.videoCodec], [], [], rfl, (List.nil_sublist _).cons_cons _, .head _, List.nil_sublist _⟩
  | false =>
    have hflags : Directive.flags (s.encodeDirectives preset) = .videoCodec ::
        Directive.flags ((s.videoRequest preset).speed.map Directive.speed).toList ++
        (Directive.flags ((s.encodedCodec preset).follow (s.videoRequest preset).rateControl).directives ++
        Directive.flags ((Filter.chain? (s.filterParts preset)).map Directive.videoFilter).toList) := by
      rw [Settings.encodeDirectives, List.cons_append, ← Directive.flags_append,
        ← Directive.flags_append]
      rfl
    exact ⟨_, _, _, hflags, (Directive.flags_map_sublist _ fun _ => rfl).cons_cons .videoCodec,
      flags_rateControl _, Directive.flags_map_sublist _ fun _ => rfl⟩

/-- The flags of what is said about the rest. -/
theorem exists_flags_tail (threads : Option UInt32) (s : Settings) (source : Source) :
    ∃ rest n, Directive.flags (tailDirectives threads s source) = rest ++ List.replicate n .map ∧
      rest.Sublist [.audioCodec, .audioRate, .quality, .subtitleCodec, .threads] := by
  have haudio := flags_audioChoice s source (s.audioTracks.resolve source .audio)
  have hsubtitle : (Directive.flags ((s.subtitleChoice source).codec? source s.container).toList).Sublist
      [.subtitleCodec] := Directive.flags_sublist fun _ => flag?_of_mem_subtitleCodec
  have hmaps : ∀ d ∈ Directive.map .primaryVideo ::
      (mapTracks (s.audioTracks.resolve source .audio).indices
        (s.audioTracks.resolve source .audio).wildcard .allAudio ++
      mapTracks (s.subtitleChoice source).kept (s.subtitleChoice source).wildcard .allSubtitles),
      d.flag? = some .map := by
    intro d hd
    rcases List.mem_cons.1 hd with rfl | hd
    · rfl
    · rcases List.mem_append.1 hd with hd | hd <;> exact flag?_of_mem_mapTracks hd
  rw [tailDirectives, Directive.flags_append, Directive.flags_append, Directive.flags_append,
    Directive.flags_eq_replicate hmaps, ← List.append_assoc, ← List.append_assoc]
  exact ⟨_, _, rfl, (haudio.append (hsubtitle.cons Flag.quality)).append (flags_threads threads)⟩

/-- The flags of a plan are in order. -/
theorem inOrder_flags (h : compile threads s source = .ok p) : Flag.InOrder p.flags := by
  obtain ⟨primary, -, ⟨-, rfl, -⟩ | ⟨-, rfl, -⟩⟩ := core_read_cases h p.output.fileName
  · have hfixed : [Flag.videoFilter, .quality].Sublist
        [.videoFilter, .audioCodec, .audioRate, .quality, .subtitleCodec] := by decide
    have horder := Flag.InOrder.intro (flags_window (s.trimWindow source))
      ((List.nil_sublist [Flag.speed]).cons_cons .videoCodec) (.head _)
      (hfixed.append (flags_threads threads)) 1
    rw [flags, directives_ofAnimation, Directive.flags_append]
    simpa [Directive.flags, Directive.flag?] using horder
  · obtain ⟨encoder, rate, filter, hvideo, hencoder, hrate, hfilter⟩ :=
      exists_flags_video s s.chosenPreset?
        (ofVideo threads s source primary s.chosenPreset?).videoCopy
    obtain ⟨rest, n, htail, hrest⟩ := exists_flags_tail threads s source
    have horder := Flag.InOrder.intro (flags_window (s.trimWindow source)) hencoder hrate
      (hfilter.append hrest) n
    rw [flags, directives_ofVideo, Directive.flags_append, Directive.flags_append, hvideo, htail]
    simpa only [List.append_assoc] using horder

end Plan

/-! ## What is remembered -/

/-- A directive is found by the text of its flag. -/
theorem Directive.find?_text {ds : List Directive} (h : ∀ d ∈ ds, d.flag?.isSome = true) (f : Flag) :
    find? ds f.text = ds.find? (·.flag? == some f) := by
  rw [find?, ← List.head?_filter, ← List.head?_filter]
  refine congrArg _ (List.filter_congr fun d hd => ?_)
  obtain ⟨g, hg⟩ := Option.isSome_iff_exists.1 (h d hd)
  have htext : d.flagText = g.text := by
    rw [flagText, List.headD_eq_head?_getD, head?_toTokens hg]
    rfl
  rw [htext, hg, Bool.eq_iff_iff, beq_iff_eq, beq_iff_eq, Option.some.injEq,
    Flag.text_injective.eq_iff]

namespace Settings

variable {s : Settings}

/-- The expressions of an item of settings are those that its chain is made of. -/
theorem expressions_of_mem_sentItems (hcolor : s.color.isFinite = true) {item : FilterItem}
    (h : item ∈ s.sentItems) : FilterItem.expressions (Filter.chain item.texts) = item.texts := by
  have hchain : ∀ e : String, Filter.chain [e] = e := fun _ => String.intercalate_singleton
  rw [sentItems, rateItems, filterItems] at h
  simp only [List.mem_append, Option.mem_toList, Option.map_eq_some_iff] at h
  rcases h with h | (⟨e, he, rfl⟩ | ⟨r, hr, rfl⟩) | ⟨e, he, rfl⟩
  · split at h
    case isTrue =>
      rw [List.mem_singleton.1 h]
      exact (congrArg _ (hchain _)).trans (isFound_rate _).expressions_eq
    case isFalse => cases h
  · obtain ⟨q, hq, he⟩ := Option.bind_eq_some_iff.1 he
    have hfound := (isFound_presetFilter (mem_presets_of_chosenPreset? hq) he).1.expressions_eq
    rw [FilterItem.texts_single] at hfound ⊢
    rw [hchain, hfound]
  · have hfilter : Filter.chain r.item.texts = r.filter := r.filter_eq.symm
    rw [hfilter, r.expressions_filter]
  · exact (congrArg _ (hchain _)).trans (Color.isFound_filter hcolor he).expressions_eq

end Settings

namespace Plan

variable {threads : Option UInt32} {s : Settings} {source : Source} {p : Plan}

/-- The chain of a plan can be put together again from its expressions. -/
theorem chain?_expressions (h : compile threads s source = .ok p) {text : String}
    (hmem : .videoFilter text ∈ p.directives) :
    Filter.chain? (FilterItem.expressions text) = some text := by
  have hcolor := Settings.isFinite_color (compile_eq_ok_iff.1 h).1
  have hchain := (videoFilter_mem_iff h).1 hmem
  obtain ⟨hne, htext⟩ := Option.ite_none_left_eq_some.1 hchain
  have hitems : (s.sentItems.map fun item => Filter.chain item.texts) ≠ [] := by
    rintro hnil
    rw [List.map_eq_nil_iff] at hnil
    rw [hnil] at hne
    exact hne rfl
  have hexpressions : FilterItem.expressions text = s.sentItems.flatMap FilterItem.texts := by
    rw [← Option.some.inj htext, FilterItem.chain_flatMap_texts, FilterItem.expressions_chain hitems,
      List.flatMap_map]
    exact List.flatMap_congr fun item hitem => Settings.expressions_of_mem_sentItems hcolor hitem
  rw [hexpressions, hchain]

/-- An animation is not a copy. -/
theorem copy_notMem_ofAnimation {primary : Stream} {preset : Option Preset} {d : Directive}
    (hd : d = .videoCodec .copy ∨ d = .audioCodec .copy) :
    d ∉ (ofAnimation threads s source primary preset).directives := by
  rw [directives_ofAnimation, List.mem_append, not_or]
  constructor
  · intro h
    rcases List.mem_pair.1 (flag?_of_mem_window h) with hf | hf <;>
      rcases hd with rfl | rfl <;> cases hf
  · simp only [List.mem_cons, List.mem_append, List.not_mem_nil, or_false, not_or]
    have hthreads : d ∉ (threadsDirective? threads).toList := fun h => by
      have hf := flag?_of_mem_threads h
      rcases hd with rfl | rfl <;> cases hf
    rcases hd with rfl | rfl <;> simp [hthreads]

/-- What asks for a copy of video asks for nothing to be encoded. -/
theorem not_encodesVideo (h : compile threads s source = .ok p)
    (hcopy : .videoCodec .copy ∈ p.directives) : ∀ d ∈ p.directives, ¬ d.EncodesVideo := by
  intro d hd hencodes
  by_cases hk : s.container = .gif
  · obtain ⟨primary, -, ⟨-, rfl, -⟩ | ⟨hvideo, -, -⟩⟩ := core_read_cases h p.output.fileName
    · exact copy_notMem_ofAnimation (.inl rfl) hcopy
    · exact hvideo hk
  · have hcopies := (copy_mem_directives_iff h hk).1 hcopy
    cases hencodes with
    | codec => cases eq_copy_of_videoCopy h hcopies hd rfl (by decide)
    | rate => cases eq_copy_of_videoCopy h hcopies hd rfl (by decide)
    | filter => cases eq_copy_of_videoCopy h hcopies hd rfl (by decide)

/-- And likewise of sound. -/
theorem not_encodesSound (h : compile threads s source = .ok p)
    (hcopy : .audioCodec .copy ∈ p.directives) : ∀ d ∈ p.directives, ¬ d.EncodesSound := by
  intro d hd hencodes
  obtain ⟨primary, -, ⟨-, rfl, -⟩ | ⟨-, rfl, -⟩⟩ := core_read_cases h p.output.fileName
  · exact copy_notMem_ofAnimation (.inr rfl) hcopy
  · have hsound : d ∈ (s.audioChoice source (s.audioTracks.resolve source .audio)).directives := by
      cases hencodes with
      | codec => exact (mem_ofVideo_iff (f := .audioCodec) rfl).1 hd
      | rate => exact (mem_ofVideo_iff (f := .audioRate) rfl).1 hd
    have hcopy := (mem_ofVideo_iff (f := .audioCodec) rfl).1 hcopy
    change _ ∈ (s.audioChoice source (s.audioTracks.resolve source .audio)).directives at hcopy
    rcases s.audioChoice_cases source (s.audioTracks.resolve source .audio) with
      ⟨-, -, hds⟩ | ⟨-, -, -, hds⟩ | ⟨-, -, hds⟩
    · rw [hds] at hcopy
      cases hcopy
    · rw [hds] at hsound
      rw [List.mem_singleton.1 hsound] at hencodes
      cases hencodes
    · rw [hds] at hcopy
      simp at hcopy

/-- At most one directive is, or takes the place of, one that is not for tracks. -/
theorem length_replaces_le (h : compile threads s source = .ok p) {f : Flag} (hmap : f ≠ .map) :
    (p.directives.filter (·.replaces f)).length ≤ 1 := by
  rw [Directive.length_filter_replaces]
  exact (inOrder_flags h).countP_replaces_le hmap

theorem said?_foldl (h : compile threads s source = .ok p) (k : Container) {f : Flag}
    (hmap : f ≠ .map) : (p.directives.foldl Recipe.apply (.empty k)).said? f =
      p.directives.find? (·.flag? == some f) := by
  have hlength := length_replaces_le h hmap
  by_cases hfilter : f = .videoFilter
  · rw [hfilter] at hlength ⊢
    exact Recipe.said?_videoFilter hlength (fun _ => chain?_expressions h) k
  · exact Recipe.said?_of_length_le hfilter hmap hlength k

/-- The recipe of a plan is settled from the start. -/
theorem settle_foldl (h : compile threads s source = .ok p) (k : Container) :
    (p.directives.foldl Recipe.apply (.empty k)).settle =
      p.directives.foldl Recipe.apply (.empty k) := by
  refine Recipe.settle_eq_self (fun hcopy => ?_) fun hcopy => ?_
  · have hsaid := said?_foldl h k (f := .videoCodec) (by decide)
    rw [Recipe.said?, hcopy] at hsaid
    have hno := not_encodesVideo h (List.mem_of_find?_eq_some hsaid.symm)
    exact Recipe.treats_video.transcode_eq_false hno rfl
  · have hsaid := said?_foldl h k (f := .audioCodec) (by decide)
    rw [Recipe.said?, hcopy] at hsaid
    have hno := not_encodesSound h (List.mem_of_find?_eq_some hsaid.symm)
    exact Recipe.treats_sound.transcode_eq_false hno rfl

/-- The first directive for tracks is that for the primary video, and this is
    what is remembered. -/
theorem said?_map (h : compile threads s source = .ok p) (output : String) :
    (Recipe.ofDirectives p.directives output).said? .map =
      p.directives.find? (·.flag? == some .map) := by
  have hfirst : p.targets.head? = some .primaryVideo := by
    rcases targets_cases h with ⟨-, ht⟩ | ⟨-, ht⟩ <;> rw [ht] <;> rfl
  have hprimary : (Recipe.ofDirectives p.directives output).core.primaryVideo = true := by
    rw [← core_read h output]
    obtain ⟨primary, -, ⟨-, -, hread⟩ | ⟨-, -, hread⟩⟩ := core_read_cases h output <;> rw [hread] <;> rfl
  rw [Directive.find?_map, ← targets, hfirst]
  exact if_pos hprimary

/-- Of every flag the first directive is remembered. -/
theorem said?_ofDirectives (h : compile threads s source = .ok p) (output : String) (f : Flag) :
    (Recipe.ofDirectives p.directives output).said? f =
      p.directives.find? (·.flag? == some f) := by
  by_cases hmap : f = .map
  · rw [hmap]
    exact said?_map h output
  · rw [Recipe.ofDirectives, settle_foldl h, said?_foldl h _ hmap]

/-! ## Plans -/

/-- The directives of a plan are in order. -/
structure IsOrdered (source : Source) (p : Plan) : Prop where
  isSome_flag? : ∀ d ∈ p.directives, d.flag?.isSome = true
  inOrder : Flag.InOrder p.flags
  count_le : ∀ f ≠ .map, p.flags.count f ≤ 1
  trim_iff : .trimStart ∈ p.flags ↔ .trimDuration ∈ p.flags
  /-- The primary video comes first, and sound comes before subtitles. -/
  targets_eq : ∃ audio subtitles, p.targets = .primaryVideo :: (audio ++ subtitles) ∧
    (∀ t ∈ audio, t = .allAudio ∨ ∃ a ∈ source.ofKind .audio, t = .track a.index) ∧
    ∀ t ∈ subtitles, t = .allSubtitles ∨ ∃ a ∈ source.ofKind .subtitle, t = .track a.index
  nodup : (source.streams.map (·.index)).Nodup → p.targets.Nodup
  /-- The first directive of a flag has the value that a recipe remembers. -/
  value_eq : ∀ output f, Directive.valueOf? p.directives f.text =
    ((Recipe.ofDirectives p.directives output).said? f).bind (·.valueText?)

/-- The directives of every plan are in order, so that it does not matter
    whether the first or the last one of a flag counts. -/
theorem isOrdered (h : compile threads s source = .ok p) : IsOrdered source p where
  isSome_flag? := isSome_flag? h
  inOrder := inOrder_flags h
  count_le := fun _ => (inOrder_flags h).count_le
  trim_iff := (inOrder_flags h).mem_trim_iff
  targets_eq := by
    rcases targets_cases h with ⟨-, ht⟩ | ⟨-, ht⟩
    · exact ⟨[], [], ht, fun _ h => (nomatch h), fun _ h => (nomatch h)⟩
    · exact ⟨_, _, ht, fun _ => mem_audioTargets, fun _ => mem_subtitleTargets⟩
  nodup := nodup_targets h
  value_eq := by
    intro output f
    rw [said?_ofDirectives h, Directive.valueOf?, Directive.find?_text (isSome_flag? h)]

/-- So it is where much is asked for. -/
theorem isOrdered_much :
    let s := { Settings.default with
      trimEnd := 5.0, rateControl := .bitrate 2500, speed := some "fast", subtitleTracks := .all }
    ∃ p, compile (some 4) s .sample = .ok p ∧ IsOrdered .sample p ∧
      p.flags = [.trimStart, .trimDuration, .videoCodec, .speed, .videoRate, .maxRate, .bufferSize,
        .audioCodec, .audioRate, .subtitleCodec, .threads, .map, .map, .map] := by
  intro s
  obtain ⟨p, hp⟩ := exists_compile (some 4) s .sample (by decide +kernel) rfl rfl
  refine ⟨p, hp, isOrdered hp, ?_⟩
  obtain ⟨-, -, primary, hprimary, rfl⟩ := compile_eq_ok_iff.1 hp
  cases hprimary
  decide +kernel

end Plan

end VideoExport
