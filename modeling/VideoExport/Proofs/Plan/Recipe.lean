import VideoExport.Proofs.Plan.Wire
import VideoExport.Proofs.Recipe.Tracks

/-!
# The recipe of a plan

Whoever carries out a plan makes a recipe of it. Each kind of track has its
own part of the recipe, which only the directives for that kind write, so the
recipe is put together from what was decided for each.

* `Plan.core_ofVideo`: the recipe of an export with sound and subtitles;
* `Plan.core_ofAnimation`: the recipe of an animation;
* `Plan.core_read_cases`: what is read of a plan's tokens, either way.
-/

namespace VideoExport

open Number

/-! ## Parts of recipes -/

/-- Video that is copied. -/
def VideoRecipe.copied : VideoRecipe := { VideoRecipe.empty with copy := true }

/-- A recipe for video with a rate control. -/
def VideoRecipe.withRate (v : VideoRecipe) : RateControl → VideoRecipe
  | .crf value => { v with crf := some value.toUInt32, qp := none }
  | .qp value => { v with qp := some value.toUInt32, crf := none }
  | .bitrate kbps =>
    { v with
      kbps := some (RateBudget.ofTarget kbps).target
      maxKbps := some (RateBudget.ofTarget kbps).ceiling
      bufferKbps := some (RateBudget.ofTarget kbps).buffer
      transcode := true }

/-- Video that is encoded, by the name of the encoder. -/
def VideoRecipe.encoded (encoder : String) : VideoRecipe :=
  { VideoRecipe.empty with codec := some encoder, transcode := true }

/-- Sound that is left out, copied or encoded. -/
def AudioRecipe.ofCopy (encoder : String) (kbps : UInt32) : Option Bool → AudioRecipe
  | none => AudioRecipe.empty
  | some true => { AudioRecipe.empty with copy := true }
  | some false => ⟨some encoder, false, true, some kbps⟩

namespace Recipe

/-- A recipe in which what is copied is not transcoded is settled. -/
theorem settle_eq_self {r : Recipe} (hv : r.video.copy = true → r.video.transcode = false)
    (ha : r.audio.copy = true → r.audio.transcode = false) : r.settle = r := by
  have hvideo : (r.video.copy && !r.video.transcode) = r.video.copy := by
    cases h : r.video.copy with
    | false => rfl
    | true => rw [hv h]; rfl
  have haudio : (r.audio.copy && !r.audio.transcode) = r.audio.copy := by
    cases h : r.audio.copy with
    | false => rfl
    | true => rw [ha h]; rfl
  rw [settle, hvideo, haudio]

theorem core_foldl_congr {r r' : Recipe} (h : r.core = r'.core) (ds : List Directive) :
    (ds.foldl apply r).core = (ds.foldl apply r').core := by
  rw [governs_core.foldl_filter ds h, governs_core.foldl_filter ds (rfl : r'.core = r'.core)]

theorem foldl_rateControl (rate : RateControl) (r : Recipe) :
    rate.directives.foldl apply r = { r with video := r.video.withRate rate } := by
  cases rate <;> rfl

/-- What a chain of filters does to a recipe, if there is one. -/
theorem foldl_chain (parts : List String) {r : Recipe} (h : r.video.transcode = true) :
    ((Filter.chain? parts).map Directive.videoFilter).toList.foldl apply r =
      { r with filters := r.filters.append (((Filter.chain? parts).map FilterItem.ofChain).getD []) } := by
  obtain ⟨container, start, duration, video, audio, subtitle, filters, pv, aa, as, tracks, th, ig⟩ := r
  cases hchain : Filter.chain? parts with
  | none => simp [Filters.append]
  | some chain =>
    simp only at h
    simp [apply, withChain, h]
    rw [← h]

/-- The filters that a recipe has of a chain. -/
def chainFilters (parts : List String) : Filters :=
  Filters.none.append (((Filter.chain? parts).map FilterItem.ofChain).getD [])

/-- Encoded video is what it is encoded with, its rate and its filters. -/
theorem core_foldl_encodeDirectives (s : Settings) (preset : Option Preset) (k : Container) :
    ((s.encodeDirectives preset).foldl apply (empty k)).core =
      core { empty k with
        video := (VideoRecipe.encoded (s.encodedCodec preset).encoder).withRate
          ((s.encodedCodec preset).follow (s.videoRequest preset).rateControl)
        filters := chainFilters (s.filterParts preset) } := by
  rw [Settings.encodeDirectives]
  have hspeed : ∀ d ∈ ((s.videoRequest preset).speed.map Directive.speed).toList,
      d.isEssential = false := by
    intro d hd
    obtain ⟨name, -, rfl⟩ := Option.map_eq_some_iff.1 (Option.mem_toList.1 hd)
    rfl
  generalize (s.encodedCodec preset).follow (s.videoRequest preset).rateControl = rate
  rw [List.foldl_cons, List.foldl_append,
    core_foldl_congr (governs_core.foldl_skip hspeed _), List.foldl_append,
    foldl_rateControl, foldl_chain]
  · cases rate <;> rfl
  · cases rate <;> rfl

theorem foldl_audioChoice (s : Settings) (source : Source) (tracks : ChosenTracks) {r : Recipe}
    (h : r.audio = .empty) :
    (s.audioChoice source tracks).directives.foldl apply r =
      { r with
        audio := .ofCopy (s.audioCodec.within s.container).encoder (clampAudioRate s.audioKbps)
          (s.audioChoice source tracks).copy } := by
  obtain ⟨container, start, duration, video, audio, subtitle, filters, pv, aa, as, tr, th, ig⟩ := r
  cases h
  rcases s.audioChoice_cases source tracks with ⟨-, hcopy, hds⟩ | ⟨-, -, hcopy, hds⟩ | ⟨-, hcopy, hds⟩
  · rw [hcopy, hds]
    rfl
  · rw [hcopy, hds]
    rfl
  · rw [hcopy, hds]
    rfl

/-- The name that subtitles are encoded with. -/
def subtitleName? (c : SubtitleChoice) (source : Source) (k : Container) : Option String :=
  if c.kept.isEmpty then none
  else Subtitle.codecFor k ((c.kept.filterMap source.stream?).map (·.codec))

theorem foldl_subtitleCodec (c : SubtitleChoice) (source : Source) (k : Container) {r : Recipe}
    (h : r.subtitleCodec = none) :
    (c.codec? source k).toList.foldl apply r =
      { r with subtitleCodec := subtitleName? c source k } := by
  obtain ⟨container, start, duration, video, audio, subtitle, filters, pv, aa, as, tr, th, ig⟩ := r
  cases h
  rw [SubtitleChoice.codec?, subtitleName?]
  split
  · rfl
  · cases Subtitle.codecFor k ((c.kept.filterMap source.stream?).map (·.codec)) <;> rfl

theorem foldl_threads (threads : Option UInt32) {r : Recipe} (h : r.threads = none) :
    (threadsDirective? threads).toList.foldl apply r =
      { r with threads := threads.filter (0 < ·) } := by
  obtain ⟨container, start, duration, video, audio, subtitle, filters, pv, aa, as, tr, th, ig⟩ := r
  cases h
  rw [threadsDirective?]
  cases threads.filter (0 < ·) <;> rfl

theorem core_foldl_window (w : TrimWindow Float) (r : Recipe) :
    (w.part.directives.foldl apply r).core = r.core := by
  refine governs_core.foldl_skip (fun d hd => ?_) r
  rcases List.mem_pair.1 (flag?_of_mem_window hd) with h | h <;> simp [Directive.isEssential, h]

end Recipe

/-! ## Recipes of plans -/

namespace Plan

variable (threads : Option UInt32) (s : Settings) (source : Source) (primary : Stream)
  (preset : Option Preset)

/-- The recipe of an export with sound and subtitles, up to times and speed. -/
def recipeOfVideo (output : String) : Recipe where
  container := Container.ofOutput output
  trimStart := none
  trimDuration := none
  video :=
    if (ofVideo threads s source primary preset).videoCopy then .copied
    else (VideoRecipe.encoded (s.encodedCodec preset).encoder).withRate
      ((s.encodedCodec preset).follow (s.videoRequest preset).rateControl)
  audio :=
    .ofCopy (s.audioCodec.within s.container).encoder (clampAudioRate s.audioKbps)
      (ofVideo threads s source primary preset).audioCopy
  subtitleCodec := Recipe.subtitleName? (s.subtitleChoice source) source s.container
  filters :=
    if (ofVideo threads s source primary preset).videoCopy then Filters.none
    else Recipe.chainFilters (s.filterParts preset)
  primaryVideo := true
  allAudio :=
    (s.audioTracks.resolve source .audio).wildcard &&
      !(s.audioTracks.resolve source .audio).indices.isEmpty
  allSubtitles := (s.subtitleChoice source).wildcard && !(s.subtitleChoice source).kept.isEmpty
  tracks :=
    Recipe.insertTracks
      (Recipe.explicitTracks (s.subtitleChoice source).kept (s.subtitleChoice source).wildcard)
      (Recipe.insertTracks
        (Recipe.explicitTracks (s.audioTracks.resolve source .audio).indices
          (s.audioTracks.resolve source .audio).wildcard) [])
  threads := threads.filter (0 < ·)
  ignored := []

theorem transcode_eq_false_of_copy (output : String)
    (h : (recipeOfVideo threads s source primary preset output).video.copy = true) :
    (recipeOfVideo threads s source primary preset output).video.transcode = false := by
  rw [recipeOfVideo] at h ⊢
  simp only at h ⊢
  split at h
  case isTrue hcopy => rw [if_pos hcopy]; rfl
  case isFalse =>
    generalize (s.encodedCodec preset).follow (s.videoRequest preset).rateControl = rate at h
    cases rate <;> cases h

theorem audioTranscode_eq_false_of_copy (output : String)
    (h : (recipeOfVideo threads s source primary preset output).audio.copy = true) :
    (recipeOfVideo threads s source primary preset output).audio.transcode = false := by
  rw [recipeOfVideo] at h ⊢
  simp only at h ⊢
  generalize (ofVideo threads s source primary preset).audioCopy = copy at h ⊢
  match copy, h with
  | some true, _ => rfl

/-- No speed is left in the recipe. -/
theorem core_recipeOfVideo (output : String) :
    (recipeOfVideo threads s source primary preset output).core =
      recipeOfVideo threads s source primary preset output := by
  rw [recipeOfVideo, Recipe.core]
  generalize (s.encodedCodec preset).follow (s.videoRequest preset).rateControl = rate
  cases (ofVideo threads s source primary preset).videoCopy with
  | true => rfl
  | false => cases rate <;> rfl

theorem core_ofVideo (output : String) :
    (Recipe.ofDirectives (ofVideo threads s source primary preset).directives output).core =
      recipeOfVideo threads s source primary preset output := by
  -- What is written about video is followed from the empty recipe; the trim window
  -- before it leaves the core alone, and no part after it touches its fields.
  have hvideo : (((if (ofVideo threads s source primary preset).videoCopy then [.videoCodec .copy]
      else s.encodeDirectives preset).foldl Recipe.apply (.empty (Container.ofOutput output)))).core =
      Recipe.core { Recipe.empty (Container.ofOutput output) with
        video := (recipeOfVideo threads s source primary preset output).video
        filters := (recipeOfVideo threads s source primary preset output).filters } := by
    rw [recipeOfVideo]
    split
    · rfl
    · exact Recipe.core_foldl_encodeDirectives s preset _
  have hstart := (Recipe.core_foldl_congr
    (Recipe.core_foldl_window (s.trimWindow source) (.empty (Container.ofOutput output))) _).trans hvideo
  rw [Recipe.ofDirectives, directives_ofVideo, tailDirectives, List.foldl_append, List.foldl_append]
  refine (Recipe.core_settle_congr (Recipe.core_foldl_congr hstart _)).trans ?_
  rw [List.foldl_append, Recipe.foldl_audioChoice, List.foldl_append, Recipe.foldl_subtitleCodec,
    List.foldl_append, Recipe.foldl_threads, List.foldl_cons, List.foldl_append,
    Recipe.foldl_mapAudio, Recipe.foldl_mapSubtitles, Recipe.settle_eq_self]
  · exact core_recipeOfVideo threads s source primary preset output
  all_goals try rfl
  · exact transcode_eq_false_of_copy threads s source primary preset output
  · exact audioTranscode_eq_false_of_copy threads s source primary preset output

variable {threads s source primary preset} in
/-- One list has the tracks of both kinds that are asked for one by one. -/
theorem mem_tracks_recipeOfVideo {output : String} {i : UInt64} :
    i ∈ (recipeOfVideo threads s source primary preset output).tracks ↔
      ((recipeOfVideo threads s source primary preset output).allAudio = false ∧
          i ∈ (ofVideo threads s source primary preset).output.audioTracks) ∨
        ((recipeOfVideo threads s source primary preset output).allSubtitles = false ∧
          i ∈ (ofVideo threads s source primary preset).output.subtitleTracks) := by
  show i ∈ Recipe.insertTracks _ (Recipe.insertTracks _ []) ↔ _
  rw [Recipe.mem_insertTracks, Recipe.mem_insertTracks, Recipe.mem_explicitTracks,
    Recipe.mem_explicitTracks]
  simp only [List.not_mem_nil, or_false]
  exact or_comm

/-- The recipe of an animation, up to times and speed. -/
def recipeOfAnimation (output : String) : Recipe where
  container := Container.ofOutput output
  trimStart := none
  trimDuration := none
  video := { VideoRecipe.encoded "gif" with quality := some s.animation.speed }
  audio := .empty
  subtitleCodec := none
  filters :=
    Filters.none.append
      (FilterItem.ofChain (Filter.chain
        (("fps=" ++ Number.text s.animation.fps.toNat) :: s.filterParts preset)))
  primaryVideo := true
  allAudio := false
  allSubtitles := false
  tracks := []
  threads := threads.filter (0 < ·)
  ignored := []

theorem core_ofAnimation (output : String) :
    (Recipe.ofDirectives (ofAnimation threads s source primary preset).directives output).core =
      recipeOfAnimation threads s preset output := by
  have hstart := Recipe.core_foldl_window (s.trimWindow source)
    (.empty (Container.ofOutput output))
  rw [Recipe.ofDirectives, directives_ofAnimation, List.foldl_append]
  refine (Recipe.core_settle_congr (Recipe.core_foldl_congr hstart _)).trans ?_
  rw [List.foldl_cons, List.foldl_cons, List.foldl_cons, List.foldl_append, Recipe.foldl_threads,
    Recipe.settle_eq_self]
  all_goals try rfl
  · intro h; cases h
  · intro h; cases h

variable {threads s source} in
/-- A plan is that of an animation or that of an export with sound and
    subtitles, and what is read of its tokens is its recipe, up to times and
    speed. -/
theorem core_read_cases {p : Plan} (h : compile threads s source = .ok p) (output : String) :
    ∃ primary, source.primary? = some primary ∧
      ((s.container = .gif ∧ p = ofAnimation threads s source primary s.chosenPreset? ∧
          (Recipe.read p.tokens output).core = recipeOfAnimation threads s s.chosenPreset? output) ∨
        (s.container ≠ .gif ∧ p = ofVideo threads s source primary s.chosenPreset? ∧
          (Recipe.read p.tokens output).core =
            recipeOfVideo threads s source primary s.chosenPreset? output)) := by
  have hread := core_read h output
  obtain ⟨-, -, primary, hprimary, hp⟩ := compile_eq_ok_iff.1 h
  refine ⟨primary, hprimary, ?_⟩
  by_cases hk : s.container = .gif
  · rw [if_pos (Container.isAnimation_iff.2 hk)] at hp
    rw [hp] at hread
    rw [core_ofAnimation] at hread
    rw [hp]
    exact .inl ⟨hk, rfl, hread⟩
  · rw [if_neg (mt Container.isAnimation_iff.1 hk)] at hp
    rw [hp] at hread
    rw [core_ofVideo] at hread
    rw [hp]
    exact .inr ⟨hk, rfl, hread⟩

end Plan

end VideoExport
