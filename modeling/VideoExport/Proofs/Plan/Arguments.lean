import VideoExport.Proofs.Plan.Recipe
import VideoExport.Proofs.Text.Lower
import VideoExport.Tool.Arguments

/-!
# What the encoder is told

The options for encoding are built anew from what was read, kind by kind. For
an export with sound and subtitles they come out as the tokens of its plan, in
the same order, but for times, filters and tracks, which are passed on in other
places.

* `dropPairs`: flags with their values, without those of certain flags;
* `Plan.speed_read`: a speed survives if it is a word;
* `Plan.encodeArguments_read`: the options for encoding a plan.
-/

namespace VideoExport

open Text

/-! ## Pairs of tokens -/

/-- Flags with their values, without those of certain flags. -/
def dropPairs (flags : List String) : List String → List String
  | flag :: value :: rest =>
    if flags.contains flag then dropPairs flags rest
    else flag :: value :: dropPairs flags rest
  | rest => rest

namespace Directive

/-- Whether a directive has none of certain flags. -/
def isBeside (flags : List String) (d : Directive) : Bool :=
  !d.flag?.any fun f => flags.contains f.text

/-- Dropping flags with their values drops the directives that were written as
    them. -/
theorem dropPairs_tokens (flags : List String) {ds : List Directive}
    (h : ∀ d ∈ ds, d.flag?.isSome = true) :
    dropPairs flags (tokens ds) = tokens (ds.filter (isBeside flags)) := by
  induction ds with
  | nil => rfl
  | cons d ds ih =>
    have ih := ih fun d' hd' => h d' (List.mem_cons_of_mem _ hd')
    obtain ⟨f, hf⟩ := Option.isSome_iff_exists.1 (h d List.mem_cons_self)
    obtain ⟨value, htokens⟩ := exists_toTokens hf
    have hcons : ∀ ds, tokens (d :: ds) = f.text :: value :: tokens ds := by
      intro ds
      rw [tokens, List.flatMap_cons, htokens]
      rfl
    rw [hcons, dropPairs, List.filter_cons, isBeside, hf, Option.any_some, ih]
    cases flags.contains f.text with
    | true => rfl
    | false => rw [if_neg Bool.false_ne_true, Bool.not_false, if_pos rfl, hcons]

theorem tokens_append (ds ds' : List Directive) : tokens (ds ++ ds') = tokens ds ++ tokens ds' :=
  List.flatMap_append

end Directive

/-! ## Speed -/

/-- Whether a directive says a speed. -/
def Directive.isSpeed (d : Directive) : Bool := d.flag? == some .speed

theorem Recipe.governs_speed : Governs (·.isSpeed) (·.video.speed) where
  congr := by
    intro r r' h d
    cases d with
    | videoCodec c => cases c <;> exact h
    | audioCodec c => cases c <;> exact h
    | map t => cases t <;> exact h
    | speed name => rfl
    | _ => exact h
  skip := by
    intro d h r
    cases d with
    | videoCodec c => cases c <;> rfl
    | audioCodec c => cases c <;> rfl
    | map t => cases t <;> rfl
    | speed name => cases h
    | _ => rfl

/-- The speed of a preset is a word that is no flag. -/
theorem isPlain_presetSpeed {q : Preset} (hq : q ∈ presets) :
    ∀ name ∈ q.speed, IsTrimmed name ∧ Flag.named? name = none := by
  revert q
  unfold IsTrimmed
  decide

namespace Plan

variable {threads : Option UInt32} {s : Settings} {source : Source} {primary : Stream}
  {preset : Option Preset} {p : Plan}

/-- Without a preset in a plan none was named. -/
theorem preset_eq_none (h : compile threads s source = .ok p) (hpreset : s.chosenPreset? = none) :
    s.preset = none := by
  obtain ⟨-, hfind, -⟩ := compile_eq_ok_iff.1 h
  cases hname : s.preset with
  | none => rfl
  | some name =>
    obtain ⟨q, hq⟩ := hfind name hname
    rw [Settings.chosenPreset?, hname, Option.bind_some, hq] at hpreset
    cases hpreset

/-- The speed that a plan asks for is a word, if it is one in the settings. -/
theorem isPlain_requestSpeed (h : compile threads s source = .ok p)
    (hspeed : s.preset = none → ∀ name ∈ s.speed, IsTrimmed name ∧ Flag.named? name = none) :
    ∀ name ∈ (s.videoRequest s.chosenPreset?).speed, IsTrimmed name ∧ Flag.named? name = none := by
  cases hpreset : s.chosenPreset? with
  | none => exact hspeed (preset_eq_none h hpreset)
  | some q => exact isPlain_presetSpeed (Settings.mem_presets_of_chosenPreset? hpreset)

/-- An export says its speed at most once. -/
theorem filter_isSpeed_ofVideo :
    (ofVideo threads s source primary preset).directives.filter (·.isSpeed) =
      if (ofVideo threads s source primary preset).videoCopy then []
      else ((s.videoRequest preset).speed.map Directive.speed).toList := by
  have hrate : ((s.encodedCodec preset).follow (s.videoRequest preset).rateControl).directives.filter
      (·.isSpeed) = [] :=
    List.filter_eq_nil_iff.2 fun d hd =>
      (by decide : ∀ f ∈ rateFlags, ¬ (f == some Flag.speed) = true) _ (flag?_of_mem_rateControl hd)
  refine (filter_ofVideo (q := (· == some .speed)) (by decide)).trans ?_
  split
  · rfl
  · change (s.encodeDirectives preset).filter (·.isSpeed) = _
    rw [Settings.encodeDirectives, List.filter_cons, List.filter_append, List.filter_append, hrate]
    cases (s.videoRequest preset).speed <;> cases Filter.chain? (s.filterParts preset) <;> rfl

/-- The speed of an export is read as it was asked for, if it is a word. -/
theorem speed_read
    (hflag : ∀ d ∈ (ofVideo threads s source primary preset).directives, d.flag?.isSome = true)
    (hspeed : ∀ name ∈ (s.videoRequest preset).speed, IsTrimmed name ∧ Flag.named? name = none)
    (output : String) :
    (Recipe.read (ofVideo threads s source primary preset).tokens output).video.speed =
      if (ofVideo threads s source primary preset).videoCopy then none
      else (s.videoRequest preset).speed := by
  have hfaithful : ∀ d ∈ (ofVideo threads s source primary preset).directives,
      d.isSpeed = true → d.IsFaithful := by
    intro d hd hs
    have hmem := List.mem_filter.2 ⟨hd, hs⟩
    rw [filter_isSpeed_ofVideo] at hmem
    split at hmem
    · cases hmem
    · obtain ⟨name, hname, rfl⟩ := Option.map_eq_some_iff.1 (Option.mem_toList.1 hmem)
      obtain ⟨htrim, hnamed⟩ := hspeed name hname
      exact Directive.IsExact.isFaithful ⟨hnamed, nonBlank?_eq_self_iff.2 htrim⟩
  have hfilter : (Directive.lex (ofVideo threads s source primary preset).tokens).filter (·.isSpeed) =
      (ofVideo threads s source primary preset).directives.filter (·.isSpeed) := by
    refine Directive.filter_lex_tokens (fun d d' he => ?_) (fun d hd => ?_) hflag hfaithful
    · rw [Directive.isSpeed, he, Directive.isSpeed]
    · rw [Directive.isSpeed, hd]
      rfl
  refine (Recipe.governs_speed.foldl_filter _ rfl).trans ?_
  rw [hfilter, filter_isSpeed_ofVideo]
  split
  · rfl
  · cases (s.videoRequest preset).speed <;> rfl

end Plan

/-! ## Options -/

/-- The flags of times, filters and tracks. -/
def otherFlags : List String := ["-ss", "-t", "-vf", "-map"]

/-- The options for video that is encoded are the directives for it, without
    its filters. -/
theorem VideoRecipe.arguments_encoded (encoder : String) (speed : Option String)
    (rate : RateControl) :
    { (VideoRecipe.encoded encoder).withRate rate with speed := speed }.arguments =
      Directive.tokens (.videoCodec (.named encoder) ::
        ((speed.map Directive.speed).toList ++ rate.directives)) := by
  cases rate <;> cases speed <;> rfl

theorem AudioRecipe.arguments_ofCopy (s : Settings) (source : Source) (tracks : ChosenTracks) :
    (AudioRecipe.ofCopy (s.audioCodec.within s.container).encoder (clampAudioRate s.audioKbps)
        (s.audioChoice source tracks).copy).arguments =
      Directive.tokens (s.audioChoice source tracks).directives := by
  rcases s.audioChoice_cases source tracks with ⟨-, hcopy, hds⟩ | ⟨-, -, hcopy, hds⟩ | ⟨-, hcopy, hds⟩
  all_goals
    rw [hcopy, hds]
    rfl

theorem option_subtitleName? (c : SubtitleChoice) (source : Source) (k : Container) :
    option "-c:s" id (Recipe.subtitleName? c source k) =
      Directive.tokens (c.codec? source k).toList := by
  rw [Recipe.subtitleName?, SubtitleChoice.codec?]
  split
  · rfl
  · cases Subtitle.codecFor k ((c.kept.filterMap source.stream?).map (·.codec)) <;> rfl

theorem option_threads (threads : Option UInt32) :
    option "-threads" Directive.countText (threads.filter (0 < ·)) =
      Directive.tokens (threadsDirective? threads).toList := by
  rw [threadsDirective?]
  cases threads.filter (0 < ·) <;> rfl

namespace Plan

variable {threads : Option UInt32} {s : Settings} {source : Source} {primary : Stream}
  {preset : Option Preset} {p : Plan}

/-- Tracks are asked for in other places. -/
theorem filter_isBeside_tail :
    (tailDirectives threads s source).filter (Directive.isBeside otherFlags) =
      (s.audioChoice source (s.audioTracks.resolve source .audio)).directives ++
        (((s.subtitleChoice source).codec? source s.container).toList ++
        (threadsDirective? threads).toList) := by
  have hflags : ∀ f ∈ [some Flag.audioCodec, some .audioRate, some .subtitleCodec, some .threads],
      (!f.any fun f => otherFlags.contains f.text) = true := by decide
  have haudio : ∀ d ∈ (s.audioChoice source (s.audioTracks.resolve source .audio)).directives,
      d.isBeside otherFlags = true := by
    intro d hd
    refine hflags _ ?_
    rcases flag?_of_mem_audioChoice hd with hf | hf <;> simp [hf]
  have hsubtitles : ∀ d ∈ ((s.subtitleChoice source).codec? source s.container).toList,
      d.isBeside otherFlags = true := by
    intro d hd
    exact hflags _ (by simp [flag?_of_mem_subtitleCodec hd])
  have hthreads : ∀ d ∈ (threadsDirective? threads).toList, d.isBeside otherFlags = true := by
    intro d hd
    exact hflags _ (by simp [flag?_of_mem_threads hd])
  have hmap : ∀ {tracks wildcard all}, ∀ d ∈ mapTracks tracks wildcard all,
      ¬ d.isBeside otherFlags = true := by
    intro tracks wildcard all d hd
    rw [Directive.isBeside, flag?_of_mem_mapTracks hd]
    decide
  rw [tailDirectives, List.filter_append, List.filter_append, List.filter_append, List.filter_cons,
    List.filter_append, List.filter_eq_self.2 haudio, List.filter_eq_self.2 hsubtitles,
    List.filter_eq_self.2 hthreads, List.filter_eq_nil_iff.2 hmap, List.filter_eq_nil_iff.2 hmap]
  simp [Directive.isBeside, Directive.flag?, otherFlags, Flag.text]

/-- And so is what is filtered. -/
theorem filter_isBeside_encodeDirectives :
    (s.encodeDirectives preset).filter (Directive.isBeside otherFlags) =
      .videoCodec (.named (s.encodedCodec preset).encoder) ::
        (((s.videoRequest preset).speed.map Directive.speed).toList ++
        ((s.encodedCodec preset).follow (s.videoRequest preset).rateControl).directives) := by
  have hrate : ∀ d ∈ ((s.encodedCodec preset).follow (s.videoRequest preset).rateControl).directives,
      d.isBeside otherFlags = true := fun d hd =>
    (by decide : ∀ f ∈ rateFlags, (!f.any fun f => otherFlags.contains f.text) = true) _
      (flag?_of_mem_rateControl hd)
  rw [Settings.encodeDirectives, List.filter_cons, List.filter_append, List.filter_append,
    List.filter_eq_self.2 hrate]
  cases (s.videoRequest preset).speed <;> cases Filter.chain? (s.filterParts preset) <;>
    simp [Directive.isBeside, Directive.flag?, otherFlags, Flag.text]

/-- What is left of an export without its times, filters and tracks is what its
    encoder is told. -/
theorem encodeArguments_ofVideo {r : Recipe} {output : String}
    (hcore : r.core = recipeOfVideo threads s source primary preset output)
    (hspeed : r.video.speed = if (ofVideo threads s source primary preset).videoCopy then none
      else (s.videoRequest preset).speed) :
    r.encodeArguments = Directive.tokens
      ((ofVideo threads s source primary preset).directives.filter (Directive.isBeside otherFlags)) := by
  have hwindow : (s.trimWindow source).part.directives.filter (Directive.isBeside otherFlags) = [] :=
    List.filter_eq_nil_iff.2 fun d hd =>
      (by decide : ∀ f ∈ windowFlags, ¬ (!f.any fun f => otherFlags.contains f.text) = true) _
        (flag?_of_mem_window hd)
  -- The options for video are those of its recipe with its speed; all others are
  -- found in the core.
  have harguments : r.encodeArguments =
      { r.core.video with speed := r.video.speed }.arguments ++ r.core.audio.arguments ++
        option "-c:s" id r.core.subtitleCodec ++ option "-threads" Directive.countText r.core.threads :=
    rfl
  have hvideo : { (recipeOfVideo threads s source primary preset output).video with
        speed := if (ofVideo threads s source primary preset).videoCopy then none
          else (s.videoRequest preset).speed }.arguments =
      Directive.tokens ((if (ofVideo threads s source primary preset).videoCopy
        then [.videoCodec .copy] else s.encodeDirectives preset).filter
          (Directive.isBeside otherFlags)) := by
    rw [recipeOfVideo]
    cases (ofVideo threads s source primary preset).videoCopy with
    | true => rfl
    | false =>
      exact (VideoRecipe.arguments_encoded _ _ _).trans
        (congrArg Directive.tokens filter_isBeside_encodeDirectives.symm)
  rw [harguments, hcore, hspeed, hvideo, directives_ofVideo, List.filter_append, List.filter_append,
    hwindow, List.nil_append, filter_isBeside_tail, Directive.tokens_append,
    Directive.tokens_append, Directive.tokens_append, ← AudioRecipe.arguments_ofCopy,
    ← option_subtitleName?, ← option_threads, List.append_assoc, List.append_assoc]
  rfl

/-- The options for encoding what is read of a plan are its tokens, without
    times, filters and tracks. -/
theorem encodeArguments_read (h : compile threads s source = .ok p) (hk : s.container ≠ .gif)
    (hspeed : s.preset = none → ∀ name ∈ s.speed, IsTrimmed name ∧ Flag.named? name = none) :
    (Recipe.read p.tokens p.output.fileName).encodeArguments = dropPairs otherFlags p.tokens := by
  have hflag := isSome_flag? h
  have hplain := isPlain_requestSpeed h hspeed
  rw [tokens, Directive.dropPairs_tokens _ hflag]
  obtain ⟨primary, -, ⟨hgif, -⟩ | ⟨-, rfl, hread⟩⟩ := core_read_cases h p.output.fileName
  · exact absurd hgif hk
  · exact encodeArguments_ofVideo hread (speed_read hflag hplain _)

/-- So it is for an export at a target rate, with a speed and a number of threads. -/
theorem encodeArguments_read_bitrate :
    let s := { Settings.default with rateControl := .bitrate 2500, speed := some "slow" }
    (s.container ≠ .gif ∧
      (s.preset = none → ∀ name ∈ s.speed, IsTrimmed name ∧ Flag.named? name = none)) ∧
      ∃ p, compile (some 4) s .sample = .ok p ∧
        (Recipe.read p.tokens p.output.fileName).encodeArguments = dropPairs otherFlags p.tokens := by
  intro s
  have hk : s.container ≠ .gif := by decide
  have hspeed : s.preset = none → ∀ name ∈ s.speed, IsTrimmed name ∧ Flag.named? name = none := by
    unfold IsTrimmed
    decide
  obtain ⟨p, hp⟩ := exists_compile (some 4) s .sample (by decide +kernel) rfl rfl
  exact ⟨⟨hk, hspeed⟩, p, hp, encodeArguments_read hp hk hspeed⟩

end Plan

end VideoExport
