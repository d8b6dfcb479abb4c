import VideoExport.Proofs.Plan.Understood
import VideoExport.Proofs.Plan.Warnings

/-!
# Copies

Tracks are copied if that is asked for and nothing is in the way, and whoever
reads the tokens of a plan can tell. What is copied is encoded by nobody, so
nothing is said to an encoder; but for the name of a speed, which nobody looks
at before it is sent and which may itself be spelled like a flag.

* `Plan.toTokens_infix_iff`, `Plan.mem_tokens_iff`: which pairs of tokens and
  which flags are found among the tokens of a plan;
* `Settings.CopiesVideo`, `Settings.CopiesSound`: settings that lead to copies;
* `Plan.copies_iff`: the tokens of a plan ask for copies exactly for those.
-/

namespace VideoExport

open Number Text

/-! ## Pairs and flags among tokens -/

theorem Flag.text_injective : Function.Injective Flag.text := by
  intro f g h
  rw [← Option.some_inj, ← named?_text f, h, named?_text]

namespace Directive

/-- The tokens of directives that are understood start with a flag. -/
theorem isSome_named?_head {ds : List Directive} (h : ∀ d ∈ ds, d.flag?.isSome = true) {token : String}
    (ht : (tokens ds).head? = some token) : (Flag.named? token).isSome = true := by
  cases ds with
  | nil => cases ht
  | cons d ds =>
    obtain ⟨f, hf⟩ := Option.isSome_iff_exists.1 (h d List.mem_cons_self)
    obtain ⟨value, hd⟩ := exists_toTokens hf
    rw [tokens_cons, hd] at ht
    cases ht
    rw [Flag.named?_text]
    rfl

/-- Two tokens, the second of which is no flag, follow on each other exactly if
    they are those of one directive. -/
theorem pair_infix_tokens_iff {ds : List Directive} (h : ∀ d ∈ ds, d.flag?.isSome = true)
    {x y : String} (hy : Flag.named? y = none) :
    [x, y] <:+: tokens ds ↔ ∃ d ∈ ds, d.toTokens = [x, y] := by
  induction ds with
  | nil => simp [tokens]
  | cons d ds ih =>
    have ih := ih fun d' hd' => h d' (List.mem_cons_of_mem _ hd')
    obtain ⟨f, hf⟩ := Option.isSome_iff_exists.1 (h d List.mem_cons_self)
    obtain ⟨value, hd⟩ := exists_toTokens hf
    -- What follows on a value is a flag, if anything.
    have hbetween : ¬ [x, y] <+: value :: tokens ds := by
      rw [List.cons_prefix_cons, not_and]
      rintro - ⟨rest, hrest⟩
      have hhead : (tokens ds).head? = some y := by rw [← hrest]; rfl
      have hflag := isSome_named?_head (fun d' hd' => h d' (List.mem_cons_of_mem _ hd')) hhead
      rw [hy] at hflag
      cases hflag
    have haligned : [x, y] <+: f.text :: value :: tokens ds ↔ d.toTokens = [x, y] := by
      rw [hd, List.cons_prefix_cons, List.cons_prefix_cons]
      simp [eq_comm]
    rw [tokens_cons, hd, List.cons_append, List.singleton_append, List.infix_cons_iff,
      List.infix_cons_iff, haligned, ih]
    simp [hbetween]

/-- The tokens of directives that are understood tell their flags. -/
theorem flag?_eq_of_toTokens {d d' : Directive} (h : d.flag?.isSome = true)
    (h' : d'.flag?.isSome = true) (he : d.toTokens = d'.toTokens) : d.flag? = d'.flag? := by
  obtain ⟨f, hf⟩ := Option.isSome_iff_exists.1 h
  obtain ⟨g, hg⟩ := Option.isSome_iff_exists.1 h'
  have hhead := head?_toTokens hf
  rw [he, head?_toTokens hg] at hhead
  rw [hf, hg, Flag.text_injective (Option.some.inj hhead)]

theorem IsExact.isSome_flag? {d : Directive} (h : d.IsExact) : d.flag?.isSome = true := by
  cases d <;> first | rfl | exact h.elim

/-- Directives that are exact are told apart by their tokens. -/
theorem IsExact.eq_of_toTokens {d d' : Directive} (h : d.IsExact) (h' : d'.IsExact)
    (he : d.toTokens = d'.toTokens) : d = d' := by
  have hlex := h.isFaithful
  rw [IsFaithful, he, show lex d'.toTokens = [d'] from h'.isFaithful] at hlex
  exact (List.singleton_inj.1 hlex).symm

end Directive

namespace Plan

variable {threads : Option UInt32} {s : Settings} {source : Source} {primary : Stream} {p : Plan}

/-- A directive that is exact and no time or speed is found among the tokens of
    a plan exactly if the plan has it. -/
theorem toTokens_infix_iff (h : compile threads s source = .ok p) {d : Directive} (hd : d.IsExact)
    (hessential : d.isEssential = true) : d.toTokens <:+: p.tokens ↔ d ∈ p.directives := by
  obtain ⟨f, value, htokens, hvalue, -⟩ := hd.exists_value
  rw [tokens, htokens, Directive.pair_infix_tokens_iff (isSome_flag? h) hvalue, ← htokens]
  constructor
  · rintro ⟨d', hd', he⟩
    obtain ⟨hflag, hexact⟩ := isSent_of_mem_directives h d' hd'
    obtain ⟨g, hg⟩ := Option.isSome_iff_exists.1 hflag
    -- Same tokens have the same flag, which tells whether a directive is essential.
    have hessential' : d'.isEssential = true := by
      rwa [Directive.isEssential, Directive.flag?_eq_of_toTokens hflag hd.isSome_flag? he]
    exact (hexact hessential').eq_of_toTokens hd he ▸ hd'
  · exact fun hmem => ⟨d, hmem, rfl⟩

/-- A flag is among the tokens of a plan if a directive has it, or as the name
    of a speed. -/
theorem mem_tokens_iff (h : compile threads s source = .ok p) {f : Flag} :
    f.text ∈ p.tokens ↔ (∃ d ∈ p.directives, d.flag? = some f) ∨ .speed f.text ∈ p.directives := by
  rw [tokens, Directive.tokens, List.mem_flatMap]
  constructor
  · rintro ⟨d, hd, hmem⟩
    obtain ⟨hflag, hexact⟩ := isSent_of_mem_directives h d hd
    obtain ⟨g, hg⟩ := Option.isSome_iff_exists.1 hflag
    obtain ⟨value, hvalue⟩ := Directive.exists_toTokens hg
    rw [hvalue, List.mem_pair] at hmem
    rcases hmem with hmem | rfl
    · exact .inl ⟨d, hd, by rw [hg, Flag.text_injective hmem]⟩
    · -- Only the name of a speed can be a value that is spelled like a flag.
      have hspelled := Flag.named?_text f
      cases hessential : d.isEssential with
      | true =>
        obtain ⟨g', value', hvalue', hnone, -⟩ := (hexact hessential).exists_value
        rw [hvalue, List.cons.injEq, List.singleton_inj] at hvalue'
        rw [hvalue'.2, hnone] at hspelled
        cases hspelled
      | false =>
        cases d with
        | trimStart t | trimDuration t =>
          rw [Directive.toTokens, List.cons.injEq, List.singleton_inj] at hvalue
          rw [← hvalue.2, named?_wire] at hspelled
          cases hspelled
        | speed name =>
          rw [Directive.toTokens, List.cons.injEq, List.singleton_inj] at hvalue
          exact .inr (hvalue.2 ▸ hd)
        | unknown ts => cases hflag
        | _ => cases hessential
  · rintro (⟨d, hd, hf⟩ | hspeed)
    · exact ⟨d, hd, List.mem_of_mem_head? (Directive.head?_toTokens hf)⟩
    · exact ⟨_, hspeed, by simp [Directive.toTokens]⟩

end Plan

/-! ## Settings that lead to copies -/

/-- The tracks of sound that settings ask for and that the source has. -/
def Settings.chosenSound (s : Settings) (source : Source) : List Stream :=
  (source.ofKind .audio).filter (·.index ∈ s.audioTracks.named source .audio)

/-- Settings that lead to a copy of video: one is wanted, no filter comes from
    anywhere, and the primary track has a codec that the container can hold or
    that nobody knows. -/
structure Settings.CopiesVideo (s : Settings) (source : Source) : Prop where
  wanted : s.keepVideo = true
  preset : s.chosenPreset?.bind (·.filter) = none
  resize : s.resize = none
  color : s.color.filter? = none
  codec : ∀ primary ∈ source.primary?, ∀ c, VideoCodec.known? primary.codec = some c →
    c.fits s.container = true

/-- Settings that lead to a copy of sound: one is wanted, there is some, and
    every track of it has a codec that the container can hold and that is the
    one to encode with otherwise. -/
structure Settings.CopiesSound (s : Settings) (source : Source) : Prop where
  wanted : s.keepAudio = true
  chosen : s.chosenSound source ≠ []
  held : ∀ a ∈ s.chosenSound source, s.container.holdsAudio a.codec = true
  same : ∀ a ∈ s.chosenSound source, AudioName.same a.codec s.effectiveAudioCodec.name = true

namespace Settings

variable {s : Settings} {source : Source} {preset : Option Preset}

theorem filterParts_eq_nil_iff :
    s.filterParts preset = [] ↔
      preset.bind (·.filter) = none ∧ s.resize = none ∧ s.color.filter? = none := by
  rw [filterParts, List.append_eq_nil_iff, List.append_eq_nil_iff, Option.toList_eq_nil_iff,
    Option.toList_eq_nil_iff, Option.toList_eq_nil_iff, Option.map_eq_none_iff, and_assoc]

/-- Tracks are chosen if some of those that are asked for are there. -/
theorem chosenSound_eq_nil_iff :
    s.chosenSound source = [] ↔ (s.audioTracks.resolve source .audio).indices = [] := by
  rw [chosenSound, List.filter_eq_nil_iff, List.eq_nil_iff_forall_not_mem]
  simp only [Selection.mem_resolve_iff, List.mem_map, decide_eq_true_eq]
  constructor
  · rintro h i ⟨hi, a, ha, rfl⟩
    exact h a ha hi
  · exact fun h a ha hi => h a.index ⟨hi, a, ha, rfl⟩

/-- No codec is in the way of a copy of sound if all that were chosen can be
    held and are the target. -/
theorem refusedCodecs_eq_nil_iff {target : AudioCodec} :
    s.refusedCodecs source target = [] ↔ ∀ a ∈ s.chosenSound source,
      s.container.holdsAudio a.codec = true ∧ AudioName.same a.codec target.name = true := by
  rw [refusedCodecs, List.map_eq_nil_iff, List.filter_eq_nil_iff]
  simp only [chosenSound, List.mem_filter, decide_eq_true_eq, not_and, not_or, and_imp,
    Bool.not_eq_false]

/-- Sound is copied exactly if that is asked for, there is some, and no codec
    is in the way. -/
theorem copy_mem_audioChoice_iff {tracks : ChosenTracks} :
    .audioCodec .copy ∈ (s.audioChoice source tracks).directives ↔
      s.keepAudio = true ∧ tracks.indices ≠ [] ∧
        blockedCodecs source tracks.indices s.container s.effectiveAudioCodec = [] := by
  have htarget : s.effectiveAudioCodec = s.audioCodec.within s.container := rfl
  rw [audioChoice, htarget]
  by_cases hnone : tracks.indices = []
  · simp [hnone]
  cases hkeep : s.keepAudio with
  | false => simp [hnone]
  | true =>
    by_cases hblocked : blockedCodecs source tracks.indices s.container
        (s.audioCodec.within s.container) = []
    · simp [hnone, hblocked]
    · simp [hnone, hblocked]

end Settings

namespace Plan

variable {threads : Option UInt32} {s : Settings} {source : Source} {p : Plan}

/-! ## Video -/

theorem videoCopy_iff (h : compile threads s source = .ok p) (hk : s.container ≠ .gif) :
    p.videoCopy = true ↔ s.CopiesVideo source := by
  obtain ⟨-, -, primary, hprimary, hp⟩ := compile_eq_ok_iff.1 h
  rw [if_neg (mt Container.isAnimation_iff.1 hk)] at hp
  subst hp
  rw [videoCopy_ofVideo_iff, copyObstacle?_eq_none_iff, isSome_chain?, Settings.filterParts_eq_nil_iff]
  constructor
  · rintro ⟨hwanted, ⟨hpreset, hresize, hcolor⟩, hcodec⟩
    refine ⟨hwanted, hpreset, hresize, hcolor, fun primary' hprimary' => ?_⟩
    rwa [Option.mem_unique hprimary' hprimary]
  · rintro ⟨hwanted, hpreset, hresize, hcolor, hcodec⟩
    exact ⟨hwanted, ⟨hpreset, hresize, hcolor⟩, hcodec primary hprimary⟩

/-- A plan has the directive for a copy of video exactly if it copies video. -/
theorem copy_mem_directives_iff (h : compile threads s source = .ok p) (hk : s.container ≠ .gif) :
    .videoCodec .copy ∈ p.directives ↔ p.videoCopy = true := by
  obtain ⟨-, -, primary, -, hp⟩ := compile_eq_ok_iff.1 h
  rw [if_neg (mt Container.isAnimation_iff.1 hk)] at hp
  subst hp
  rw [mem_ofVideo_iff (f := .videoCodec) rfl, directivesFor]
  cases (ofVideo threads s source primary s.chosenPreset?).videoCopy with
  | true => simp
  | false =>
    refine iff_of_false (fun hmem => ?_) Bool.false_ne_true
    rw [if_neg Bool.false_ne_true, Settings.encodeDirectives] at hmem
    simp only [List.mem_cons, List.mem_append, Option.mem_toList, Option.map_eq_some_iff,
      Directive.videoCodec.injEq, reduceCtorEq, and_false, exists_false, or_false, false_or] at hmem
    exact absurd (flag?_of_mem_rateControl hmem) (by decide)

/-- What is said about video is all in one place. -/
theorem directivesFor_of_mem_videoFlags {primary : Stream} {preset : Option Preset} {f : Flag}
    (hf : some f ∈ videoFlags) : directivesFor threads s source primary preset f =
      if (ofVideo threads s source primary preset).videoCopy then [.videoCodec .copy]
      else s.encodeDirectives preset := by
  cases f <;> first | rfl | exact absurd hf (by decide)

/-- Of video that is copied nothing else is said. -/
theorem eq_copy_of_videoCopy (h : compile threads s source = .ok p) (hcopy : p.videoCopy = true)
    {d : Directive} (hd : d ∈ p.directives) {f : Flag} (hf : d.flag? = some f)
    (hvideo : some f ∈ videoFlags) : d = .videoCodec .copy := by
  obtain ⟨primary, -, ⟨-, rfl, -⟩ | ⟨-, rfl, -⟩⟩ := core_read_cases h p.output.fileName
  · cases hcopy
  · rw [mem_ofVideo_iff hf, directivesFor_of_mem_videoFlags hvideo, if_pos hcopy] at hd
    exact List.mem_singleton.1 hd

/-- The flags of what is said about video besides its codec. -/
def encoderFlags : List Flag :=
  [.videoFilter, .speed, .crf, .qp, .videoRate, .maxRate, .bufferSize]

/-- And so no flag but that of the codec is found. -/
theorem text_notMem_of_videoCopy (h : compile threads s source = .ok p) (hcopy : p.videoCopy = true)
    {f : Flag} (hencoder : f ∈ encoderFlags) : f.text ∉ p.tokens := by
  obtain ⟨hvideo, hne⟩ :=
    (by decide : ∀ f ∈ encoderFlags, some f ∈ videoFlags ∧ f ≠ .videoCodec) f hencoder
  rw [mem_tokens_iff h, not_or]
  constructor
  · rintro ⟨d, hd, hf⟩
    rw [eq_copy_of_videoCopy h hcopy hd hf hvideo] at hf
    exact hne (Option.some.inj hf).symm
  · intro hspeed
    cases eq_copy_of_videoCopy h hcopy hspeed rfl (by decide)

/-! ## Sound -/

theorem mem_audioCodec_copy_iff (h : compile threads s source = .ok p) (hk : s.container ≠ .gif)
    (hindex : (source.streams.map (·.index)).Nodup) :
    .audioCodec .copy ∈ p.directives ↔ s.CopiesSound source := by
  obtain ⟨primary, -, ⟨hgif, -⟩ | ⟨-, rfl, -⟩⟩ := core_read_cases h p.output.fileName
  · exact absurd hgif hk
  rw [mem_ofVideo_iff (f := .audioCodec) rfl]
  show _ ∈ (s.audioChoice source (s.audioTracks.resolve source .audio)).directives ↔ _
  rw [Settings.copy_mem_audioChoice_iff, blockedCodecs_eq hindex, Settings.refusedCodecs_eq_nil_iff,
    Ne, ← Settings.chosenSound_eq_nil_iff]
  constructor
  · rintro ⟨hwanted, hchosen, hall⟩
    exact ⟨hwanted, hchosen, fun a ha => (hall a ha).1, fun a ha => (hall a ha).2⟩
  · rintro ⟨hwanted, hchosen, hheld, hsame⟩
    exact ⟨hwanted, hchosen, fun a ha => ⟨hheld a ha, hsame a ha⟩⟩

/-- Sound that is copied has no rate. -/
theorem flag?_ne_audioRate (h : compile threads s source = .ok p) (hk : s.container ≠ .gif)
    (hcopy : .audioCodec .copy ∈ p.directives) : ∀ d ∈ p.directives, d.flag? ≠ some .audioRate := by
  intro d hd hf
  obtain ⟨primary, -, ⟨hgif, -⟩ | ⟨-, rfl, -⟩⟩ := core_read_cases h p.output.fileName
  · exact absurd hgif hk
  rw [mem_ofVideo_iff (f := .audioCodec) rfl] at hcopy
  rw [mem_ofVideo_iff hf] at hd
  change _ ∈ (s.audioChoice source (s.audioTracks.resolve source .audio)).directives at hcopy hd
  rcases s.audioChoice_cases source (s.audioTracks.resolve source .audio) with
    ⟨-, -, hds⟩ | ⟨-, -, -, hds⟩ | ⟨-, -, hds⟩
  · rw [hds] at hd
    cases hd
  · rw [hds] at hd
    rw [List.mem_singleton.1 hd] at hf
    cases hf
  · rw [hds] at hcopy
    simp at hcopy

/-- The name of a speed that is spelled like a flag is sent if it is the one of
    the settings: presets have words. -/
theorem speed_text_mem_iff (h : compile threads s source = .ok p) (f : Flag) :
    .speed f.text ∈ p.directives ↔
      s.container ≠ .gif ∧ p.videoCopy = false ∧ s.preset = none ∧ s.speed = some f.text := by
  rw [mem_speed_iff h]
  refine and_congr_right fun _ => and_congr_right fun _ => ?_
  cases hpreset : s.chosenPreset? with
  | none => exact (and_iff_right (preset_eq_none h hpreset)).symm
  | some q =>
    constructor
    · intro hname
      have hplain := isPlain_presetSpeed (Settings.mem_presets_of_chosenPreset? hpreset) f.text hname
      rw [Flag.named?_text] at hplain
      cases hplain.2
    · rintro ⟨hnone, -⟩
      rw [Settings.chosenPreset?, hnone] at hpreset
      cases hpreset

/-! ## Copies -/

/-- The tokens of a plan ask for copies exactly if the settings lead to them.
    Nothing is said to an encoder of video that is copied, and no rate is said
    for sound that is copied, unless the name of a speed is spelled like it. -/
theorem copies_iff (h : compile threads s source = .ok p) (hk : s.container ≠ .gif)
    (hindex : (source.streams.map (·.index)).Nodup) :
    (["-c:v", "copy"] <:+: p.tokens ↔ s.CopiesVideo source) ∧
      (s.CopiesVideo source →
        ∀ token ∈ ["-vf", "-preset", "-crf", "-qp", "-b:v", "-maxrate", "-bufsize"],
          token ∉ p.tokens) ∧
      (["-c:a", "copy"] <:+: p.tokens ↔ s.CopiesSound source) ∧
      (s.CopiesSound source →
        ("-b:a" ∈ p.tokens ↔
          ¬ s.CopiesVideo source ∧ s.preset = none ∧ s.speed = some "-b:a")) := by
  have hvideo := videoCopy_iff h hk
  have hsound := mem_audioCodec_copy_iff h hk hindex
  refine ⟨?_, fun hcopies => ?_, ?_, fun hcopies => ?_⟩
  · rw [← hvideo, ← copy_mem_directives_iff h hk]
    exact toTokens_infix_iff h Directive.isExact_copy.1 rfl
  · have hnone : ∀ f ∈ encoderFlags, f.text ∉ p.tokens := fun f hf =>
      text_notMem_of_videoCopy h (hvideo.2 hcopies) hf
    have htexts : ["-vf", "-preset", "-crf", "-qp", "-b:v", "-maxrate", "-bufsize"] =
        encoderFlags.map Flag.text := rfl
    rw [htexts]
    simpa only [List.mem_map, forall_exists_index, and_imp, forall_apply_eq_imp_iff₂] using hnone
  · rw [← hsound]
    exact toTokens_infix_iff h Directive.isExact_copy.2 rfl
  · have hrate : ¬ ∃ d ∈ p.directives, d.flag? = some .audioRate := fun ⟨d, hd, hf⟩ =>
      flag?_ne_audioRate h hk (hsound.2 hcopies) d hd hf
    rw [← hvideo, Bool.not_eq_true]
    exact (mem_tokens_iff (f := .audioRate) h).trans
      ((or_iff_right hrate).trans ((speed_text_mem_iff h .audioRate).trans (and_iff_right hk)))

/-- The first track of sound of the clip can be copied. -/
theorem copiesSound_sample {s : Settings} (hkeep : s.keepAudio = true)
    (htracks : s.audioTracks = ⟨.single, some 1⟩) (hk : s.container = .mp4)
    (htarget : s.audioCodec = .aac) : s.CopiesSound .sample := by
  have hchosen : s.chosenSound .sample =
      (Source.sample.ofKind .audio).filter (·.index ∈ [(1 : UInt64)]) := by
    rw [Settings.chosenSound, htracks]
    rfl
  refine ⟨hkeep, ?_, ?_, ?_⟩ <;> rw [hchosen]
  · exact List.ne_nil_of_length_pos (by decide)
  · rw [hk]
    decide
  · rw [Settings.effectiveAudioCodec, hk, htarget]
    decide

/-- So they do for a clip all of which is copied. -/
theorem copies_sample :
    let s := { Settings.default with
      keepVideo := true, keepAudio := true, audioTracks := ⟨.single, some 1⟩ }
    (s.container ≠ .gif ∧ (Source.sample.streams.map (·.index)).Nodup) ∧
      ∃ p, compile none s .sample = .ok p ∧ ["-c:v", "copy"] <:+: p.tokens ∧
        ["-c:a", "copy"] <:+: p.tokens ∧ "-b:a" ∉ p.tokens := by
  intro s
  have hk : s.container ≠ .gif := by decide
  have hindex : (Source.sample.streams.map (·.index)).Nodup := by decide
  obtain ⟨p, hp⟩ := exists_compile none s .sample (by decide +kernel) rfl rfl
  obtain ⟨hvideo, -, hsound, hrate⟩ := copies_iff hp hk hindex
  have hcopies : s.CopiesVideo .sample := by
    refine ⟨rfl, rfl, rfl, by decide +kernel, fun primary hprimary c hc => ?_⟩
    cases hprimary
    cases hc
    rfl
  have hheld : s.CopiesSound .sample := copiesSound_sample rfl rfl rfl rfl
  exact ⟨⟨hk, hindex⟩, p, hp, hvideo.2 hcopies, hsound.2 hheld, fun hmem =>
    ((hrate hheld).1 hmem).1 hcopies⟩

/-- But where video is encoded, the speed may be spelled like the rate of sound
    that is copied, and whoever reads the tokens finds one. -/
theorem has_rate_of_copied_sound :
    let s := { Settings.default with
      speed := some "-b:a", keepAudio := true, audioTracks := ⟨.single, some 1⟩ }
    ∃ p, compile none s .sample = .ok p ∧ ["-c:a", "copy"] <:+: p.tokens ∧ "-b:a" ∈ p.tokens ∧
      Directive.hasFlag (Directive.lex p.tokens) "-b:a" = true := by
  intro s
  have hk : s.container ≠ .gif := by decide
  have hindex : (Source.sample.streams.map (·.index)).Nodup := by decide
  obtain ⟨p, hp⟩ := exists_compile none s .sample (by decide +kernel) rfl rfl
  have hcopy : .audioCodec .copy ∈ p.directives :=
    (mem_audioCodec_copy_iff hp hk hindex).2 (copiesSound_sample rfl rfl rfl rfl)
  have hspeed : .speed Flag.audioRate.text ∈ p.directives :=
    (speed_text_mem_iff hp _).2 ⟨hk, videoCopy_eq_false hp rfl, rfl, rfl⟩
  have hlexed : .unknown ["-b:a"] ∈ Directive.lex p.tokens := by
    rw [tokens, Directive.lex_tokens (isSome_flag? hp), List.mem_flatMap]
    exact ⟨_, hspeed, by simp [Directive.toTokens, Directive.lex, Flag.text, Flag.named?]⟩
  exact ⟨p, hp, (toTokens_infix_iff hp Directive.isExact_copy.2 rfl).2 hcopy,
    (mem_tokens_iff (f := .audioRate) hp).2 (.inr hspeed),
    List.find?_isSome.2 ⟨_, hlexed, rfl⟩⟩

end Plan
end VideoExport
