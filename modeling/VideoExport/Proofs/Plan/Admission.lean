import VideoExport.Job.Basic
import VideoExport.Proofs.Plan.Decisions
import VideoExport.Proofs.Plan.Output

/-!
# Plans are admitted

A recipe is checked against its source by rules of its own, which know nothing
of how it was planned. They have no objection to what is read of the tokens of
a plan, with a single exception: video that is copied is taken for the work of
the encoder that its codec shares its name with.

* `Settings.CopiesAnimation`: the exception, in terms of settings and source;
* `Plan.objections_read`: the objections to a plan;
* `Plan.prepare_read_iff`: a plan is admitted, but for the exception.
-/

namespace VideoExport

/-- Whether an animation is to be copied into another container: nothing is to
    be encoded or filtered. -/
def Settings.CopiesAnimation (s : Settings) (source : Source) : Prop :=
  s.container ≠ .gif ∧ s.keepVideo = true ∧ s.filterParts s.chosenPreset? = [] ∧
    source.primary?.map (·.codec) = some Recipe.animationEncoderName

instance (s : Settings) (source : Source) : Decidable (s.CopiesAnimation source) :=
  inferInstanceAs (Decidable (_ ∧ _))

/-- A source with video of another codec. -/
def Source.withVideoCodec (source : Source) (codec : String) : Source :=
  { source with
    streams := source.streams.map fun a => if a.kind = .video then { a with codec } else a }

/-! ## Tracks -/

namespace Recipe

variable {r : Recipe} {source : Source} {o : OutputDescriptor}

/-- There is no objection to a track of sound or of subtitles. -/
theorem trackObjection?_eq_none (hindex : (source.streams.map (·.index)).Nodup)
    {kind : MediaKind} (hkind : kind ≠ .video) {i : UInt64}
    (hi : i ∈ (source.ofKind kind).map (·.index)) : trackObjection? source i = none := by
  obtain ⟨a, ha, rfl⟩ := List.mem_map.1 hi
  obtain ⟨ha, he⟩ := Source.mem_ofKind.1 ha
  rw [trackObjection?]
  rw [Source.stream?_index hindex ha]
  simp [he, hkind]

/-- Nor is there to any that is asked for by its index. -/
theorem AsksFor.filterMap_trackObjection? (h : r.AsksFor source o)
    (hindex : (source.streams.map (·.index)).Nodup) :
    r.tracks.filterMap (trackObjection? source) = [] := by
  rw [List.filterMap_eq_nil_iff]
  intro i hi
  rcases (h.mem_tracks i).1 hi with ⟨-, hi⟩ | ⟨-, hi⟩
  · exact trackObjection?_eq_none hindex (by decide) (h.audio_subset hi)
  · exact trackObjection?_eq_none hindex (by decide) (h.subtitle_subset hi)

/-- The primary video is kept. -/
theorem AsksFor.any_kept (h : r.AsksFor source o) (passthrough : Bool) :
    (r.decisions source passthrough).any (·.kept) = true := by
  obtain ⟨primary, hprimary, -⟩ := Option.map_eq_some_iff.1 h.primary
  obtain ⟨hmem, hkind⟩ := Source.mem_ofKind.1 (Source.primary?_mem hprimary)
  refine List.any_eq_true.2 ⟨_, List.mem_map_of_mem hmem, ?_⟩
  simp [TrackDecision.kept, verdict, hkind, hprimary, Verdict.keeps]

/-- A recipe is objected to for its video only, if its sound is in order. -/
theorem AsksFor.objections_eq (h : r.AsksFor source o)
    (hindex : (source.streams.map (·.index)).Nodup) (passthrough : Bool)
    (haudio : r.audio.copy = true → AllHeld source o.audioTracks r.container) :
    r.objections source (r.decisions source passthrough) =
      r.animationObjections source (r.decisions source passthrough) ++
        r.videoObjections source := by
  have hsound : r.audioObjections (r.decisions source passthrough) = [] := by
    rw [audioObjections]
    split
    case isFalse => rfl
    case isTrue hcopy =>
      rw [List.map_eq_nil_iff, List.filter_eq_nil_iff]
      intro d hd hbad
      simp only [Bool.and_eq_true, beq_iff_eq, Bool.not_eq_true'] at hbad
      -- What is kept of sound is in the output, and so it was found to fit when the
      -- copy was decided on.
      obtain ⟨⟨hkept, hkind⟩, hheld⟩ := hbad
      have htakes := (h.kept_iff_of_mem_decisions hindex d hd).1 hkept
      obtain ⟨a, ha, rfl⟩ := List.mem_map.1 hd
      simp only at hkind hheld htakes
      rw [hkind] at htakes
      have hmem : a ∈ o.audioTracks.filterMap source.stream? :=
        List.mem_filterMap.2 ⟨a.index, htakes, Source.stream?_index hindex ha⟩
      rw [haudio hcopy a hmem] at hheld
      cases hheld
  rw [objections]
  rw [h.filterMap_trackObjection? hindex, hsound, h.any_kept passthrough]
  simp

/-- The name of an animation's encoder is not that of a codec. -/
theorem known?_animationEncoderName : VideoCodec.known? animationEncoderName = none := by
  rfl

/-- A recipe for another container is objected to if its video goes by the name
    of the encoder of animations. -/
theorem objections_of_video {name : String} {ds : List TrackDecision}
    (hk : r.container ≠ .gif) (hname : r.effectiveVideoCodec source = some name)
    (hfits : ∀ c, VideoCodec.known? name = some c → c.fits r.container = true) :
    r.animationObjections source ds ++ r.videoObjections source =
      if name = animationEncoderName then [.animationEncoder r.container] else [] := by
  have hvideo : r.container.isAnimation = false :=
    Bool.eq_false_iff.2 (mt Container.isAnimation_iff.1 hk)
  have hcodec : r.videoObjections source = [] := by
    unfold videoObjections
    rw [hname, Option.bind_some]
    split
    case h_1 c hc => rw [if_pos (hfits c hc)]
    case h_2 => rfl
  rw [animationObjections]
  rw [hcodec, hname, hvideo, List.append_nil]
  simp

/-- A recipe for an animation that is made by the encoder of animations and
    takes nothing but video along is not objected to. -/
theorem objections_of_animation {ds : List TrackDecision} (hk : r.container = .gif)
    (hcopy : r.video.copy = false) (hcodec : r.video.codec = some animationEncoderName)
    (hkept : ∀ d ∈ ds, d.kept = true → d.kind = .video) :
    r.animationObjections source ds ++ r.videoObjections source = [] := by
  have hname : r.effectiveVideoCodec source = some animationEncoderName := by
    unfold effectiveVideoCodec
    rw [hcopy, hcodec]
    rfl
  have hnone : ds.filter (fun d => d.kept && d.kind != .video) = [] := by
    rw [List.filter_eq_nil_iff]
    intro d hd hbad
    simp only [Bool.and_eq_true, bne_iff_ne] at hbad
    exact hbad.2 (hkept d hd hbad.1)
  have hanimation : r.container.isAnimation = true := Container.isAnimation_iff.2 hk
  unfold animationObjections videoObjections
  rw [hname, hnone, hcopy, hanimation, Option.bind_some, known?_animationEncoderName]
  simp

end Recipe

/-! ## Plans -/

/-- A codec's encoder is known as the codec. -/
theorem VideoCodec.known?_encoder (c : VideoCodec) : known? c.encoder = some c := by
  cases c <;> rfl

theorem VideoCodec.encoder_ne (c : VideoCodec) : c.encoder ≠ Recipe.animationEncoderName := by
  cases c <;> decide

/-- A codec within a container fits it, unless that is an animation. -/
theorem VideoCodec.fits_within (c : VideoCodec) {k : Container} (hk : k ≠ .gif) :
    (c.within k).fits k = true := by
  unfold within
  split
  case isTrue h => exact h
  case isFalse =>
    exact fits_default (by cases hc : k <;> first | rfl | exact absurd hc hk)

/-- A recipe becomes a job exactly if there are no objections, and the job keeps all that it
    was made of. -/
theorem Job.prepare_eq_ok_iff {passthrough : Bool} {id : UInt64} {input output : String}
    {r : Recipe} {source : Source} {hint : Option Float} {j : Job} :
    prepare passthrough id input output r source hint = .ok j ↔
      r.objections source (r.decisions source passthrough) = [] ∧
        j = ⟨id, input, output, r, source, r.decisions source passthrough,
          durationFor hint r source, .pending⟩ := by
  unfold prepare
  simp only
  split
  case h_1 he => rw [Except.ok.injEq, eq_comm, and_iff_right he]
  case h_2 hne => exact iff_of_false (fun h => by cases h) fun h => hne h.1

/-- A job is prepared exactly if there are no objections. -/
theorem Job.exists_prepare_iff {passthrough : Bool} {id : UInt64} {input output : String}
    {r : Recipe} {source : Source} {hint : Option Float} :
    (∃ job, prepare passthrough id input output r source hint = .ok job) ↔
      r.objections source (r.decisions source passthrough) = [] := by
  simp [prepare_eq_ok_iff]

namespace Plan

variable {threads : Option UInt32} {s : Settings} {source : Source} {primary : Stream}
  {preset : Option Preset}

/-- The name by which the video of a plan goes. -/
theorem effectiveVideoCodec_recipeOfVideo (hprimary : source.primary? = some primary)
    (output : String) :
    (recipeOfVideo threads s source primary preset output).effectiveVideoCodec source =
      some (if (ofVideo threads s source primary preset).videoCopy then primary.codec
        else (s.encodedCodec preset).encoder) := by
  rw [Recipe.effectiveVideoCodec, recipeOfVideo]
  rw [hprimary]
  generalize (s.encodedCodec preset).follow (s.videoRequest preset).rateControl = rate
  cases (ofVideo threads s source primary preset).videoCopy with
  | true => rfl
  | false => cases rate <;> rfl

/-- The video of a plan fits into its container, as far as its codec is known. -/
theorem fits_of_known? (hk : s.container ≠ .gif) {c : VideoCodec}
    (hc : VideoCodec.known? (if (ofVideo threads s source primary preset).videoCopy
      then primary.codec else (s.encodedCodec preset).encoder) = some c) :
    c.fits s.container = true := by
  split at hc
  case isTrue hcopy =>
    exact (copyObstacle?_eq_none_iff.1 (videoCopy_ofVideo_iff.1 hcopy).2).2 c hc
  case isFalse =>
    rw [VideoCodec.known?_encoder] at hc
    cases hc
    exact VideoCodec.fits_within _ hk

/-- It goes by the name of the encoder of animations only if it is a copy. -/
theorem eq_animationEncoderName_iff (hprimary : source.primary? = some primary)
    (hk : s.container ≠ .gif) :
    (if (ofVideo threads s source primary s.chosenPreset?).videoCopy then primary.codec
        else (s.encodedCodec s.chosenPreset?).encoder) = Recipe.animationEncoderName ↔
      s.CopiesAnimation source := by
  rw [Settings.CopiesAnimation]
  rw [hprimary, Option.map_some, Option.some.injEq]
  split
  case isTrue hcopy =>
    obtain ⟨hkeep, hobstacle⟩ := videoCopy_ofVideo_iff.1 hcopy
    have hfilters := isSome_chain?.1 (copyObstacle?_eq_none_iff.1 hobstacle).1
    exact ⟨fun hname => ⟨hk, hkeep, hfilters, hname⟩, fun h => h.2.2.2⟩
  case isFalse hcopy =>
    refine iff_of_false (VideoCodec.encoder_ne _) ?_
    -- A codec that nobody knows is copied unless something is to be filtered.
    rintro ⟨-, hkeep, hfilters, hname⟩
    refine hcopy (videoCopy_ofVideo_iff.2 ⟨hkeep, copyObstacle?_eq_none_iff.2 ⟨?_, ?_⟩⟩)
    · exact isSome_chain?.2 hfilters
    · intro c hc
      rw [hname, Recipe.known?_animationEncoderName] at hc
      cases hc

/-- Sound that is copied can be held by the container. -/
theorem allHeld_of_copy {output : String}
    (h : (recipeOfVideo threads s source primary preset output).audio.copy = true) :
    AllHeld source (ofVideo threads s source primary preset).output.audioTracks s.container := by
  have hcopy : (s.audioChoice source (s.audioTracks.resolve source .audio)).copy = some true := by
    change (AudioRecipe.ofCopy _ _
      (s.audioChoice source (s.audioTracks.resolve source .audio)).copy).copy = true at h
    generalize (s.audioChoice source (s.audioTracks.resolve source .audio)).copy = copy at h ⊢
    match copy, h with
    | some true, _ => rfl
  rcases s.audioChoice_cases source (s.audioTracks.resolve source .audio) with
    ⟨-, hnone, -⟩ | ⟨-, hheld, -, -⟩ | ⟨-, hencoded, -⟩
  · rw [hnone] at hcopy
    cases hcopy
  · exact hheld
  · rw [hencoded] at hcopy
    cases hcopy

theorem objections_recipeOfVideo (hprimary : source.primary? = some primary)
    (hindex : (source.streams.map (·.index)).Nodup) (hk : s.container ≠ .gif) (passthrough : Bool) :
    let r := recipeOfVideo threads s source primary s.chosenPreset? (exportName source s.container)
    r.objections source (r.decisions source passthrough) =
      if s.CopiesAnimation source then [.animationEncoder s.container] else [] := by
  intro r
  have hcontainer : r.container = s.container := by
    simp only [r, recipeOfVideo]
    exact ofOutput_exportName source s.container
  have hasks : r.AsksFor source (ofVideo threads s source primary s.chosenPreset?).output :=
    asksFor_recipeOfVideo hprimary _
  rw [hasks.objections_eq hindex passthrough (by rw [hcontainer]; exact allHeld_of_copy),
    Recipe.objections_of_video (by rw [hcontainer]; exact hk)
      (effectiveVideoCodec_recipeOfVideo hprimary _)
      (by rw [hcontainer]; exact fun c => fits_of_known? hk), hcontainer]
  simp only [eq_animationEncoderName_iff hprimary hk]

theorem objections_recipeOfAnimation (hprimary : source.primary? = some primary)
    (hindex : (source.streams.map (·.index)).Nodup) (hk : s.container = .gif) (passthrough : Bool) :
    let r := recipeOfAnimation threads s preset (exportName source s.container)
    r.objections source (r.decisions source passthrough) = [] := by
  intro r
  have hcontainer : r.container = .gif := by
    simp only [r, recipeOfAnimation]
    rw [ofOutput_exportName, hk]
  have hasks : r.AsksFor source (ofAnimation threads s source primary preset).output :=
    asksFor_recipeOfAnimation hprimary _
  rw [hasks.objections_eq hindex passthrough fun h => absurd h Bool.false_ne_true]
  refine Recipe.objections_of_animation hcontainer rfl rfl fun d hd hkept => ?_
  have htakes := (hasks.kept_iff_of_mem_decisions hindex d hd).1 hkept
  cases hkind : d.kind with
  | video => rfl
  | audio =>
    rw [hkind] at htakes
    cases htakes
  | subtitle =>
    rw [hkind] at htakes
    cases htakes.2
  | other =>
    rw [hkind] at htakes
    exact htakes.elim

/-- There is a single thing to object to in what is read of a plan. -/
theorem objections_read {p : Plan} (h : compile threads s source = .ok p)
    (hindex : (source.streams.map (·.index)).Nodup) (passthrough : Bool) :
    (Recipe.read p.tokens p.output.fileName).objections source
        ((Recipe.read p.tokens p.output.fileName).decisions source passthrough) =
      if s.CopiesAnimation source then [.animationEncoder s.container] else [] := by
  have hcore : ∀ r : Recipe, r.objections source (r.decisions source passthrough) =
      r.core.objections source (r.core.decisions source passthrough) := fun _ => rfl
  obtain ⟨primary, hprimary, ⟨hk, hp, hread⟩ | ⟨hk, hp, hread⟩⟩ :=
    core_read_cases h p.output.fileName
  · rw [hcore, hread, if_neg fun hcopies => hcopies.1 hk, hp]
    exact objections_recipeOfAnimation hprimary hindex hk passthrough
  · rw [hcore, hread, hp]
    exact objections_recipeOfVideo hprimary hindex hk passthrough

/-- Plans are admitted, whether or not subtitles can be passed through, except
    for those that copy an animation into another container. -/
theorem prepare_read_iff {p : Plan} (h : compile threads s source = .ok p)
    (hindex : (source.streams.map (·.index)).Nodup) (passthrough : Bool) :
    let r := Recipe.read p.tokens p.output.fileName
    (r.objections source (r.decisions source passthrough) = [] ↔ ¬ s.CopiesAnimation source) ∧
      (s.CopiesAnimation source →
        r.objections source (r.decisions source passthrough) = [.animationEncoder s.container]) ∧
      ∀ id input output hint, (∃ job, Job.prepare passthrough id input output r source hint = .ok job) ↔
        ¬ s.CopiesAnimation source := by
  intro r
  have hobjections := objections_read h hindex passthrough
  have hiff : r.objections source (r.decisions source passthrough) = [] ↔
      ¬ s.CopiesAnimation source := by
    rw [hobjections]
    split
    case isTrue hcopies => exact iff_of_false (List.cons_ne_nil _ _) (not_not_intro hcopies)
    case isFalse hcopies => exact iff_of_true rfl hcopies
  refine ⟨hiff, fun hcopies => by rw [hobjections, if_pos hcopies], fun id input output hint => ?_⟩
  rw [Job.exists_prepare_iff, hiff]

/-- So it is for the settings to start with. -/
theorem prepare_read_default :
    (Source.sample.streams.map (·.index)).Nodup ∧
      ∃ p, compile none .default .sample = .ok p ∧
        ∃ job, Job.prepare false 0 "" "" (Recipe.read p.tokens p.output.fileName) .sample none =
          .ok job := by
  have hindex : (Source.sample.streams.map (·.index)).Nodup := by decide
  obtain ⟨p, hp⟩ := exists_compile none .default .sample rfl rfl rfl
  have hno : ¬ Settings.default.CopiesAnimation .sample := fun h => by cases h.2.1
  exact ⟨hindex, p, hp, ((prepare_read_iff hp hindex false).2.2 0 "" "" none).2 hno⟩

/-- But a plan that copies an animation is not admitted. -/
theorem not_admitted_animation :
    let s := { Settings.default with container := .mkv, keepVideo := true }
    let source := Source.sample.withVideoCodec "gif"
    (source.streams.map (·.index)).Nodup ∧
      ∃ p, compile (some 1) s source = .ok p ∧ ∀ passthrough,
        (Recipe.read p.tokens p.output.fileName).objections source
          ((Recipe.read p.tokens p.output.fileName).decisions source passthrough) =
            [.animationEncoder .mkv] := by
  intro s source
  have hindex : (source.streams.map (·.index)).Nodup := by decide
  obtain ⟨p, hp⟩ := exists_compile (some 1) s source (by decide) rfl rfl
  have hcopies : s.CopiesAnimation source := ⟨by decide, rfl, by decide, rfl⟩
  exact ⟨hindex, p, hp, fun passthrough => by
    rw [objections_read hp hindex passthrough, if_pos hcopies]⟩

end Plan

end VideoExport
