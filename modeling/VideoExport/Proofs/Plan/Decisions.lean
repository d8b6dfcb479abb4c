import VideoExport.Job.Decision
import VideoExport.Proofs.Plan.Recipe

/-!
# Tracks on both sides

Which tracks an export takes along is decided twice: when its plan is made, and
when a recipe is resolved against the streams of the source. Both come to the
same tracks, although all tracks of a kind may be asked for at once, and those
that are asked for one by one are in one list, whatever their kind.

* `Recipe.AsksFor`: what a recipe asks for, in terms of a plan's output;
* `Plan.asksFor_read`: the tokens of a plan ask for what its output says;
* `OutputDescriptor.Resolves`, `Plan.resolves_decisions`: what is kept of the
  streams of a source.
-/

namespace VideoExport

/-! ## What is asked for -/

/-- A recipe asks for the tracks of an output: for all tracks of a kind only if
    the output has them all, and else for each one that it has. -/
structure Recipe.AsksFor (r : Recipe) (source : Source) (o : OutputDescriptor) : Prop where
  primary : source.primary?.map (·.index) = some o.videoTrack
  audio_subset : o.audioTracks ⊆ (source.ofKind .audio).map (·.index)
  subtitle_subset : o.subtitleTracks ⊆ (source.ofKind .subtitle).map (·.index)
  allAudio : r.allAudio = true → o.audioTracks = (source.ofKind .audio).map (·.index)
  allSubtitles : r.allSubtitles = true → o.subtitleTracks = (source.ofKind .subtitle).map (·.index)
  mem_tracks : ∀ i, i ∈ r.tracks ↔
    (r.allAudio = false ∧ i ∈ o.audioTracks) ∨ (r.allSubtitles = false ∧ i ∈ o.subtitleTracks)

theorem Recipe.AsksFor.of_core {r : Recipe} {source : Source} {o : OutputDescriptor}
    (h : r.core.AsksFor source o) : r.AsksFor source o where
  primary := h.primary
  audio_subset := h.audio_subset
  subtitle_subset := h.subtitle_subset
  allAudio := h.allAudio
  allSubtitles := h.allSubtitles
  mem_tracks := h.mem_tracks

namespace Plan

variable {threads : Option UInt32} {s : Settings} {source : Source} {primary : Stream}
  {preset : Option Preset}

theorem asksFor_recipeOfVideo (hprimary : source.primary? = some primary) (output : String) :
    (recipeOfVideo threads s source primary preset output).AsksFor source
      (ofVideo threads s source primary preset).output where
  primary := by rw [hprimary]; rfl
  audio_subset := s.audioTracks.resolve_indices_subset source .audio
  subtitle_subset :=
    List.Subset.trans (List.filter_subset_self _)
      (s.subtitleTracks.resolve_indices_subset source .subtitle)
  allAudio := by
    intro h
    obtain ⟨hwild, -⟩ := Bool.and_eq_true_iff.1 h
    exact Selection.indices_resolve_all ((Selection.wildcard_resolve _ _ _).1 hwild) source .audio
  allSubtitles := by
    intro h
    obtain ⟨hwild, -⟩ := Bool.and_eq_true_iff.1 h
    exact ((s.wildcard_subtitleChoice source).1 hwild).2
  mem_tracks := fun _ => mem_tracks_recipeOfVideo

theorem asksFor_recipeOfAnimation (hprimary : source.primary? = some primary) (output : String) :
    (recipeOfAnimation threads s preset output).AsksFor source
      (ofAnimation threads s source primary preset).output where
  primary := by rw [hprimary]; rfl
  audio_subset := List.nil_subset _
  subtitle_subset := List.nil_subset _
  allAudio := fun h => absurd h Bool.false_ne_true
  allSubtitles := fun h => absurd h Bool.false_ne_true
  mem_tracks := fun i => by simp [recipeOfAnimation, ofAnimation, OutputDescriptor.ofTracks]

/-- What is read of the tokens of a plan asks for the tracks of its output. -/
theorem asksFor_read {p : Plan} (h : compile threads s source = .ok p) (output : String) :
    (Recipe.read p.tokens output).AsksFor source p.output := by
  obtain ⟨primary, hprimary, ⟨-, rfl, hread⟩ | ⟨-, rfl, hread⟩⟩ := core_read_cases h output
  · refine Recipe.AsksFor.of_core ?_
    rw [hread]
    exact asksFor_recipeOfAnimation hprimary output
  · refine Recipe.AsksFor.of_core ?_
    rw [hread]
    exact asksFor_recipeOfVideo hprimary output

end Plan

/-! ## What is kept -/

/-- The tracks of an output, of any kind. -/
def OutputDescriptor.tracks (o : OutputDescriptor) : List UInt64 :=
  o.videoTrack :: (o.audioTracks ++ o.subtitleTracks)

/-- Whether an output takes a track of a kind along, by whether subtitles can be
    passed through. -/
def OutputDescriptor.Takes (o : OutputDescriptor) (passthrough : Bool) (i : UInt64) :
    MediaKind → Prop
  | .video => i = o.videoTrack
  | .audio => i ∈ o.audioTracks
  | .subtitle => passthrough = true ∧ i ∈ o.subtitleTracks
  | .other => False

/-- Streams of different indices are told apart by these. -/
theorem Source.eq_of_index_eq {source : Source} (hindex : (source.streams.map (·.index)).Nodup)
    {a b : Stream} (ha : a ∈ source.streams) (hb : b ∈ source.streams) (h : a.index = b.index) :
    a = b :=
  List.inj_on_of_nodup_map hindex ha hb h

/-- And so each one is found by its own. -/
theorem Source.stream?_index {source : Source} (hindex : (source.streams.map (·.index)).Nodup)
    {a : Stream} (ha : a ∈ source.streams) : source.stream? a.index = some a := by
  cases hfind : source.stream? a.index with
  | none =>
    have := List.find?_eq_none.1 hfind a ha
    simp at this
  | some b =>
    have he : b.index = a.index := by simpa using List.find?_some hfind
    rw [eq_of_index_eq hindex (List.mem_of_find?_eq_some hfind) ha he]

theorem Source.mem_ofKind {source : Source} {kind : MediaKind} {a : Stream} :
    a ∈ source.ofKind kind ↔ a ∈ source.streams ∧ a.kind = kind := by
  simp [ofKind]

theorem Source.primary?_mem {source : Source} {primary : Stream}
    (h : source.primary? = some primary) : primary ∈ source.ofKind .video :=
  List.mem_of_mem_head? h

/-- The index of a stream is one of a kind exactly if the stream is. -/
theorem Source.index_mem_ofKind {source : Source}
    (hindex : (source.streams.map (·.index)).Nodup) {a : Stream} (ha : a ∈ source.streams)
    {kind : MediaKind} : a.index ∈ (source.ofKind kind).map (·.index) ↔ a.kind = kind := by
  constructor
  · intro h
    obtain ⟨b, hb, he⟩ := List.mem_map.1 h
    obtain ⟨hb, hkind⟩ := mem_ofKind.1 hb
    rw [← eq_of_index_eq hindex hb ha he]
    exact hkind
  · intro h
    exact List.mem_map_of_mem (mem_ofKind.2 ⟨ha, h⟩)

namespace Recipe.AsksFor

variable {r : Recipe} {source : Source} {o : OutputDescriptor} {a : Stream}

/-- Sound is asked for by kind or by index exactly if the output has it. An
    index of subtitles cannot be taken for one of sound. -/
theorem audio_iff (h : r.AsksFor source o) (hindex : (source.streams.map (·.index)).Nodup)
    (ha : a ∈ source.streams) (hkind : a.kind = .audio) :
    r.allAudio = true ∨ a.index ∈ r.tracks ↔ a.index ∈ o.audioTracks := by
  rw [h.mem_tracks]
  cases hall : r.allAudio with
  | true =>
    -- All sound is asked for at once, which it is only if the output has it all.
    have hmem : a.index ∈ o.audioTracks := by
      rw [h.allAudio hall]
      exact (Source.index_mem_ofKind hindex ha).2 hkind
    exact iff_of_true (.inl rfl) hmem
  | false =>
    have hother : a.index ∉ o.subtitleTracks := by
      intro hmem
      have := (Source.index_mem_ofKind hindex ha).1 (h.subtitle_subset hmem)
      rw [hkind] at this
      cases this
    simp [hother]

/-- And so are subtitles. -/
theorem subtitle_iff (h : r.AsksFor source o) (hindex : (source.streams.map (·.index)).Nodup)
    (ha : a ∈ source.streams) (hkind : a.kind = .subtitle) :
    r.allSubtitles = true ∨ a.index ∈ r.tracks ↔ a.index ∈ o.subtitleTracks := by
  rw [h.mem_tracks]
  cases hall : r.allSubtitles with
  | true =>
    have hmem : a.index ∈ o.subtitleTracks := by
      rw [h.allSubtitles hall]
      exact (Source.index_mem_ofKind hindex ha).2 hkind
    exact iff_of_true (.inl rfl) hmem
  | false =>
    have hother : a.index ∉ o.audioTracks := by
      intro hmem
      have := (Source.index_mem_ofKind hindex ha).1 (h.audio_subset hmem)
      rw [hkind] at this
      cases this
    simp [hother]

/-- A stream is kept exactly if the output takes it along. -/
theorem keeps_verdict (h : r.AsksFor source o) (hindex : (source.streams.map (·.index)).Nodup)
    (ha : a ∈ source.streams) (passthrough : Bool) :
    (r.verdict (some o.videoTrack) passthrough a).keeps = true ↔
      o.Takes passthrough a.index a.kind := by
  rw [verdict]
  cases hkind : a.kind with
  | video =>
    simp only [Option.some.injEq]
    split
    case isTrue he => exact iff_of_true rfl he.symm
    case isFalse he => exact iff_of_false Bool.false_ne_true (Ne.symm he)
  | audio =>
    show _ ↔ a.index ∈ o.audioTracks
    rw [← h.audio_iff hindex ha hkind]
    cases r.allAudio <;> by_cases hmem : a.index ∈ r.tracks <;> simp [hmem, Verdict.keeps]
  | subtitle =>
    show _ ↔ passthrough = true ∧ a.index ∈ o.subtitleTracks
    rw [← h.subtitle_iff hindex ha hkind]
    cases r.allSubtitles <;> cases passthrough <;> by_cases hmem : a.index ∈ r.tracks <;>
      simp [hmem, Verdict.keeps]
  | other => exact iff_of_false Bool.false_ne_true id

end Recipe.AsksFor

/-! ## Decisions -/

/-- Decisions on the streams of a source come to what an output says. -/
structure OutputDescriptor.Resolves (o : OutputDescriptor) (source : Source) (passthrough : Bool)
    (ds : List TrackDecision) : Prop where
  /-- There is one decision for every stream, in their order. -/
  streams : ds.map (fun d => (d.index, d.kind, d.codec)) =
    source.streams.map fun a => (a.index, a.kind, a.codec)
  kept_iff : ∀ d ∈ ds, d.kept = true ↔ o.Takes passthrough d.index d.kind
  /-- Each track of the output is kept, but subtitles only if they can be
      passed through, and nothing else is. -/
  mem_kept : ∀ i, i ∈ (ds.filter (·.kept)).map (·.index) ↔
    i ∈ o.tracks ∧ (passthrough = false → i ∉ o.subtitleTracks)

namespace Recipe.AsksFor

variable {r : Recipe} {source : Source} {o : OutputDescriptor}

theorem kept_iff_of_mem_decisions (h : r.AsksFor source o)
    (hindex : (source.streams.map (·.index)).Nodup) {passthrough : Bool} :
    ∀ d ∈ r.decisions source passthrough, d.kept = true ↔ o.Takes passthrough d.index d.kind := by
  intro d hd
  obtain ⟨a, ha, rfl⟩ := List.mem_map.1 hd
  rw [h.primary]
  exact h.keeps_verdict hindex ha passthrough

/-- An index is that of a track to take along exactly if the output has it,
    unless it is one of subtitles that cannot be passed through. -/
theorem exists_takes_iff (h : r.AsksFor source o) (hindex : (source.streams.map (·.index)).Nodup)
    (passthrough : Bool) (i : UInt64) :
    (∃ a ∈ source.streams, a.index = i ∧ o.Takes passthrough i a.kind) ↔
      i ∈ o.tracks ∧ (passthrough = false → i ∉ o.subtitleTracks) := by
  have hsubtitle : ∀ a ∈ source.streams, a.index ∈ o.subtitleTracks → a.kind = .subtitle :=
    fun a ha hmem => (Source.index_mem_ofKind hindex ha).1 (h.subtitle_subset hmem)
  have hexists : ∀ kind, i ∈ (source.ofKind kind).map (·.index) →
      ∃ a ∈ source.streams, a.index = i ∧ a.kind = kind := by
    intro kind hi
    obtain ⟨a, ha, he⟩ := List.mem_map.1 hi
    obtain ⟨ha, hkind⟩ := Source.mem_ofKind.1 ha
    exact ⟨a, ha, he, hkind⟩
  rw [OutputDescriptor.tracks]
  rw [List.mem_cons, List.mem_append]
  constructor
  -- The kind of the stream tells which of the lists its index is in.
  · rintro ⟨a, ha, rfl, htakes⟩
    cases hkind : a.kind with
    | video =>
      rw [hkind] at htakes
      exact ⟨.inl htakes, fun _ hmem => by cases hkind.symm.trans (hsubtitle a ha hmem)⟩
    | audio =>
      rw [hkind] at htakes
      exact ⟨.inr (.inl htakes), fun _ hmem => by cases hkind.symm.trans (hsubtitle a ha hmem)⟩
    | subtitle =>
      rw [hkind] at htakes
      exact ⟨.inr (.inr htakes.2), fun hno => by rw [htakes.1] at hno; cases hno⟩
    | other =>
      rw [hkind] at htakes
      exact htakes.elim
  -- An index of the output is that of a stream, whose kind follows from the list.
  · rintro ⟨hi | hi | hi, hno⟩
    · obtain ⟨primary, hprimary, he⟩ := Option.map_eq_some_iff.1 h.primary
      obtain ⟨hmem, hkind⟩ := Source.mem_ofKind.1 (Source.primary?_mem hprimary)
      exact ⟨primary, hmem, he.trans hi.symm, by rw [hkind]; exact hi⟩
    · obtain ⟨a, ha, he, hkind⟩ := hexists .audio (h.audio_subset hi)
      exact ⟨a, ha, he, by rw [hkind]; exact hi⟩
    · obtain ⟨a, ha, he, hkind⟩ := hexists .subtitle (h.subtitle_subset hi)
      have hpass : passthrough = true := by
        by_contra hpass
        exact hno (Bool.not_eq_true _ ▸ hpass) hi
      exact ⟨a, ha, he, by rw [hkind]; exact ⟨hpass, hi⟩⟩

/-- Decisions of a recipe that asks for the tracks of an output come to these. -/
theorem resolves (h : r.AsksFor source o) (hindex : (source.streams.map (·.index)).Nodup)
    (passthrough : Bool) : o.Resolves source passthrough (r.decisions source passthrough) where
  streams := by
    rw [decisions]
    rw [List.map_map]
    rfl
  kept_iff := h.kept_iff_of_mem_decisions hindex
  mem_kept := by
    intro i
    rw [← h.exists_takes_iff hindex passthrough i, List.mem_map]
    constructor
    · rintro ⟨d, hd, rfl⟩
      obtain ⟨hd, hkept⟩ := List.mem_filter.1 hd
      have htakes := (h.kept_iff_of_mem_decisions hindex d hd).1 hkept
      obtain ⟨a, ha, rfl⟩ := List.mem_map.1 hd
      exact ⟨a, ha, rfl, htakes⟩
    · rintro ⟨a, ha, rfl, htakes⟩
      have hd := List.mem_map_of_mem (f := fun a => (⟨a.index, a.kind, a.codec,
        r.verdict (source.primary?.map (·.index)) passthrough a⟩ : TrackDecision)) ha
      have hkept := (h.kept_iff_of_mem_decisions hindex _ hd).2 htakes
      exact ⟨_, List.mem_filter.2 ⟨hd, hkept⟩, rfl⟩

end Recipe.AsksFor

namespace Plan

variable {threads : Option UInt32} {s : Settings} {source : Source}

/-- Of the streams of a source exactly those are kept that the output of its
    plan has, as far as subtitles can be passed through. -/
theorem resolves_decisions {p : Plan} (h : compile threads s source = .ok p)
    (hindex : (source.streams.map (·.index)).Nodup) (passthrough : Bool) :
    p.output.Resolves source passthrough
      ((Recipe.read p.tokens p.output.fileName).decisions source passthrough) :=
  (asksFor_read h p.output.fileName).resolves hindex passthrough

/-- So it is for a source with two tracks of sound. -/
theorem resolves_decisions_sample :
    (Source.sample.streams.map (·.index)).Nodup ∧
      ∃ p, compile none .default .sample = .ok p ∧
        p.output.Resolves .sample false
          ((Recipe.read p.tokens p.output.fileName).decisions .sample false) := by
  have hindex : (Source.sample.streams.map (·.index)).Nodup := by decide
  obtain ⟨p, hp⟩ := exists_compile none .default .sample rfl rfl rfl
  exact ⟨hindex, p, hp, resolves_decisions hp hindex false⟩

end Plan

end VideoExport
