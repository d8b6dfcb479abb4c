import VideoExport.Proofs.Plan.Warnings

/-!
# The tracks that plans ask for

Tracks are asked for by targets, one in each directive for tracks. The primary
video comes first, then sound, and subtitles last: all of a kind at once, or one
after the other.

* `Plan.targets`: the targets of a plan, in order;
* `Plan.targets_ofVideo`, `Plan.targets_ofAnimation`: which these are;
* `Plan.nodup_targets`: none is there twice.
-/

namespace VideoExport

/-- The target of a directive for tracks. -/
def Directive.target? : Directive → Option MapTarget
  | map t => some t
  | _ => none

/-- The targets of a plan. -/
def Plan.targets (p : Plan) : List MapTarget := p.directives.filterMap (·.target?)

/-- The targets for tracks of a kind: all at once if they are all there are,
    else one by one. -/
def trackTargets (tracks : List UInt64) (wildcard : Bool) (all : MapTarget) : List MapTarget :=
  if tracks.isEmpty then []
  else if wildcard then [all]
  else tracks.map .track

namespace Settings

variable (s : Settings) (source : Source)

/-- The targets for the sound that settings choose. -/
def audioTargets : List MapTarget :=
  trackTargets (s.audioTracks.resolve source .audio).indices
    (s.audioTracks.resolve source .audio).wildcard .allAudio

/-- The targets for the subtitles that are kept of those that settings choose. -/
def subtitleTargets : List MapTarget :=
  trackTargets (s.subtitleChoice source).kept (s.subtitleChoice source).wildcard .allSubtitles

end Settings

section TrackTargets

variable {tracks : List UInt64} {wildcard : Bool} {all t : MapTarget}

theorem mem_trackTargets : t ∈ trackTargets tracks wildcard all ↔
    (wildcard = true ∧ tracks ≠ [] ∧ t = all) ∨
      (wildcard = false ∧ ∃ i ∈ tracks, t = .track i) := by
  rw [trackTargets]
  cases tracks with
  | nil => simp
  | cons i tracks => cases wildcard <;> simp [eq_comm]

/-- No target is there twice if no track is. -/
theorem nodup_trackTargets (h : tracks.Nodup) : (trackTargets tracks wildcard all).Nodup := by
  rw [trackTargets]
  split
  · exact List.nodup_nil
  · split
    · exact List.nodup_singleton all
    · exact h.map fun _ _ he => MapTarget.track.inj he

theorem filterMap_target?_mapTracks :
    (mapTracks tracks wildcard all).filterMap (·.target?) = trackTargets tracks wildcard all := by
  rw [mapTracks, trackTargets]
  split
  · rfl
  · split
    · rfl
    · rw [List.filterMap_map]
      show tracks.filterMap (some ∘ MapTarget.track) = _
      rw [List.filterMap_eq_map]

end TrackTargets

/-- The first directive for tracks has the first target. -/
theorem Directive.find?_map (ds : List Directive) :
    ds.find? (·.flag? == some .map) = (ds.filterMap (·.target?)).head?.map .map := by
  induction ds with
  | nil => rfl
  | cons d ds ih => cases d <;> first | rfl | exact ih

/-- Directives of other flags have no targets. -/
theorem Directive.filterMap_target?_eq_nil {ds : List Directive} (fs : List (Option Flag))
    (hmap : some .map ∉ fs) (h : ∀ d ∈ ds, d.flag? ∈ fs) : ds.filterMap (·.target?) = [] := by
  rw [List.filterMap_eq_nil_iff]
  intro d hd
  cases d with
  | map t => exact absurd (h _ hd) hmap
  | _ => rfl

namespace Plan

variable {threads : Option UInt32} {s : Settings} {source : Source} {primary : Stream}
  {preset : Option Preset}

theorem filterMap_target?_window (w : TrimWindow Float) :
    w.part.directives.filterMap (·.target?) = [] :=
  Directive.filterMap_target?_eq_nil windowFlags (by decide) fun _ => flag?_of_mem_window

theorem filterMap_target?_threads :
    (threadsDirective? threads).toList.filterMap (·.target?) = [] :=
  Directive.filterMap_target?_eq_nil [some .threads] (by decide)
    fun _ hd => List.mem_singleton.2 (flag?_of_mem_threads hd)

/-- The targets of an export with sound and subtitles, kind by kind. -/
theorem targets_ofVideo : (ofVideo threads s source primary preset).targets =
    .primaryVideo :: (s.audioTargets source ++ s.subtitleTargets source) := by
  have hvideo : (if (ofVideo threads s source primary preset).videoCopy then
      [Directive.videoCodec .copy] else s.encodeDirectives preset).filterMap (·.target?) = [] :=
    Directive.filterMap_target?_eq_nil videoFlags (by decide) fun _ => flag?_of_mem_video
  have haudio : (s.audioChoice source (s.audioTracks.resolve source .audio)).directives.filterMap
      (·.target?) = [] :=
    Directive.filterMap_target?_eq_nil [some .audioCodec, some .audioRate] (by decide)
      fun _ hd => List.mem_pair.2 (flag?_of_mem_audioChoice hd)
  have hsubtitle : ((s.subtitleChoice source).codec? source s.container).toList.filterMap
      (·.target?) = [] :=
    Directive.filterMap_target?_eq_nil [some .subtitleCodec] (by decide)
      fun _ hd => List.mem_singleton.2 (flag?_of_mem_subtitleCodec hd)
  rw [targets, directives_ofVideo, tailDirectives]
  simp only [List.filterMap_append, List.filterMap_cons, filterMap_target?_window, hvideo, haudio,
    hsubtitle, filterMap_target?_threads, filterMap_target?_mapTracks, List.nil_append]
  rfl

/-- An animation takes the primary video along and nothing else. -/
theorem targets_ofAnimation :
    (ofAnimation threads s source primary preset).targets = [.primaryVideo] := by
  rw [targets, directives_ofAnimation]
  simp only [List.filterMap_append, List.filterMap_cons, filterMap_target?_window,
    filterMap_target?_threads, List.nil_append]
  rfl

/-- What subtitles are kept are some of those that were chosen. -/
theorem kept_subset (s : Settings) (source : Source) :
    (s.subtitleChoice source).kept ⊆ (s.subtitleTracks.resolve source .subtitle).indices :=
  List.filter_subset_self _

theorem mem_audioTargets {t : MapTarget} (h : t ∈ s.audioTargets source) :
    t = .allAudio ∨ ∃ a ∈ source.ofKind .audio, t = .track a.index := by
  rcases mem_trackTargets.1 h with ⟨-, -, rfl⟩ | ⟨-, i, hi, rfl⟩
  · exact .inl rfl
  · obtain ⟨a, ha, rfl⟩ := List.mem_map.1 (s.audioTracks.resolve_indices_subset source .audio hi)
    exact .inr ⟨a, ha, rfl⟩

theorem mem_subtitleTargets {t : MapTarget} (h : t ∈ s.subtitleTargets source) :
    t = .allSubtitles ∨ ∃ a ∈ source.ofKind .subtitle, t = .track a.index := by
  rcases mem_trackTargets.1 h with ⟨-, -, rfl⟩ | ⟨-, i, hi, rfl⟩
  · exact .inl rfl
  · obtain ⟨a, ha, rfl⟩ := List.mem_map.1
      (s.subtitleTracks.resolve_indices_subset source .subtitle (kept_subset s source hi))
    exact .inr ⟨a, ha, rfl⟩

/-- No target of subtitles is one of sound: -/
theorem allSubtitles_notMem_audioTargets : .allSubtitles ∉ s.audioTargets source := by
  intro hmem
  rcases mem_audioTargets hmem with h | ⟨_, -, h⟩ <;> cases h

/-- no track is both. -/
theorem track_notMem_audioTargets (hindex : (source.streams.map (·.index)).Nodup) {a : Stream}
    (ha : a ∈ source.ofKind .subtitle) : .track a.index ∉ s.audioTargets source := by
  intro hmem
  obtain ⟨ha, hkind⟩ := Source.mem_ofKind.1 ha
  rcases mem_audioTargets hmem with h | ⟨b, hb, h⟩
  · cases h
  · have hsound : a.index ∈ (source.ofKind .audio).map (·.index) := by
      rw [MapTarget.track.inj h]
      exact List.mem_map_of_mem hb
    rw [Source.index_mem_ofKind hindex ha, hkind] at hsound
    cases hsound

/-- The targets of a plan are those of one kind after those of another. -/
theorem targets_cases {p : Plan} (h : compile threads s source = .ok p) :
    (s.container = .gif ∧ p.targets = [.primaryVideo]) ∨
      (s.container ≠ .gif ∧
        p.targets = .primaryVideo :: (s.audioTargets source ++ s.subtitleTargets source)) := by
  obtain ⟨primary, -, ⟨hk, rfl, -⟩ | ⟨hk, rfl, -⟩⟩ := core_read_cases h p.output.fileName
  · exact .inl ⟨hk, targets_ofAnimation⟩
  · exact .inr ⟨hk, targets_ofVideo⟩

/-- No target is there twice. -/
theorem nodup_targets {p : Plan} (h : compile threads s source = .ok p)
    (hindex : (source.streams.map (·.index)).Nodup) : p.targets.Nodup := by
  rcases targets_cases h with ⟨-, ht⟩ | ⟨-, ht⟩
  · rw [ht]
    exact List.nodup_singleton _
  have haudio : (s.audioTargets source).Nodup :=
    nodup_trackTargets (s.audioTracks.nodup_resolve hindex .audio)
  have hsubtitle : (s.subtitleTargets source).Nodup :=
    nodup_trackTargets ((s.subtitleTracks.nodup_resolve hindex .subtitle).filter _)
  have hdisjoint : (s.audioTargets source).Disjoint (s.subtitleTargets source) := by
    intro t hsound hmem
    rcases mem_subtitleTargets hmem with rfl | ⟨a, ha, rfl⟩
    · exact allSubtitles_notMem_audioTargets hsound
    · exact track_notMem_audioTargets hindex ha hsound
  rw [ht, List.nodup_cons, List.mem_append, not_or]
  refine ⟨⟨fun hmem => ?_, fun hmem => ?_⟩, haudio.append hsubtitle hdisjoint⟩
  · rcases mem_audioTargets hmem with h | ⟨_, -, h⟩ <;> cases h
  · rcases mem_subtitleTargets hmem with h | ⟨_, -, h⟩ <;> cases h

end Plan

end VideoExport
