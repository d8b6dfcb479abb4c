import VideoExport.Proofs.Plan.Admission

/-!
# What is admitted

Whoever carries out an export does not know where its tokens come from. So a
recipe is admitted only if what it asks for can be done with the source at
hand, and else everything that cannot be done is reported. What can be done is
said here of recipes and streams, without regard to how it is checked.

* `Recipe.Keeps`: the streams that a recipe takes along;
* `Recipe.IsAdmissible`: a recipe that can be carried out;
* `Recipe.Violates`, `Recipe.mem_objections_iff`: what is wrong with one that
  cannot, one by one;
* `Job.prepare_read_cases`: of any tokens, exactly the admissible ones become
  jobs, and of all others everything that is wrong is reported.
-/

namespace VideoExport

namespace Recipe

/-- Whether a stream of a source is taken along: the primary video is, and sound
    and subtitles are if they are asked for and can be passed through. -/
def Keeps (r : Recipe) (source : Source) (passthrough : Bool) (a : Stream) : Prop :=
  match a.kind with
  | .video => source.primary? = some a
  | .audio => r.allAudio = true ∨ a.index ∈ r.tracks
  | .subtitle => (r.allSubtitles = true ∨ a.index ∈ r.tracks) ∧ passthrough = true
  | .other => False

/-- A recipe that can be carried out on a source. -/
structure IsAdmissible (r : Recipe) (source : Source) (passthrough : Bool) : Prop where
  /-- A track that is asked for by its index is there, and is not video other
      than the primary. -/
  tracks : ∀ i ∈ r.tracks, ∃ a ∈ source.streams, a.index = i ∧
    (a.kind = .video → source.primary? = some a)
  /-- An animation is encoded as one and holds nothing but video. -/
  animation : r.container = .gif → r.video.codec = some animationEncoderName ∧
    r.video.copy = false ∧ ∀ a ∈ source.streams, r.Keeps source passthrough a → a.kind = .video
  /-- Other video is not encoded as an animation, and its container can hold it
      if its codec is known. -/
  video : r.container ≠ .gif → ∀ name, r.effectiveVideoCodec source = some name →
    name ≠ animationEncoderName ∧ ∀ c, VideoCodec.known? name = some c → c.fits r.container = true
  /-- The container can hold sound that is copied. -/
  audio : r.audio.copy = true → ∀ a ∈ source.streams, a.kind = .audio →
    r.Keeps source passthrough a → r.container.holdsAudio a.codec = true
  kept : ∃ a ∈ source.streams, r.Keeps source passthrough a

/-- What is wrong with a recipe for a source. -/
inductive Violates (r : Recipe) (source : Source) (passthrough : Bool) : Objection → Prop
  | unknownTrack {i : UInt64} (hi : i ∈ r.tracks) (hno : ∀ a ∈ source.streams, a.index ≠ i) :
    Violates r source passthrough (.unknownTrack i)
  | secondaryVideo {a : Stream} (ha : a ∈ source.streams) (hi : a.index ∈ r.tracks)
    (hkind : a.kind = .video) (hother : source.primary? ≠ some a) :
    Violates r source passthrough (.secondaryVideo a.index)
  | needsAnimationEncoder (hk : r.container = .gif)
    (hcodec : r.video.copy = true ∨ r.video.codec ≠ some animationEncoderName) :
    Violates r source passthrough
      (.needsAnimationEncoder (source.primary?.map (·.index)) r.container)
  | noPlace {a : Stream} (hk : r.container = .gif) (ha : a ∈ source.streams)
    (hkeeps : r.Keeps source passthrough a) (hkind : a.kind ≠ .video) :
    Violates r source passthrough (.noPlace a.index a.kind r.container)
  | animationEncoder (hk : r.container ≠ .gif)
    (hname : r.effectiveVideoCodec source = some animationEncoderName) :
    Violates r source passthrough (.animationEncoder r.container)
  | videoCodec {name : String} {c : VideoCodec} (hname : r.effectiveVideoCodec source = some name)
    (hc : VideoCodec.known? name = some c) (hfits : c.fits r.container = false) :
    Violates r source passthrough (.videoCodec (source.primary?.map (·.index)) c r.container)
  | audioCopy {a : Stream} (hcopy : r.audio.copy = true) (ha : a ∈ source.streams)
    (hkind : a.kind = .audio) (hkeeps : r.Keeps source passthrough a)
    (hheld : r.container.holdsAudio a.codec = false) :
    Violates r source passthrough (.audioCopy a.index a.codec r.container)
  | nothingKept (hno : ∀ a ∈ source.streams, ¬ r.Keeps source passthrough a) :
    Violates r source passthrough .nothingKept

variable {r : Recipe} {source : Source} {passthrough : Bool} {o : Objection}

/-! ## What is kept -/

/-- The primary video is told from other video by its index. -/
theorem map_index_primary?_iff (hindex : (source.streams.map (·.index)).Nodup) {a : Stream}
    (ha : a ∈ source.streams) :
    source.primary?.map (·.index) = some a.index ↔ source.primary? = some a := by
  constructor
  · intro h
    obtain ⟨primary, hprimary, he⟩ := Option.map_eq_some_iff.1 h
    have hmem := (Source.mem_ofKind.1 (Source.primary?_mem hprimary)).1
    rw [hprimary, Source.eq_of_index_eq hindex hmem ha he]
  · intro h
    rw [h, Option.map_some]

theorem keeps_verdict_iff (hindex : (source.streams.map (·.index)).Nodup) {a : Stream}
    (ha : a ∈ source.streams) :
    (r.verdict (source.primary?.map (·.index)) passthrough a).keeps = true ↔
      r.Keeps source passthrough a := by
  rw [verdict, Keeps]
  cases a.kind with
  | video =>
    simp only
    rw [← map_index_primary?_iff hindex ha]
    split
    case isTrue he => exact iff_of_true rfl he
    case isFalse he => exact iff_of_false Bool.false_ne_true he
  | audio => cases r.allAudio <;> by_cases hmem : a.index ∈ r.tracks <;> simp [hmem, Verdict.keeps]
  | subtitle =>
    cases r.allSubtitles <;> cases passthrough <;> by_cases hmem : a.index ∈ r.tracks <;>
      simp [hmem, Verdict.keeps]
  | other => exact iff_of_false Bool.false_ne_true id

/-- What holds of some decision to keep a stream holds of some stream that is
    taken along, and the other way round. -/
theorem exists_kept_iff (hindex : (source.streams.map (·.index)).Nodup)
    (p : UInt64 → MediaKind → String → Prop) :
    (∃ d ∈ r.decisions source passthrough, d.kept = true ∧ p d.index d.kind d.codec) ↔
      ∃ a ∈ source.streams, r.Keeps source passthrough a ∧ p a.index a.kind a.codec := by
  constructor
  · rintro ⟨d, hd, hkept, hp⟩
    obtain ⟨a, ha, rfl⟩ := List.mem_map.1 hd
    exact ⟨a, ha, (keeps_verdict_iff hindex ha).1 hkept, hp⟩
  · rintro ⟨a, ha, hkeeps, hp⟩
    exact ⟨_, List.mem_map_of_mem ha, (keeps_verdict_iff hindex ha).2 hkeeps, hp⟩

/-! ## What is wrong -/

theorem mem_trackObjections_iff (hindex : (source.streams.map (·.index)).Nodup) :
    o ∈ r.tracks.filterMap (trackObjection? source) ↔
      (∃ i ∈ r.tracks, (∀ a ∈ source.streams, a.index ≠ i) ∧ o = .unknownTrack i) ∨
        ∃ a ∈ source.streams, a.index ∈ r.tracks ∧ a.kind = .video ∧ source.primary? ≠ some a ∧
          o = .secondaryVideo a.index := by
  rw [List.mem_filterMap]
  constructor
  · rintro ⟨i, hi, ho⟩
    rw [trackObjection?] at ho
    cases hfind : source.stream? i with
    | none =>
      rw [hfind] at ho
      cases ho
      exact .inl ⟨i, hi, by simpa [Source.stream?] using hfind, rfl⟩
    | some a =>
      have ha : a ∈ source.streams := List.mem_of_find?_eq_some hfind
      have he : a.index = i := by simpa using List.find?_some hfind
      subst he
      rw [hfind] at ho
      simp only [Option.ite_none_right_eq_some, Option.some.injEq] at ho
      obtain ⟨⟨hkind, hother⟩, rfl⟩ := ho
      rw [Ne, map_index_primary?_iff hindex ha] at hother
      exact .inr ⟨a, ha, hi, hkind, hother, rfl⟩
  · rintro (⟨i, hi, hno, rfl⟩ | ⟨a, ha, hi, hkind, hother, rfl⟩)
    · have hfind : source.stream? i = none := by simpa [Source.stream?] using hno
      exact ⟨i, hi, by rw [trackObjection?, hfind]⟩
    · refine ⟨a.index, hi, ?_⟩
      rw [trackObjection?, Source.stream?_index hindex ha]
      exact if_pos ⟨hkind, mt (map_index_primary?_iff hindex ha).1 hother⟩

/-- The encoder of animations is not what the video goes by if it is a copy or is
    made by another encoder. -/
theorem copy_or_ne_iff (source : Source) :
    (r.video.copy || !(r.effectiveVideoCodec source == some animationEncoderName)) = true ↔
      r.video.copy = true ∨ r.video.codec ≠ some animationEncoderName := by
  unfold effectiveVideoCodec
  cases r.video.copy <;> simp

theorem mem_animationObjections_iff (hindex : (source.streams.map (·.index)).Nodup) :
    o ∈ r.animationObjections source (r.decisions source passthrough) ↔
      (r.container = .gif ∧
          (r.video.copy = true ∨ r.video.codec ≠ some animationEncoderName) ∧
          o = .needsAnimationEncoder (source.primary?.map (·.index)) r.container) ∨
        (r.container = .gif ∧ ∃ a ∈ source.streams, r.Keeps source passthrough a ∧
          a.kind ≠ .video ∧ o = .noPlace a.index a.kind r.container) ∨
        (r.container ≠ .gif ∧ r.effectiveVideoCodec source = some animationEncoderName ∧
          o = .animationEncoder r.container) := by
  rw [← exists_kept_iff hindex fun i kind _ => kind ≠ .video ∧ o = .noPlace i kind r.container]
  rw [← copy_or_ne_iff source, animationObjections]
  by_cases hk : r.container = .gif
  · rw [if_pos (Container.isAnimation_iff.2 hk), List.mem_append, List.mem_ite_nil_right,
      List.mem_singleton]
    simp only [List.mem_map, List.mem_filter, Bool.and_eq_true, bne_iff_ne]
    constructor
    · rintro (⟨hcodec, rfl⟩ | ⟨d, ⟨hd, hkept, hkind⟩, rfl⟩)
      · exact .inl ⟨hk, hcodec, rfl⟩
      · exact .inr (.inl ⟨hk, d, hd, hkept, hkind, rfl⟩)
    · rintro (⟨-, hcodec, rfl⟩ | ⟨-, d, hd, hkept, hkind, rfl⟩ | ⟨hno, -⟩)
      · exact .inl ⟨hcodec, rfl⟩
      · exact .inr ⟨d, ⟨hd, hkept, hkind⟩, rfl⟩
      · exact absurd hk hno
  · rw [if_neg (mt Container.isAnimation_iff.1 hk), List.mem_ite_nil_right, beq_iff_eq,
      List.mem_singleton]
    simp [hk]

theorem mem_videoObjections_iff :
    o ∈ r.videoObjections source ↔
      ∃ name c, r.effectiveVideoCodec source = some name ∧ VideoCodec.known? name = some c ∧
        c.fits r.container = false ∧
        o = .videoCodec (source.primary?.map (·.index)) c r.container := by
  rw [videoObjections]
  split
  case h_1 c hc =>
    obtain ⟨name, hname, hknown⟩ := Option.bind_eq_some_iff.1 hc
    rw [List.mem_ite_nil_left, List.mem_singleton, Bool.not_eq_true]
    constructor
    · rintro ⟨hfits, rfl⟩
      exact ⟨name, c, hname, hknown, hfits, rfl⟩
    · rintro ⟨name', c', hname', hknown', hfits, rfl⟩
      cases hname.symm.trans hname'
      cases hknown.symm.trans hknown'
      exact ⟨hfits, rfl⟩
  case h_2 hnone =>
    refine iff_of_false List.not_mem_nil ?_
    rintro ⟨name, c, hname, hknown, -⟩
    rw [hname, Option.bind_some, hknown] at hnone
    cases hnone

theorem mem_audioObjections_iff (hindex : (source.streams.map (·.index)).Nodup) :
    o ∈ r.audioObjections (r.decisions source passthrough) ↔
      r.audio.copy = true ∧ ∃ a ∈ source.streams, r.Keeps source passthrough a ∧
        a.kind = .audio ∧ r.container.holdsAudio a.codec = false ∧
        o = .audioCopy a.index a.codec r.container := by
  rw [← exists_kept_iff hindex fun i kind codec =>
    kind = .audio ∧ r.container.holdsAudio codec = false ∧ o = .audioCopy i codec r.container]
  rw [audioObjections, List.mem_ite_nil_right]
  refine and_congr_right fun _ => ?_
  simp only [List.mem_map, List.mem_filter, Bool.and_eq_true, beq_iff_eq, Bool.not_eq_true']
  refine exists_congr fun d => ?_
  constructor
  · rintro ⟨⟨hd, ⟨hkept, hkind⟩, hheld⟩, rfl⟩
    exact ⟨hd, hkept, hkind, hheld, rfl⟩
  · rintro ⟨hd, hkept, hkind, hheld, rfl⟩
    exact ⟨⟨hd, ⟨hkept, hkind⟩, hheld⟩, rfl⟩

theorem any_kept_iff (hindex : (source.streams.map (·.index)).Nodup) :
    (r.decisions source passthrough).any (·.kept) = true ↔
      ∃ a ∈ source.streams, r.Keeps source passthrough a := by
  rw [List.any_eq_true]
  simpa using exists_kept_iff hindex fun _ _ _ => True

/-- What a recipe is objected to for is what is wrong with it. -/
theorem mem_objections_iff (hindex : (source.streams.map (·.index)).Nodup) :
    o ∈ r.objections source (r.decisions source passthrough) ↔ r.Violates source passthrough o := by
  have hnothing : o ∈ (if (r.decisions source passthrough).any (·.kept) then []
      else [Objection.nothingKept]) ↔
        (∀ a ∈ source.streams, ¬ r.Keeps source passthrough a) ∧ o = .nothingKept := by
    rw [List.mem_ite_nil_left, any_kept_iff hindex, List.mem_singleton]
    simp
  simp only [objections, List.mem_append, mem_trackObjections_iff hindex,
    mem_animationObjections_iff hindex, mem_videoObjections_iff, mem_audioObjections_iff hindex,
    hnothing]
  constructor
  · rintro ((((htrack | hanimation) | hvideo) | haudio) | hnothing)
    · rcases htrack with ⟨i, hi, hno, rfl⟩ | ⟨a, ha, hi, hkind, hother, rfl⟩
      · exact .unknownTrack hi hno
      · exact .secondaryVideo ha hi hkind hother
    · rcases hanimation with ⟨hk, hcodec, rfl⟩ | ⟨hk, a, ha, hkeeps, hkind, rfl⟩ | ⟨hk, hname, rfl⟩
      · exact .needsAnimationEncoder hk hcodec
      · exact .noPlace hk ha hkeeps hkind
      · exact .animationEncoder hk hname
    · obtain ⟨name, c, hname, hc, hfits, rfl⟩ := hvideo
      exact .videoCodec hname hc hfits
    · obtain ⟨hcopy, a, ha, hkeeps, hkind, hheld, rfl⟩ := haudio
      exact .audioCopy hcopy ha hkind hkeeps hheld
    · obtain ⟨hno, rfl⟩ := hnothing
      exact .nothingKept hno
  · intro h
    cases h with
    | unknownTrack hi hno => exact .inl (.inl (.inl (.inl (.inl ⟨_, hi, hno, rfl⟩))))
    | secondaryVideo ha hi hkind hother =>
      exact .inl (.inl (.inl (.inl (.inr ⟨_, ha, hi, hkind, hother, rfl⟩))))
    | needsAnimationEncoder hk hcodec => exact .inl (.inl (.inl (.inr (.inl ⟨hk, hcodec, rfl⟩))))
    | noPlace hk ha hkeeps hkind =>
      exact .inl (.inl (.inl (.inr (.inr (.inl ⟨hk, _, ha, hkeeps, hkind, rfl⟩)))))
    | animationEncoder hk hname =>
      exact .inl (.inl (.inl (.inr (.inr (.inr ⟨hk, hname, rfl⟩)))))
    | videoCodec hname hc hfits => exact .inl (.inl (.inr ⟨_, _, hname, hc, hfits, rfl⟩))
    | audioCopy hcopy ha hkind hkeeps hheld =>
      exact .inl (.inr ⟨hcopy, _, ha, hkeeps, hkind, hheld, rfl⟩)
    | nothingKept hno => exact .inr ⟨hno, rfl⟩

/-- Nothing is wrong with an admissible recipe. -/
theorem IsAdmissible.not_violates (h : r.IsAdmissible source passthrough)
    (hindex : (source.streams.map (·.index)).Nodup) : ¬ r.Violates source passthrough o := by
  intro ho
  cases ho with
  | unknownTrack hi hno =>
    obtain ⟨a, ha, he, -⟩ := h.tracks _ hi
    exact hno a ha he
  | secondaryVideo ha hi hkind hother =>
    obtain ⟨b, hb, he, hprimary⟩ := h.tracks _ hi
    cases Source.eq_of_index_eq hindex hb ha he
    exact hother (hprimary hkind)
  | needsAnimationEncoder hk hcodec =>
    obtain ⟨hname, hcopy, -⟩ := h.animation hk
    rcases hcodec with hcopy' | hname'
    · exact Bool.false_ne_true (hcopy.symm.trans hcopy')
    · exact hname' hname
  | noPlace hk ha hkeeps hkind => exact hkind ((h.animation hk).2.2 _ ha hkeeps)
  | animationEncoder hk hname => exact (h.video hk _ hname).1 rfl
  | @videoCodec name c hname hc hfits =>
    by_cases hk : r.container = .gif
    -- The encoder of animations goes by a name that is not that of a codec.
    · obtain ⟨hcodec, hcopy, -⟩ := h.animation hk
      rw [effectiveVideoCodec, hcopy, hcodec] at hname
      cases hname
      rw [known?_animationEncoderName] at hc
      cases hc
    · exact Bool.false_ne_true (hfits.symm.trans ((h.video hk name hname).2 c hc))
  | audioCopy hcopy ha hkind hkeeps hheld =>
    exact Bool.false_ne_true (hheld.symm.trans (h.audio hcopy _ ha hkind hkeeps))
  | nothingKept hno =>
    obtain ⟨a, ha, hkeeps⟩ := h.kept
    exact hno a ha hkeeps

/-- A recipe that nothing is wrong with is admissible. -/
theorem isAdmissible_of_not_violates (h : ∀ o, ¬ r.Violates source passthrough o) :
    r.IsAdmissible source passthrough where
  tracks i hi := by
    by_contra! hno
    by_cases hknown : ∃ a ∈ source.streams, a.index = i
    · obtain ⟨a, ha, rfl⟩ := hknown
      obtain ⟨hkind, hother⟩ := hno a ha rfl
      exact h _ (.secondaryVideo ha hi hkind hother)
    · push Not at hknown
      exact h _ (.unknownTrack hi hknown)
  animation hk := by
    refine ⟨?_, ?_, fun a ha hkeeps => ?_⟩
    · by_contra hname
      exact h _ (.needsAnimationEncoder hk (.inr hname))
    · by_contra hcopy
      exact h _ (.needsAnimationEncoder hk (.inl (Bool.not_eq_false _ ▸ hcopy)))
    · by_contra hkind
      exact h _ (.noPlace hk ha hkeeps hkind)
  video hk name hname := by
    refine ⟨?_, fun c hc => ?_⟩
    · rintro rfl
      exact h _ (.animationEncoder hk hname)
    · by_contra hfits
      exact h _ (.videoCodec hname hc (Bool.eq_false_iff.2 hfits))
  audio hcopy a ha hkind hkeeps := by
    by_contra hheld
    exact h _ (.audioCopy hcopy ha hkind hkeeps (Bool.eq_false_iff.2 hheld))
  kept := by
    by_contra! hno
    exact h _ (.nothingKept hno)

/-- A recipe is objected to exactly if it is not admissible. -/
theorem objections_eq_nil_iff (hindex : (source.streams.map (·.index)).Nodup) :
    r.objections source (r.decisions source passthrough) = [] ↔
      r.IsAdmissible source passthrough := by
  rw [List.eq_nil_iff_forall_not_mem]
  constructor
  · exact fun h => isAdmissible_of_not_violates fun o ho => h o ((mem_objections_iff hindex).2 ho)
  · exact fun h o ho => h.not_violates hindex ((mem_objections_iff hindex).1 ho)

end Recipe

namespace Job

variable {r : Recipe} {source : Source} {passthrough : Bool}

/-- The tracks of a job are those that were decided on. -/
theorem tracks_of_prepare {id : UInt64} {input output : String} {hint : Option Float} {j : Job}
    (h : prepare passthrough id input output r source hint = .ok j) :
    j.tracks = r.decisions source passthrough := by
  rw [(prepare_eq_ok_iff.1 h).2]

/-- A recipe that is not admitted is reported with all that it is objected to for. -/
theorem prepare_eq_error {id : UInt64} {input output : String} {hint : Option Float}
    (h : r.objections source (r.decisions source passthrough) ≠ []) :
    prepare passthrough id input output r source hint =
      .error (.invalidPlan
        ((r.objections source (r.decisions source passthrough)).map Objection.issue)) := by
  rw [prepare]
  cases hfound : r.objections source (r.decisions source passthrough) with
  | nil => exact absurd hfound h
  | cons first rest => rfl

end Job

/-- Of the streams of video the first one has its index for itself. -/
theorem Source.filter_ofKind_video {source : Source}
    (hindex : (source.streams.map (·.index)).Nodup) :
    (source.ofKind .video).filter (fun a => source.primary?.map (·.index) = some a.index) =
      source.primary?.toList := by
  have hsub : ((source.ofKind .video).map (·.index)).Nodup :=
    hindex.sublist (List.filter_sublist.map _)
  rw [primary?]
  cases hvideo : source.ofKind .video with
  | nil => rfl
  | cons primary rest =>
    rw [hvideo, List.map_cons, List.nodup_cons] at hsub
    have hrest : ∀ a ∈ rest, ¬ primary.index = a.index :=
      fun a ha he => hsub.1 (he ▸ List.mem_map_of_mem ha)
    simpa using hrest

namespace Job

variable {r : Recipe} {source : Source} {passthrough : Bool}

/-- A job keeps the primary video and no other. -/
theorem index_keptTracks_video (hindex : (source.streams.map (·.index)).Nodup) {j : Job}
    (h : j.tracks = r.decisions source passthrough) :
    (j.keptTracks .video).map (·.index) = (source.primary?.map (·.index)).toList := by
  have hkept : ∀ a : Stream, ((r.verdict (source.primary?.map (·.index)) passthrough a).keeps &&
      a.kind == .video) = (decide (source.primary?.map (·.index) = some a.index) &&
        a.kind == .video) := by
    intro a
    rw [Recipe.verdict]
    cases hkind : a.kind with
    | video =>
      by_cases he : source.primary?.map (·.index) = some a.index <;> simp [he, Verdict.keeps]
    | audio | subtitle | other => exact (Bool.and_false _).trans (Bool.and_false _).symm
  have hfilter : (source.streams.filter fun a =>
      (r.verdict (source.primary?.map (·.index)) passthrough a).keeps && a.kind == .video) =
        source.primary?.toList := by
    rw [← Source.filter_ofKind_video hindex, Source.ofKind, List.filter_filter]
    exact List.filter_congr fun a _ => hkept a
  rw [keptTracks, h, Recipe.decisions, List.filter_map, List.map_map]
  cases hprimary : source.primary? <;> simp_all [Function.comp_def, TrackDecision.kept]

/-- Of any tokens exactly those that make an admissible recipe become a job. Of all
    others everything that is wrong with the recipe is reported, and nothing else.
    A job takes the primary video along, if there is one, and no other. -/
theorem prepare_read_cases (tokens : List String) (output : String) {source : Source}
    (hindex : (source.streams.map (·.index)).Nodup) (passthrough : Bool) (hint : Option Float)
    (id : UInt64) (input : String) :
    let r := Recipe.read tokens output
    let prepared := prepare passthrough id input output r source hint
    ((∃ j, prepared = .ok j) ↔ r.IsAdmissible source passthrough) ∧
      (¬ r.IsAdmissible source passthrough → ∃ issues, prepared = .error (.invalidPlan issues) ∧
        issues ≠ [] ∧
        ∀ i, i ∈ issues ↔ ∃ o, r.Violates source passthrough o ∧ o.issue = i) ∧
      ∀ j, prepared = .ok j →
        (j.keptTracks .video).map (·.index) = (source.primary?.map (·.index)).toList := by
  intro r prepared
  refine ⟨?_, fun hno => ?_, fun j hj => ?_⟩
  · rw [exists_prepare_iff, Recipe.objections_eq_nil_iff hindex]
  · rw [← Recipe.objections_eq_nil_iff hindex] at hno
    refine ⟨_, prepare_eq_error hno, mt List.map_eq_nil_iff.1 hno, fun i => ?_⟩
    simp only [List.mem_map, Recipe.mem_objections_iff hindex]
  · exact index_keptTracks_video hindex (tracks_of_prepare hj)

/-- Everything that is wrong with these tokens is reported: neither their encoder nor
    all the sound that they ask for goes into the container of their output. -/
theorem prepare_read_sample :
    let r := Recipe.read ["-map", "0:a?", "-c:a", "copy", "-c:v", "libvpx-vp9"] "clip.mov"
    (Source.sample.streams.map (·.index)).Nodup ∧ ¬ r.IsAdmissible .sample false ∧
      ∃ issues, prepare false 1 "clip.mkv" "clip.mov" r .sample none = .error (.invalidPlan issues) ∧
        ⟨some 0, "video codec vp9 is not allowed in mov"⟩ ∈ issues ∧
        ⟨some 2, "audio codec opus cannot be copied into mov"⟩ ∈ issues := by
  intro r
  have hindex : (Source.sample.streams.map (·.index)).Nodup := by decide
  have hcontainer : r.container = .mov := by decide +kernel
  have hvideo : r.Violates .sample false (.videoCodec (some 0) .vp9 .mov) :=
    hcontainer ▸ .videoCodec rfl (by decide +kernel) (by rw [hcontainer]; rfl)
  have haudio : r.Violates .sample false (.audioCopy 2 "opus" .mov) := by
    obtain ⟨a, ha, hi, hkind, hcodec⟩ :
        ∃ a ∈ Source.sample.streams, a.index = 2 ∧ a.kind = .audio ∧ a.codec = "opus" :=
      ⟨_, .tail _ (.tail _ (.head _)), rfl, rfl, rfl⟩
    have hkeeps : r.Keeps .sample false a := by
      rw [Recipe.Keeps, hkind]
      exact .inl rfl
    have hheld : r.container.holdsAudio a.codec = false := by
      rw [hcontainer, hcodec]
      decide +kernel
    rw [← hi, ← hcodec, ← hcontainer]
    exact .audioCopy rfl ha hkind hkeeps hheld
  have hno : ¬ r.IsAdmissible .sample false := fun h => h.not_violates hindex hvideo
  obtain ⟨issues, herror, -, hissues⟩ :=
    (prepare_read_cases ["-map", "0:a?", "-c:a", "copy", "-c:v", "libvpx-vp9"] "clip.mov" hindex false
      none 1 "clip.mkv").2.1 hno
  exact ⟨hindex, hno, issues, herror, (hissues _).2 ⟨_, hvideo, rfl⟩, (hissues _).2 ⟨_, haudio, rfl⟩⟩

end Job

end VideoExport
