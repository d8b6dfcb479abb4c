import Mathlib.Tactic.Common
import VideoExport.Proofs.Text.Pieces
import VideoExport.Recipe.Basic

/-!
# Copied or encoded

A stream is copied or encoded, but never both. Directives may ask for both, in
any order and several times. All that matters is which ones there are: a single
one for which frames or samples have to be decoded rules out a copy, even one
that is asked for behind it.

* `FilterItem.Decodes`, `Directive.EncodesVideo`, `Directive.EncodesSound`: the
  expressions and directives that rule out a copy;
* `Treatment`, `Demand`: how a stream is treated, of either kind, and what a
  directive asks of it;
* `Recipe.IsDetermined`, `Recipe.isDetermined_ofDirectives`: what recipes copy
  and encode, by the directives they are made of.
-/

namespace VideoExport

open Text

/-! ## Filters -/

namespace FilterItem

/-- An expression for which frames have to be decoded: a change of size or of
    colours that can be read, or one that is neither. -/
def Decodes (e : String) : Prop :=
  (∃ args, after? "scale=" e = some args ∧ (box? args).isSome = true) ∨
    (∃ args, after? "eq=" e = some args ∧ (color? args).isSome = true) ∨
    after? "scale=" e = none ∧ after? "eq=" e = none

theorem needsFrames_single (e : String) : (single e).needsFrames = true ↔ Decodes e := by
  rw [single, Decodes]
  cases hscale : after? "scale=" e with
  | some args =>
    have heq : after? "eq=" e = none := by
      by_contra hne
      obtain ⟨_, heq⟩ := Option.ne_none_iff_exists'.1 hne
      rw [after?_eq_none_of_after? rfl rfl (by decide) heq] at hscale
      cases hscale
    cases hbox : box? args <;> simp [hbox, heq, needsFrames]
  | none =>
    cases heq : after? "eq=" e with
    | some args => cases hcolor : color? args <;> simp [hcolor, needsFrames]
    | none => simp [needsFrames]

/-- A change of size with its crop needs frames for itself already. -/
theorem decodes_of_pair? {e next : String} {item : FilterItem} (h : pair? e next = some item) :
    item.needsFrames = true ∧ Decodes e := by
  rw [pair?] at h
  split at h
  case h_1 box hbox =>
    obtain ⟨args, hargs, hbox⟩ := Option.bind_eq_some_iff.1 hbox
    obtain ⟨-, h⟩ := Option.ite_none_right_eq_some.1 h
    cases h
    exact ⟨rfl, .inl ⟨args, hargs, by rw [hbox]; rfl⟩⟩
  case h_2 => cases h

/-- Items need frames if one of their expressions has to be decoded. -/
theorem any_needsFrames_scan (l : List String) :
    (scan l).any needsFrames = true ↔ ∃ e ∈ l, Decodes e := by
  fun_induction scan l with
  | case1 => simp
  | case2 e => simp [needsFrames_single]
  | case3 e next rest item hpair ih =>
    obtain ⟨hneeds, hdecodes⟩ := decodes_of_pair? hpair
    rw [List.any_cons, hneeds, Bool.true_or]
    exact iff_of_true rfl ⟨e, List.mem_cons_self, hdecodes⟩
  | case4 e next rest hpair ih =>
    rw [List.any_cons, Bool.or_eq_true, needsFrames_single, ih]
    simp only [List.mem_cons, exists_eq_or_imp]

/-- An item that needs no frames has neither a box nor colours. -/
theorem eq_none_of_needsFrames {item : FilterItem} (h : item.needsFrames = false) :
    item.boxOf? = none ∧ item.colorOf? = none := by
  cases item <;> first | exact ⟨rfl, rfl⟩ | cases h

end FilterItem

namespace Filters

theorem append_nil (f : Filters) : f.append [] = f := by
  simp [append]

theorem append_append (f : Filters) (items items' : List FilterItem) :
    (f.append items).append items' = f.append (items ++ items') := by
  simp [append, Option.or_assoc]

/-- Items that need no frames change neither size nor colours. -/
theorem append_of_needsFrames {items : List FilterItem}
    (h : ∀ item ∈ items, item.needsFrames = false) (f : Filters) :
    (f.append items).resize = f.resize ∧ (f.append items).color = f.color := by
  have hbox : items.reverse.findSome? FilterItem.boxOf? = Option.none :=
    List.findSome?_eq_none_iff.2 fun item hitem =>
      (FilterItem.eq_none_of_needsFrames (h item (List.mem_reverse.1 hitem))).1
  have hcolor : items.reverse.findSome? FilterItem.colorOf? = Option.none :=
    List.findSome?_eq_none_iff.2 fun item hitem =>
      (FilterItem.eq_none_of_needsFrames (h item (List.mem_reverse.1 hitem))).2
  simp [append, hbox, hcolor]

end Filters

/-! ## Treatments -/

/-- How a stream is treated, of whatever kind. -/
structure Treatment where
  codec : Option String
  copy : Bool
  transcode : Bool
  kbps : Option UInt32

/-- What a directive asks of a stream: to be copied, or to be encoded by an
    encoder, at a rate, or for its frames. -/
inductive Demand
  | copy
  | encoder (name : String)
  | rate (kbps : UInt32)
  | frames

namespace Treatment

/-- Nothing is asked of a stream. -/
def empty : Treatment := ⟨none, false, false, none⟩

/-- A treatment with one more demand. -/
def meet (t : Treatment) : Demand → Treatment
  | .copy => { t with codec := none, copy := true }
  | .encoder name => { t with codec := some name, copy := false, transcode := true }
  | .rate kbps => { t with kbps := some kbps, transcode := true }
  | .frames => { t with transcode := true }

/-- Any demand but a copy is met by encoding, and nothing takes that back. -/
theorem transcode_foldl_meet (ms : List Demand) (t : Treatment) :
    (ms.foldl meet t).transcode = true ↔ t.transcode = true ∨ ∃ m ∈ ms, m ≠ .copy := by
  induction ms generalizing t with
  | nil => simp
  | cons m ms ih =>
    have hstep : (t.meet m).transcode = true ↔ t.transcode = true ∨ m ≠ .copy := by
      cases m <;> simp [meet]
    rw [List.foldl_cons, ih, hstep, or_assoc]
    simp only [List.mem_cons, exists_eq_or_imp]

/-- Where there are only copies to ask for, there is one or none. -/
theorem foldl_meet_of_copies {ms : List Demand} (h : ∀ m ∈ ms, m = .copy) :
    ms.foldl meet empty = { empty with copy := !ms.isEmpty } := by
  have hcopied : ∀ {ms : List Demand}, (∀ m ∈ ms, m = .copy) →
      ms.foldl meet { empty with copy := true } = { empty with copy := true } := by
    intro ms h
    induction ms with
    | nil => rfl
    | cons m ms ih =>
      rw [List.forall_mem_cons] at h
      rw [List.foldl_cons, h.1]
      exact ih h.2
  cases ms with
  | nil => rfl
  | cons m ms =>
    rw [List.forall_mem_cons] at h
    rw [List.foldl_cons, h.1]
    exact hcopied h.2

/-- A treatment that meets demands encodes if one of them asks for more than a
    copy; else it copies if a copy is asked for, and has nothing else to say. -/
theorem foldl_meet_empty (ms : List Demand) :
    ((ms.foldl meet empty).transcode = true ↔ ∃ m ∈ ms, m ≠ .copy) ∧
      ((ms.foldl meet empty).transcode = false →
        ((ms.foldl meet empty).copy = true ↔ .copy ∈ ms) ∧ (ms.foldl meet empty).codec = none ∧
          (ms.foldl meet empty).kbps = none) := by
  have htranscode : (ms.foldl meet empty).transcode = true ↔ ∃ m ∈ ms, m ≠ .copy := by
    rw [transcode_foldl_meet]
    exact or_iff_right Bool.false_ne_true
  refine ⟨htranscode, fun hfalse => ?_⟩
  have hcopies : ∀ m ∈ ms, m = .copy := by
    intro m hm
    by_contra hne
    rw [htranscode.2 ⟨m, hm, hne⟩] at hfalse
    cases hfalse
  rw [foldl_meet_of_copies hcopies]
  refine ⟨?_, rfl, rfl⟩
  cases ms with
  | nil => simp
  | cons m ms => simp [hcopies m List.mem_cons_self]

end Treatment

/-! ## Directives -/

namespace Directive

/-- A directive for which video has to be encoded: a codec by name, a rate, or a
    chain with an expression for which frames have to be decoded. -/
inductive EncodesVideo : Directive → Prop
  | codec {name} : EncodesVideo (.videoCodec (.named name))
  | rate {r} : EncodesVideo (.videoRate r)
  | filter {chain e} (he : e ∈ FilterItem.expressions chain) (hdecodes : FilterItem.Decodes e) :
      EncodesVideo (.videoFilter chain)

/-- A directive for which sound has to be encoded: a codec by name, or a rate. -/
inductive EncodesSound : Directive → Prop
  | codec {name} : EncodesSound (.audioCodec (.named name))
  | rate {r} : EncodesSound (.audioRate r)

/-- The filters that a directive asks for. -/
def filterItems : Directive → List FilterItem
  | videoFilter chain => FilterItem.ofChain chain
  | _ => []

/-- What a directive asks of video. -/
def videoDemand? : Directive → Option Demand
  | videoCodec .copy => some .copy
  | videoCodec (.named name) => some (.encoder name)
  | videoRate r => some (.rate r.kbps)
  | videoFilter chain => if (FilterItem.ofChain chain).any FilterItem.needsFrames then some .frames else none
  | _ => none

/-- What a directive asks of sound. -/
def soundDemand? : Directive → Option Demand
  | audioCodec .copy => some .copy
  | audioCodec (.named name) => some (.encoder name)
  | audioRate r => some (.rate r.kbps)
  | _ => none

theorem videoDemand?_eq_copy_iff {d : Directive} :
    d.videoDemand? = some .copy ↔ d = .videoCodec .copy := by
  cases d with
  | videoCodec c => cases c <;> simp [videoDemand?]
  | videoFilter chain => simp [videoDemand?]
  | _ => simp [videoDemand?]

theorem exists_videoDemand?_iff {d : Directive} :
    (∃ m, d.videoDemand? = some m ∧ m ≠ .copy) ↔ d.EncodesVideo := by
  constructor
  · rintro ⟨m, hm, hne⟩
    cases d with
    | videoCodec c =>
      cases c with
      | copy => exact absurd (Option.some.inj hm).symm hne
      | named name => exact .codec
    | videoRate r => exact .rate
    | videoFilter chain =>
      obtain ⟨hneeds, -⟩ := Option.ite_none_right_eq_some.1 hm
      obtain ⟨e, he, hdecodes⟩ := (FilterItem.any_needsFrames_scan _).1 hneeds
      exact .filter he hdecodes
    | _ => cases hm
  · rintro (_ | _ | ⟨he, hdecodes⟩)
    · exact ⟨_, rfl, nofun⟩
    · exact ⟨_, rfl, nofun⟩
    · exact ⟨_, if_pos ((FilterItem.any_needsFrames_scan _).2 ⟨_, he, hdecodes⟩), nofun⟩

theorem soundDemand?_eq_copy_iff {d : Directive} :
    d.soundDemand? = some .copy ↔ d = .audioCodec .copy := by
  cases d with
  | audioCodec c => cases c <;> simp [soundDemand?]
  | _ => simp [soundDemand?]

theorem exists_soundDemand?_iff {d : Directive} :
    (∃ m, d.soundDemand? = some m ∧ m ≠ .copy) ↔ d.EncodesSound := by
  constructor
  · rintro ⟨m, hm, hne⟩
    cases d with
    | audioCodec c =>
      cases c with
      | copy => exact absurd (Option.some.inj hm).symm hne
      | named name => exact .codec
    | audioRate r => exact .rate
    | _ => cases hm
  · rintro (_ | _) <;> exact ⟨_, rfl, nofun⟩

/-- Filters of a directive for which nothing has to be encoded need no frames. -/
theorem needsFrames_eq_false {d : Directive} (h : ¬ d.EncodesVideo) :
    ∀ item ∈ d.filterItems, item.needsFrames = false := by
  cases d with
  | videoFilter chain =>
    intro item hitem
    by_contra hneeds
    have hany : (FilterItem.ofChain chain).any FilterItem.needsFrames = true :=
      List.any_eq_true.2 ⟨item, hitem, Bool.not_eq_false _ ▸ hneeds⟩
    obtain ⟨e, he, hdecodes⟩ := (FilterItem.any_needsFrames_scan _).1 hany
    exact h (.filter he hdecodes)
  | _ => exact fun _ hitem => nomatch hitem

end Directive

namespace Recipe

/-! ## Recipes -/

/-- How a recipe treats video. -/
def videoTreatment (r : Recipe) : Treatment :=
  ⟨r.video.codec, r.video.copy, r.video.transcode, r.video.kbps⟩

/-- How a recipe treats sound. -/
def soundTreatment (r : Recipe) : Treatment :=
  ⟨r.audio.codec, r.audio.copy, r.audio.transcode, r.audio.kbps⟩

/-- A directive changes how video is treated by what it asks of that. -/
theorem videoTreatment_apply (r : Recipe) (d : Directive) :
    (r.apply d).videoTreatment = d.videoDemand?.toList.foldl Treatment.meet r.videoTreatment := by
  cases d with
  | videoCodec c => cases c <;> rfl
  | audioCodec c => cases c <;> rfl
  | map t => cases t <;> rfl
  | videoFilter chain =>
    rw [Directive.videoDemand?]
    cases hneeds : (FilterItem.ofChain chain).any FilterItem.needsFrames <;>
      simp [apply, withChain, videoTreatment, hneeds, Treatment.meet]
  | _ => rfl

theorem soundTreatment_apply (r : Recipe) (d : Directive) :
    (r.apply d).soundTreatment = d.soundDemand?.toList.foldl Treatment.meet r.soundTreatment := by
  cases d with
  | videoCodec c => cases c <;> rfl
  | audioCodec c => cases c <;> rfl
  | map t => cases t <;> rfl
  | _ => rfl

theorem filters_apply (r : Recipe) (d : Directive) :
    (r.apply d).filters = r.filters.append d.filterItems := by
  cases d with
  | videoCodec c => cases c <;> exact (Filters.append_nil _).symm
  | audioCodec c => cases c <;> exact (Filters.append_nil _).symm
  | map t => cases t <;> exact (Filters.append_nil _).symm
  | videoFilter chain => rfl
  | _ => exact (Filters.append_nil _).symm

/-- A part of a recipe that says how a stream is treated: a directive changes it
    by what it asks of the stream, which is a copy for one directive only. -/
structure Treats (part : Recipe → Treatment) (demand? : Directive → Option Demand)
    (copy : Directive) (Encodes : Directive → Prop) : Prop where
  apply : ∀ r d, part (r.apply d) = (demand? d).toList.foldl Treatment.meet (part r)
  copy_iff : ∀ {d}, demand? d = some .copy ↔ d = copy
  encodes_iff : ∀ {d}, (∃ m, demand? d = some m ∧ m ≠ .copy) ↔ Encodes d

theorem treats_video :
    Treats videoTreatment Directive.videoDemand? (.videoCodec .copy) Directive.EncodesVideo :=
  ⟨videoTreatment_apply, Directive.videoDemand?_eq_copy_iff, Directive.exists_videoDemand?_iff⟩

theorem treats_sound :
    Treats soundTreatment Directive.soundDemand? (.audioCodec .copy) Directive.EncodesSound :=
  ⟨soundTreatment_apply, Directive.soundDemand?_eq_copy_iff, Directive.exists_soundDemand?_iff⟩

namespace Treats

variable {part : Recipe → Treatment} {demand? : Directive → Option Demand} {copy : Directive}
  {Encodes : Directive → Prop}

/-- All that directives ask of a stream is met, one after the other. -/
theorem foldl (h : Treats part demand? copy Encodes) (ds : List Directive) (r : Recipe) :
    part (ds.foldl Recipe.apply r) = (ds.filterMap demand?).foldl Treatment.meet (part r) := by
  induction ds generalizing r with
  | nil => rfl
  | cons d ds ih =>
    rw [List.foldl_cons, ih, h.apply, List.filterMap_cons]
    cases demand? d <;> rfl

/-- So a stream is encoded if a directive asks for that, and else copied if one
    asks for a copy. -/
theorem determined (h : Treats part demand? copy Encodes) (ds : List Directive) {r : Recipe}
    (hr : part r = .empty) :
    ((part (ds.foldl Recipe.apply r)).transcode = true ↔ ∃ d ∈ ds, Encodes d) ∧
      ((part (ds.foldl Recipe.apply r)).transcode = false →
        ((part (ds.foldl Recipe.apply r)).copy = true ↔ copy ∈ ds) ∧
          (part (ds.foldl Recipe.apply r)).codec = none ∧
          (part (ds.foldl Recipe.apply r)).kbps = none) := by
  have hencodes : (∃ m ∈ ds.filterMap demand?, m ≠ .copy) ↔ ∃ d ∈ ds, Encodes d := by
    simp only [List.mem_filterMap, ← h.encodes_iff]
    exact ⟨fun ⟨m, ⟨d, hd, hm⟩, hne⟩ => ⟨d, hd, m, hm, hne⟩,
      fun ⟨d, hd, m, hm, hne⟩ => ⟨m, ⟨d, hd, hm⟩, hne⟩⟩
  have hcopy : .copy ∈ ds.filterMap demand? ↔ copy ∈ ds := by
    simp only [List.mem_filterMap, h.copy_iff, exists_eq_right]
  rw [h.foldl, hr, ← hencodes, ← hcopy]
  exact Treatment.foldl_meet_empty _

/-- Where nothing asks for it, a stream is not encoded. -/
theorem transcode_eq_false (h : Treats part demand? copy Encodes) {ds : List Directive}
    (hno : ∀ d ∈ ds, ¬ Encodes d) {r : Recipe} (hr : part r = .empty) :
    (part (ds.foldl Recipe.apply r)).transcode = false := by
  rw [Bool.eq_false_iff]
  intro htranscode
  obtain ⟨d, hd, hencodes⟩ := (h.determined ds hr).1.1 htranscode
  exact hno d hd hencodes

end Treats

theorem filters_foldl (ds : List Directive) (r : Recipe) :
    (ds.foldl apply r).filters = r.filters.append (ds.flatMap Directive.filterItems) := by
  induction ds generalizing r with
  | nil => exact (Filters.append_nil _).symm
  | cons d ds ih => rw [List.foldl_cons, ih, filters_apply, Filters.append_append, List.flatMap_cons]

/-- Where nothing has to be encoded, no size and no colours are changed. -/
theorem filters_foldl_of_not_encodes (ds : List Directive) (k : Container)
    (h : ∀ d ∈ ds, ¬ d.EncodesVideo) :
    (ds.foldl apply (empty k)).filters.resize = none ∧
      (ds.foldl apply (empty k)).filters.color = none := by
  rw [filters_foldl]
  refine Filters.append_of_needsFrames (fun item hitem => ?_) _
  obtain ⟨d, hd, hitem⟩ := List.mem_flatMap.1 hitem
  exact Directive.needsFrames_eq_false (h d hd) item hitem

/-- A quality drops the quantizer before it, and a quantizer the quality. -/
theorem rate_foldl (ds : List Directive) (r : Recipe) (h : r.video.qp = none ∨ r.video.crf = none) :
    (ds.foldl apply r).video.qp = none ∨ (ds.foldl apply r).video.crf = none := by
  induction ds generalizing r with
  | nil => exact h
  | cons d ds ih =>
    refine ih (r.apply d) ?_
    cases d with
    | videoCodec c => cases c <;> exact h
    | audioCodec c => cases c <;> exact h
    | map t => cases t <;> exact h
    | qp n => exact .inr rfl
    | crf n => exact .inl rfl
    | _ => exact h

/-- A recipe copies and encodes what the directives it is made of say. -/
structure IsDetermined (ds : List Directive) (r : Recipe) : Prop where
  video_transcode : r.video.transcode = true ↔ ∃ d ∈ ds, d.EncodesVideo
  video_copy : r.video.copy = true ↔ .videoCodec .copy ∈ ds ∧ r.video.transcode = false
  audio_transcode : r.audio.transcode = true ↔ ∃ d ∈ ds, d.EncodesSound
  audio_copy : r.audio.copy = true ↔ .audioCodec .copy ∈ ds ∧ r.audio.transcode = false
  rate : r.video.qp = none ∨ r.video.crf = none
  /-- What is copied has no encoder, no rate and no filters. -/
  video_copied : r.video.copy = true →
    r.video.codec = none ∧ r.video.kbps = none ∧ r.filters.resize = none ∧ r.filters.color = none
  audio_copied : r.audio.copy = true → r.audio.codec = none ∧ r.audio.kbps = none

/-- Which streams are copied and which ones are encoded follows from the
    directives that are there, in whatever order: nothing is both, and what is
    copied has nothing to be encoded with. -/
theorem isDetermined_ofDirectives (ds : List Directive) (output : String) :
    IsDetermined ds (ofDirectives ds output) := by
  obtain ⟨hvideo, hvideoCopied⟩ := treats_video.determined ds
    (rfl : videoTreatment (empty (Container.ofOutput output)) = .empty)
  obtain ⟨hsound, hsoundCopied⟩ := treats_sound.determined ds
    (rfl : soundTreatment (empty (Container.ofOutput output)) = .empty)
  have hfilters := filters_foldl_of_not_encodes ds (Container.ofOutput output)
  have hrate := rate_foldl ds (empty (Container.ofOutput output)) (.inl rfl)
  rw [ofDirectives]
  generalize ds.foldl apply (empty (Container.ofOutput output)) = r at *
  refine ⟨hvideo, ?_, hsound, ?_, hrate, fun hcopy => ?_, fun hcopy => ?_⟩
  · show (r.video.copy && !r.video.transcode) = true ↔ _ ∧ r.video.transcode = false
    rw [Bool.and_eq_true, Bool.not_eq_true']
    exact and_congr_left fun hfalse => (hvideoCopied hfalse).1
  · show (r.audio.copy && !r.audio.transcode) = true ↔ _ ∧ r.audio.transcode = false
    rw [Bool.and_eq_true, Bool.not_eq_true']
    exact and_congr_left fun hfalse => (hsoundCopied hfalse).1
  · have hfalse : r.video.transcode = false := by simpa using (Bool.and_eq_true_iff.1 hcopy).2
    have hencodes : ∀ d ∈ ds, ¬ d.EncodesVideo := fun d hd hencodes =>
      absurd (hvideo.2 ⟨d, hd, hencodes⟩) (Bool.eq_false_iff.1 hfalse)
    obtain ⟨-, hcodec, hkbps⟩ := hvideoCopied hfalse
    exact ⟨hcodec, hkbps, hfilters hencodes⟩
  · have hfalse : r.audio.transcode = false := by simpa using (Bool.and_eq_true_iff.1 hcopy).2
    exact (hsoundCopied hfalse).2

end Recipe

end VideoExport
