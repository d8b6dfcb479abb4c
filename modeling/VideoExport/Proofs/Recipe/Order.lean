import VideoExport.Proofs.Recipe.Last
import VideoExport.Proofs.Recipe.Leftover

/-!
# Directives in any order

A directive says by itself what it is about, so directives that say nothing twice
may come in any order, and targets as often as one likes: the recipe is the same,
up to the order of what is put aside.

* `Recipe.apply_comm`, `Recipe.apply_map_comm`: two directives change places, unless
  one takes the place of the other;
* `Recipe.foldl_again`: a target that was asked for may be asked for again;
* `Directive.SaysOnce`: directives of which none takes the place of another;
* `Recipe.ofDirectives_perm`: their recipe, in any order.
-/

namespace VideoExport

namespace Recipe

/-! ## Tracks -/

theorem insertTrack_comm (i j : UInt64) (l : List UInt64) :
    insertTrack i (insertTrack j l) = insertTrack j (insertTrack i l) := by
  induction l with
  | nil => grind [insertTrack]
  | cons k l ih => grind [insertTrack]

theorem insertTrack_self (i : UInt64) (l : List UInt64) :
    insertTrack i (insertTrack i l) = insertTrack i l := by
  induction l with
  | nil => grind [insertTrack]
  | cons k l ih => grind [insertTrack]

/-! ## Directives that change places -/

/-- A target may be asked for before or after anything else. -/
theorem apply_map_comm (t : MapTarget) (d : Directive) (r : Recipe) :
    (r.apply d).apply (.map t) = (r.apply (.map t)).apply d := by
  cases d with
  | videoCodec c => cases c <;> cases t <;> rfl
  | audioCodec c => cases c <;> cases t <;> rfl
  | map t' =>
    rcases t with _ | _ | _ | i
    case track =>
      rcases t' with _ | _ | _ | j
      case track => simp only [apply, withTarget, insertTrack_comm i j]
      all_goals rfl
    all_goals cases t' <;> rfl
  | _ => cases t <;> rfl

/-- Directives of flags that do not take each other's place write down different things. Only
    that frames are needed is put down by several flags, and none of them takes it back. -/
theorem apply_comm {d e : Directive} {f g : Flag} (hd : d.flag? = some f) (he : e.flag? = some g)
    (h : f.replaces g = false) (r : Recipe) : (r.apply d).apply e = (r.apply e).apply d := by
  cases d with
  | unknown => cases hd
  | map t => exact (apply_map_comm t e r).symm
  | videoCodec c =>
    cases e with
    | map t => exact apply_map_comm t _ r
    | videoCodec => cases hd; cases he; cases h
    | audioCodec c' => cases c <;> cases c' <;> rfl
    | _ => cases c <;> rfl
  | audioCodec c =>
    cases e with
    | map t => exact apply_map_comm t _ r
    | audioCodec => cases hd; cases he; cases h
    | videoCodec c' => cases c <;> cases c' <;> rfl
    | _ => cases c <;> rfl
  | _ =>
    cases e with
    | map t => exact apply_map_comm t _ r
    | videoCodec c => cases c <;> rfl
    | audioCodec c => cases c <;> rfl
    | _ => first | rfl | (cases hd; cases he; cases h)

/-- A target that is asked for once more is no news. -/
theorem apply_map_self (t : MapTarget) (r : Recipe) :
    (r.apply (.map t)).apply (.map t) = r.apply (.map t) := by
  cases t with
  | track i => simp only [apply, withTarget, insertTrack_self]
  | _ => rfl

/-- Nor is it later on. -/
theorem apply_map_foldl {t : MapTarget} {ds : List Directive} (h : .map t ∈ ds) (r : Recipe) :
    (ds.foldl apply r).apply (.map t) = ds.foldl apply r := by
  have hlast : ∀ (ds : List Directive) (r : Recipe),
      (ds.foldl apply r).apply (.map t) = ds.foldl apply (r.apply (.map t)) := by
    intro ds
    induction ds with
    | nil => exact fun r => rfl
    | cons d ds ih =>
      intro r
      rw [List.foldl_cons, List.foldl_cons, ih, apply_map_comm]
  obtain ⟨before, after, rfl⟩ := List.append_of_mem h
  rw [List.foldl_append, List.foldl_cons, hlast, apply_map_self]

theorem foldl_again {ds copies : List Directive}
    (h : ∀ d ∈ copies, d ∈ ds ∧ d.flag? = some .map) (r : Recipe) :
    (ds ++ copies).foldl apply r = ds.foldl apply r := by
  induction copies with
  | nil => rw [List.append_nil]
  | cons d copies ih =>
    rw [List.forall_mem_cons] at h
    obtain ⟨⟨hmem, hflag⟩, h⟩ := h
    cases d with
    | map t =>
      rw [List.foldl_append, List.foldl_cons, apply_map_foldl hmem, ← List.foldl_append, ih h]
    | _ => cases hflag

end Recipe

/-! ## Directives that say nothing twice -/

namespace Directive

/-- Directives of which none takes the place of another one. -/
structure SaysOnce (ds : List Directive) : Prop where
  /-- No flag but that for tracks is there twice. -/
  once : ∀ f, f ≠ .map → ds.countP (·.flag? == some f) ≤ 1
  /-- There is no quality beside a quantizer. -/
  exclusive : ∀ d ∈ ds, d.flag? = some .crf → ∀ e ∈ ds, e.flag? ≠ some .qp

/-- What could take its place is the directive itself. -/
theorem SaysOnce.eq_of_replaces {ds : List Directive} (h : SaysOnce ds) {d e : Directive}
    {f g : Flag} (hd : d ∈ ds) (he : e ∈ ds) (hf : d.flag? = some f) (hg : e.flag? = some g)
    (hmap : f ≠ .map) (hreplaces : f.replaces g = true) : d = e := by
  have hcases : f = g ∨ f = .crf ∧ g = .qp ∨ f = .qp ∧ g = .crf := by
    revert hreplaces
    cases f <;> cases g <;> decide
  rcases hcases with rfl | ⟨rfl, rfl⟩ | ⟨rfl, rfl⟩
  · have honce := h.once f hmap
    have hd' : d ∈ ds.filter (·.flag? == some f) := List.mem_filter.2 ⟨hd, beq_iff_eq.2 hf⟩
    have he' : e ∈ ds.filter (·.flag? == some f) := List.mem_filter.2 ⟨he, beq_iff_eq.2 hg⟩
    rw [List.countP_eq_length_filter] at honce
    generalize ds.filter (·.flag? == some f) = own at honce hd' he'
    match own, honce with
    | [], _ => cases hd'
    | [a], _ => rw [List.mem_singleton.1 hd', List.mem_singleton.1 he']
  · exact absurd hg (h.exclusive d hd hf e he)
  · exact absurd hf (h.exclusive e he hg d hd)

end Directive

namespace Recipe

/-- Any two of them can change places. -/
theorem apply_comm_of_saysOnce {ds : List Directive} (h : Directive.SaysOnce ds) {d e : Directive}
    (hd : d ∈ ds) (he : e ∈ ds) (hdflag : d.flag?.isSome = true) (heflag : e.flag?.isSome = true)
    (r : Recipe) : (r.apply d).apply e = (r.apply e).apply d := by
  obtain ⟨f, hf⟩ := Option.isSome_iff_exists.1 hdflag
  obtain ⟨g, hg⟩ := Option.isSome_iff_exists.1 heflag
  by_cases hmap : f = .map
  · cases d with
    | map t => exact (apply_map_comm t e r).symm
    | _ => rw [hmap] at hf; cases hf
  cases hreplaces : f.replaces g with
  | false => exact apply_comm hf hg hreplaces r
  | true => rw [h.eq_of_replaces hd he hf hg hmap hreplaces]

/-- The recipe of directives that say nothing twice is the same in any order, however often
    their targets are repeated. Only what is put aside comes in another order. -/
theorem ofDirectives_perm {ds copies es : List Directive} (h : Directive.SaysOnce ds)
    (hcopies : ∀ d ∈ copies, d ∈ ds ∧ d.flag? = some .map) (hperm : es.Perm (ds ++ copies))
    (output : String) :
    ∃ ignored, ignored.Perm (ofDirectives ds output).ignored ∧
      ofDirectives es output = { ofDirectives ds output with ignored } := by
  have hfold : (es.filter fun d => d.flag?.isSome).foldl apply (empty (Container.ofOutput output)) =
      (ds.filter fun d => d.flag?.isSome).foldl apply (empty (Container.ofOutput output)) := by
    have hmem : ∀ d ∈ es.filter (fun d => d.flag?.isSome), d ∈ ds ∧ d.flag?.isSome = true := by
      intro d hd
      obtain ⟨hd, hflag⟩ := List.mem_filter.1 hd
      refine ⟨?_, hflag⟩
      rcases List.mem_append.1 (hperm.mem_iff.1 hd) with hd | hd
      · exact hd
      · exact (hcopies d hd).1
    have hagain : ∀ d ∈ copies.filter (fun d => d.flag?.isSome),
        d ∈ ds.filter (fun d => d.flag?.isSome) ∧ d.flag? = some .map := by
      intro d hd
      obtain ⟨hd, hflag⟩ := List.mem_filter.1 hd
      exact ⟨List.mem_filter.2 ⟨(hcopies d hd).1, hflag⟩, (hcopies d hd).2⟩
    rw [(hperm.filter _).foldl_eq' (fun d hd e he r =>
      apply_comm_of_saysOnce h (hmem d hd).1 (hmem e he).1 (hmem d hd).2 (hmem e he).2 r),
      List.filter_append, foldl_again hagain]
  have hcopied : copies.flatMap Directive.leftover = [] :=
    List.flatMap_eq_nil_iff.2 fun d hd => Directive.leftover_eq_nil (by rw [(hcopies d hd).2]; rfl)
  refine ⟨es.flatMap Directive.leftover, ?_, ?_⟩
  · rw [ofDirectives_eq ds]
    refine (hperm.flatMap_right Directive.leftover).trans ?_
    rw [List.flatMap_append, hcopied, List.append_nil]
  · rw [ofDirectives_eq es, ofDirectives_eq ds, ofDirectives, ofDirectives, hfold]

/-- So it is backwards, with a target asked for three times. -/
theorem ofDirectives_perm_backwards :
    let ds := [.videoCodec .copy, .videoRate ⟨800⟩, .crf 23, .unknown ["-tune", "film"],
      .videoFilter "scale=640:360", .audioCodec (.named "aac"), .map .primaryVideo, .map (.track 3),
      .unknown ["-y"]]
    let copies := [.map (.track 3), .map (.track 3)]
    Directive.SaysOnce ds ∧ (∀ d ∈ copies, d ∈ ds ∧ d.flag? = some .map) ∧
      ∃ ignored, ignored.Perm (ofDirectives ds "clip.mkv").ignored ∧
        ofDirectives (ds ++ copies).reverse "clip.mkv" =
          { ofDirectives ds "clip.mkv" with ignored } := by
  intro ds copies
  have honce : Directive.SaysOnce ds := by
    refine ⟨fun f hf => ?_, by simp [ds, Directive.flag?]⟩
    cases f <;> first | contradiction | decide
  have hcopies : ∀ d ∈ copies, d ∈ ds ∧ d.flag? = some .map := by
    simp [copies, ds, Directive.flag?]
  exact ⟨honce, hcopies, ofDirectives_perm honce hcopies (List.reverse_perm _) "clip.mkv"⟩

end Recipe

end VideoExport
