import Mathlib.Data.List.Induction
import VideoExport.Proofs.Recipe.Treatment

/-!
# The last one counts

A recipe remembers one directive of each flag: the last one, unless a
directive of another flag that excludes it comes later, as a quantizer does for a
quality. So where there is at most one directive that could take its place, the
first one is remembered just as well.

* `Directive.Replaces`: the directives that take the place of those of a flag;
* `Recipe.said?`: the directive of a flag that a recipe remembers;
* `Recipe.said?_foldl`: it is the last one;
* `Recipe.said?_ofDirectives`: it is the first one, if there is no other one.
-/

namespace VideoExport

/-- Whether what is said by one flag takes the place of what was said by another
    one: by the same flag, or by a quantizer of a quality and the other way round. -/
def Flag.replaces : Flag → Flag → Bool
  | .qp, .crf | .crf, .qp => true
  | f, f' => f == f'

namespace Directive

/-- Whether a directive takes the place of those of a flag. -/
def replaces (d : Directive) (f : Flag) : Bool := d.flag?.any (·.replaces f)

/-- A directive takes the place of those of its own flag. -/
theorem replaces_of_flag? {d : Directive} {f : Flag} (h : d.flag? = some f) :
    d.replaces f = true := by
  rw [replaces, h, Option.any_some]
  cases f <;> rfl

/-- The last directive that is, or takes the place of, one of a flag. -/
def last? (ds : List Directive) (f : Flag) : Option Directive :=
  (ds.filter (·.replaces f)).getLast?

/-- Where there is one at most, it is the last one of the flag if it is the
    first one. -/
theorem filter_last? {ds : List Directive} {f : Flag}
    (h : (ds.filter (·.replaces f)).length ≤ 1) :
    (last? ds f).filter (·.flag? == some f) = ds.find? (·.flag? == some f) := by
  have hown : ds.filter (·.flag? == some f) =
      (ds.filter (·.replaces f)).filter (·.flag? == some f) := by
    rw [List.filter_filter]
    refine List.filter_congr fun d _ => ?_
    cases hd : d.flag? == some f with
    | false => rfl
    | true => rw [replaces_of_flag? (beq_iff_eq.1 hd)]; rfl
  rw [← List.head?_filter, hown, last?]
  generalize ds.filter (·.replaces f) = own at h ⊢
  match own, h with
  | [], _ => rfl
  | [d], _ => cases hd : d.flag? == some f <;> simp [hd, Option.filter_some]

/-- The expressions of a directive for filters. -/
def expressions : Directive → List String
  | videoFilter chain => FilterItem.expressions chain
  | _ => []

theorem replaces_videoFilter (d : Directive) :
    d.replaces .videoFilter = (d.flag? == some .videoFilter) := by
  cases d <;> rfl

/-- Only directives for filters have expressions. -/
theorem flatMap_expressions (ds : List Directive) :
    ds.flatMap expressions = (ds.filter (·.flag? == some .videoFilter)).flatMap expressions := by
  induction ds with
  | nil => rfl
  | cons d ds ih =>
    rw [List.flatMap_cons, List.filter_cons, ih]
    cases d <;> rfl

end Directive

/-- What is asked for of a codec: a copy, or its encoder by name. -/
def CodecValue.ofCopy? (copy : Bool) (name : Option String) : Option CodecValue :=
  if copy then some .copy else name.map .named

namespace Recipe

/-- The directive of a flag that a recipe remembers. Filters are put together
    from all their chains; of targets only the primary video is told here. -/
def said? (r : Recipe) : Flag → Option Directive
  | .trimStart => r.trimStart.map .trimStart
  | .trimDuration => r.trimDuration.map .trimDuration
  | .videoCodec => (CodecValue.ofCopy? r.video.copy r.video.codec).map .videoCodec
  | .audioCodec => (CodecValue.ofCopy? r.audio.copy r.audio.codec).map .audioCodec
  | .subtitleCodec => r.subtitleCodec.map .subtitleCodec
  | .videoRate => r.video.kbps.map fun n => .videoRate ⟨n⟩
  | .audioRate => r.audio.kbps.map fun n => .audioRate ⟨n⟩
  | .maxRate => r.video.maxKbps.map fun n => .maxRate ⟨n⟩
  | .bufferSize => r.video.bufferKbps.map fun n => .bufferSize ⟨n⟩
  | .qp => r.video.qp.map .qp
  | .crf => r.video.crf.map .crf
  | .speed => r.video.speed.map .speed
  | .videoFilter => (Filter.chain? r.filters.chain).map .videoFilter
  | .map => if r.primaryVideo then some (.map .primaryVideo) else none
  | .threads => r.threads.map .threads
  | .quality => r.video.quality.map .quality

variable {f : Flag}

/-- Nothing is remembered to start with. -/
theorem said?_empty (k : Container) (f : Flag) : (empty k).said? f = none := by
  cases f <;> rfl

/-- A directive is remembered from when it is said until one takes its place. -/
theorem said?_apply (hfilter : f ≠ .videoFilter) (hmap : f ≠ .map) (r : Recipe) (d : Directive) :
    (r.apply d).said? f =
      if d.replaces f then (if d.flag? = some f then some d else none) else r.said? f := by
  cases d with
  | videoCodec c => cases c <;> cases f <;> rfl
  | audioCodec c => cases c <;> cases f <;> rfl
  | map t => cases t <;> cases f <;> first | rfl | contradiction
  | _ => cases f <;> first | rfl | contradiction

/-- So the last one counts. -/
theorem said?_foldl (hfilter : f ≠ .videoFilter) (hmap : f ≠ .map) (ds : List Directive)
    (k : Container) :
    (ds.foldl apply (empty k)).said? f = (Directive.last? ds f).filter (·.flag? == some f) := by
  induction ds using List.reverseRecOn with
  | nil => exact said?_empty k f
  | append_singleton ds d ih =>
    rw [List.foldl_append, List.foldl_cons, List.foldl_nil, said?_apply hfilter hmap, ih,
      Directive.last?, Directive.last?, List.filter_append, List.filter_cons, List.filter_nil]
    cases hd : d.replaces f with
    | false => simp
    | true => simp [Option.filter_some]

/-- Where at most one directive is, or takes the place of, one of a flag, the
    first one of the flag is remembered. -/
theorem said?_of_length_le (hfilter : f ≠ .videoFilter) (hmap : f ≠ .map) {ds : List Directive}
    (h : (ds.filter (·.replaces f)).length ≤ 1) (k : Container) :
    (ds.foldl apply (empty k)).said? f = ds.find? (·.flag? == some f) := by
  rw [said?_foldl hfilter hmap, Directive.filter_last? h]

/-- The expressions of all chains are remembered. -/
theorem chain_foldl (ds : List Directive) (k : Container) :
    (ds.foldl apply (empty k)).filters.chain = ds.flatMap Directive.expressions := by
  have htexts : ∀ d : Directive, d.filterItems.flatMap FilterItem.texts = d.expressions := by
    intro d
    cases d with
    | videoFilter chain => exact FilterItem.flatMap_texts_scan _
    | _ => rfl
  rw [filters_foldl]
  show [] ++ (ds.flatMap Directive.filterItems).flatMap FilterItem.texts = _
  rw [List.nil_append, List.flatMap_assoc]
  simp only [htexts]

/-- So a chain is remembered as it is if there is no other one, and its
    expressions can be put together again. -/
theorem said?_videoFilter {ds : List Directive}
    (h : (ds.filter (·.replaces .videoFilter)).length ≤ 1)
    (hchain : ∀ text, .videoFilter text ∈ ds →
      Filter.chain? (FilterItem.expressions text) = some text) (k : Container) :
    (ds.foldl apply (empty k)).said? .videoFilter = ds.find? (·.flag? == some .videoFilter) := by
  rw [said?, chain_foldl, Directive.flatMap_expressions, ← List.head?_filter]
  have hmem : ∀ d ∈ ds.filter (·.flag? == some .videoFilter),
      ∃ text, d = .videoFilter text ∧ Filter.chain? (FilterItem.expressions text) = some text := by
    intro d hd
    obtain ⟨hd, hf⟩ := List.mem_filter.1 hd
    cases d with
    | videoFilter text => exact ⟨text, rfl, hchain text hd⟩
    | _ => cases hf
  rw [List.filter_congr fun d _ => Directive.replaces_videoFilter d] at h
  generalize ds.filter (·.flag? == some .videoFilter) = own at h hmem ⊢
  match own, h with
  | [], _ => rfl
  | [d], _ =>
    obtain ⟨text, rfl, htext⟩ := hmem d List.mem_cons_self
    rw [List.flatMap_singleton]
    show (Filter.chain? (FilterItem.expressions text)).map _ = _
    rw [htext]
    rfl

end Recipe

end VideoExport
