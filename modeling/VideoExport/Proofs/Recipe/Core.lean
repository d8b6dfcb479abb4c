import VideoExport.Recipe.Basic
import VideoExport.Proofs.Wire.Lexing

/-!
# What a recipe is about

Times, the speed of the encoder and tokens that nobody understands are put
down in a recipe, but nothing else in it depends on them. What is left is the
*core* of a recipe. It is determined by the essential directives alone, so it
survives the wire whatever becomes of the others.

* `Recipe.Governs`: directives that a part of a recipe is determined by;
* `Recipe.core`: a recipe without times, speed and leftovers;
* `Recipe.core_ofDirectives`: the core depends on the essential directives only;
* `Recipe.core_read_tokens`: the core of what is read is that of what was
  written.
-/

namespace VideoExport

/-- Whether a directive says more than a time or a speed. -/
def Directive.isEssential (d : Directive) : Bool :=
  match d.flag? with
  | none | some .trimStart | some .trimDuration | some .speed => false
  | some _ => true

namespace Recipe

/-! ## Parts -/

/-- A part of a recipe is left alone by all directives but those that satisfy
    `p`, and what these make of it does not depend on anything else. -/
structure Governs {α : Type} (p : Directive → Bool) (part : Recipe → α) : Prop where
  congr : ∀ {r r' : Recipe}, part r = part r' → ∀ d, part (r.apply d) = part (r'.apply d)
  skip : ∀ {d : Directive}, p d = false → ∀ r : Recipe, part (r.apply d) = part r

/-- A part of a recipe depends on the directives that govern it only. -/
theorem Governs.foldl_filter {α : Type} {p : Directive → Bool} {part : Recipe → α}
    (hp : Governs p part) (ds : List Directive) {r r' : Recipe} (h : part r = part r') :
    part (ds.foldl apply r) = part ((ds.filter p).foldl apply r') := by
  -- The two recipes may differ outside the part, as those of a directive that is
  -- left out and one that is not do.
  induction ds generalizing r r' with
  | nil => exact h
  | cons d ds ih =>
    rw [List.foldl_cons, List.filter_cons]
    cases hd : p d with
    | true => exact ih (hp.congr h d)
    | false => exact ih ((hp.skip hd r).trans h)

/-- All other directives leave it alone. -/
theorem Governs.foldl_skip {α : Type} {p : Directive → Bool} {part : Recipe → α}
    (hp : Governs p part) {ds : List Directive} (h : ∀ d ∈ ds, p d = false) (r : Recipe) :
    part (ds.foldl apply r) = part r := by
  have hnil : ds.filter p = [] := by
    rw [List.filter_eq_nil_iff]
    intro d hd
    rw [h d hd]
    exact Bool.false_ne_true
  rw [hp.foldl_filter ds rfl, hnil]
  rfl

/-! ## The core -/

/-- A recipe without times, speed and leftovers. -/
def core (r : Recipe) : Recipe :=
  { r with
    trimStart := none
    trimDuration := none
    video := { r.video with speed := none }
    ignored := [] }

/-- A directive does to a recipe what it does to its core. -/
theorem core_apply (r : Recipe) (d : Directive) : (r.apply d).core = (r.core.apply d).core := by
  cases d with
  | videoCodec c => cases c <;> rfl
  | audioCodec c => cases c <;> rfl
  | map t => cases t <;> rfl
  | _ => rfl

theorem core_apply_congr {r r' : Recipe} (h : r.core = r'.core) (d : Directive) :
    (r.apply d).core = (r'.apply d).core := by
  rw [core_apply r, core_apply r', h]

/-- A directive that is not essential leaves the core alone. -/
theorem core_apply_of_not_isEssential {d : Directive} (h : d.isEssential = false) (r : Recipe) :
    (r.apply d).core = r.core := by
  cases d <;> first | rfl | cases h

theorem governs_core : Governs (·.isEssential) core :=
  ⟨core_apply_congr, core_apply_of_not_isEssential⟩

theorem core_settle_congr {r r' : Recipe} (h : r.core = r'.core) : r.settle.core = r'.settle.core := by
  have hcore : ∀ r : Recipe, r.settle.core = r.core.settle := fun _ => rfl
  rw [hcore, hcore, h]

/-- The core depends on the essential directives only. -/
theorem core_ofDirectives (ds : List Directive) (output : String) :
    (ofDirectives ds output).core =
      (ofDirectives (ds.filter (·.isEssential)) output).core :=
  core_settle_congr (governs_core.foldl_filter ds rfl)

/-- The core of what is read is that of what was written, if the essential
    directives are faithful. -/
theorem core_read_tokens {ds : List Directive} (h : ∀ d ∈ ds, d.flag?.isSome = true)
    (hfaithful : ∀ d ∈ ds, d.isEssential = true → d.IsFaithful) (output : String) :
    (read (Directive.tokens ds) output).core = (ofDirectives ds output).core := by
  have hfilter : (Directive.lex (Directive.tokens ds)).filter (·.isEssential) =
      ds.filter (·.isEssential) := by
    refine Directive.filter_lex_tokens ?_ ?_ h hfaithful
    · intro d d' he
      simp only [Directive.isEssential, he]
    · intro d hd
      simp only [Directive.isEssential, hd]
  rw [read, core_ofDirectives, hfilter, ← core_ofDirectives]

end Recipe

end VideoExport
