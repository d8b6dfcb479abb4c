import VideoExport.Proofs.Filter.Chain
import VideoExport.Proofs.Text.Lower
import VideoExport.Recipe.Basic

/-!
# What is read of a chain

A chain is scanned with a look at the expression that comes next. What is read of it
can be told without any scanning: all its expressions are kept, the last change of
size and the last change of colours count, and only the fit of a size depends on
what comes right behind it.

* `FilterItem.expressions_chain_expressions`: expressions that are joined are found
  again;
* `FilterItem.lastBox?`, `FilterItem.findSome?_boxOf?_scan`: the size that counts, and
  that scanning finds it;
* `FilterItem.IsBoxBefore`: the box of a change of size, by what comes behind it;
* `Filters.IsReadOf`, `Recipe.isReadOf_apply`: what a chain makes of the filters of a
  recipe.
-/

namespace VideoExport

open Text

namespace FilterItem

/-! ## Expressions -/

/-- The expressions of a chain are the pieces between its commas, trimmed, unless they
    are blank. -/
theorem expressions_eq (chain : String) :
    expressions chain = ((splitOn ',' chain).map trim).filter (· ≠ "") := by
  rw [expressions]
  induction splitOn ',' chain with
  | nil => rfl
  | cons piece pieces ih =>
    rw [List.filterMap_cons, List.map_cons, List.filter_cons, ih, nonBlank?]
    by_cases h : trim piece = "" <;> simp [h]

/-- Each of them is trimmed, and has no comma. -/
theorem isTrimmed_of_mem_expressions {chain e : String} (h : e ∈ expressions chain) :
    IsTrimmed e ∧ ',' ∉ e.toList := by
  obtain ⟨piece, hpiece, he⟩ := List.mem_filterMap.1 h
  refine ⟨isTrimmed_of_nonBlank? he, fun hcomma => ?_⟩
  obtain ⟨s, hs, rfl⟩ := List.mem_map.1 hpiece
  rw [nonBlank?] at he
  obtain ⟨-, he⟩ := Option.ite_none_left_eq_some.1 he
  obtain rfl := Option.some.inj he
  -- Trimming takes characters away only.
  have hsub : (Chars.trim s).Sublist s :=
    (List.rdropWhile_prefix _ _).sublist.trans (List.dropWhile_suffix _).sublist
  rw [trim, String.toList_ofList, String.toList_ofList] at hcomma
  exact Chars.not_mem_of_mem_splitOn hs (hsub.subset hcomma)

/-- Expressions that are joined to a chain are its expressions again. -/
theorem expressions_chain_expressions (chain : String) :
    expressions (Filter.chain (expressions chain)) = expressions chain := by
  by_cases hnil : expressions chain = []
  · rw [hnil]
    rfl
  · rw [expressions_chain hnil]
    refine (List.flatMap_congr fun e he => ?_).trans (List.flatMap_singleton' _)
    obtain ⟨htrimmed, hcomma⟩ := isTrimmed_of_mem_expressions he
    rw [expressions, splitOn_eq_singleton hcomma, List.filterMap_cons,
      nonBlank?_eq_self_iff.2 htrimmed]
    rfl

/-! ## Sizes and colours -/

/-- The box of a change of size, by itself. -/
def asked? (e : String) : Option ScaleBox := (after? "scale=" e).bind box?

/-- The adjustment of a change of colours. -/
def adjusted? (e : String) : Option Color := (after? "eq=" e).bind color?

/-- The box of a change of size before another expression: one that asks to cover it
    merely fills it, unless the other expression is the crop for that. -/
def boxBefore? (e : String) (next : Option String) : Option ScaleBox :=
  (asked? e).map fun box =>
    if box.fit = .cover ∧ next.any (crops box) = false then { box with fit := .stretch } else box

/-- The box of the last change of size that can be read. -/
def lastBox? : List String → Option ScaleBox
  | [] => none
  | e :: rest => lastBox? rest <|> boxBefore? e rest.head?

/-- A crop changes neither size nor colours. -/
theorem eq_none_of_crops {box : ScaleBox} {e : String} (h : crops box e = true) :
    asked? e = none ∧ adjusted? e = none := by
  rw [crops, beq_iff_eq] at h
  obtain ⟨args, hargs, -⟩ := Option.bind_eq_some_iff.1 h
  rw [asked?, adjusted?, after?_eq_none_of_after? rfl rfl (by decide) hargs,
    after?_eq_none_of_after? rfl rfl (by decide) hargs]
  exact ⟨rfl, rfl⟩

theorem boxOf?_single (e : String) : (single e).boxOf? = boxBefore? e none := by
  rw [single, boxBefore?, asked?]
  cases hscale : after? "scale=" e with
  | some args =>
    cases hbox : box? args with
    | none => simp [hbox, boxOf?]
    | some box => by_cases hcover : box.fit = .cover <;> simp [hbox, hcover, boxOf?]
  | none =>
    cases heq : after? "eq=" e with
    | some args => cases hcolor : color? args <;> simp [hcolor, boxOf?]
    | none => simp [boxOf?]

theorem colorOf?_single (e : String) : (single e).colorOf? = adjusted? e := by
  rw [single, adjusted?]
  cases heq : after? "eq=" e with
  | some args =>
    rw [after?_eq_none_of_after? rfl rfl (by decide) heq]
    cases hcolor : color? args <;> simp [hcolor, colorOf?]
  | none =>
    cases hscale : after? "scale=" e with
    | some args => cases hbox : box? args <;> simp [hbox, colorOf?]
    | none => simp [colorOf?]

/-- An expression with the crop that belongs to it keeps the box that it asks for. -/
theorem of_pair? {e next : String} {item : FilterItem} (h : pair? e next = some item) :
    item.boxOf? = boxBefore? e (some next) ∧ item.colorOf? = none ∧ adjusted? e = none ∧
      asked? next = none ∧ adjusted? next = none := by
  rw [pair?] at h
  split at h
  case h_2 => cases h
  case h_1 box hbox =>
    obtain ⟨hcrop, h⟩ := Option.ite_none_right_eq_some.1 h
    obtain ⟨-, hcrop⟩ := Bool.and_eq_true_iff.1 hcrop
    obtain ⟨args, hargs, -⟩ := Option.bind_eq_some_iff.1 hbox
    have hcolor : adjusted? e = none := by
      rw [adjusted?, after?_eq_none_of_after? rfl rfl (by decide) hargs, Option.bind_none]
    obtain rfl := Option.some.inj h
    refine ⟨?_, rfl, hcolor, eq_none_of_crops hcrop⟩
    rw [boxBefore?, asked?, hbox]
    simp [hcrop, boxOf?]

/-- An expression without such a crop has the box that it has by itself. -/
theorem boxBefore?_of_pair?_eq_none {e next : String} (h : pair? e next = none) :
    boxBefore? e (some next) = boxBefore? e none := by
  rw [boxBefore?, boxBefore?, asked?]
  rw [pair?] at h
  cases hbox : (after? "scale=" e).bind box? with
  | none => rfl
  | some box =>
    simp only [hbox] at h
    by_cases hcover : box.fit = .cover <;> simp_all

/-- Scanning finds the last change of size. -/
theorem findSome?_boxOf?_scan (l : List String) : (scan l).reverse.findSome? boxOf? = lastBox? l := by
  fun_induction scan l with
  | case1 => rfl
  | case2 e => simp [lastBox?, boxOf?_single]
  | case3 e next rest item h ih =>
    obtain ⟨hbox, -, -, hnext, -⟩ := of_pair? h
    have hcrop : boxBefore? next rest.head? = none := by rw [boxBefore?, hnext]; rfl
    simp [lastBox?, ih, hbox, hcrop]
  | case4 e next rest h ih =>
    have hbox := boxBefore?_of_pair?_eq_none h
    simp [lastBox?, ih, boxOf?_single, hbox]

/-- Only right in front of its crop does a size stay one that is covered. -/
example :
    let cover := "scale=64:36:force_original_aspect_ratio=increase"
    lastBox? [cover, "crop=64:36", "eq=gamma=2"] = some ⟨64, 36, .cover⟩ ∧
      lastBox? [cover, "eq=gamma=2", "crop=64:36"] = some ⟨64, 36, .stretch⟩ ∧
      lastBox? ["scale=8:8", cover, "crop=64:48"] = some ⟨64, 36, .stretch⟩ := by
  decide

/-- And the last change of colours. -/
theorem findSome?_colorOf?_scan (l : List String) :
    (scan l).reverse.findSome? colorOf? = l.reverse.findSome? adjusted? := by
  fun_induction scan l with
  | case1 => rfl
  | case2 e => simp [colorOf?_single]
  | case3 e next rest item h ih =>
    obtain ⟨-, hcolor, hown, -, hnext⟩ := of_pair? h
    simp [ih, hcolor, hown, hnext]
  | case4 e next rest h ih =>
    have hlast : ∀ l : List String,
        (e :: l).reverse.findSome? adjusted? = (l.reverse.findSome? adjusted?).or (adjusted? e) := by
      simp
    rw [hlast, ← ih]
    simp [colorOf?_single]

/-! ## Boxes -/

/-- What a change of size says about proportions, after its two numbers: the first word
    on them. -/
def proportions? (args : String) : Option String :=
  ((splitOn ':' args).drop 2).findSome? (after? "force_original_aspect_ratio=")

/-- An expression is a crop to a size. -/
def CropsTo (e : String) (width height : Int32) : Prop :=
  ∃ args, after? "crop=" e = some args ∧ dimensions? args = some (width, height)

/-- A box is that of a change of size with these arguments before other expressions. -/
structure IsBoxBefore (args : String) (rest : List String) (box : ScaleBox) : Prop where
  size : dimensions? args = some (box.width, box.height)
  contain_iff : box.fit = .contain ↔ proportions? args = some "decrease"
  /-- It is covered if this is asked for and the next expression is the crop for it. -/
  cover_iff : box.fit = .cover ↔
    proportions? args = some "increase" ∧ ∃ next ∈ rest.head?, CropsTo next box.width box.height
  /-- Without that crop it is merely filled. -/
  stretch : proportions? args = some "increase" →
    (¬ ∃ next ∈ rest.head?, CropsTo next box.width box.height) → box.fit = .stretch

theorem crops_iff {box : ScaleBox} {e : String} :
    crops box e = true ↔ CropsTo e box.width box.height := by
  rw [crops, beq_iff_eq, Option.bind_eq_some_iff, CropsTo]

theorem fitOf_cases (args : String) :
    (fitOf args = .contain ↔ proportions? args = some "decrease") ∧
      (fitOf args = .cover ↔ proportions? args = some "increase") := by
  rw [fitOf, proportions?]
  split
  case h_1 h => simp [h]
  case h_2 h => simp [h]
  case h_3 hdecrease hincrease => exact ⟨iff_of_false (by decide) hdecrease, iff_of_false (by decide) hincrease⟩

/-- So is the box that is found of a change of size that can be read. -/
theorem exists_boxBefore? {e args : String} (hargs : after? "scale=" e = some args)
    (hsize : (dimensions? args).isSome = true) (rest : List String) :
    ∃ box, boxBefore? e rest.head? = some box ∧ IsBoxBefore args rest box := by
  obtain ⟨⟨w, h⟩, hsize⟩ := Option.isSome_iff_exists.1 hsize
  obtain ⟨hcontain, hcover⟩ := fitOf_cases args
  have hasked : asked? e = some ⟨w, h, fitOf args⟩ := by
    rw [asked?, hargs, Option.bind_some, box?, hsize]
    rfl
  have hcrop : rest.head?.any (crops ⟨w, h, fitOf args⟩) = true ↔
      ∃ next ∈ rest.head?, CropsTo next w h := by
    rw [Option.any_eq_true]
    simp only [crops_iff, Option.mem_def]
  rw [boxBefore?, hasked, Option.map_some]
  refine ⟨_, rfl, ?_⟩
  split
  case isTrue hlost =>
    obtain ⟨hfit, hnone⟩ := hlost
    rw [← Bool.not_eq_true, hcrop] at hnone
    refine ⟨hsize, iff_of_false (by simp) ?_, iff_of_false (by simp) fun h => hnone h.2,
      fun _ _ => rfl⟩
    rw [hcover.1 hfit]
    simp
  case isFalse hkept =>
    refine ⟨hsize, hcontain, ?_, fun hincrease hnone => absurd ⟨hcover.2 hincrease, ?_⟩ hkept⟩
    · show fitOf args = .cover ↔ _
      rw [hcover]
      refine ⟨fun hincrease => ⟨hincrease, ?_⟩, fun h => h.1⟩
      by_contra hnone
      rw [← hcrop, Bool.not_eq_true] at hnone
      exact hkept ⟨hcover.2 hincrease, hnone⟩
    · rw [← hcrop, Bool.not_eq_true] at hnone
      exact hnone

theorem lastBox?_eq_none {l : List String} (h : ∀ e ∈ l, asked? e = none) : lastBox? l = none := by
  induction l with
  | nil => rfl
  | cons e rest ih =>
    rw [List.forall_mem_cons] at h
    rw [lastBox?, ih h.2, boxBefore?, h.1]
    rfl

/-- Nothing in front of the last change of size counts. -/
theorem lastBox?_append {front rest : List String} {e : String} {box : ScaleBox}
    (h : boxBefore? e rest.head? = some box) (hrest : ∀ e' ∈ rest, asked? e' = none) :
    lastBox? (front ++ e :: rest) = some box := by
  induction front with
  | nil =>
    rw [List.nil_append, lastBox?, lastBox?_eq_none hrest, h]
    rfl
  | cons f front ih =>
    rw [List.cons_append, lastBox?, ih]
    rfl

end FilterItem

/-! ## Filters -/

/-- What expressions make of filters. -/
structure Filters.IsReadOf (texts : List String) (before after : Filters) : Prop where
  /-- All of them are kept, each once and in order. -/
  chain : after.chain = before.chain ++ texts
  /-- The last change of size that can be read counts. -/
  resize : ∀ front e rest args, texts = front ++ e :: rest → after? "scale=" e = some args →
    (FilterItem.dimensions? args).isSome = true → (∀ e' ∈ rest, FilterItem.asked? e' = Option.none) →
    ∃ box, after.resize = some box ∧ FilterItem.IsBoxBefore args rest box
  resize_of_none : (∀ e ∈ texts, FilterItem.asked? e = Option.none) → after.resize = before.resize
  /-- The last change of colours that can be read counts. -/
  color : ∀ front e rest c, texts = front ++ e :: rest → FilterItem.adjusted? e = some c →
    (∀ e' ∈ rest, FilterItem.adjusted? e' = Option.none) → after.color = some c
  color_of_none : (∀ e ∈ texts, FilterItem.adjusted? e = Option.none) → after.color = before.color

theorem Filters.isReadOf_append (f : Filters) (texts : List String) :
    IsReadOf texts f (f.append (FilterItem.scan texts)) where
  chain := by rw [append, FilterItem.flatMap_texts_scan]
  resize := by
    rintro front e rest args rfl hargs hsize hrest
    obtain ⟨box, hbox, his⟩ := FilterItem.exists_boxBefore? hargs hsize rest
    refine ⟨box, ?_, his⟩
    rw [append, FilterItem.findSome?_boxOf?_scan, FilterItem.lastBox?_append hbox hrest]
    rfl
  resize_of_none h := by
    rw [append, FilterItem.findSome?_boxOf?_scan, FilterItem.lastBox?_eq_none h]
    rfl
  color := by
    rintro front e rest c rfl he hrest
    have hlast : (front ++ e :: rest).reverse.findSome? FilterItem.adjusted? = some c := by
      have hnone : rest.reverse.findSome? FilterItem.adjusted? = Option.none :=
        List.findSome?_eq_none_iff.2 fun e' he' => hrest e' (List.mem_reverse.1 he')
      simp [hnone, he]
    rw [append, FilterItem.findSome?_colorOf?_scan, hlast]
    rfl
  color_of_none h := by
    have hnone : texts.reverse.findSome? FilterItem.adjusted? = Option.none :=
      List.findSome?_eq_none_iff.2 fun e he => h e (List.mem_reverse.1 he)
    rw [append, FilterItem.findSome?_colorOf?_scan, hnone]
    rfl

/-- What a chain makes of the filters of a recipe is told by the pieces between its
    commas. The same is made of it when these are joined to a chain again. -/
theorem Recipe.isReadOf_apply (r : Recipe) (text : String) :
    let texts := ((splitOn ',' text).map trim).filter (· ≠ "")
    Filters.IsReadOf texts r.filters (r.apply (.videoFilter text)).filters ∧
      (r.apply (.videoFilter (Filter.chain texts))).filters =
        (r.apply (.videoFilter text)).filters := by
  intro texts
  have htexts : texts = FilterItem.expressions text := (FilterItem.expressions_eq text).symm
  rw [htexts]
  refine ⟨Filters.isReadOf_append r.filters _, ?_⟩
  show r.filters.append (FilterItem.scan (FilterItem.expressions _)) = _
  rw [FilterItem.expressions_chain_expressions]
  rfl

end VideoExport
