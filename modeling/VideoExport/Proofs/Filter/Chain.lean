import VideoExport.Filter.Chain
import VideoExport.Proofs.Filter.Expression

/-!
# Reading chains back

What the filters of an export are written as is taken apart again: a chain into
its expressions, an expression into its arguments. The two expressions of a
resize that covers its box find each other, whatever comes before and after
them.

* `FilterItem.IsFound`: parts of a chain that are found whatever follows them;
* `FilterItem.ofChain_chain`: what is found of a chain is what is found of its
  parts;
* `Resize.isFound_filter`, `isFound_presetFilter`, `Color.isFound_filter`: the
  parts that settings ask for are found;
* `Color.isReadAs_reread`: colours are read as what was written.
-/

namespace VideoExport

open Number Text

/-! ## Sizes -/

theorem integer?_digits {low high n : ℕ} (h : n < high) :
    integer? low high (digits n) = some (n : ℤ) := by
  unfold integer?
  split
  case h_1 rest he => exact absurd (congrArg List.head? he) (head?_digits_ne rfl)
  case h_2 => rw [word?_digits h]; rfl

/-- A side as a filter has it. -/
def sideOf (n : UInt32) : Int32 := Int32.ofInt n.toNat

theorem int32?_text {n : UInt32} (h : n.toNat < signBit32) :
    int32? (Text.trim (Number.text n.toNat)) = some (sideOf n) := by
  rw [(hasNoBlank_text _).trim, int32?, Number.text, String.toList_ofList, integer?_digits h]
  rfl

/-- A side that fits is kept as a number. -/
theorem toInt_sideOf {n : UInt32} (h : n.toNat < signBit32) : (sideOf n).toInt = n.toNat := by
  have h31 : signBit32 = 2147483648 := rfl
  rw [sideOf, Int32.toInt_ofInt_of_le]
  · omega
  · omega

theorem splitOn_size (w h : UInt32) :
    splitOn ':' (Filter.size w h) = [Number.text w.toNat, Number.text h.toNat] := by
  have hcolon : (":" : String) = String.singleton ':' := rfl
  rw [Filter.size, hcolon, splitOn_append, splitOn_eq_singleton (Filter.notMem_text rfl),
    splitOn_eq_singleton (Filter.notMem_text rfl)]
  rfl

/-- The arguments of a size with more after it. -/
theorem splitOn_size_append (w h : UInt32) {rest : String} (hrest : ':' ∉ rest.toList) :
    splitOn ':' (Filter.size w h ++ ":" ++ rest) =
      [Number.text w.toNat, Number.text h.toNat, rest] := by
  have hcolon : (":" : String) = String.singleton ':' := rfl
  rw [hcolon, splitOn_append, splitOn_size, splitOn_eq_singleton hrest]
  rfl

namespace FilterItem

theorem dimensions?_of_splitOn {args : String} {w h : UInt32} {rest : List String}
    (hargs : splitOn ':' args = Number.text w.toNat :: Number.text h.toNat :: rest)
    (hw : w.toNat < signBit32) (hh : h.toNat < signBit32) :
    dimensions? args = some (sideOf w, sideOf h) := by
  rw [dimensions?]
  rw [hargs]
  simp only [int32?_text hw, int32?_text hh]
  rfl

/-! ## Chains -/

/-- The expressions of a chain are those of its parts. -/
theorem expressions_chain {parts : List String} (h : parts ≠ []) :
    expressions (Filter.chain parts) = parts.flatMap expressions := by
  have hcomma : (",") = String.singleton ',' := rfl
  unfold expressions
  rw [Filter.chain, hcomma, splitOn_intercalate ',' h, List.filterMap_flatMap]

/-- A word without commas is one expression. -/
theorem expressions_eq_singleton {e : String} (h : IsWord e) (hcomma : ',' ∉ e.toList) :
    expressions e = [e] := by
  rw [expressions, splitOn_eq_singleton hcomma, List.filterMap_cons, h.nonBlank?]
  rfl

/-- An expression that has no crop stands alone. -/
theorem scan_cons {text : String} (h : ∀ next, pair? text next = none) (rest : List String) :
    scan (text :: rest) = single text :: scan rest := by
  cases rest with
  | nil => rfl
  | cons next rest => rw [scan, h next]

theorem pair?_eq_none {text : String} (h : ∀ box, (Text.after? "scale=" text).bind box? = some box →
    box.fit ≠ .cover) (next : String) : pair? text next = none := by
  rw [pair?]
  split
  case h_1 box hbox => rw [decide_eq_false (h box hbox)]; rfl
  case h_2 => rfl

/-! ## Parts -/

/-- Expressions that are scanned into items, whatever comes after them. -/
def Scans (texts : List String) (items : List FilterItem) : Prop :=
  ∀ rest, scan (texts ++ rest) = items ++ scan rest

theorem scans_nil : Scans [] [] := fun _ => rfl

theorem Scans.append {texts texts' : List String} {items items' : List FilterItem}
    (h : Scans texts items) (h' : Scans texts' items') : Scans (texts ++ texts') (items ++ items') := by
  intro rest
  rw [List.append_assoc, h, h', List.append_assoc]

theorem scans_single {text : String} (h : ∀ next, pair? text next = none) :
    Scans [text] [single text] := fun rest => scan_cons h rest

/-- A part of a chain that is found as one item. -/
def IsFound (part : String) (item : FilterItem) : Prop := Scans (expressions part) [item]

theorem isFound_single {e : String} (hword : IsWord e) (hcomma : ',' ∉ e.toList)
    (hpair : ∀ next, pair? e next = none) : IsFound e (single e) := by
  rw [IsFound, expressions_eq_singleton hword hcomma]
  exact scans_single hpair

/-- What is found as one item is the expressions of that item. -/
theorem IsFound.expressions_eq {part : String} {item : FilterItem} (h : IsFound part item) :
    expressions part = item.texts := by
  have hscan := h []
  rw [List.append_nil] at hscan
  rw [← flatMap_texts_scan (expressions part), hscan]
  simp [scan]

/-- What comes after a part does not matter to it, so the parts can be followed
    one by one. -/
theorem scans_flatMap {parts : List String} {items : List FilterItem}
    (h : List.Forall₂ IsFound parts items) : Scans (parts.flatMap expressions) items := by
  induction h with
  | nil => exact scans_nil
  | cons hp _ ih => exact Scans.append hp ih

theorem ofChain_of_scans {parts : List String} {items : List FilterItem} (hne : parts ≠ [])
    (h : Scans (parts.flatMap expressions) items) : ofChain (Filter.chain parts) = items := by
  have hall := h []
  rw [List.append_nil, ← expressions_chain hne] at hall
  exact hall.trans (List.append_nil items)

/-- What is found of a chain is what is found of its parts. -/
theorem ofChain_chain {parts : List String} {items : List FilterItem} (hne : parts ≠ [])
    (h : List.Forall₂ IsFound parts items) : ofChain (Filter.chain parts) = items :=
  ofChain_of_scans hne (scans_flatMap h)

end FilterItem

/-! ## Resizes -/

namespace Resize

/-- The sides fit into what a filter can say. -/
def Fits (r : Resize) : Prop := r.width.toNat < signBit32 ∧ r.height.toNat < signBit32

/-- The box of a resize, as a filter has it. -/
def box (r : Resize) : ScaleBox := ⟨sideOf r.width, sideOf r.height, r.fit⟩

/-- The word that asks for a fit, after the sides. -/
def fitWord : Fit → String
  | .stretch => ""
  | .contain => ":force_original_aspect_ratio=decrease"
  | .cover => ":force_original_aspect_ratio=increase"

/-- The expression that scales. -/
def scaleText (r : Resize) : String := "scale=" ++ (Filter.size r.width r.height ++ fitWord r.fit)

/-- The expression that crops, if there is anything to cut off. -/
def cropText? (r : Resize) : Option String :=
  if r.fit = .cover then some ("crop=" ++ Filter.size r.width r.height) else none

/-- What is found of a resize. -/
def item (r : Resize) : FilterItem := .scale r.scaleText r.cropText? r.box

theorem filter_eq (r : Resize) :
    r.filter = Filter.chain (r.scaleText :: r.cropText?.toList) := by
  obtain ⟨w, h, fit⟩ := r
  cases fit with
  | stretch =>
    simp only [filter, scaleText, cropText?, fitWord, Filter.chain, reduceCtorEq, if_false,
      Option.toList_none, String.intercalate_singleton, String.append_empty]
    rfl
  | contain =>
    simp only [filter, scaleText, cropText?, fitWord, Filter.chain, reduceCtorEq, if_false,
      Option.toList_none, String.intercalate_singleton, ← String.append_assoc]
    rfl
  | cover =>
    have hword : (":force_original_aspect_ratio=increase,crop=" : String) =
        ":force_original_aspect_ratio=increase" ++ "," ++ "crop=" := by rfl
    simp only [filter, scaleText, cropText?, fitWord, Filter.chain, if_true, Option.toList_some,
      String.intercalate_cons_cons, String.intercalate_singleton, ← String.append_assoc]
    rw [show toString (":force_original_aspect_ratio=increase,crop=" : String) = _ from hword]
    simp only [← String.append_assoc]
    rfl

/-- The arguments of a resize are its sides and at most one word. -/
theorem splitOn_args (r : Resize) :
    splitOn ':' (Filter.size r.width r.height ++ fitWord r.fit) =
      Number.text r.width.toNat :: Number.text r.height.toNat ::
        match r.fit with
        | .stretch => []
        | .contain => ["force_original_aspect_ratio=decrease"]
        | .cover => ["force_original_aspect_ratio=increase"] := by
  have hcontain : fitWord .contain = ":" ++ "force_original_aspect_ratio=decrease" := by
    rfl
  have hcover : fitWord .cover = ":" ++ "force_original_aspect_ratio=increase" := by
    rfl
  cases r.fit with
  | stretch => rw [fitWord, String.append_empty, splitOn_size]
  | contain =>
    rw [hcontain, ← String.append_assoc, splitOn_size_append _ _ (by decide)]
  | cover =>
    rw [hcover, ← String.append_assoc, splitOn_size_append _ _ (by decide)]

theorem box?_args {r : Resize} (h : r.Fits) :
    FilterItem.box? (Filter.size r.width r.height ++ fitWord r.fit) = some r.box := by
  have hargs := splitOn_args r
  have hfit : FilterItem.fitOf (Filter.size r.width r.height ++ fitWord r.fit) = r.fit := by
    rw [FilterItem.fitOf, hargs]
    cases r.fit <;> rfl
  rw [FilterItem.box?, FilterItem.dimensions?_of_splitOn hargs h.1 h.2, Option.map_some, hfit]
  rfl

theorem dimensions?_size {r : Resize} (h : r.Fits) :
    FilterItem.dimensions? (Filter.size r.width r.height) =
      some (sideOf r.width, sideOf r.height) :=
  FilterItem.dimensions?_of_splitOn (splitOn_size _ _) h.1 h.2

/-- A resize is found with its box, whatever comes after it. -/
theorem scan_texts {r : Resize} (h : r.Fits) (rest : List String) :
    FilterItem.scan (r.item.texts ++ rest) = r.item :: FilterItem.scan rest := by
  have hbox : (Text.after? "scale=" r.scaleText).bind FilterItem.box? = some r.box := by
    rw [scaleText, Text.after?_append, Option.bind_some, box?_args h]
  by_cases hfit : r.fit = .cover
  · -- The crop comes right after the enlargement, and is of the same size.
    have hcrop : FilterItem.crops r.box ("crop=" ++ Filter.size r.width r.height) = true := by
      rw [FilterItem.crops, Text.after?_append, Option.bind_some, dimensions?_size h]
      exact beq_self_eq_true _
    have hpair : FilterItem.pair? r.scaleText ("crop=" ++ Filter.size r.width r.height) =
        some r.item := by
      have hcover : r.box.fit = .cover := hfit
      rw [FilterItem.pair?]
      simp only [hbox, hcover, hcrop]
      simp [item, cropText?, hfit]
    have htexts : r.item.texts = [r.scaleText, "crop=" ++ Filter.size r.width r.height] := by
      simp [item, FilterItem.texts, cropText?, hfit]
    rw [htexts, List.cons_append, List.cons_append, List.nil_append, FilterItem.scan, hpair]
  · have htexts : r.item.texts = [r.scaleText] := by
      simp [item, FilterItem.texts, cropText?, hfit]
    have hpair : ∀ next, FilterItem.pair? r.scaleText next = none :=
      FilterItem.pair?_eq_none fun box hb => by
        rw [hbox] at hb
        cases hb
        exact hfit
    have hsingle : FilterItem.single r.scaleText = r.item := by
      obtain ⟨args, hafter, hargs⟩ := Option.bind_eq_some_iff.1 hbox
      rw [FilterItem.single]
      simp only [hafter, hargs]
      have hcover : r.box.fit ≠ .cover := hfit
      simp [hcover, item, cropText?, hfit]
    rw [htexts, List.cons_append, List.nil_append, FilterItem.scan_cons hpair, hsingle]

theorem comma_notMem_size (w h : UInt32) : ',' ∉ (Filter.size w h).toList := by
  rw [Filter.size, String.toList_append, String.toList_append, List.mem_append, List.mem_append,
    not_or, not_or]
  exact ⟨⟨Filter.notMem_text rfl, by decide⟩, Filter.notMem_text rfl⟩

/-- The expressions of a resize are the one that scales and the one that
    crops. -/
theorem expressions_filter (r : Resize) : FilterItem.expressions r.filter = r.item.texts := by
  have hsize := hasNoBlank_size r.width r.height
  have hcomma := comma_notMem_size r.width r.height
  have hword : HasNoBlank (fitWord r.fit) := hasNoBlank_of_all (by cases r.fit <;> rfl)
  have hscale : FilterItem.expressions r.scaleText = [r.scaleText] := by
    have htoken : IsToken "scale=" := isToken_of_all (by decide) (by decide) (by decide)
    refine FilterItem.expressions_eq_singleton (htoken.append (hsize.append hword)).toIsWord ?_
    rw [scaleText, String.toList_append, String.toList_append, List.mem_append, List.mem_append,
      not_or, not_or]
    exact ⟨by decide, hcomma, by cases r.fit <;> decide⟩
  have hcrop : FilterItem.expressions ("crop=" ++ Filter.size r.width r.height) =
      ["crop=" ++ Filter.size r.width r.height] := by
    have htoken : IsToken "crop=" := isToken_of_all (by decide) (by decide) (by decide)
    refine FilterItem.expressions_eq_singleton (htoken.append hsize).toIsWord ?_
    rw [String.toList_append, List.mem_append, not_or]
    exact ⟨by decide, hcomma⟩
  rw [filter_eq, FilterItem.expressions_chain (List.cons_ne_nil _ _), List.flatMap_cons, hscale]
  rw [item, cropText?]
  split
  · rw [Option.toList_some, List.flatMap_singleton, hcrop]
    rfl
  · rfl

/-- A resize is found with its box. -/
theorem isFound_filter {r : Resize} (h : r.Fits) : FilterItem.IsFound r.filter r.item := by
  intro rest
  rw [expressions_filter, scan_texts h rest]
  rfl

end Resize

/-! ## Presets and frame rates -/

/-- The box of a preset's filter, if that is a change of size. -/
def Preset.box? (p : Preset) : Option ScaleBox :=
  match p.filter with
  | some "scale=-2:720" => some ⟨-2, 720, .stretch⟩
  | some "scale=-2:480" => some ⟨-2, 480, .stretch⟩
  | _ => none

/-- The filter of a preset is found with its box. -/
theorem isFound_presetFilter {p : Preset} (hp : p ∈ presets) {e : String}
    (he : p.filter = some e) :
    FilterItem.IsFound e (.single e) ∧ (FilterItem.single e).boxOf? = p.box? ∧
      (FilterItem.single e).colorOf? = none := by
  have hall : ∀ p ∈ presets, ∀ e ∈ p.filter, ',' ∉ e.toList ∧
      ((Text.after? "scale=" e).bind FilterItem.box?).all (fun box => box.fit != .cover) = true ∧
      (FilterItem.single e).boxOf? = p.box? ∧ (FilterItem.single e).colorOf?.isNone = true := by
    decide
  obtain ⟨hcomma, hcover, hbox, hcolor⟩ := hall p hp e he
  refine ⟨FilterItem.isFound_single (isToken_presetFilter hp he).toIsWord hcomma ?_, hbox,
    Option.isNone_iff_eq_none.1 hcolor⟩
  refine FilterItem.pair?_eq_none fun box hb => ?_
  rw [hb, Option.all_some] at hcover
  exact bne_iff_ne.1 hcover

theorem isFound_rate (n : UInt32) :
    FilterItem.IsFound ("fps=" ++ Number.text n.toNat) (.other ("fps=" ++ Number.text n.toNat)) := by
  have htoken : IsToken "fps=" := isToken_of_all (by decide) (by decide) (by decide)
  have hscale : Text.after? "scale=" ("fps=" ++ Number.text n.toNat) = none := by
    simp [Text.after?, Chars.after?, String.toList_append]
  have heq : Text.after? "eq=" ("fps=" ++ Number.text n.toNat) = none := by
    simp [Text.after?, Chars.after?, String.toList_append]
  have hsingle : FilterItem.single ("fps=" ++ Number.text n.toNat) =
      .other ("fps=" ++ Number.text n.toNat) := by
    rw [FilterItem.single]
    simp only [hscale, heq]
  rw [← hsingle]
  refine FilterItem.isFound_single (htoken.append (hasNoBlank_text _)).toIsWord ?_ ?_
  · rw [String.toList_append, List.mem_append, not_or]
    exact ⟨by decide, Filter.notMem_text rfl⟩
  · refine FilterItem.pair?_eq_none fun box hb => ?_
    rw [hscale] at hb
    cases hb

/-! ## Colours -/

theorem notMem_intercalate {c : Char} {sep : String} {parts : List String} (hsep : c ∉ sep.toList)
    (h : ∀ p ∈ parts, c ∉ p.toList) : c ∉ (String.intercalate sep parts).toList := by
  induction parts with
  | nil => simp [String.intercalate_nil]
  | cons p ps ih =>
    have ih := ih fun q hq => h q (List.mem_cons_of_mem _ hq)
    have hp := h p List.mem_cons_self
    cases ps with
    | nil => rwa [String.intercalate_singleton]
    | cons q qs =>
      rw [String.intercalate_cons_cons, String.toList_append, String.toList_append,
        List.mem_append, List.mem_append, not_or, not_or]
      exact ⟨⟨hp, hsep⟩, ih⟩

namespace Color

/-- The value of a part of an adjustment as it is written and read, if it is
    written at all. -/
def written? (value neutral : Float) : Option Float :=
  if Filter.number value == Filter.number neutral then none
  else Number.float? (Filter.number value)

/-- An adjustment as it is written and read, part by part. -/
def reread (c : Color) : Color where
  brightness := (written? c.brightness identity.brightness).getD identity.brightness
  contrast := (written? c.contrast identity.contrast).getD identity.contrast
  saturation := (written? c.saturation identity.saturation).getD identity.saturation
  hue := (written? c.hue identity.hue).getD identity.hue

/-- A part that is written is read with its name and its value. -/
theorem part?_text {name : String} {value : Float} (hname : HasNoBlank name)
    (heq : '=' ∉ name.toList) (hvalue : value.isFinite = true) :
    ∃ v, Number.float? (Filter.number value) = some v ∧
      FilterItem.part? (name ++ "=" ++ Filter.number value) = some (name, v) := by
  obtain ⟨v, y, hv, -, hfinite, -⟩ := Filter.float?_number hvalue
  have hsep : ("=" : String) = String.singleton '=' := rfl
  refine ⟨v, hv, ?_⟩
  rw [FilterItem.part?]
  rw [hsep, Text.cut?_append heq]
  simp only [Option.bind_eq_bind, Option.bind_some, (Filter.hasNoBlank_number hvalue).trim, hv,
    hname.trim, hfinite, if_true]

theorem notMem_activePart {c : Color} (h : c.isFinite = true) {e : String} (he : e ∈ c.activeParts) :
    ':' ∉ e.toList ∧ ',' ∉ e.toList := by
  obtain ⟨name, value, neutral, hmem, rfl⟩ := exists_of_mem_activeParts he
  obtain ⟨hvalue, -, -, hcolon, hcomma⟩ := of_mem_parts h hmem
  simp only [String.toList_append, List.mem_append, not_or]
  exact ⟨⟨⟨hcolon, by decide⟩, Filter.notMem_number hvalue rfl (by decide) (by decide)⟩,
    ⟨⟨hcomma, by decide⟩, Filter.notMem_number hvalue rfl (by decide) (by decide)⟩⟩

/-- What is read of the parts that are written. -/
theorem filterMap_part?_activeParts {c : Color} (h : c.isFinite = true) :
    c.activeParts.filterMap FilterItem.part? =
      c.parts.filterMap fun (name, value, neutral) => (written? value neutral).map (name, ·) := by
  rw [activeParts]
  rw [List.filterMap_filterMap]
  refine List.filterMap_congr ?_
  rintro ⟨name, value, neutral⟩ hmem
  obtain ⟨hvalue, hname, heq, -, -⟩ := of_mem_parts h hmem
  obtain ⟨v, hv, hpart⟩ := part?_text hname heq hvalue
  unfold written?
  simp only
  split
  · rfl
  · rw [Option.bind_some, hpart, hv]
    rfl

/-- The arguments of a change of colours are read as its parts were written. -/
theorem color?_activeParts {c : Color} (h : c.isFinite = true) (hne : c.activeParts ≠ []) :
    FilterItem.color? (String.intercalate ":" c.activeParts) = some c.reread := by
  have hsep : (":" : String) = String.singleton ':' := rfl
  have hsplit : splitOn ':' (String.intercalate ":" c.activeParts) = c.activeParts := by
    rw [hsep, splitOn_intercalate ':' hne, List.flatMap_congr fun e he =>
      splitOn_eq_singleton (notMem_activePart h he).1]
    exact List.flatMap_singleton' _
  have hread := filterMap_part?_activeParts h
  have hsome : c.activeParts.filterMap FilterItem.part? ≠ [] := by
    obtain ⟨e, he⟩ := List.exists_mem_of_ne_nil _ hne
    obtain ⟨name, value, neutral, hmem, rfl⟩ := exists_of_mem_activeParts he
    obtain ⟨hvalue, hname, heq, -, -⟩ := of_mem_parts h hmem
    obtain ⟨v, -, hpart⟩ := part?_text hname heq hvalue
    exact List.ne_nil_of_mem (List.mem_filterMap.2 ⟨_, he, hpart⟩)
  rw [FilterItem.color?, hsplit]
  rw [hread] at hsome ⊢
  unfold reread parts at *
  simp only [List.filterMap_cons, List.filterMap_nil] at hsome ⊢
  -- From here on all that matters is which of the parts are written, and that at
  -- least one is.
  generalize written? c.brightness identity.brightness = b at hsome ⊢
  generalize written? c.contrast identity.contrast = k at hsome ⊢
  generalize written? c.saturation identity.saturation = s at hsome ⊢
  generalize written? c.hue identity.hue = r at hsome ⊢
  cases b <;> cases k <;> cases s <;> cases r <;> first | rfl | exact absurd rfl hsome

/-- A change of colours is found with its values. -/
theorem isFound_filter {c : Color} (h : c.isFinite = true) {e : String} (he : c.filter? = some e) :
    FilterItem.IsFound e (.eq e c.reread) := by
  have htoken := isToken_colorFilter h he
  obtain ⟨hactive, he⟩ := Option.ite_none_left_eq_some.1 he
  rw [Bool.or_eq_true, not_or, List.isEmpty_iff] at hactive
  obtain rfl := Option.some.inj he
  have hscale : Text.after? "scale=" ("eq=" ++ String.intercalate ":" c.activeParts) = none := by
    simp [Text.after?, Chars.after?, String.toList_append]
  have hsingle : FilterItem.single ("eq=" ++ String.intercalate ":" c.activeParts) =
      .eq ("eq=" ++ String.intercalate ":" c.activeParts) c.reread := by
    rw [FilterItem.single]
    simp only [hscale, Text.after?_append, color?_activeParts h hactive.2]
  rw [← hsingle]
  refine FilterItem.isFound_single htoken.toIsWord ?_ ?_
  · rw [String.toList_append, List.mem_append, not_or]
    exact ⟨by decide, notMem_intercalate (by decide) fun e he => (notMem_activePart h he).2⟩
  · refine FilterItem.pair?_eq_none fun box hb => ?_
    rw [hscale] at hb
    cases hb

/-- A number is what the three-place text of another one denotes. -/
def Denotes (v x : Float) : Prop := ∃ y, Number.float? (Number.fixed 3 x) = some y ∧ (v == y) = true

/-- What is read of a part is what its value with three places denotes, whether
    or not it is written. -/
theorem denotes_written {x : Float} (neutral : Float) (hx : x.isFinite = true)
    (hneutral : Number.float? (Filter.number neutral) = some neutral) :
    Denotes ((written? x neutral).getD neutral) x := by
  obtain ⟨v, y, hv, hy, -, hvy⟩ := Filter.float?_number hx
  refine ⟨y, hy, ?_⟩
  rw [written?]
  split
  case isTrue h =>
    rw [beq_iff_eq.1 h, hneutral] at hv
    rw [Option.getD_none, Option.some.inj hv]
    exact hvy
  case isFalse =>
    rw [hv]
    exact hvy

theorem written?_of_eq {x neutral : Float} (h : Filter.number x = Filter.number neutral) :
    written? x neutral = none := by
  rw [written?, h, beq_self_eq_true, if_pos rfl]

/-- The values of an adjustment. -/
def values : List (Color → Float) := [brightness, contrast, saturation, hue]

/-- What an adjustment has to be read as: every value as what its text with
    three places denotes, and one that is left out as the neutral one. -/
def IsReadAs (c v : Color) : Prop :=
  ∀ value ∈ values, Denotes (value v) (value c) ∧
    (Filter.number (value c) = Filter.number (value identity) → value v = value identity)

theorem isReadAs_reread {c : Color} (h : c.isFinite = true) : c.IsReadAs c.reread := by
  have hneutral : ∀ value ∈ values,
      Number.float? (Filter.number (value identity)) = some (value identity) := by decide +kernel
  have hfinite : ∀ value ∈ values, (value c).isFinite = true := by
    rw [isFinite] at h
    simpa [values, and_assoc] using h
  have hreread : ∀ value ∈ values,
      value c.reread = (written? (value c) (value identity)).getD (value identity) := by
    simp only [values, List.forall_mem_cons, reread]
    exact ⟨trivial, trivial, trivial, trivial, fun _ h => by cases h⟩
  intro value hvalue
  rw [hreread value hvalue]
  refine ⟨denotes_written _ (hfinite value hvalue) (hneutral value hvalue), fun he => ?_⟩
  rw [written?_of_eq he, Option.getD_none]

end Color

end VideoExport
