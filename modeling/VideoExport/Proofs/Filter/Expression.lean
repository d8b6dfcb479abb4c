import VideoExport.Proofs.Filter.Number
import VideoExport.Proofs.Wire.Values
import VideoExport.Preset

/-!
# The texts of filter expressions

Filter expressions are words: they have no blanks, so a chain of them travels
as one token. Nor do they hold the characters that separate expressions,
arguments and parts, other than where these separate.

* `isToken_resizeFilter`, `isToken_colorFilter`, `isToken_presetFilter`: the
  expressions of settings are tokens;
* `isToken_chain`: and so are chains of them.
-/

namespace VideoExport

open Number Text

namespace Filter

/-! ## Numbers -/

/-- The characters of numbers. -/
theorem mem_number {x : Float} (hx : x.isFinite = true) {c : Char} (h : c ∈ (number x).toList) :
    c.isDigit = true ∨ c = '.' ∨ c = '-' := by
  obtain ⟨d, hd⟩ := exists_ofFloat? hx
  have hwhole : ∀ c ∈ wholeChars d, c.isDigit = true ∨ c = '.' ∨ c = '-' := by
    intro c hc
    rcases List.mem_append.1 hc with hc | hc
    · rw [Numeral.signChars] at hc
      split at hc
      · exact .inr (.inr (List.mem_singleton.1 hc))
      · cases hc
    · exact .inl (isDigit_of_mem_digits hc)
  rw [toList_number hd] at h
  split at h
  · rw [List.mem_singleton.1 h]
    exact .inl rfl
  · rw [chars] at h
    split at h
    · exact hwhole c h
    · rcases List.mem_append.1 h with h | h
      · exact hwhole c h
      · rcases List.mem_cons.1 h with rfl | h
        · exact .inr (.inl rfl)
        · exact .inl (isDigit_of_mem_places h)

/-- A character that is neither a digit nor a point nor a dash is in no number. -/
theorem notMem_number {x : Float} (hx : x.isFinite = true) {c : Char} (hd : c.isDigit = false)
    (hpoint : c ≠ '.') (hdash : c ≠ '-') : c ∉ (number x).toList := by
  intro h
  rcases mem_number hx h with h | h | h
  · rw [hd] at h
    cases h
  · exact hpoint h
  · exact hdash h

theorem hasNoBlank_number {x : Float} (hx : x.isFinite = true) : HasNoBlank (number x) := by
  intro c hc
  rcases mem_number hx hc with h | rfl | rfl
  · exact isBlank_of_isDigit h
  · rfl
  · rfl

theorem notMem_text {n : ℕ} {c : Char} (hd : c.isDigit = false) : c ∉ (Number.text n).toList := by
  intro h
  rw [Number.text, String.toList_ofList] at h
  rw [isDigit_of_mem_digits h] at hd
  cases hd

end Filter

/-! ## Tokens -/

theorem hasNoBlank_intercalate {sep : String} {parts : List String} (hsep : HasNoBlank sep)
    (h : ∀ p ∈ parts, HasNoBlank p) : HasNoBlank (String.intercalate sep parts) := by
  induction parts with
  | nil => simp [HasNoBlank, String.intercalate_nil]
  | cons p ps ih =>
    have ih := ih fun q hq => h q (List.mem_cons_of_mem _ hq)
    have hp := h p List.mem_cons_self
    cases ps with
    | nil => rwa [String.intercalate_singleton]
    | cons q qs =>
      rw [String.intercalate_cons_cons]
      exact (hp.append hsep).append ih

theorem hasNoBlank_comma : HasNoBlank "," := by simp [HasNoBlank]; decide

theorem hasNoBlank_colon : HasNoBlank ":" := by simp [HasNoBlank]; decide

/-- A chain of tokens is a token. -/
theorem isToken_chain {parts : List String} (hne : parts ≠ []) (h : ∀ p ∈ parts, IsToken p) :
    IsToken (Filter.chain parts) := by
  cases parts with
  | nil => exact absurd rfl hne
  | cons p ps =>
    have hp := h p List.mem_cons_self
    cases ps with
    | nil => rwa [Filter.chain, String.intercalate_singleton]
    | cons q qs =>
      rw [Filter.chain, String.intercalate_cons_cons, String.append_assoc]
      refine hp.append (hasNoBlank_comma.append (hasNoBlank_intercalate hasNoBlank_comma ?_))
      exact fun q' hq' => (h q' (List.mem_cons_of_mem _ hq')).noBlank

theorem hasNoBlank_size (w h : UInt32) : HasNoBlank (Filter.size w h) :=
  ((hasNoBlank_text _).append hasNoBlank_colon).append (hasNoBlank_text _)

/-- A constant text is checked character by character. -/
theorem isToken_of_all {s : String} (hne : s ≠ "") (h : s.toList.all (fun c => !isBlank c) = true)
    (hhead : s.toList.head? ≠ some '-') : IsToken s :=
  ⟨⟨hne, hasNoBlank_of_all h⟩, hhead⟩

theorem isToken_resizeFilter (r : Resize) : IsToken r.filter := by
  have hscale : IsToken "scale=" := isToken_of_all (by decide) (by decide) (by decide)
  have hbox := hscale.append (hasNoBlank_size r.width r.height)
  rw [Resize.filter]
  cases r.fit with
  | stretch => exact hbox
  | contain => exact hbox.append (hasNoBlank_of_all rfl)
  | cover =>
    exact (hbox.append (hasNoBlank_of_all rfl)).append
      (hasNoBlank_size r.width r.height)

namespace Color

/-- The parts of a finite adjustment have finite values, and names without
    separators. -/
theorem of_mem_parts {c : Color} (h : c.isFinite = true) {name : String} {value neutral : Float}
    (hmem : (name, value, neutral) ∈ c.parts) :
    value.isFinite = true ∧ HasNoBlank name ∧ '=' ∉ name.toList ∧ ':' ∉ name.toList ∧
      ',' ∉ name.toList := by
  rw [isFinite] at h
  simp only [Bool.and_eq_true] at h
  obtain ⟨⟨⟨hb, hc⟩, hs⟩, hh⟩ := h
  simp only [parts, List.mem_cons, Prod.mk.injEq, List.not_mem_nil, or_false] at hmem
  rcases hmem with ⟨rfl, rfl, -⟩ | ⟨rfl, rfl, -⟩ | ⟨rfl, rfl, -⟩ | ⟨rfl, rfl, -⟩
  · exact ⟨hb, hasNoBlank_of_all rfl, by decide, by decide, by decide⟩
  · exact ⟨hc, hasNoBlank_of_all rfl, by decide, by decide, by decide⟩
  · exact ⟨hs, hasNoBlank_of_all rfl, by decide, by decide, by decide⟩
  · exact ⟨hh, hasNoBlank_of_all rfl, by decide, by decide, by decide⟩

/-- A part that is written comes with its name and a finite value. -/
theorem exists_of_mem_activeParts {c : Color} {e : String} (he : e ∈ c.activeParts) :
    ∃ name value neutral, (name, value, neutral) ∈ c.parts ∧
      e = name ++ "=" ++ Filter.number value := by
  obtain ⟨⟨name, value, neutral⟩, hmem, hpart⟩ := List.mem_filterMap.1 he
  exact ⟨name, value, neutral, hmem,
    (Option.some.inj (Option.ite_none_left_eq_some.1 hpart).2).symm⟩

theorem hasNoBlank_of_mem_activeParts {c : Color} (h : c.isFinite = true) {e : String}
    (he : e ∈ c.activeParts) : HasNoBlank e := by
  obtain ⟨name, value, neutral, hmem, rfl⟩ := exists_of_mem_activeParts he
  obtain ⟨hvalue, hname, -⟩ := of_mem_parts h hmem
  exact (hname.append (hasNoBlank_of_all (by decide))).append (Filter.hasNoBlank_number hvalue)

theorem isToken_colorFilter {c : Color} (h : c.isFinite = true) {e : String}
    (he : c.filter? = some e) : IsToken e := by
  have heq : IsToken "eq=" := isToken_of_all (by decide) (by decide) (by decide)
  rw [filter?] at he
  split at he
  · cases he
  · rw [← Option.some.inj he]
    exact heq.append (hasNoBlank_intercalate hasNoBlank_colon fun _ => hasNoBlank_of_mem_activeParts h)

end Color

/-- The filters of presets are tokens. -/
theorem isToken_presetFilter {p : Preset} (hp : p ∈ presets) {e : String} (he : p.filter = some e) :
    IsToken e := by
  have hall : ∀ p ∈ presets, ∀ e ∈ p.filter, e ≠ "" ∧ e.toList.all (fun c => !isBlank c) = true ∧
      e.toList.head? ≠ some '-' := by decide
  obtain ⟨hne, hblank, hhead⟩ := hall p hp e he
  exact isToken_of_all hne hblank hhead

end VideoExport
