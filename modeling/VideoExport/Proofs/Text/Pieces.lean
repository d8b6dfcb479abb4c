import VideoExport.Text.Blank
import VideoExport.Text.Split

/-!
# Words and pieces

What is written without blanks is read without loss: trimming leaves it alone,
what was put before it can be taken away again, and what was joined by a
separator can be taken apart.

* `IsWord`: texts that are not empty and have no blanks;
* `IsWord.nonBlank?`: trimming leaves them alone;
* `splitOn_intercalate`: the pieces of a text that was joined are those of its
  parts.
-/

namespace VideoExport.Text

/-! ## Words -/

/-- A text without blanks. -/
def HasNoBlank (s : String) : Prop := ∀ c ∈ s.toList, isBlank c = false

/-- A text that is not empty and has no blanks. -/
structure IsWord (s : String) : Prop where
  ne_empty : s ≠ ""
  noBlank : HasNoBlank s

theorem hasNoBlank_of_all {s : String} (h : s.toList.all (fun c => !isBlank c) = true) :
    HasNoBlank s := by
  intro c hc
  simpa using List.all_eq_true.1 h c hc

theorem Chars.dropWhile_isBlank {s : List Char} (h : ∀ c ∈ s, isBlank c = false) :
    s.dropWhile isBlank = s := by
  cases s with
  | nil => rfl
  | cons c s => exact Chars.trimStart_eq_self (h c List.mem_cons_self)

theorem Chars.trim_eq_self {s : List Char} (h : ∀ c ∈ s, isBlank c = false) : Chars.trim s = s := by
  rw [Chars.trim, Chars.trimStart, dropWhile_isBlank h, Chars.trimEnd,
    dropWhile_isBlank fun c hc => h c (List.mem_reverse.1 hc), List.reverse_reverse]

theorem HasNoBlank.trim {s : String} (h : HasNoBlank s) : trim s = s := by
  rw [Text.trim, Chars.trim_eq_self h, String.ofList_toList]

/-- Trimming leaves a word alone. -/
theorem IsWord.nonBlank? {s : String} (h : IsWord s) : nonBlank? s = some s := by
  have hempty : s.isEmpty = false := by
    rw [← Bool.not_eq_true, String.isEmpty_iff]
    exact h.ne_empty
  simp [Text.nonBlank?, h.noBlank.trim, hempty]

theorem HasNoBlank.append {s t : String} (hs : HasNoBlank s) (ht : HasNoBlank t) :
    HasNoBlank (s ++ t) := by
  intro c hc
  rw [String.toList_append, List.mem_append] at hc
  rcases hc with hc | hc
  · exact hs c hc
  · exact ht c hc

theorem IsWord.append {s t : String} (hs : IsWord s) (ht : HasNoBlank t) : IsWord (s ++ t) :=
  ⟨fun h => hs.ne_empty (String.append_eq_empty_iff.1 h).1, hs.noBlank.append ht⟩

/-- A digit is no blank. -/
theorem isBlank_of_isDigit {c : Char} (h : c.isDigit = true) : isBlank c = false := by
  simp only [Char.isDigit, Bool.and_eq_true, decide_eq_true_eq, ge_iff_le,
    UInt32.le_iff_toNat_le] at h
  -- Digits have the codes from 48 to 57, among which there is no blank.
  have h0 : ('0' : Char).val.toNat = 48 := rfl
  have h9 : ('9' : Char).val.toNat = 57 := rfl
  have hc : c.toNat = c.val.toNat := rfl
  simp only [isBlank, hc]
  simp
  omega

/-! ## Pieces -/

namespace Chars

theorem splitOn_eq_singleton {sep : Char} {s : List Char} (h : sep ∉ s) : splitOn sep s = [s] := by
  induction s with
  | nil => rfl
  | cons c s ih =>
    rw [List.mem_cons, not_or] at h
    rw [splitOn, if_neg (Ne.symm h.1), ih h.2]

/-- Around a separator a text is split on both sides. -/
theorem splitOn_append_cons (sep : Char) (s t : List Char) :
    splitOn sep (s ++ sep :: t) = splitOn sep s ++ splitOn sep t := by
  induction s with
  | nil => simp [splitOn]
  | cons c s ih =>
    rw [List.cons_append, splitOn, splitOn, ih]
    split
    · rfl
    · cases h : splitOn sep s with
      | nil => exact absurd h (splitOn_ne_nil sep s)
      | cons p ps => rfl

theorem after?_append (lead s : List Char) : after? lead (lead ++ s) = some s := by
  induction lead with
  | nil => cases s <;> rfl
  | cons c lead ih => rw [List.cons_append, after?, if_pos rfl, ih]

/-- A text that starts otherwise does not start with the lead. -/
theorem after?_eq_none {c : Char} {lead s : List Char} (h : s.head? ≠ some c) :
    after? (c :: lead) s = none := by
  cases s with
  | nil => rfl
  | cons d s =>
    rw [List.head?_cons, Ne, Option.some.injEq] at h
    rw [after?, if_neg (Ne.symm h)]

/-- What a text starts with and what follows it make up the text. -/
theorem eq_append_of_after? {lead s rest : List Char} (h : after? lead s = some rest) :
    s = lead ++ rest := by
  induction lead generalizing s with
  | nil => exact Option.some.inj h
  | cons c lead ih =>
    cases s with
    | nil => cases h
    | cons d s =>
      obtain ⟨rfl, hrest⟩ := Option.ite_none_right_eq_some.1 h
      rw [ih hrest, List.cons_append]

theorem cutAt?_eq_none {p : Char → Bool} {s : List Char} (h : ∀ x ∈ s, p x = false) :
    cutAt? p s = none := by
  induction s with
  | nil => rfl
  | cons x s ih =>
    have hx : ¬p x = true := by rw [h x List.mem_cons_self]; exact Bool.false_ne_true
    rw [cutAt?, if_neg hx, ih fun y hy => h y (List.mem_cons_of_mem _ hy)]
    rfl

theorem cutAt?_append {p : Char → Bool} {s t : List Char} {c : Char}
    (hs : ∀ x ∈ s, p x = false) (hc : p c = true) : cutAt? p (s ++ c :: t) = some (s, t) := by
  induction s with
  | nil => rw [List.nil_append, cutAt?, if_pos hc]
  | cons x s ih =>
    have hx : ¬p x = true := by rw [hs x List.mem_cons_self]; exact Bool.false_ne_true
    rw [List.cons_append, cutAt?, if_neg hx, ih fun y hy => hs y (List.mem_cons_of_mem _ hy)]
    rfl

end Chars

theorem after?_append (lead s : String) : after? lead (lead ++ s) = some s := by
  rw [after?, String.toList_append, Chars.after?_append, Option.map_some, String.ofList_toList]

theorem after?_eq_none {lead s : String} {c : Char} (hlead : lead.toList.head? = some c)
    (h : s.toList.head? ≠ some c) : after? lead s = none := by
  obtain ⟨rest, hrest⟩ := List.head?_eq_some_iff.1 hlead
  rw [after?, hrest, Chars.after?_eq_none h, Option.map_none]

/-- No text starts in two ways. -/
theorem after?_eq_none_of_after? {lead lead' s rest : String} {c d : Char}
    (hlead : lead.toList.head? = some c) (hlead' : lead'.toList.head? = some d) (hne : c ≠ d)
    (h : after? lead' s = some rest) : after? lead s = none := by
  obtain ⟨rest', h, -⟩ := Option.map_eq_some_iff.1 h
  refine after?_eq_none hlead ?_
  rw [Chars.eq_append_of_after? h, List.head?_append, hlead', Option.some_or, Ne, Option.some.injEq]
  exact hne.symm

theorem startsWith_append (lead s : String) : startsWith lead (lead ++ s) = true := by
  rw [startsWith, String.toList_append, Chars.after?_append]
  rfl

theorem splitOn_eq_singleton {sep : Char} {s : String} (h : sep ∉ s.toList) :
    splitOn sep s = [s] := by
  rw [splitOn, Chars.splitOn_eq_singleton h, List.map_singleton, String.ofList_toList]

theorem splitOn_append (sep : Char) (s t : String) :
    splitOn sep (s ++ String.singleton sep ++ t) = splitOn sep s ++ splitOn sep t := by
  have hlist : (s ++ String.singleton sep ++ t).toList = s.toList ++ sep :: t.toList := by
    simp [String.toList_append]
  rw [splitOn, hlist, Chars.splitOn_append_cons, List.map_append]
  rfl

/-- The pieces of a text that was joined are those of its parts. -/
theorem splitOn_intercalate (sep : Char) {parts : List String} (h : parts ≠ []) :
    splitOn sep (String.intercalate (String.singleton sep) parts) =
      parts.flatMap (splitOn sep) := by
  -- The last part has no separator after it, so it is a case of its own.
  induction parts with
  | nil => exact absurd rfl h
  | cons p ps ih =>
    cases ps with
    | nil => simp [String.intercalate_singleton]
    | cons q qs =>
      rw [String.intercalate_cons_cons, splitOn_append, ih (List.cons_ne_nil q qs), ← List.flatMap_cons]

theorem cut?_append {sep : Char} {s t : String} (h : sep ∉ s.toList) :
    cut? sep (s ++ String.singleton sep ++ t) = some (s, t) := by
  have hlist : (s ++ String.singleton sep ++ t).toList = s.toList ++ sep :: t.toList := by
    simp [String.toList_append]
  have hs : ∀ x ∈ s.toList, (x == sep) = false := fun x hx =>
    beq_eq_false_iff_ne.2 fun he => h (he ▸ hx)
  simp only [cut?, hlist, Chars.cutAt?_append hs (beq_self_eq_true sep), Option.map_some,
    String.ofList_toList]

theorem cut?_eq_none {sep : Char} {s : String} (h : sep ∉ s.toList) : cut? sep s = none := by
  have hs : ∀ x ∈ s.toList, (x == sep) = false := fun x hx =>
    beq_eq_false_iff_ne.2 fun he => h (he ▸ hx)
  rw [cut?, Chars.cutAt?_eq_none hs, Option.map_none]

end VideoExport.Text
