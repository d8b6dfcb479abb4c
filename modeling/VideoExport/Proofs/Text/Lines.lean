import VideoExport.Proofs.Text.Pieces

/-!
# Lines and words

A line end separates: the lines before it and the lines after it are those of two texts. What
was joined from lines is taken apart into the same lines, if none of them holds a line end or
ends with what would be part of one.

* `lines_append_cons`: lines around a line feed;
* `lines_join`: lines that were joined;
* `trim_append_blank`, `words_cons_blank`: a word beside a blank;
* `cutAround?_append`: a mark that does not begin before it is found where it stands.
-/

namespace VideoExport.Text.Chars

/-! ## Lines -/

/-- A line as it is known: without the carriage return before its line feed. -/
def bare (l : List Char) : List Char := if l.getLast? = some '\r' then l.dropLast else l

/-- A line that can be written and read: it holds no line feed, and its end is no part of a
    line end. -/
structure IsLine (l : List Char) : Prop where
  ne_nil : l ≠ []
  notMem : '\n' ∉ l
  getLast?_ne : l.getLast? ≠ some '\r'

theorem bare_eq_self {l : List Char} (h : l.getLast? ≠ some '\r') : bare l = l := if_neg h

theorem lines_def (s : List Char) :
    lines s = ((splitOn '\n' s).dropLast.map bare) ++
      (match (splitOn '\n' s).getLast? with | none | some [] => [] | some last => [last]) := by
  rw [lines]
  cases (splitOn '\n' s).getLast? with
  | none => exact (List.append_nil _).symm
  | some last =>
    cases last with
    | nil => exact (List.append_nil _).symm
    | cons c last => rfl

/-- A line feed ends all lines before it. -/
theorem lines_append_cons (s t : List Char) :
    lines (s ++ '\n' :: t) = (splitOn '\n' s).map bare ++ lines t := by
  have hne := splitOn_ne_nil '\n' t
  have hlast : (splitOn '\n' s ++ splitOn '\n' t).getLast? = (splitOn '\n' t).getLast? := by
    rw [List.getLast?_append, List.getLast?_eq_some_getLast hne, Option.some_or]
  rw [lines_def, lines_def, splitOn_append_cons, List.dropLast_append_of_ne_nil hne, hlast,
    List.map_append, List.append_assoc]

theorem lines_append_of_notMem {l : List Char} (hl : '\n' ∉ l) (hr : l.getLast? ≠ some '\r')
    (s : List Char) : lines (l ++ '\n' :: s) = l :: lines s := by
  rw [lines_append_cons, splitOn_eq_singleton hl, List.map_singleton, bare_eq_self hr]
  rfl

theorem IsLine.lines_eq {l : List Char} (h : IsLine l) : lines l = [l] := by
  rw [lines_def, splitOn_eq_singleton h.notMem]
  cases l with
  | nil => exact absurd rfl h.ne_nil
  | cons c l => rfl

/-- What was joined from lines has these lines. -/
theorem lines_join {ls : List (List Char)} (h : ∀ l ∈ ls, IsLine l) : lines (join '\n' ls) = ls := by
  induction ls with
  | nil => rfl
  | cons l ls ih =>
    have hl := h l List.mem_cons_self
    cases ls with
    | nil => exact hl.lines_eq
    | cons m ls =>
      rw [join, lines_append_of_notMem hl.notMem hl.getLast?_ne,
        ih fun k hk => h k (List.mem_cons_of_mem _ hk)]

/-- The last piece of a text ends like the text, unless this ends with a separator. -/
theorem exists_getLast?_splitOn {sep c : Char} {s : List Char} (hs : s.getLast? = some c)
    (hc : c ≠ sep) : ∃ l, (splitOn sep s).getLast? = some l ∧ l.getLast? = some c := by
  induction s with
  | nil => cases hs
  | cons d s ih =>
    cases s with
    | nil =>
      obtain rfl : d = c := Option.some.inj hs
      exact ⟨[d], by rw [splitOn, if_neg hc]; rfl, rfl⟩
    | cons e s =>
      obtain ⟨l, hl, hlast⟩ := ih hs
      obtain ⟨p, ps, hsplit⟩ := List.exists_cons_of_ne_nil (splitOn_ne_nil sep (e :: s))
      rw [splitOn, hsplit]
      rw [hsplit] at hl
      split
      · exact ⟨l, by rw [List.getLast?_cons_cons, hl], hlast⟩
      · cases ps with
        | nil =>
          obtain rfl : p = l := Option.some.inj hl
          refine ⟨d :: p, rfl, ?_⟩
          cases p with
          | nil => cases hlast
          | cons f p => exact hlast
        | cons q ps => exact ⟨l, hl, hlast⟩

/-- A line feed more at the end of a text is no line more. -/
theorem lines_concat {s : List Char} {c : Char} (hs : s.getLast? = some c) (hn : c ≠ '\n')
    (hr : c ≠ '\r') : lines (s ++ ['\n']) = lines s := by
  obtain ⟨l, hl, hlast⟩ := exists_getLast?_splitOn hs hn
  have hbare : bare l = l := bare_eq_self (by rw [hlast]; exact fun h => hr (Option.some.inj h))
  obtain ⟨init, hinit⟩ := List.getLast?_eq_some_iff.1 hl
  rw [lines_append_cons, lines_def s, hl, hinit, List.dropLast_concat, List.map_append,
    List.map_singleton, hbare, List.append_assoc]
  cases l with
  | nil => cases hlast
  | cons d l => rfl

/-! ## Words -/

/-- A blank after a word does not matter. -/
theorem trim_append_blank {s : List Char} (hs : ∀ c ∈ s, isBlank c = false) {b : Char}
    (hb : isBlank b = true) : trim (s ++ [b]) = s := by
  cases s with
  | nil =>
    rw [List.nil_append, trim, trimStart, List.dropWhile_cons_of_pos hb]
    rfl
  | cons c s =>
    rw [List.cons_append, trim, trimStart_eq_self (hs c List.mem_cons_self), trimEnd,
      ← List.cons_append, List.reverse_append, List.reverse_singleton, List.singleton_append,
      List.dropWhile_cons_of_pos hb,
      dropWhile_isBlank fun d hd => hs d (List.mem_reverse.1 hd), List.reverse_reverse]

/-- After a blank there is the word that follows it. -/
theorem words_cons_blank {s : List Char} (hs : ∀ c ∈ s, isBlank c = false) (hne : s ≠ [])
    {b : Char} (hb : isBlank b = true) : words (b :: s) = [s] := by
  let step (c : Char) (acc : List Char × List (List Char)) : List Char × List (List Char) :=
    if isBlank c then ([], if acc.1.isEmpty then acc.2 else acc.1 :: acc.2) else (c :: acc.1, acc.2)
  have hfold : s.foldr step ([], []) = (s, []) := by
    clear hne
    induction s with
    | nil => rfl
    | cons c s ih =>
      rw [List.foldr_cons, ih fun d hd => hs d (List.mem_cons_of_mem _ hd)]
      simp [step, hs c List.mem_cons_self]
  have hlast : (b :: s).foldr step ([], []) = ([], [s]) := by
    rw [List.foldr_cons, hfold]
    simp [step, hb, hne]
  have hwords : words (b :: s) =
      if ((b :: s).foldr step ([], [])).1.isEmpty then ((b :: s).foldr step ([], [])).2
      else ((b :: s).foldr step ([], [])).1 :: ((b :: s).foldr step ([], [])).2 := rfl
  rw [hwords, hlast]
  rfl

/-! ## Marks -/

theorem cutAround?_eq_none {c : Char} {mark s : List Char} (h : c ∉ s) :
    cutAround? (c :: mark) s = none := by
  induction s with
  | nil => rfl
  | cons d s ih =>
    have hhead : (d :: s).head? ≠ some c := fun hd => h (Option.some.inj hd ▸ List.mem_cons_self)
    rw [cutAround?, after?_eq_none hhead, ih fun hc => h (List.mem_cons_of_mem _ hc)]
    rfl

/-- A mark whose first character does not come before it is found where it stands. -/
theorem cutAround?_append {c : Char} {mark s : List Char} (h : c ∉ s) (t : List Char) :
    cutAround? (c :: mark) (s ++ (c :: mark ++ t)) = some (s, t) := by
  induction s with
  | nil =>
    rw [List.nil_append, List.cons_append, cutAround?, ← List.cons_append, after?_append]
  | cons d s ih =>
    have hhead : ∀ r : List Char, (d :: r).head? ≠ some c := fun r hd =>
      h (Option.some.inj hd ▸ List.mem_cons_self)
    rw [List.cons_append, cutAround?, after?_eq_none (hhead _),
      ih fun hc => h (List.mem_cons_of_mem _ hc)]
    rfl

end VideoExport.Text.Chars
