import VideoExport.Proofs.Text.Lines
import VideoExport.Tool.Srt

/-!
# Blocks of subtitles

A text is read block by block: what stands before a pair of line feeds and what stands after it
are read as if they were two texts. A run of more line feeds than two does not matter, since a
block is the same with a line feed more at either of its ends.

* `unifyLineEnds_append`: line ends on both sides of a line feed;
* `filterMap_resume_append`: the blocks around a pair of line feeds;
* `readChars_append`: the texts around a pair of line feeds.
-/

namespace VideoExport

open Text Text.Chars

namespace Srt

/-! ## Line ends -/

theorem unifyLineEnds_cons {c : Char} {s : List Char} (h : c = '\r' → s.head? ≠ some '\n') :
    unifyLineEnds (c :: s) = c :: unifyLineEnds s := by
  rw [unifyLineEnds]
  rintro rest rfl rfl
  exact h rfl rfl

/-- A line feed alone ends the lines of a text already. -/
theorem unifyLineEnds_eq_self {s : List Char} (h : '\n' ∉ s ∨ '\r' ∉ s) : unifyLineEnds s = s := by
  induction s with
  | nil => rfl
  | cons c s ih =>
    rw [unifyLineEnds_cons, ih (h.imp (mt (List.mem_cons_of_mem c)) (mt (List.mem_cons_of_mem c)))]
    rintro rfl hn
    rcases h with h | h
    · exact h (List.mem_cons_of_mem _ (List.mem_of_mem_head? hn))
    · exact h List.mem_cons_self

/-- Both sides of a line feed are unified on their own, unless it is the second half of a line
    end. -/
theorem unifyLineEnds_append {s : List Char} (h : s.getLast? ≠ some '\r') (t : List Char) :
    unifyLineEnds (s ++ '\n' :: t) = unifyLineEnds s ++ '\n' :: unifyLineEnds t := by
  fun_induction unifyLineEnds s with
  | case1 rest ih =>
    rw [List.cons_append, List.cons_append, unifyLineEnds, ih, List.cons_append]
    intro hrest
    rw [List.getLast?_cons_cons, List.getLast?_cons, hrest] at h
    exact h rfl
  | case2 c rest hne ih =>
    rw [List.cons_append, unifyLineEnds_cons, ih, List.cons_append]
    · intro hrest
      rw [List.getLast?_cons, hrest] at h
      exact h rfl
    · rintro rfl hhead
      cases rest with
      | nil => exact h rfl
      | cons d rest =>
        obtain rfl : d = '\n' := Option.some.inj hhead
        exact hne rest rfl rfl
  | case3 =>
    refine unifyLineEnds_cons fun hc => ?_
    cases hc

theorem getLast?_cons_cases {c d : Char} {s : List Char} (h : (c :: s).getLast? = some d) :
    c = d ∨ s.getLast? = some d := by
  rw [List.getLast?_cons] at h
  cases hs : s.getLast? with
  | none => exact .inl (by simpa [hs] using h)
  | some e => exact .inr (by simpa [hs] using h)

/-- A text whose line ends are unified without leaving a carriage return does not end with
    one. -/
theorem getLast?_ne_of_notMem {s : List Char} (h : '\r' ∉ unifyLineEnds s) :
    s.getLast? ≠ some '\r' := by
  intro hlast
  fun_induction unifyLineEnds s with
  | case1 rest ih =>
    rw [List.getLast?_cons_cons] at hlast
    rcases getLast?_cons_cases hlast with hc | hlast
    · cases hc
    · exact ih (mt (List.mem_cons_of_mem _) h) hlast
  | case2 c rest _ ih =>
    rcases getLast?_cons_cases hlast with rfl | hlast
    · exact h List.mem_cons_self
    · exact ih (mt (List.mem_cons_of_mem _) h) hlast
  | case3 => cases hlast

/-- A text with a carriage return before every line feed. -/
def withCarriageReturns (s : List Char) : List Char :=
  s.flatMap fun c => if c = '\n' then ['\r', '\n'] else [c]

theorem unifyLineEnds_withCarriageReturns {s : List Char} (h : '\r' ∉ s) :
    unifyLineEnds (withCarriageReturns s) = s := by
  induction s with
  | nil => rfl
  | cons c s ih =>
    rw [List.mem_cons, not_or] at h
    rw [withCarriageReturns, List.flatMap_cons, ← withCarriageReturns]
    split
    case isTrue hc =>
      rw [List.cons_append, List.cons_append, List.nil_append, unifyLineEnds, ih h.2, hc]
    case isFalse =>
      rw [List.singleton_append, unifyLineEnds_cons fun hc => absurd hc.symm h.1, ih h.2]

/-! ## Blocks -/

theorem blocks_ne_nil (s : List Char) : blocks s ≠ [] := by
  fun_induction blocks s <;> simp

/-- A character that does not begin a pair of line feeds belongs to the first block. -/
theorem blocks_cons {c : Char} {s : List Char} (h : c = '\n' → s.head? ≠ some '\n') :
    blocks (c :: s) = (blocks s).modifyHead (c :: ·) := by
  obtain ⟨b, bs, hblocks⟩ := List.exists_cons_of_ne_nil (blocks_ne_nil s)
  rw [blocks, hblocks]
  · rfl
  · rintro rest rfl rfl
    exact h rfl rfl

/-- The blocks of a text whose first block has begun before it. -/
def resume (begun s : List Char) : List (List Char) := (blocks s).modifyHead (begun ++ ·)

theorem resume_nil (s : List Char) : resume [] s = blocks s := congrFun List.modifyHead_id _

theorem resume_end (begun : List Char) : resume begun [] = [begun] := by simp [resume, blocks]

theorem resume_pair (begun s : List Char) : resume begun ('\n' :: '\n' :: s) = begun :: blocks s := by
  simp [resume, blocks]

theorem resume_cons {c : Char} {s : List Char} (h : c = '\n' → s.head? ≠ some '\n')
    (begun : List Char) : resume begun (c :: s) = resume (begun ++ [c]) s := by
  rw [resume, resume, blocks_cons h, List.modifyHead_modifyHead]
  congr 1
  funext b
  simp

/-- Characters other than line feeds belong to the block that has begun. -/
theorem resume_append {l : List Char} (h : '\n' ∉ l) (begun s : List Char) :
    resume begun (l ++ s) = resume (begun ++ l) s := by
  induction l generalizing begun with
  | nil => rw [List.nil_append, List.append_nil]
  | cons c l ih =>
    rw [List.mem_cons, not_or] at h
    rw [List.cons_append, resume_cons fun hc => absurd hc.symm h.1, ih h.2, List.append_assoc,
      List.singleton_append]

theorem resume_line {l s : List Char} (hl : '\n' ∉ l) (hs : s.head? ≠ some '\n')
    (begun : List Char) : resume begun (l ++ '\n' :: s) = resume (begun ++ (l ++ ['\n'])) s := by
  rw [resume_append hl, resume_cons fun _ => hs, List.append_assoc]

/-! ## Line feeds around blocks -/

/-- An empty line before a block does not matter. -/
theorem cue?_cons (block : List Char) : cue? ('\n' :: block) = cue? block := by
  have hlines : lines ('\n' :: block) = [] :: lines block :=
    lines_append_of_notMem (l := []) List.not_mem_nil (fun h => nomatch h) block
  rw [cue?, cue?, hlines]
  rfl

/-- A line feed at the end of a block does not matter. -/
theorem cue?_concat {block : List Char} (hn : block.getLast? ≠ some '\n')
    (hr : block.getLast? ≠ some '\r') : cue? (block ++ ['\n']) = cue? block := by
  cases hlast : block.getLast? with
  | none =>
    rw [List.getLast?_eq_none_iff.1 hlast]
    exact cue?_cons []
  | some c =>
    rw [hlast, Ne, Option.some.injEq] at hn hr
    rw [cue?, cue?, lines_concat hlast hn hr]

/-- A line feed before a text does not matter. -/
theorem filterMap_blocks_cons (s : List Char) :
    (blocks ('\n' :: s)).filterMap cue? = (blocks s).filterMap cue? := by
  induction s with
  | nil => rfl
  | cons c s ih =>
    by_cases hc : c = '\n'
    · -- The pair that begins here ends an empty block; what follows is the text less one of them.
      subst hc
      rw [blocks, ih]
      rfl
    · have hhead : (c :: s).head? ≠ some '\n' := fun h => hc (Option.some.inj h)
      rw [blocks_cons fun _ => hhead]
      obtain ⟨b, bs, hblocks⟩ := List.exists_cons_of_ne_nil (blocks_ne_nil (c :: s))
      rw [hblocks, List.modifyHead_cons, List.filterMap_cons, List.filterMap_cons, cue?_cons]

/-- The blocks around a pair of line feeds are those of both sides, as far as they are
    subtitles. A run of line feeds may be cut into pairs otherwise in the whole than on either
    side. -/
theorem filterMap_resume_append (begun : List Char) {s : List Char}
    (hn : begun.getLast? = some '\n' → s.head? ≠ some '\n')
    (hr : ∀ before, begun ++ s ≠ before ++ ['\r', '\n']) (t : List Char) :
    (resume begun (s ++ '\n' :: '\n' :: t)).filterMap cue? =
      (resume begun s).filterMap cue? ++ (blocks t).filterMap cue? := by
  have hsplit : ∀ (block : List Char) (rest : List (List Char)),
      (block :: rest).filterMap cue? = (cue? block).toList ++ rest.filterMap cue? := by
    intro block rest
    rw [List.filterMap_cons]
    cases cue? block <;> rfl
  induction s using blocks.induct generalizing begun with
  | case1 =>
    rw [List.nil_append, resume_pair, resume_end, hsplit, hsplit, List.filterMap_nil,
      List.append_nil]
  | case2 rest ih =>
    have hrest := ih [] (fun h => nomatch h) fun before h =>
      hr (begun ++ '\n' :: '\n' :: before) (by rw [List.nil_append] at h; simp [h])
    rw [resume_nil, resume_nil] at hrest
    rw [List.cons_append, List.cons_append, resume_pair, resume_pair, hsplit, hsplit, hrest,
      List.append_assoc]
  | case3 c rest _ hnone => exact absurd hnone (blocks_ne_nil rest)
  | case4 c rest hpair _ _ _ ih =>
    have hc : c = '\n' → rest.head? ≠ some '\n' := by
      rintro rfl hhead
      obtain ⟨rest', rfl⟩ := List.head?_eq_some_iff.1 hhead
      exact hpair rest' rfl rfl
    by_cases hend : c = '\n' ∧ rest = []
    · -- The line feed that is left over makes a pair with the first one after the text, and the
      -- second one is left over before what follows.
      obtain ⟨rfl, rfl⟩ := hend
      rw [List.singleton_append, resume_pair, resume_cons hc, resume_end, hsplit, hsplit,
        filterMap_blocks_cons, cue?_concat (fun h => hn h rfl) fun h => ?_, List.filterMap_nil,
        List.append_nil]
      obtain ⟨before, rfl⟩ := List.getLast?_eq_some_iff.1 h
      exact hr before (by simp)
    · have hseam : c = '\n' → (rest ++ '\n' :: '\n' :: t).head? ≠ some '\n' := by
        intro hline
        obtain ⟨d, rest', rfl⟩ := List.exists_cons_of_ne_nil fun h => hend ⟨hline, h⟩
        exact hc hline
      rw [List.cons_append, resume_cons hseam, resume_cons hc]
      refine ih (begun ++ [c]) (fun h => hc ?_) fun before h => hr before (by simpa using h)
      simpa using h

/-- The blocks around a pair of line feeds are those of both sides, as far as they are
    subtitles. -/
theorem filterMap_blocks_append {s : List Char} (hr : ∀ before, s ≠ before ++ ['\r', '\n'])
    (t : List Char) :
    (blocks (s ++ '\n' :: '\n' :: t)).filterMap cue? =
      (blocks s).filterMap cue? ++ (blocks t).filterMap cue? := by
  have h := filterMap_resume_append [] (fun h => nomatch h) hr t
  rwa [resume_nil, resume_nil] at h

/-- Texts around a pair of line feeds are read on their own. -/
theorem readChars_append {s : List Char} (hend : s.getLast? ≠ some '\r')
    (hr : ∀ before, unifyLineEnds s ≠ before ++ ['\r', '\n']) (t : List Char) :
    readChars (s ++ '\n' :: '\n' :: t) = readChars s ++ readChars t := by
  have hfeed : unifyLineEnds ('\n' :: t) = '\n' :: unifyLineEnds t :=
    unifyLineEnds_cons fun h => nomatch h
  rw [readChars, unifyLineEnds_append hend, hfeed, filterMap_blocks_append hr]
  rfl

theorem readChars_append_of_notMem {s : List Char} (h : '\r' ∉ unifyLineEnds s) (t : List Char) :
    readChars (s ++ '\n' :: '\n' :: t) = readChars s ++ readChars t :=
  readChars_append (getLast?_ne_of_notMem h) (fun before hb => h (by simp [hb])) t

end Srt

end VideoExport
