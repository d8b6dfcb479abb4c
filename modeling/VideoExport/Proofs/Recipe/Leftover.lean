import VideoExport.Proofs.Recipe.Core
import VideoExport.Proofs.Wire.Relexing

/-!
# What nobody understands

Tokens that are not understood are put aside, and nothing else of a recipe
depends on them. They cannot get in the way of what is understood, either: no
flag is taken for the value of a word that nobody knows, and no such word for
the value of a flag that has one. So words that nobody knows may be put between
directives, wherever and as many as there are.

* `Directive.leftover`, `Recipe.ignored_foldl`: what is put aside;
* `Recipe.ofDirectives_eq`: a recipe is what is understood and what is put aside;
* `Directive.lex_among`: what is lexed of directives with other words among them;
* `Recipe.read_among`: the recipe stays the same, up to what is put aside.
-/

namespace VideoExport

namespace Directive

/-! ## Leftovers -/

/-- The tokens of a directive that nobody understands. -/
def leftover : Directive → List String
  | unknown tokens => tokens
  | _ => []

/-- What nobody understands is not nothing. -/
theorem unknown_nil_notMem_lex (ts : List String) : unknown [] ∉ lex ts := by
  fun_induction lex ts with
  | case1 => exact List.not_mem_nil
  | case2 token => simp
  | case3 token next rest f _ _ ih =>
    rw [List.mem_cons, not_or]
    refine ⟨fun he => ?_, ih⟩
    cases hpair : ofPair? f next with
    | none =>
      rw [hpair] at he
      cases he
    | some d =>
      rw [hpair, Option.getD_some] at he
      rw [← he] at hpair
      cases flag?_of_ofPair? hpair
  | case4 => simp [*]
  | case5 => simp [*]
  | case6 => simp [*]

/-- So nothing is left over of a directive that was read exactly if it is
    understood. -/
theorem leftover_eq_nil_iff {ts : List String} {d : Directive} (h : d ∈ lex ts) :
    d.leftover = [] ↔ d.flag?.isSome = true := by
  cases d with
  | unknown tokens =>
    refine iff_of_false (fun hnil => ?_) Bool.false_ne_true
    obtain rfl : tokens = [] := hnil
    exact unknown_nil_notMem_lex ts h
  | _ => exact iff_of_true rfl rfl

/-- Nothing is left over of what is understood. -/
theorem leftover_eq_nil {d : Directive} (h : d.flag?.isSome = true) : d.leftover = [] := by
  cases d <;> first | rfl | cases h

/-- All of what is not understood is left over. -/
theorem leftover_eq_toTokens {d : Directive} (h : d.flag? = none) : d.leftover = d.toTokens := by
  cases d <;> first | rfl | cases h

/-! ## Words that nobody knows -/

/-- Words that nobody knows end before a flag. -/
theorem lex_append_of_forall_named?_eq_none {words rest : List String}
    (hwords : ∀ t ∈ words, Flag.named? t = none) (hrest : ∀ t ∈ rest.head?, (Flag.named? t).isSome = true) :
    lex (words ++ rest) = lex words ++ lex rest := by
  -- By the recursion of lexing: only the last word has something else behind it.
  induction words using lex.induct with
  | case1 => rw [lex, List.nil_append, List.nil_append]
  | case2 t =>
    have ht := hwords t List.mem_cons_self
    cases rest with
    | nil => rw [lex, List.append_nil, List.append_nil, lex]
    | cons next rest =>
      obtain ⟨g, hg⟩ := Option.isSome_iff_exists.1 (hrest next rfl)
      have hlooks : looksLikeFlag next = true := by
        by_contra hlooks
        rw [named?_eq_none_of_looksLikeFlag (Bool.not_eq_true _ ▸ hlooks)] at hg
        cases hg
      rw [List.singleton_append, lex.eq_3, ht, hlooks, Bool.not_true, Bool.and_false, lex,
        List.singleton_append]
      rfl
  | case3 t _ _ f _ ht | case4 t _ _ f _ _ ht =>
    rw [hwords t List.mem_cons_self] at ht
    cases ht
  | case5 t next words ht hpair ih =>
    have ih := ih fun w hw => hwords w (List.mem_cons_of_mem _ (List.mem_cons_of_mem _ hw))
    rw [List.cons_append, List.cons_append, lex, lex, ht]
    simp only [hpair, if_true, ih, List.cons_append]
  | case6 t next words ht hpair ih =>
    have ih := ih fun w hw => hwords w (List.mem_cons_of_mem _ hw)
    rw [List.cons_append] at ih
    rw [List.cons_append, List.cons_append, lex, lex, ht]
    simp only [hpair, Bool.false_eq_true, if_false, ih, List.cons_append]

/-- Nothing of them is understood. -/
theorem flag?_eq_none_of_mem_lex {words : List String} (hwords : ∀ t ∈ words, Flag.named? t = none) :
    ∀ d ∈ lex words, d.flag? = none := by
  induction words using lex.induct with
  | case1 => simp [lex]
  | case2 t => simp [lex, flag?]
  | case3 t _ _ f _ ht | case4 t _ _ f _ _ ht =>
    rw [hwords t List.mem_cons_self] at ht
    cases ht
  | case5 t next words ht hpair ih =>
    rw [lex, ht]
    simp only [hpair, if_true, List.forall_mem_cons]
    exact ⟨rfl, ih fun w hw => hwords w (List.mem_cons_of_mem _ (List.mem_cons_of_mem _ hw))⟩
  | case6 t next words ht hpair ih =>
    rw [lex, ht]
    simp only [hpair, Bool.false_eq_true, if_false, List.forall_mem_cons]
    exact ⟨rfl, ih fun w hw => hwords w (List.mem_cons_of_mem _ hw)⟩

/-- All of them are left over, in the same order. -/
theorem flatMap_leftover_lex {words : List String} (hwords : ∀ t ∈ words, Flag.named? t = none) :
    (lex words).flatMap leftover = words := by
  have hsettled : IsSettled words := by
    induction words with
    | nil => exact isSettled_nil
    | cons t words ih =>
      rw [List.forall_mem_cons] at hwords
      exact (isSettled_unknown_cons hwords.1 words).2 (ih hwords.2)
  have hleftover : (lex words).flatMap leftover = tokens (lex words) :=
    List.flatMap_congr fun d hd => leftover_eq_toTokens (flag?_eq_none_of_mem_lex hwords d hd)
  rw [hleftover, hsettled]

/-! ## Words among directives -/

/-- The tokens of directives with other words among them: some before all of the
    directives, and some after each one. -/
def among (first : List String) (parts : List (Directive × List String)) : List String :=
  first ++ parts.flatMap fun p => p.1.toTokens ++ p.2

/-- A faithful directive is lexed into itself whatever comes after it. -/
theorem IsFaithful.lex_append {d : Directive} (hd : d.flag?.isSome = true) (h : d.IsFaithful)
    (rest : List String) : lex (d.toTokens ++ rest) = d :: lex rest := by
  obtain ⟨f, hf⟩ := Option.isSome_iff_exists.1 hd
  obtain ⟨hrepresentable, hvalue⟩ := (isFaithful_iff hd).1 h
  obtain ⟨value, htokens, hread⟩ := exists_ofPair?_iff hf
  rw [htokens, List.cons_append, List.singleton_append]
  exact lex_pair (hvalue value (by rw [valueText?, htokens]; rfl)) (hread.2 hrepresentable)

/-- What is lexed of faithful directives with words among them that nobody knows:
    the directives, and what is made of the words. -/
theorem lex_among {first : List String} {parts : List (Directive × List String)}
    (hflag : ∀ p ∈ parts, p.1.flag?.isSome = true) (hfaithful : ∀ p ∈ parts, p.1.IsFaithful)
    (hfirst : ∀ t ∈ first, Flag.named? t = none)
    (hwords : ∀ p ∈ parts, ∀ t ∈ p.2, Flag.named? t = none) :
    lex (among first parts) = lex first ++ parts.flatMap fun p => p.1 :: lex p.2 := by
  induction parts generalizing first with
  | nil => simp [among]
  | cons p parts ih =>
    rw [List.forall_mem_cons] at hflag hfaithful hwords
    have ih := ih hflag.2 hfaithful.2 hwords.1 hwords.2
    obtain ⟨f, hf⟩ := Option.isSome_iff_exists.1 hflag.1
    obtain ⟨value, htokens⟩ := exists_toTokens hf
    have hsplit : among first (p :: parts) = first ++ (p.1.toTokens ++ among p.2 parts) := by
      simp [among]
    have hhead : ∀ t ∈ (p.1.toTokens ++ among p.2 parts).head?, (Flag.named? t).isSome = true := by
      rw [htokens]
      rintro t ⟨⟩
      rw [Flag.named?_text]
      rfl
    rw [hsplit, lex_append_of_forall_named?_eq_none hfirst hhead, hfaithful.1.lex_append hflag.1, ih,
      List.flatMap_cons, List.cons_append]

/-- What is understood of directives with words among them that nobody knows is the
    directives. -/
theorem filter_lex_among {first : List String} {parts : List (Directive × List String)}
    (hflag : ∀ p ∈ parts, p.1.flag?.isSome = true) (hfaithful : ∀ p ∈ parts, p.1.IsFaithful)
    (hfirst : ∀ t ∈ first, Flag.named? t = none)
    (hwords : ∀ p ∈ parts, ∀ t ∈ p.2, Flag.named? t = none) :
    (lex (among first parts)).filter (fun d => d.flag?.isSome) = parts.map Prod.fst := by
  have hnone : ∀ {words : List String}, (∀ t ∈ words, Flag.named? t = none) →
      (lex words).filter (fun d => d.flag?.isSome) = [] := by
    intro words h
    rw [List.filter_eq_nil_iff]
    intro d hd
    rw [flag?_eq_none_of_mem_lex h d hd]
    exact Bool.false_ne_true
  rw [lex_among hflag hfaithful hfirst hwords, List.filter_append, hnone hfirst, List.nil_append]
  clear hfirst
  induction parts with
  | nil => rfl
  | cons p parts ih =>
    rw [List.forall_mem_cons] at hflag hfaithful hwords
    rw [List.flatMap_cons, List.filter_append, List.filter_cons, if_pos hflag.1, hnone hwords.1,
      ih hflag.2 hfaithful.2 hwords.2]
    rfl

/-- And the words are left over. -/
theorem flatMap_leftover_lex_among {first : List String} {parts : List (Directive × List String)}
    (hflag : ∀ p ∈ parts, p.1.flag?.isSome = true) (hfaithful : ∀ p ∈ parts, p.1.IsFaithful)
    (hfirst : ∀ t ∈ first, Flag.named? t = none)
    (hwords : ∀ p ∈ parts, ∀ t ∈ p.2, Flag.named? t = none) :
    (lex (among first parts)).flatMap leftover = first ++ parts.flatMap Prod.snd := by
  rw [lex_among hflag hfaithful hfirst hwords, List.flatMap_append, flatMap_leftover_lex hfirst,
    List.flatMap_assoc]
  congr 1
  refine List.flatMap_congr fun p hp => ?_
  rw [List.flatMap_cons, leftover_eq_nil (hflag p hp), List.nil_append,
    flatMap_leftover_lex (hwords p hp)]

end Directive

namespace Recipe

/-! ## Recipes -/

theorem ignored_foldl (ds : List Directive) (r : Recipe) :
    (ds.foldl apply r).ignored = r.ignored ++ ds.flatMap Directive.leftover := by
  induction ds generalizing r with
  | nil => exact (List.append_nil _).symm
  | cons d ds ih =>
    have hstep : (r.apply d).ignored = r.ignored ++ d.leftover := by
      cases d with
      | videoCodec c => cases c <;> exact (List.append_nil _).symm
      | audioCodec c => cases c <;> exact (List.append_nil _).symm
      | map t => cases t <;> exact (List.append_nil _).symm
      | unknown tokens => rfl
      | _ => exact (List.append_nil _).symm
    rw [List.foldl_cons, ih, hstep, List.flatMap_cons, List.append_assoc]

/-- A recipe ignores nothing of tokens exactly if all of them are understood. -/
theorem ignored_read_eq_nil_iff {ts : List String} {output : String} :
    (read ts output).ignored = [] ↔ ∀ d ∈ Directive.lex ts, d.flag?.isSome = true := by
  have hignored : (read ts output).ignored = (Directive.lex ts).flatMap Directive.leftover :=
    ignored_foldl (Directive.lex ts) (empty (Container.ofOutput output))
  rw [hignored, List.flatMap_eq_nil_iff]
  exact forall₂_congr fun d hd => Directive.leftover_eq_nil_iff hd

/-- A recipe without what was put aside. -/
def understood (r : Recipe) : Recipe := { r with ignored := [] }

/-- It is determined by the directives that are understood. -/
theorem governs_understood : Governs (fun d => d.flag?.isSome) understood where
  congr {r r'} h d := by
    have hself : ∀ r : Recipe, (r.apply d).understood = (r.understood.apply d).understood := by
      intro r
      cases d with
      | videoCodec c => cases c <;> rfl
      | audioCodec c => cases c <;> rfl
      | map t => cases t <;> rfl
      | _ => rfl
    rw [hself r, hself r', h]
  skip {d} h r := by cases d <;> first | rfl | cases h

/-- A recipe is what is understood of its directives, and what is put aside. -/
theorem ofDirectives_eq (ds : List Directive) (output : String) :
    ofDirectives ds output =
      { ofDirectives (ds.filter fun d => d.flag?.isSome) output with
        ignored := ds.flatMap Directive.leftover } := by
  have hunderstood := governs_understood.foldl_filter ds
    (rfl : (empty (Container.ofOutput output)).understood = _)
  have hignored := ignored_foldl ds (empty (Container.ofOutput output))
  have hsettle : ∀ r : Recipe, r.settle = { r.understood.settle with ignored := r.ignored } :=
    fun _ => rfl
  rw [ofDirectives, hsettle, hunderstood, hignored]
  rfl

/-- Words that nobody knows, among directives that are lexed into themselves, are put
    aside in their order, and the recipe is the same in all else. -/
theorem read_among {first : List String} {parts : List (Directive × List String)}
    (hflag : ∀ d ∈ parts.map Prod.fst, d.flag?.isSome = true)
    (hlex : Directive.lex (Directive.tokens (parts.map Prod.fst)) = parts.map Prod.fst)
    (hwords : ∀ t ∈ first ++ parts.flatMap Prod.snd, Flag.named? t = none) (output : String) :
    read (Directive.among first parts) output =
      { read (Directive.tokens (parts.map Prod.fst)) output with
        ignored := first ++ parts.flatMap Prod.snd } := by
  have hfaithful := (Directive.lex_tokens_eq_self_iff_isFaithful hflag).1 hlex
  rw [List.forall_mem_map] at hflag hfaithful
  rw [List.forall_mem_append, List.forall_mem_flatMap] at hwords
  rw [read, read, ofDirectives_eq, hlex,
    Directive.filter_lex_among hflag hfaithful hwords.1 hwords.2,
    Directive.flatMap_leftover_lex_among hflag hfaithful hwords.1 hwords.2]

/-- So it is for words that look like flags, at the start, at the end and between two
    directives. -/
theorem read_among_sample :
    let first := ["-tune", "film"]
    let parts := [(.speed "slow", ["high"]), (.map .allAudio, []), (.audioCodec .copy, ["-y", "-movflags"])]
    (∀ d ∈ parts.map Prod.fst, d.flag?.isSome = true) ∧
      Directive.lex (Directive.tokens (parts.map Prod.fst)) = parts.map Prod.fst ∧
      (∀ t ∈ first ++ parts.flatMap Prod.snd, Flag.named? t = none) ∧
      read ["-tune", "film", "-preset", "slow", "high", "-map", "0:a?", "-c:a", "copy", "-y", "-movflags"]
          "clip.mkv" =
        { read ["-preset", "slow", "-map", "0:a?", "-c:a", "copy"] "clip.mkv" with
          ignored := ["-tune", "film", "high", "-y", "-movflags"] } := by
  intro first parts
  have hflag : ∀ d ∈ parts.map Prod.fst, d.flag?.isSome = true := by
    simp only [parts, List.map_cons, List.map_nil, List.forall_mem_cons]
    exact ⟨rfl, rfl, rfl, fun _ h => by cases h⟩
  have hlex : Directive.lex (Directive.tokens (parts.map Prod.fst)) = parts.map Prod.fst := rfl
  have hwords : ∀ t ∈ first ++ parts.flatMap Prod.snd, Flag.named? t = none := by decide
  exact ⟨hflag, hlex, hwords, read_among hflag hlex hwords "clip.mkv"⟩

end Recipe

end VideoExport
