import VideoExport.Directive.Basic

/-!
# Lexing what was written

The tokens of a list of directives are lexed one directive at a time: each
starts with a known flag, which the value before it cannot swallow. So a value
that cannot be read, or that is itself a flag, spoils its own directive and no
other one.

* `lex_tokens`: lexing goes directive by directive;
* `flag?_of_mem_lex_toTokens`: a directive is lexed into one of its own flag or
  into tokens that nobody understands;
* `IsFaithful`: directives that are lexed into themselves;
* `filter_lex_tokens`: among directives of certain flags all that matters is
  that those are faithful.
-/

namespace VideoExport

namespace Flag

/-- A flag is spelled in one way only. -/
theorem text_of_named? {token : String} {f : Flag} (h : named? token = some f) : token = f.text := by
  unfold named? at h
  split at h <;> cases h <;> rfl

theorem head?_text (f : Flag) : f.text.toList.head? = some '-' := by cases f <;> rfl

/-- What starts with no dash is no flag. -/
theorem named?_eq_none {token : String} (h : token.toList.head? ≠ some '-') : named? token = none := by
  cases hf : named? token with
  | none => rfl
  | some f => exact absurd (text_of_named? hf ▸ head?_text f) h

end Flag

namespace Directive

/-- A directive that is understood is written as its flag and a value. -/
theorem exists_toTokens {d : Directive} {f : Flag} (h : d.flag? = some f) :
    ∃ value, d.toTokens = [f.text, value] := by
  cases d <;> cases h <;> exact ⟨_, rfl⟩

/-- A known flag before another one stands alone. -/
theorem lex_flag_flag (f g : Flag) (rest : List String) :
    lex (f.text :: g.text :: rest) = unknown [f.text] :: lex (g.text :: rest) := by
  simp [lex, Flag.named?_text]

/-- A known flag and a value that is no flag belong together. -/
theorem lex_flag_value (f : Flag) {value : String} (h : Flag.named? value = none)
    (rest : List String) :
    lex (f.text :: value :: rest) =
      (ofPair? f value).getD (unknown [f.text, value]) :: lex rest := by
  simp [lex, Flag.named?_text, h]

/-- What follows the tokens of a directive is lexed on its own, if it starts
    with a flag. -/
theorem lex_toTokens_append {d : Directive} {f g : Flag} {rest : List String}
    (h : d.flag? = some f) (hrest : rest.head? = some g.text) :
    lex (d.toTokens ++ rest) = lex d.toTokens ++ lex rest := by
  obtain ⟨value, hv⟩ := exists_toTokens h
  obtain ⟨tail, rfl⟩ := List.head?_eq_some_iff.1 hrest
  rw [hv, List.cons_append, List.cons_append, List.nil_append]
  cases hflag : Flag.named? value with
  | none => rw [lex_flag_value f hflag, lex_flag_value f hflag]; rfl
  | some v =>
    -- The value is a flag, and so is what follows: all of them stand alone.
    rw [Flag.text_of_named? hflag, lex_flag_flag, lex_flag_flag, lex_flag_flag]
    rfl

/-- Lexing goes directive by directive. -/
theorem lex_tokens {ds : List Directive} (h : ∀ d ∈ ds, d.flag?.isSome = true) :
    lex (tokens ds) = ds.flatMap fun d => lex d.toTokens := by
  induction ds with
  | nil => rfl
  | cons d ds ih =>
    obtain ⟨f, hf⟩ := Option.isSome_iff_exists.1 (h d List.mem_cons_self)
    have ih := ih fun d' hd' => h d' (List.mem_cons_of_mem _ hd')
    have htokens : tokens (d :: ds) = d.toTokens ++ tokens ds := rfl
    rw [htokens, List.flatMap_cons, ← ih]
    cases ds with
    | nil => simp [tokens, lex]
    | cons d' ds =>
      -- The next directive starts with a flag, so the first one ends before it.
      obtain ⟨g, hg⟩ := Option.isSome_iff_exists.1 (h d' (List.mem_cons_of_mem _ List.mem_cons_self))
      obtain ⟨value, hv⟩ := exists_toTokens hg
      refine lex_toTokens_append hf (g := g) ?_
      simp [tokens, hv]

/-- A directive is lexed into one of its own flag or into tokens that nobody
    understands. -/
theorem flag?_of_mem_lex_toTokens {d d' : Directive} {f : Flag} (h : d.flag? = some f)
    (hd' : d' ∈ lex d.toTokens) : d'.flag? = some f ∨ d'.flag? = none := by
  obtain ⟨value, hv⟩ := exists_toTokens h
  rw [hv] at hd'
  cases hflag : Flag.named? value with
  | none =>
    rw [lex_flag_value f hflag, lex, List.mem_singleton] at hd'
    cases hpair : ofPair? f value with
    | none => exact .inr (by rw [hd', hpair]; rfl)
    | some p => exact .inl (by rw [hd', hpair]; exact flag?_of_ofPair? hpair)
  | some v =>
    rw [Flag.text_of_named? hflag, lex_flag_flag, lex] at hd'
    right
    rcases List.mem_cons.1 hd' with rfl | hd'
    · rfl
    · rw [List.mem_singleton.1 hd']
      rfl

/-- A directive that is lexed into itself. -/
def IsFaithful (d : Directive) : Prop := lex d.toTokens = [d]

/-- A value that is no flag and is read as the directive that wrote it. -/
theorem isFaithful_of_ofPair? {d : Directive} {f : Flag} {value : String}
    (hd : d.toTokens = [f.text, value]) (hflag : Flag.named? value = none)
    (hpair : ofPair? f value = some d) : d.IsFaithful := by
  rw [IsFaithful, hd, lex_flag_value f hflag, hpair]
  rfl

/-- Where the directives of certain flags are faithful, these are all that
    lexing finds of them. -/
theorem filter_lex_tokens {ds : List Directive} {p : Directive → Bool}
    (hp : ∀ d d' : Directive, d.flag? = d'.flag? → p d = p d')
    (hunknown : ∀ d : Directive, d.flag? = none → p d = false)
    (h : ∀ d ∈ ds, d.flag?.isSome = true) (hfaithful : ∀ d ∈ ds, p d = true → d.IsFaithful) :
    (lex (tokens ds)).filter p = ds.filter p := by
  rw [lex_tokens h]
  induction ds with
  | nil => rfl
  | cons d ds ih =>
    obtain ⟨f, hf⟩ := Option.isSome_iff_exists.1 (h d List.mem_cons_self)
    rw [List.flatMap_cons, List.filter_append,
      ih (fun d' hd' => h d' (List.mem_cons_of_mem _ hd'))
        fun d' hd' => hfaithful d' (List.mem_cons_of_mem _ hd'), List.filter_cons]
    cases hpd : p d with
    | true =>
      have hlex : lex d.toTokens = [d] := hfaithful d List.mem_cons_self hpd
      simp [hlex, hpd]
    | false =>
      -- Whatever the directive is lexed into, it is not among those that count.
      have hnone : (lex d.toTokens).filter p = [] := by
        rw [List.filter_eq_nil_iff]
        intro d' hd'
        rw [Bool.not_eq_true]
        rcases flag?_of_mem_lex_toTokens hf hd' with h' | h'
        · rw [hp d' d (h'.trans hf.symm), hpd]
        · exact hunknown d' h'
      simp [hnone]

end Directive

end VideoExport
