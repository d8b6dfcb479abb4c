import VideoExport.Proofs.Number.Reread
import VideoExport.Proofs.Wire.RoundTrip

/-!
# Lexing again

Values take one form when they are lexed: texts lose the blanks around them,
codecs become lower case, rates whole kilobits and times three places. A value
in this form is read as itself. But it may have become spelled like a flag,
which it was not before; then it stands alone the next time, and takes the word
after it for its own value. Nothing happens if that word is already in the form
that it would take. Otherwise the tokens change.

* `Directive.exists_ofPair?_reread`: a value that was read has its last form;
* `Directive.LeavesAlone`: neighbours that keep their tokens;
* `Directive.tokens_lex_tokens_lex_iff`: which lists of tokens are lexed into
  directives whose tokens stay the same;
* `Directive.tokens_lex_blank_flag`: a list of tokens for which they do not.
-/

namespace VideoExport

open Number Text

/-! ## Values -/

/-- A codec that was read is written as a text that is read as this text. -/
theorem CodecValue.exists_read?_text {text : String} {c : CodecValue} (h : read? text = some c) :
    ∃ c', read? c.text = some c' ∧ c'.text = c.text := by
  cases c with
  | copy => exact ⟨copy, read?_copy, rfl⟩
  | named name =>
    rw [read?, Option.map_eq_some_iff] at h
    obtain ⟨t, ht, hread⟩ := h
    split at hread
    · cases hread
    case isFalse =>
      obtain rfl := named.inj hread
      have htrim : IsTrimmed (lower t) := (isTrimmed_of_nonBlank? ht).lower
      rw [read?, CodecValue.text, nonBlank?_eq_self_iff.2 htrim, Option.map_some]
      split
      case isTrue hcopy =>
        -- Only now it is the word for copying, which has the same text.
        have hlower : lower t = "copy" := lower_eq_of_sameIgnoringCase (by simp) hcopy
        exact ⟨copy, rfl, hlower.symm⟩
      case isFalse => exact ⟨_, rfl, lower_lower t⟩

/-- A time that was read is written as a text that is read as a time with this
    text. -/
theorem exists_seconds?_text {text : String} {s : Float} (h : seconds? text = some s) :
    ∃ s', seconds? (Timecode.wire s) = some s' ∧ Timecode.wire s' = Timecode.wire s := by
  rw [seconds?, Option.filter_eq_some_iff, Bool.and_eq_true, decide_eq_true_eq] at h
  obtain ⟨-, hfinite, hs⟩ := h
  obtain ⟨t, hread, ht⟩ := exists_seconds?_wire hfinite hs
  obtain ⟨d, hd⟩ := exists_ofFloat? hfinite
  rw [Timecode.IsReread, float?_wire hd] at hread
  cases hread
  exact ⟨_, ht, fixed_reread hd (negative_eq_false_or hd hs)⟩

namespace Directive

/-- A value that was read is written in a form that is read as this form. -/
theorem exists_ofPair?_reread {f : Flag} {text : String} {d : Directive} (h : ofPair? f text = some d) :
    ∃ value d', d.toTokens = [f.text, value] ∧ ofPair? f value = some d' ∧
      d'.toTokens = [f.text, value] := by
  -- All values but codecs and times are read as what they were.
  have hself : d.IsRepresentable → ∃ value d', d.toTokens = [f.text, value] ∧
      ofPair? f value = some d' ∧ d'.toTokens = [f.text, value] := by
    intro hd
    obtain ⟨value, htokens, hread⟩ := exists_ofPair?_iff (flag?_of_ofPair? h)
    exact ⟨value, d, htokens, hread.2 hd, htokens⟩
  cases f <;> simp only [ofPair?] at h <;> obtain ⟨v, hv, rfl⟩ := Option.map_eq_some_iff.1 h
  case trimStart | trimDuration =>
    obtain ⟨s, hs, hsame⟩ := exists_seconds?_text hv
    exact ⟨_, _, rfl, by rw [ofPair?, hs]; rfl, by simp only [toTokens, hsame]; rfl⟩
  case videoCodec | audioCodec =>
    obtain ⟨c, hc, hsame⟩ := CodecValue.exists_read?_text hv
    exact ⟨_, _, rfl, by rw [ofPair?, hc]; rfl, by simp only [toTokens, hsame]; rfl⟩
  case subtitleCodec | speed | videoFilter => exact hself (isTrimmed_of_nonBlank? hv)
  case videoRate | audioRate | maxRate | bufferSize => exact hself (Kbps.pos_of_read? hv)
  case qp | crf | threads | quality | map => exact hself trivial

/-! ## Tokens -/

/-- Tokens that lexing and writing leaves as they are. -/
def IsSettled (ts : List String) : Prop := tokens (lex ts) = ts

theorem tokens_cons (d : Directive) (ds : List Directive) :
    tokens (d :: ds) = d.toTokens ++ tokens ds := rfl

theorem isSettled_nil : IsSettled [] := by rw [IsSettled, lex, tokens, List.flatMap_nil]

theorem isSettled_singleton (t : String) : IsSettled [t] := by
  rw [IsSettled, lex]
  rfl

theorem isSettled_flag_flag (f g : Flag) (rest : List String) :
    IsSettled (f.text :: g.text :: rest) ↔ IsSettled (g.text :: rest) := by
  rw [IsSettled, lex_flag_flag, tokens_cons, toTokens, List.singleton_append, List.cons_inj_right,
    IsSettled]

/-- A flag and its value stay as they are if the value has its last form, or
    none at all. -/
theorem isSettled_flag_value (f : Flag) {value : String} (h : Flag.named? value = none)
    (rest : List String) :
    IsSettled (f.text :: value :: rest) ↔
      (∀ d, ofPair? f value = some d → d.toTokens = [f.text, value]) ∧ IsSettled rest := by
  rw [IsSettled, lex_flag_value f h, tokens_cons]
  cases hpair : ofPair? f value with
  | none => simp [toTokens, IsSettled]
  | some d =>
    obtain ⟨v, hv⟩ := exists_toTokens (flag?_of_ofPair? hpair)
    simp [hv, IsSettled]

/-- A word that does not look like a flag is none. -/
theorem named?_eq_none_of_looksLikeFlag {t : String} (h : looksLikeFlag t = false) :
    Flag.named? t = none := by
  cases hf : Flag.named? t with
  | none => rfl
  | some f =>
    rw [Flag.text_of_named? hf] at h
    exact absurd h (by cases f <;> decide)

/-- Words that are no flags stay as they are. -/
theorem isSettled_unknown_cons {t : String} (h : Flag.named? t = none) (ts : List String) :
    IsSettled (t :: ts) ↔ IsSettled ts := by
  cases ts with
  | nil => exact iff_of_true (isSettled_singleton t) isSettled_nil
  | cons next rest =>
    rw [IsSettled, lex, h]
    simp only
    split_ifs with hpair
    · -- The word behind an unknown flag does not look like a flag, so it is none.
      rw [Bool.and_eq_true, Bool.not_eq_true'] at hpair
      rw [isSettled_unknown_cons (named?_eq_none_of_looksLikeFlag hpair.2), tokens_cons, toTokens]
      simp [IsSettled]
    · rw [tokens_cons, toTokens, List.singleton_append, List.cons_inj_right, IsSettled]
termination_by ts.length

/-- The first directive starts with the token that came first. -/
theorem head?_toTokens_of_mem_lex {ts : List String} {d : Directive} (h : d ∈ (lex ts).head?) :
    d.toTokens.head? = ts.head? := by
  unfold lex at h
  split at h
  · cases h
  · obtain rfl := Option.some.inj h
    rfl
  · split at h
    case h_1 f hf _ =>
      obtain rfl := Option.some.inj h
      rw [Flag.text_of_named? hf]
      cases hpair : ofPair? f _ with
      | none => rfl
      | some d => exact head?_toTokens (flag?_of_ofPair? hpair)
    case h_2 =>
      obtain rfl := Option.some.inj h
      rfl
    case h_3 => split at h <;> obtain rfl := Option.some.inj h <;> rfl

theorem exists_tokens_lex_cons (t : String) (ts : List String) :
    ∃ rest, tokens (lex (t :: ts)) = t :: rest := by
  obtain ⟨d, ds, hds⟩ := List.exists_cons_of_ne_nil (lex_ne_nil (List.cons_ne_nil t ts))
  have hhead : d.toTokens.head? = some t := head?_toTokens_of_mem_lex (by rw [hds]; rfl)
  obtain ⟨tail, htail⟩ := List.head?_eq_some_iff.1 hhead
  exact ⟨tail ++ tokens ds, by rw [hds, tokens_cons, htail, List.cons_append]⟩

/-! ## Neighbours -/

/-- Two neighbours of which the first one has a value that is spelled like a
    flag, unless the second one starts with a word that is none. Then that word
    must be in the form which it takes as the value of this flag. -/
def LeavesAlone (d d' : Directive) : Prop :=
  ∀ g : Flag, d.valueText? = some g.text → ∀ t, d'.toTokens.head? = some t → Flag.named? t = none →
    ∀ p, ofPair? g t = some p → p.toTokens = [g.text, t]

theorem leavesAlone_of_named?_eq_none {d d' : Directive} (h : ∀ v ∈ d.valueText?, Flag.named? v = none) :
    LeavesAlone d d' := by
  intro g hg
  have := h _ hg
  rw [Flag.named?_text] at this
  cases this

/-- The first directive of a list only matters for the one behind it. -/
theorem isChain_cons_of_named?_eq_none {d : Directive} {ds : List Directive}
    (h : ∀ v ∈ d.valueText?, Flag.named? v = none) :
    (d :: ds).IsChain LeavesAlone ↔ ds.IsChain LeavesAlone := by
  rw [List.isChain_cons]
  exact and_iff_right fun _ _ => leavesAlone_of_named?_eq_none h

/-- Where a value has become a flag, it takes the word behind it. -/
theorem isSettled_flag_cons (g : Flag) {d : Directive} (hd : d.valueText? = some g.text)
    (ts : List String) :
    IsSettled (g.text :: tokens (lex ts)) ↔
      (∀ d' ∈ (lex ts).head?, LeavesAlone d d') ∧ IsSettled (tokens (lex ts)) := by
  have hleaves : ∀ d' ∈ (lex ts).head?, (LeavesAlone d d' ↔
      ∀ t ∈ ts.head?, Flag.named? t = none → ∀ p, ofPair? g t = some p → p.toTokens = [g.text, t]) := by
    intro d' hd'
    rw [LeavesAlone, head?_toTokens_of_mem_lex hd']
    constructor
    · exact fun h => h g hd
    · intro h g' hg'
      -- The text of a flag is that of no other one.
      have hsame := congrArg Flag.named? (Option.some.inj (hd.symm.trans hg'))
      rw [Flag.named?_text, Flag.named?_text] at hsame
      rw [← Option.some.inj hsame]
      exact h
  rw [forall₂_congr hleaves]
  cases ts with
  | nil => simp [lex, tokens, isSettled_nil, isSettled_singleton]
  | cons t ts =>
    obtain ⟨first, hfirst⟩ : ∃ first, (lex (t :: ts)).head? = some first := by
      obtain ⟨first, _, h⟩ := List.exists_cons_of_ne_nil (lex_ne_nil (List.cons_ne_nil t ts))
      exact ⟨first, by rw [h]; rfl⟩
    obtain ⟨rest, hrest⟩ := exists_tokens_lex_cons t ts
    rw [hrest, hfirst]
    cases ht : Flag.named? t with
    | some f =>
      rw [Flag.text_of_named? ht, isSettled_flag_flag]
      simp [Flag.named?_text]
    | none =>
      rw [isSettled_flag_value g ht, isSettled_unknown_cons ht]
      simp [ht]

/-- Lexing a second time leaves the tokens as they are exactly if no value that
    has become spelled like a flag changes the word behind it. -/
theorem tokens_lex_tokens_lex_iff (ts : List String) :
    tokens (lex (tokens (lex ts))) = tokens (lex ts) ↔ (lex ts).IsChain LeavesAlone := by
  change IsSettled (tokens (lex ts)) ↔ _
  -- By the recursion of lexing: each directive is settled on its own, unless its
  -- value has become a flag.
  induction ts using lex.induct with
  | case1 => simp [lex, tokens, isSettled_nil]
  | case2 t => simp [lex, tokens, toTokens, isSettled_singleton]
  | case3 token value rest f hvalue htoken ih =>
    rw [Flag.text_of_named? htoken, lex_flag_value f hvalue, tokens_cons]
    cases hpair : ofPair? f value with
    | none =>
      rw [Option.getD_none, toTokens, List.cons_append, List.singleton_append,
        isSettled_flag_value f hvalue, isChain_cons_of_named?_eq_none (by simp [valueText?, toTokens, hvalue]),
        ← ih]
      simp [hpair]
    | some d =>
      obtain ⟨written, d', htokens, hread, hsame⟩ := exists_ofPair?_reread hpair
      have hwritten : d.valueText? = some written := by rw [valueText?, htokens]; rfl
      rw [Option.getD_some, htokens, List.cons_append, List.singleton_append]
      cases hflag : Flag.named? written with
      | none =>
        rw [isSettled_flag_value f hflag, isChain_cons_of_named?_eq_none (by simp [hwritten, hflag]), ← ih]
        simp [hread, hsame]
      | some g =>
        obtain rfl := Flag.text_of_named? hflag
        rw [isSettled_flag_flag, isSettled_flag_cons g hwritten, ih, List.isChain_cons]
  | case4 token next rest f g hnext htoken ih =>
    obtain rfl := Flag.text_of_named? htoken
    obtain rfl := Flag.text_of_named? hnext
    obtain ⟨tail, htail⟩ := exists_tokens_lex_cons g.text rest
    rw [lex_flag_flag, tokens_cons, toTokens, List.singleton_append,
      isChain_cons_of_named?_eq_none (by simp [valueText?, toTokens]), ← ih, htail, isSettled_flag_flag]
  | case5 token next rest htoken hpair ih =>
    have hnext : Flag.named? next = none := by
      rw [Bool.and_eq_true, Bool.not_eq_true'] at hpair
      exact named?_eq_none_of_looksLikeFlag hpair.2
    have hlex : lex (token :: next :: rest) = unknown [token, next] :: lex rest := by
      rw [lex, htoken]
      exact if_pos hpair
    rw [hlex, tokens_cons, toTokens, List.cons_append, List.singleton_append,
      isSettled_unknown_cons htoken, isSettled_unknown_cons hnext,
      isChain_cons_of_named?_eq_none (by simp [valueText?, toTokens, hnext]), ih]
  | case6 token next rest htoken hpair ih =>
    have hlex : lex (token :: next :: rest) = unknown [token] :: lex (next :: rest) := by
      rw [lex, htoken]
      exact if_neg hpair
    rw [hlex, tokens_cons, toTokens, List.singleton_append, isSettled_unknown_cons htoken,
      isChain_cons_of_named?_eq_none (by simp [valueText?, toTokens]), ih]

/-- A speed that is a flag after trimming takes the word behind it, whose number
    then loses its zero. -/
theorem tokens_lex_blank_flag :
    let ts := ["-preset", " -crf", "05"]
    tokens (lex ts) = ["-preset", "-crf", "05"] ∧
      tokens (lex (tokens (lex ts))) = ["-preset", "-crf", "5"] ∧
      tokens (lex (tokens (lex ts))) ≠ tokens (lex ts) := by
  decide +kernel

end Directive

end VideoExport
