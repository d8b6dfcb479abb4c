import VideoExport.Proofs.Recipe.Leftover

/-!
# Every token has its place

Lexing loses no token and makes none up. A known flag and a value that it can
take are a pair, which is told from the two alone, wherever they stand: no flag
is ever taken for the value of another token. What is understood is the pairs.
Their values are written in one form; all other tokens stay what they are, in
their places, and are put aside.

* `Directive.pairAt?`, `Directive.isPaired`: pairs, by places of tokens;
* `Directive.IsLexed`: all that lexing does, one directive at a time;
* `Directive.AccountFor`: directives that account for every token of a list;
* `Recipe.accountFor_read`: those that were lexed do, and what is ignored is
  the tokens without a pair.
-/

namespace VideoExport

namespace Directive

/-! ## Pairs -/

/-- The directive of two tokens: a known flag, and a value that is no flag and
    that the flag can take. -/
def ofTokens? (token value : String) : Option Directive :=
  match Flag.named? token, Flag.named? value with
  | some flag, none => ofPair? flag value
  | _, _ => none

/-- The directive of the tokens in a place and behind it. -/
def pairAt? (ts : List String) (i : Nat) : Option Directive :=
  match ts[i]?, ts[i + 1]? with
  | some token, some value => ofTokens? token value
  | _, _ => none

/-- The directive whose value is in a place. -/
def pairBefore? (ts : List String) : Nat → Option Directive
  | 0 => none
  | i + 1 => pairAt? ts i

/-- Whether the token in a place belongs to a pair, as its flag or its value. -/
def isPaired (ts : List String) (i : Nat) : Bool := (pairAt? ts i).isSome || (pairBefore? ts i).isSome

/-- The pairs of a list of tokens, in order. -/
def pairs (ts : List String) : List Directive := (List.range ts.length).filterMap (pairAt? ts)

/-- The tokens that belong to no pair, in order. -/
def unpaired (ts : List String) : List String :=
  (List.range ts.length).filterMap fun i => if isPaired ts i then none else ts[i]?

theorem ofTokens?_text (f : Flag) {value : String} (h : Flag.named? value = none) :
    ofTokens? f.text value = ofPair? f value := by
  rw [ofTokens?, Flag.named?_text, h]

/-- Two tokens of which the first one is no flag are no pair. -/
theorem ofTokens?_eq_none {token : String} (h : Flag.named? token = none) (value : String) :
    ofTokens? token value = none := by
  rw [ofTokens?, h]

section Cons

variable {t : String} {ts : List String}

theorem pairAt?_cons_succ (t : String) (ts : List String) (i : Nat) :
    pairAt? (t :: ts) (i + 1) = pairAt? ts i := rfl

/-- No pair starts with a token that is no flag. -/
theorem pairAt?_zero_eq_none (h : Flag.named? t = none) (ts : List String) :
    pairAt? (t :: ts) 0 = none := by
  cases ts with
  | nil => rfl
  | cons v ts => exact ofTokens?_eq_none h v

/-- A token that starts no pair leaves the values where they are. -/
theorem pairBefore?_cons_succ (h : pairAt? (t :: ts) 0 = none) (i : Nat) :
    pairBefore? (t :: ts) (i + 1) = pairBefore? ts i := by
  cases i with
  | zero => exact h
  | succ i => rfl

theorem isPaired_cons_succ (h : pairAt? (t :: ts) 0 = none) (i : Nat) :
    isPaired (t :: ts) (i + 1) = isPaired ts i := by
  rw [isPaired, isPaired, pairBefore?_cons_succ h, pairAt?_cons_succ]

theorem pairs_cons (t : String) (ts : List String) :
    pairs (t :: ts) = (pairAt? (t :: ts) 0).toList ++ pairs ts := by
  have hrest : (List.map Nat.succ (List.range ts.length)).filterMap (pairAt? (t :: ts)) = pairs ts := by
    rw [List.filterMap_map]
    rfl
  rw [pairs, List.length_cons, List.range_succ_eq_map, List.filterMap_cons, hrest]
  cases pairAt? (t :: ts) 0 <;> rfl

/-- What is paired behind a token tells which tokens there are without a pair. -/
theorem unpaired_cons (t : String) (ts : List String) :
    unpaired (t :: ts) = (if isPaired (t :: ts) 0 then [] else [t]) ++
      (List.range ts.length).filterMap fun i => if isPaired (t :: ts) (i + 1) then none else ts[i]? := by
  rw [unpaired, List.length_cons, List.range_succ_eq_map, List.filterMap_cons, List.filterMap_map]
  cases isPaired (t :: ts) 0 <;> rfl

/-- A token that starts no pair has none. -/
theorem unpaired_cons_of_none (h : pairAt? (t :: ts) 0 = none) :
    unpaired (t :: ts) = t :: unpaired ts := by
  have hfirst : isPaired (t :: ts) 0 = false := by
    rw [isPaired, h]
    rfl
  rw [unpaired_cons, hfirst]
  simp only [isPaired_cons_succ h]
  rfl

/-- And both tokens of a pair do. -/
theorem unpaired_pair {v : String} (h : (pairAt? (t :: v :: ts) 0).isSome = true)
    (hv : Flag.named? v = none) : unpaired (t :: v :: ts) = unpaired ts := by
  have hfirst : isPaired (t :: v :: ts) 0 = true := by
    rw [isPaired, h]
    rfl
  have hsecond : isPaired (t :: v :: ts) 1 = true := by
    rw [isPaired, pairBefore?, h, Bool.or_true]
  have hrest : ∀ i, isPaired (t :: v :: ts) (i + 1 + 1) = isPaired ts i := fun i =>
    isPaired_cons_succ (pairAt?_zero_eq_none hv ts) i
  rw [unpaired_cons, hfirst, if_pos rfl, List.nil_append, List.length_cons, List.range_succ_eq_map,
    List.filterMap_cons, hsecond, if_pos rfl, List.filterMap_map]
  simp only [Function.comp_def, Nat.succ_eq_add_one, hrest, List.getElem?_cons_succ]
  rfl

end Cons

/-! ## Lexing -/

/-- All that lexing does with a list of tokens: it takes a pair for a directive
    of its own, and one or two tokens that are none for a directive that nobody
    understands. -/
inductive IsLexed : List String → List Directive → Prop
  | nil : IsLexed [] []
  | pair {flag value d ts ds} (hvalue : Flag.named? value = none) (hpair : ofPair? flag value = some d)
      (hrest : IsLexed ts ds) : IsLexed (flag.text :: value :: ts) (d :: ds)
  | one {token ts ds} (hpair : pairAt? (token :: ts) 0 = none) (hrest : IsLexed ts ds) :
      IsLexed (token :: ts) (unknown [token] :: ds)
  | two {token value ts ds} (hpair : ofTokens? token value = none) (hvalue : Flag.named? value = none)
      (hrest : IsLexed ts ds) : IsLexed (token :: value :: ts) (unknown [token, value] :: ds)

/-- By the recursion of lexing, which has one case more for what a flag cannot
    take. -/
theorem isLexed_lex (ts : List String) : IsLexed ts (lex ts) := by
  induction ts using lex.induct with
  | case1 => exact .nil
  | case2 token => exact .one rfl .nil
  | case3 token value ts f hvalue htoken ih =>
    obtain rfl := Flag.text_of_named? htoken
    rw [lex_flag_value f hvalue]
    cases hpair : ofPair? f value with
    | none => exact .two ((ofTokens?_text f hvalue).trans hpair) hvalue ih
    | some d => exact .pair hvalue hpair ih
  | case4 token next ts f g hnext htoken ih =>
    obtain rfl := Flag.text_of_named? htoken
    obtain rfl := Flag.text_of_named? hnext
    rw [lex_flag_flag]
    refine .one ?_ ih
    show ofTokens? f.text g.text = none
    rw [ofTokens?, Flag.named?_text, Flag.named?_text]
  | case5 token value ts htoken hpair ih =>
    have hvalue : Flag.named? value = none := by
      rw [Bool.and_eq_true, Bool.not_eq_true'] at hpair
      exact named?_eq_none_of_looksLikeFlag hpair.2
    rw [lex, htoken]
    simp only [hpair, if_true]
    exact .two (ofTokens?_eq_none htoken value) hvalue ih
  | case6 token next ts htoken hpair ih =>
    rw [lex, htoken]
    simp only [hpair, Bool.false_eq_true, if_false]
    exact .one (pairAt?_zero_eq_none htoken _) ih

/-! ## Accounts -/

/-- Directives account for a list of tokens: they are written as so many tokens,
    each of which is the one in its place, unless that is the value of a pair,
    and what is understood is the pairs. The rest is left over. -/
structure AccountFor (ts : List String) (ds : List Directive) : Prop where
  length_eq : (tokens ds).length = ts.length
  kept : ∀ i, pairBefore? ts i = none → (tokens ds)[i]? = ts[i]?
  /-- The value of a pair is written as its directive has it. -/
  written : ∀ i, ∀ d ∈ pairAt? ts i, (tokens ds)[i + 1]? = d.valueText?
  understood : ds.filter (fun d => d.flag?.isSome) = pairs ts
  leftover : ds.flatMap leftover = unpaired ts

namespace AccountFor

variable {t : String} {ts : List String} {ds : List Directive}

/-- A token that starts no pair is kept, on its own or in front of others that
    nobody understands. -/
theorem cons_unknown {words : List String} (h : AccountFor ts (unknown words :: ds))
    (hpair : pairAt? (t :: ts) 0 = none) : AccountFor (t :: ts) (unknown (t :: words) :: ds) where
  length_eq := congrArg (· + 1) h.length_eq
  kept := by
    intro i hi
    cases i with
    | zero => rfl
    | succ i => exact h.kept i ((pairBefore?_cons_succ hpair i).symm.trans hi)
  written := by
    intro i d hd
    cases i with
    | zero =>
      rw [hpair] at hd
      cases hd
    | succ i => exact h.written i d hd
  understood := by
    rw [pairs_cons, hpair]
    exact h.understood
  leftover := by
    rw [unpaired_cons_of_none hpair, ← h.leftover]
    rfl

/-- Nothing that nobody understands is nothing. -/
theorem cons_nil (h : AccountFor ts ds) : AccountFor ts (unknown [] :: ds) :=
  ⟨h.length_eq, h.kept, h.written, h.understood, h.leftover⟩

/-- A pair is kept up to the form of its value. -/
theorem cons_pair (h : AccountFor ts ds) {flag : Flag} {value : String} {d : Directive}
    (hvalue : Flag.named? value = none) (hd : ofPair? flag value = some d) :
    AccountFor (flag.text :: value :: ts) (d :: ds) := by
  have hpair : pairAt? (flag.text :: value :: ts) 0 = some d := (ofTokens?_text flag hvalue).trans hd
  have hnext : pairAt? (value :: ts) 0 = none := pairAt?_zero_eq_none hvalue ts
  have hflag := flag?_of_ofPair? hd
  have hsome : d.flag?.isSome = true := by rw [hflag]; rfl
  obtain ⟨written, hwritten⟩ := exists_toTokens hflag
  have htokens : tokens (d :: ds) = flag.text :: written :: tokens ds := by
    rw [tokens_cons, hwritten]
    rfl
  refine ⟨?_, ?_, ?_, ?_, ?_⟩
  · rw [htokens]
    exact congrArg (· + 2) h.length_eq
  · intro i hi
    rw [htokens]
    match i with
    | 0 => rfl
    | 1 => cases hpair.symm.trans hi
    | i + 2 => exact h.kept i ((pairBefore?_cons_succ hnext i).symm.trans hi)
  · intro i d' hd'
    rw [htokens]
    match i with
    | 0 =>
      cases hpair.symm.trans hd'
      rw [valueText?, hwritten]
      rfl
    | 1 => cases hnext.symm.trans hd'
    | i + 2 => exact h.written i d' hd'
  · rw [pairs_cons, pairs_cons, hpair, hnext, List.filter_cons, if_pos hsome, h.understood]
    rfl
  · rw [List.flatMap_cons, leftover_eq_nil hsome, List.nil_append, h.leftover,
      unpaired_pair (by rw [hpair]; rfl) hvalue]

end AccountFor

/-- Each step of lexing accounts for the tokens that it takes. -/
theorem IsLexed.accountFor {ts : List String} {ds : List Directive} (h : IsLexed ts ds) :
    AccountFor ts ds := by
  induction h with
  | nil => exact ⟨rfl, fun _ _ => rfl, fun _ _ hd => (by cases hd), rfl, rfl⟩
  | pair hvalue hpair _ ih => exact ih.cons_pair hvalue hpair
  | one hpair _ ih => exact ih.cons_nil.cons_unknown hpair
  | two hpair hvalue _ ih =>
    exact (ih.cons_nil.cons_unknown (pairAt?_zero_eq_none hvalue _)).cons_unknown hpair

end Directive

/-- Whatever the tokens are, what is lexed of them accounts for each one: as many
    are written, in the same places, and only values of pairs may have another
    form. What a recipe ignores is the tokens that belong to no pair, word for
    word and in order. -/
theorem Recipe.accountFor_read (ts : List String) (output : String) :
    Directive.AccountFor ts (Directive.lex ts) ∧
      (read ts output).ignored = Directive.unpaired ts := by
  have haccount := (Directive.isLexed_lex ts).accountFor
  refine ⟨haccount, ?_⟩
  rw [← haccount.leftover]
  exact ignored_foldl (Directive.lex ts) (empty (Container.ofOutput output))

/-- A word that is left between a flag that cannot take it and one that has its
    value, which is written otherwise. -/
example : Directive.unpaired ["-crf", "high", "-threads", " 04", "-t"] = ["-crf", "high", "-t"] ∧
    Directive.tokens (Directive.lex ["-crf", "high", "-threads", " 04", "-t"]) =
      ["-crf", "high", "-threads", "4", "-t"] := by
  decide +kernel

end VideoExport
