import Mathlib.Data.List.Basic

/-!
# Attempts

A state is changed by one attempt after the other, and each of them comes to something. If all
that an attempt comes to is decided by what does not change, the attempts know nothing of each
other; and if those that are refused change nothing, they could as well not have been made.

* `attempts`: what attempts come to, and the state after them;
* `attempts_fst`: attempts that know nothing of each other;
* `attempts_snd`: attempts that are refused.
-/

namespace VideoExport

variable {σ α ρ : Type}

/-- What attempts one after the other come to, and the state after all of them. -/
def attempts (step : σ → α → ρ × σ) (s : σ) : List α → List ρ × σ
  | [] => ([], s)
  | a :: as =>
    let (result, next) := step s a
    let (results, last) := attempts step next as
    (result :: results, last)

theorem attempts_cons (step : σ → α → ρ × σ) (s : σ) (a : α) (as : List α) :
    attempts step s (a :: as) =
      ((step s a).1 :: (attempts step (step s a).2 as).1, (attempts step (step s a).2 as).2) := rfl

section

variable {step : σ → α → ρ × σ} {p : σ → Prop} (hp : ∀ {s}, p s → ∀ a, p (step s a).2)

include hp

/-- If it decides what each attempt comes to, then this does not depend on the attempts before. -/
theorem attempts_fst {result : α → ρ} (hresult : ∀ {s}, p s → ∀ a, (step s a).1 = result a)
    {s : σ} (hs : p s) (as : List α) : (attempts step s as).1 = as.map result := by
  induction as generalizing s with
  | nil => rfl
  | cons a as ih => rw [attempts_cons, List.map_cons, hresult hs, ih (hp hs a)]

/-- If it decides which attempts change nothing, then these may be left out. -/
theorem attempts_snd {taken : α → Bool}
    (htaken : ∀ {s}, p s → ∀ {a}, taken a = false → (step s a).2 = s) {s : σ} (hs : p s)
    (as : List α) : (attempts step s as).2 = (attempts step s (as.filter taken)).2 := by
  induction as generalizing s with
  | nil => rfl
  | cons a as ih =>
    cases ha : taken a with
    | true =>
      rw [List.filter_cons_of_pos ha, attempts_cons, attempts_cons, ih (hp hs a)]
    | false =>
      have hskip : ¬ taken a = true := by rw [ha]; exact Bool.false_ne_true
      rw [List.filter_cons_of_neg hskip, attempts_cons, htaken hs ha, ih hs]

end

end VideoExport
