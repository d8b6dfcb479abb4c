/-!
# Blanks

The characters that count as blank are those with the Unicode property
White_Space. Trimming removes them at both ends of a text and nowhere else.

* `trimStart_eq_self`, `isBlank_of_isWhitespace`: what starts with no blank is
  left alone, and the blanks of ASCII are blanks here;
* `words`: the maximal runs of characters that are not blank.
-/

namespace VideoExport.Text

/-- The characters with the Unicode property White_Space. -/
def isBlank (c : Char) : Bool :=
  let n := c.toNat
  (9 ≤ n && n ≤ 13) || n == 0x20 || n == 0x85 || n == 0xA0 || n == 0x1680 ||
    (0x2000 ≤ n && n ≤ 0x200A) || n == 0x2028 || n == 0x2029 || n == 0x202F ||
    n == 0x205F || n == 0x3000

/-- The blanks that core knows are blanks here. -/
theorem isBlank_of_isWhitespace {c : Char} (h : c.isWhitespace = true) : isBlank c = true := by
  simp only [Char.isWhitespace, Bool.or_eq_true, decide_eq_true_eq] at h
  rcases h with ((h | h) | h) | h <;> subst h <;> rfl

namespace Chars

/-- A text without the blanks it starts with. -/
def trimStart (s : List Char) : List Char := s.dropWhile isBlank

/-- A text without the blanks it ends with. -/
def trimEnd (s : List Char) : List Char := (s.reverse.dropWhile isBlank).reverse

/-- A text without the blanks at its ends. -/
def trim (s : List Char) : List Char := trimEnd (trimStart s)

theorem trimStart_eq_self {c : Char} {s : List Char} (h : isBlank c = false) :
    trimStart (c :: s) = c :: s := by
  simp [trimStart, List.dropWhile, h]

/-- The maximal runs of characters that are not blank. -/
def words (s : List Char) : List (List Char) :=
  let (word, rest) := s.foldr
    (fun c (acc : List Char × List (List Char)) =>
      if isBlank c then ([], if acc.1.isEmpty then acc.2 else acc.1 :: acc.2)
      else (c :: acc.1, acc.2))
    ([], [])
  if word.isEmpty then rest else word :: rest

end Chars

/-- A text without the blanks at its ends. -/
def trim (s : String) : String := String.ofList (Chars.trim s.toList)

/-- The trimmed text, unless nothing is left of it. -/
def nonBlank? (s : String) : Option String :=
  let t := trim s
  if t.isEmpty then none else some t

end VideoExport.Text
