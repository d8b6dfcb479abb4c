/-!
# Splitting texts

A text is cut at a separating character or at its line ends; no character is
lost and none is invented, so joining the pieces gives the text back.

* `join_splitOn`: the pieces joined by the separator are the text;
* `not_mem_of_mem_splitOn`: no piece holds the separator.
-/

namespace VideoExport.Text

namespace Chars

/-- The pieces of a text between the occurrences of `sep`; a text without
    `sep` is its only piece. -/
def splitOn (sep : Char) : List Char → List (List Char)
  | [] => [[]]
  | c :: s =>
    if c = sep then [] :: splitOn sep s
    else match splitOn sep s with
      | [] => [[c]]
      | p :: ps => (c :: p) :: ps

/-- The pieces of a text with `sep` put back between them. -/
def join (sep : Char) : List (List Char) → List Char
  | [] => []
  | [p] => p
  | p :: q :: ps => p ++ sep :: join sep (q :: ps)

theorem splitOn_ne_nil (sep : Char) (s : List Char) : splitOn sep s ≠ [] := by
  cases s with
  | nil => simp [splitOn]
  | cons c s =>
    simp only [splitOn]
    split
    · simp
    · split <;> simp

theorem join_cons_cons (sep c : Char) (p : List Char) (ps : List (List Char)) :
    join sep ((c :: p) :: ps) = c :: join sep (p :: ps) := by
  cases ps <;> simp [join]

/-- No character is lost: the pieces joined by the separator are the text. -/
theorem join_splitOn (sep : Char) (s : List Char) : join sep (splitOn sep s) = s := by
  induction s with
  | nil => rfl
  | cons c s ih =>
    simp only [splitOn]
    split
    case isTrue h =>
      cases hs : splitOn sep s with
      | nil => exact absurd hs (splitOn_ne_nil sep s)
      | cons p ps => simp [join, ← hs, ih, h]
    case isFalse h =>
      cases hs : splitOn sep s with
      | nil => exact absurd hs (splitOn_ne_nil sep s)
      | cons p ps => simp only [join_cons_cons, ← hs, ih]

/-- No piece holds the separator. -/
theorem not_mem_of_mem_splitOn {sep : Char} {s p : List Char} (h : p ∈ splitOn sep s) :
    sep ∉ p := by
  induction s generalizing p with
  | nil => simp [splitOn] at h; simp [h]
  | cons c s ih =>
    simp only [splitOn] at h
    split at h
    case isTrue =>
      rcases List.mem_cons.1 h with rfl | h
      · simp
      · exact ih h
    case isFalse hc =>
      cases hs : splitOn sep s with
      | nil => exact absurd hs (splitOn_ne_nil sep s)
      | cons q qs =>
        rw [hs] at h ih
        rcases List.mem_cons.1 h with rfl | h
        · have := ih List.mem_cons_self
          simp [this, Ne.symm hc]
        · exact ih (List.mem_cons_of_mem _ h)

/-- The text before and after the first character that satisfies `p`. -/
def cutAt? (p : Char → Bool) : List Char → Option (List Char × List Char)
  | [] => none
  | c :: s =>
    if p c then some ([], s)
    else (cutAt? p s).map fun (before, after) => (c :: before, after)

/-- What follows `lead`, if the text starts with it. -/
def after? : (lead s : List Char) → Option (List Char)
  | [], s => some s
  | _ :: _, [] => none
  | l :: lead, c :: s => if l = c then after? lead s else none

/-- The text before and after the first occurrence of `mark`. -/
def cutAround? (mark : List Char) : List Char → Option (List Char × List Char)
  | [] => (after? mark []).map ([], ·)
  | c :: s =>
    match after? mark (c :: s) with
    | some rest => some ([], rest)
    | none => (cutAround? mark s).map fun (before, rest) => (c :: before, rest)

/-- The lines of a text. A line end is a line feed, with a carriage return
    before it counted in; a last line that is empty is none. -/
def lines (s : List Char) : List (List Char) :=
  let pieces := splitOn '\n' s
  let ended := pieces.dropLast.map fun l =>
    if l.getLast? = some '\r' then l.dropLast else l
  match pieces.getLast? with
  | none | some [] => ended
  | some last => ended ++ [last]

end Chars

open Chars

/-- The pieces of a text between the occurrences of `sep`. -/
def splitOn (sep : Char) (s : String) : List String :=
  (Chars.splitOn sep s.toList).map String.ofList

/-- The lines of a text. -/
def lines (s : String) : List String := (Chars.lines s.toList).map String.ofList

/-- The text before and after the first occurrence of `sep`. -/
def cut? (sep : Char) (s : String) : Option (String × String) :=
  (cutAt? (· == sep) s.toList).map fun (a, b) => (String.ofList a, String.ofList b)

/-- What follows `lead`, if the text starts with it. -/
def after? (lead s : String) : Option String :=
  (Chars.after? lead.toList s.toList).map String.ofList

/-- Whether the text starts with `lead`. -/
def startsWith (lead s : String) : Bool := (Chars.after? lead.toList s.toList).isSome

/-- A text filled up with spaces on its right to `width` characters. -/
def padRight (width : Nat) (s : String) : String :=
  s ++ String.ofList (List.replicate (width - s.length) ' ')

/-- A text filled up with zeros on its left to `width` characters. -/
def padZeros (width : Nat) (s : String) : String :=
  String.ofList (List.replicate (width - s.length) '0') ++ s

end VideoExport.Text
