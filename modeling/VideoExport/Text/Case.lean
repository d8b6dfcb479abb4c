import VideoExport.Text.CaseTable

/-!
# Lower case

Names are compared in lower case. Lower-casing follows Unicode: most
characters map to one character, a capital I with a dot to two, and a capital
sigma to its final form at the end of a word.

* `lower`: the lower-case form of a text;
* `sameIgnoringCase`: equality of two texts up to the case of ASCII letters.
-/

namespace VideoExport.Text

namespace Chars

/-- The lower-case form of a single character. -/
def lowerChar (c : Char) : Char :=
  if c.toNat < 128 then c.toLower
  else match lowerRuns.find? (·.covers c.toNat) with
    | some r => Char.ofNat (c.toNat + r.shift).toNat
    | none => c

/-- Whether the nearest character that is not case-ignorable has a case. -/
def facesCased (s : List Char) : Bool :=
  match s.dropWhile (inRanges ignorableRanges ·.toNat) with
  | [] => false
  | c :: _ => inRanges casedRanges c.toNat

/-- The lower-case form of `s`, where `before` precedes it, in reverse. A
    sigma takes its final form after a cased letter and before none. -/
def lowerAfter (before : List Char) : List Char → List Char
  | [] => []
  | c :: s =>
    let image :=
      if c = 'Σ' then [if facesCased before && !facesCased s then 'ς' else 'σ']
      else if c = 'İ' then ['i', '\u0307']
      else [lowerChar c]
    image ++ lowerAfter (c :: before) s

end Chars

/-- The lower-case form of a text. -/
def lower (s : String) : String := String.ofList (Chars.lowerAfter [] s.toList)

/-- Equality up to the case of the letters of ASCII. -/
def sameIgnoringCase (s t : String) : Bool :=
  s.toList.map Char.toLower == t.toList.map Char.toLower

end VideoExport.Text
