/-!
# Places in a YAML text

YAML is read with an eye on lines and columns. A cursor is what is left of a
text together with the place where it begins.

* `Cursor`: the rest of a text and its place;
* `isAllowed`, `isBreak`, `isBlank`: classes of characters.
-/

namespace VideoExport.Yaml

/-- Whether a character may stand in a text at all. -/
def isAllowed (c : Char) : Bool :=
  let n := c.toNat
  n == 0x09 || n == 0x0A || n == 0x0D || n == 0x85 || (0x20 ≤ n && n ≤ 0x7E) ||
    (0xA0 ≤ n && n ≤ 0xD7FF) || (0xE000 ≤ n && n ≤ 0xFFFD) || 0x10000 ≤ n

/-- Whether a character ends a line. -/
def isBreak (c : Char) : Bool :=
  c == '\n' || c == '\r' || c == '\u0085' || c == '\u2028' || c == '\u2029'

/-- Whether a character is a blank or a tab. -/
def isBlank (c : Char) : Bool := c == ' ' || c == '\t'

/-- What is left of a text, and where it begins. -/
structure Cursor where
  rest : List Char
  index : Nat
  line : Nat
  column : Nat

namespace Cursor

/-- The beginning of a text. A mark of the byte order is not part of it. -/
def start (text : String) : Cursor :=
  let chars := match text.toList with
    | '\ufeff' :: rest => rest
    | chars => chars
  ⟨chars, 0, 0, 0⟩

/-- Whether the text is over. -/
def atEnd (c : Cursor) : Bool := c.rest.isEmpty

/-- The character so many places ahead. -/
def peek? (c : Cursor) (places : Nat) : Option Char := c.rest[places]?

/-- Whether this is the character so many places ahead. -/
def hasAt (c : Cursor) (places : Nat) (x : Char) : Bool := c.peek? places == some x

/-- Whether a word is over so many places ahead. -/
def gapAt (c : Cursor) (places : Nat) : Bool :=
  match c.peek? places with
  | some x => isBlank x || isBreak x
  | none => true

/-- The place so many characters ahead in the same line. -/
def skip (c : Cursor) (places : Nat) : Cursor :=
  ⟨c.rest.drop places, c.index + places, c.line, c.column + places⟩

/-- The next place in the same line. -/
def next (c : Cursor) : Cursor := c.skip 1

/-- The end of a line, as it counts in scalars, and the next line. -/
def endLine (c : Cursor) : List Char × Cursor :=
  match c.rest with
  | '\r' :: '\n' :: rest => (['\n'], ⟨rest, c.index + 2, c.line + 1, 0⟩)
  | x :: rest =>
    let kept := if x == '\u2028' || x == '\u2029' then x else '\n'
    ([kept], ⟨rest, c.index + 1, c.line + 1, 0⟩)
  | [] => ([], c)

/-- The next characters with a property in the same line, and the place after
    them. -/
def span (c : Cursor) (p : Char → Bool) : List Char × Cursor :=
  let found := c.rest.takeWhile fun x => p x && !isBreak x
  (found, c.skip found.length)

/-- Whether three characters at the beginning of a line mark a document. -/
def isMarker (c : Cursor) (x : Char) : Bool :=
  c.column == 0 && c.hasAt 0 x && c.hasAt 1 x && c.hasAt 2 x && c.gapAt 3

/-- Whether a document begins or ends here. -/
def atMarker (c : Cursor) : Bool := c.isMarker '-' || c.isMarker '.'

end Cursor

end VideoExport.Yaml
