import VideoExport.Number.Hexadecimal
import VideoExport.Yaml.Cursor

/-!
# Scalars in YAML

A scalar is a text: without quotes, between quotes, or as a block of lines.
Where it goes on in another line, a single line break counts as a blank, and
of several ones the first is left out.

* `plain?`, `quoted?`, `block?`: the three ways of writing a scalar.
-/

namespace VideoExport.Yaml

/-- Blanks and line breaks within a scalar, up to the next character: blanks in
    the same line, or, once the line is over, its end and the ends of further
    lines. All of them are kept with the last one first. -/
structure Gap where
  blanks : List Char
  isBroken : Bool
  lineEnd : List Char
  moreEnds : List Char

namespace Gap

/-- No gap. -/
def none : Gap := ⟨[], false, [], []⟩

/-- A line that is continued without a gap. -/
def continued : Gap := ⟨[], true, [], []⟩

/-- Whether there is no gap. -/
def isEmpty (g : Gap) : Bool := g.blanks.isEmpty && !g.isBroken

/-- One more blank, which counts only before the end of the line. -/
def blank (g : Gap) (x : Char) : Gap :=
  if g.isBroken then g else { g with blanks := x :: g.blanks }

/-- The end of one more line. -/
def lineBreak (g : Gap) (x : List Char) : Gap :=
  if g.isBroken then { g with moreEnds := x ++ g.moreEnds } else ⟨[], true, x, []⟩

/-- What a gap stands for, the last character first. -/
def folded (g : Gap) : List Char :=
  if g.isBroken then
    if g.lineEnd = ['\n'] then if g.moreEnds.isEmpty then [' '] else g.moreEnds
    else g.moreEnds ++ g.lineEnd
  else g.blanks

end Gap

/-! ## Without quotes -/

/-- The characters that have a meaning of their own within brackets. -/
def flowMarks : List Char := [',', '[', ']', '\x7b', '\x7d']

/-- The rest of a scalar without quotes: its characters, the last one first,
    where it is over, and whether a line is over there too. A scalar of a block
    is indented. -/
def plainRest? (indent : Int) (inFlow : Bool) :
    (fuel : Nat) → Cursor → List Char → Gap → Option (List Char × Cursor × Bool)
  | 0, c, text, gap => some (text, c, gap.isBroken)
  | fuel + 1, c, text, gap =>
    match c.peek? 0 with
    | none => some (text, c, gap.isBroken)
    | some x =>
      if isBlank x then
        if gap.isBroken && x == '\t' && decide ((c.column : Int) < indent) then none
        else plainRest? indent inFlow fuel c.next text (gap.blank x)
      else if isBreak x then
        let (lineEnd, c) := c.endLine
        plainRest? indent inFlow fuel c text (gap.lineBreak lineEnd)
      else
        let outdented := gap.isBroken && !inFlow && decide ((c.column : Int) < indent)
        if !gap.isEmpty && (c.atMarker || x == '#' || outdented) then
          some (text, c, gap.isBroken)
        else if x == ':' && inFlow && (c.peek? 1).any fun y => y == '?' || flowMarks.contains y then
          none
        else if (x == ':' && c.gapAt 1) || (inFlow && flowMarks.contains x) then
          some (text, c, gap.isBroken)
        else plainRest? indent inFlow fuel c.next (x :: gap.folded ++ text) .none

/-- A scalar without quotes, where it is over, and whether a line is over there
    too. -/
def plain? (indent : Int) (inFlow : Bool) (c : Cursor) : Option (String × Cursor × Bool) :=
  (plainRest? indent inFlow c.rest.length c [] .none).map fun (text, c, ended) =>
    (String.ofList text.reverse, c, ended)

/-! ## Between quotes -/

/-- The character that is written after a backslash, and how many characters
    that takes. -/
def escaped? : List Char → Option (Char × Nat)
  | [] => none
  | c :: rest =>
    match [('0', 0), ('a', 7), ('b', 8), ('t', 9), ('\t', 9), ('n', 10), ('v', 11), ('f', 12),
        ('r', 13), ('e', 27), (' ', 32), ('"', 34), ('/', 47), ('\\', 92), ('N', 0x85),
        ('_', 0xA0), ('L', 0x2028), ('P', 0x2029)].find? (·.1 == c) with
    | some (_, n) => some (Char.ofNat n, 1)
    | none =>
      match [('x', 2), ('u', 4), ('U', 8)].find? (·.1 == c) with
      | some (_, digits) => (Number.hexChar? digits rest).map (·, digits + 1)
      | none => none

/-- The rest of a scalar between quotes: its characters, the last one first,
    and the place after the closing quote. -/
def quotedRest? (double : Bool) :
    (fuel : Nat) → Cursor → List Char → Gap → Option (List Char × Cursor)
  | 0, _, _, _ => none
  | fuel + 1, c, text, gap =>
    match c.peek? 0 with
    | none => none
    | some x =>
      if isBlank x then quotedRest? double fuel c.next text (gap.blank x)
      else if isBreak x then
        let (lineEnd, c) := c.endLine
        quotedRest? double fuel c text (gap.lineBreak lineEnd)
      else if c.atMarker then none
      else
        let text := gap.folded ++ text
        if !double && x == '\'' && c.hasAt 1 '\'' then
          quotedRest? double fuel (c.skip 2) ('\'' :: text) .none
        else if x == (if double then '"' else '\'') then some (text, c.next)
        else if double && x == '\\' then
          if (c.peek? 1).any isBreak then
            quotedRest? double fuel c.next.endLine.2 text .continued
          else match escaped? (c.rest.drop 1) with
            | some (y, taken) => quotedRest? double fuel (c.skip (taken + 1)) (y :: text) .none
            | none => none
        else quotedRest? double fuel c.next (x :: text) .none

/-- A scalar between quotes, and the place after it. -/
def quoted? (double : Bool) (c : Cursor) : Option (String × Cursor) :=
  (quotedRest? double c.rest.length c.next [] .none).map fun (text, c) =>
    (String.ofList text.reverse, c)

/-! ## Blocks -/

/-- What becomes of the line breaks at the end of a block: none of them, one,
    or all of them is kept. -/
inductive Chomping
  | strip
  | clip
  | keep
  deriving DecidableEq

/-- What a block begins with: what becomes of its end, and its indentation, if
    that is told. -/
structure BlockHeader where
  chomping : Chomping
  indent : Option Nat

/-- A sign of what becomes of the end. -/
def chomping? : Char → Option Chomping
  | '-' => some .strip
  | '+' => some .keep
  | _ => none

/-- The header of a block, and the place after it. -/
def blockHeader? (c : Cursor) : Option (BlockHeader × Cursor) :=
  let sign (c : Cursor) : Option (Chomping × Cursor) :=
    ((c.peek? 0).bind chomping?).map (·, c.next)
  let digit (c : Cursor) : Option (Option Nat × Cursor) :=
    match c.peek? 0 with
    | some x => if x == '0' then none
      else if x.isDigit then some (some (x.toNat - 48), c.next) else some (none, c)
    | none => some (none, c)
  match sign c with
  | some (chomping, c) => (digit c).map fun (indent, c) => (⟨chomping, indent⟩, c)
  | none => (digit c).map fun (indent, c) =>
    match indent, sign c with
    | some _, some (chomping, c) => (⟨chomping, indent⟩, c)
    | _, _ => (⟨.clip, indent⟩, c)

/-- The rest of a line that may hold a comment, and the next line. -/
def endOfHeader? (c : Cursor) : Option Cursor :=
  let c := (c.span isBlank).2
  let c := if c.hasAt 0 '#' then (c.span fun _ => true).2 else c
  match c.peek? 0 with
  | some x => if isBreak x then some c.endLine.2 else none
  | none => some c

/-- Lines without text before a line of a block: their ends, the last one
    first, the widest indentation, and the place after all blanks that belong
    to the indentation. -/
def emptyLines? (indent : Option Nat) :
    (fuel : Nat) → Cursor → (widest : Nat) → List Char → Option (List Char × Nat × Cursor)
  | 0, c, widest, ends => some (ends, widest, c)
  | fuel + 1, c, widest, ends =>
    let inside := indent.all fun n => decide (c.column < n)
    match c.peek? 0 with
    | some x =>
      if inside && x == ' ' then emptyLines? indent fuel c.next widest ends
      else if inside && x == '\t' then none
      else if isBreak x then
        let (lineEnd, next) := c.endLine
        emptyLines? indent fuel next (max widest c.column) (lineEnd ++ ends)
      else some (ends, max widest c.column, c)
    | none => some (ends, max widest c.column, c)

/-- The lines of a block so far. Characters are kept with the last one first.
-/
structure BlockText where
  text : List Char
  lineEnd : List Char
  moreEnds : List Char
  /-- Whether the last line began with a blank. -/
  indented : Bool

/-- The text before one more line. In a folded block a single line break
    between lines that begin with text counts as a blank. -/
def BlockText.join (b : BlockText) (literal indented : Bool) : List Char :=
  if !literal && b.lineEnd == ['\n'] && !b.indented && !indented then
    if b.moreEnds.isEmpty then ' ' :: b.text else b.moreEnds ++ b.text
  else b.moreEnds ++ b.lineEnd ++ b.text

/-- The lines of a block. -/
def blockLines? (literal : Bool) (indent : Nat) :
    (fuel : Nat) → Cursor → BlockText → Option (BlockText × Cursor)
  | 0, c, b => some (b, c)
  | fuel + 1, c, b =>
    if c.column = indent && !c.atEnd then do
      let indented := (c.peek? 0).any isBlank
      let (line, c) := c.span fun _ => true
      let text := line.reverse ++ b.join literal indented
      let (lineEnd, c) := c.endLine
      let (moreEnds, _, c) ← emptyLines? (some indent) (c.rest.length + 1) c 0 []
      blockLines? literal indent fuel c ⟨text, lineEnd, moreEnds, indented⟩
    else some (b, c)

/-- A block of lines below a place with an indentation, and the place after
    it. -/
def block? (literal : Bool) (outer : Int) (c : Cursor) : Option (String × Cursor) := do
  let (header, c) ← blockHeader? c.next
  let c ← endOfHeader? c
  let told := header.indent.map fun n => (max outer 0).toNat + n
  let (ends, widest, c) ← emptyLines? told (c.rest.length + 1) c 0 []
  let indent := told.getD (max widest (max (outer + 1) 1).toNat)
  let (b, c) ← blockLines? literal indent (c.rest.length + 1) c ⟨[], [], ends, false⟩
  let text := match header.chomping with
    | .strip => b.text
    | .clip => b.lineEnd ++ b.text
    | .keep => b.moreEnds ++ b.lineEnd ++ b.text
  return (String.ofList text.reverse, c)

end VideoExport.Yaml
