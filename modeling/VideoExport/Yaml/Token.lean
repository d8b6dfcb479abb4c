import VideoExport.Yaml.Scalar

/-!
# Tokens in YAML

Indentation opens and closes blocks, and what stands before a colon turns out
to be a key only there. So the tokens of a text also tell where blocks begin and
end, and a key is marked afterwards, at the place where it might have begun.

* `Token`: the tokens;
* `Token.scan?`: the tokens of a text.
-/

namespace VideoExport.Yaml

/-- A token: a mark of documents, blocks, collections in brackets and their
    parts, or a node. -/
inductive Token
  | documentStart | documentEnd | directive
  | blockSequence | blockMapping | blockEnd
  | flowSequence | flowSequenceEnd | flowMapping | flowMappingEnd
  | entry | flowEntry | key | value
  | alias (name : String)
  | anchor (name : String)
  | tag
  | scalar (isPlain : Bool) (text : String)
  deriving DecidableEq, Repr, Inhabited

/-- A place where a key may have begun: how many tokens come before it, whether
    nothing else can begin there, and where that is in the text. -/
structure KeyPlace where
  tokens : Nat
  isRequired : Bool
  index : Nat
  line : Nat
  column : Nat

/-- What has been scanned of a text: the tokens, the indentation of the current
    block and of those around it, and for each collection in brackets that is
    open, the innermost one first, and for the blocks around them the place
    where a key may have begun. -/
structure Scanner where
  cursor : Cursor
  tokens : Array Token
  indent : Int
  outer : List Int
  keys : List (Option KeyPlace)
  /-- Whether a key may begin at the next token. -/
  keyAllowed : Bool

namespace Scanner

/-- Nothing of a text. -/
def start (text : String) : Scanner := ⟨.start text, #[], -1, [], [none], true⟩

/-- Whether a collection in brackets is open. -/
def inFlow (s : Scanner) : Bool := 1 < s.keys.length

/-- One more token. -/
def push (s : Scanner) (t : Token) : Scanner := { s with tokens := s.tokens.push t }

/-- A key ends within its line, after at most 1024 characters. -/
def keyLimit : Nat := 1024

/-! ## Indentation -/

/-- The blocks that are indented more than a column are over. -/
def unroll (column : Int) (s : Scanner) : Scanner :=
  if s.inFlow then s
  else
    let closed := if column < s.indent then 1 + (s.outer.takeWhile (column < ·)).length else 0
    { s with
      tokens := s.tokens ++ Array.replicate closed Token.blockEnd
      indent := (s.indent :: s.outer).getD closed (-1)
      outer := (s.indent :: s.outer).drop (closed + 1) }

/-- A block begins at a column, before so many tokens, if that is more than the
    current indentation. -/
def roll (column : Nat) (place : Nat) (t : Token) (s : Scanner) : Scanner :=
  if s.inFlow || decide ((column : Int) ≤ s.indent) then s
  else
    { s with
      tokens := s.tokens.insertIdxIfInBounds place t
      indent := column
      outer := s.indent :: s.outer }

/-! ## Keys -/

/-- The places where keys may have begun without those from which the text has
    moved on. -/
def dropStaleKeys? (s : Scanner) : Option Scanner := do
  let keys ← s.keys.mapM fun
    | none => some none
    | some k =>
      if k.line < s.cursor.line || k.index + keyLimit < s.cursor.index then
        if k.isRequired then none else some none
      else some (some k)
  return { s with keys }

/-- No key has begun. -/
def dropKey? (s : Scanner) : Option Scanner :=
  match s.keys with
  | some k :: keys => if k.isRequired then none else some { s with keys := none :: keys }
  | _ => some s

/-- A key may begin here. -/
def markKey? (s : Scanner) : Option Scanner :=
  if s.keyAllowed then do
    let s ← s.dropKey?
    let c := s.cursor
    let required := !s.inFlow && s.indent == (c.column : Int)
    return { s with
      keys := some ⟨s.tokens.size, required, c.index, c.line, c.column⟩ :: s.keys.drop 1 }
  else some s

/-! ## Blanks and comments -/

/-- The place of the next token. Tabs count as blanks only where no block can
    begin. -/
def skipBlanks : (fuel : Nat) → Scanner → Scanner
  | 0, s => s
  | fuel + 1, s =>
    match s.cursor.peek? 0 with
    | some x =>
      if x == ' ' || (x == '\t' && (s.inFlow || !s.keyAllowed)) then
        skipBlanks fuel { s with cursor := s.cursor.next }
      else if x == '#' then
        skipBlanks fuel { s with cursor := (s.cursor.span fun _ => true).2 }
      else if isBreak x then
        skipBlanks fuel
          { s with cursor := s.cursor.endLine.2, keyAllowed := s.keyAllowed || !s.inFlow }
      else s
    | none => s

/-! ## Single tokens -/

/-- A token of so many characters. -/
def take (s : Scanner) (width : Nat) (t : Token) : Scanner :=
  { s with cursor := s.cursor.skip width }.push t

/-- The end of all blocks. -/
def endBlocks? (s : Scanner) : Option Scanner :=
  ((s.unroll (-1)).dropKey?).map fun s => { s with keyAllowed := false }

/-- A line with a directive, of one of the two known kinds. -/
def directive? (s : Scanner) : Option Scanner := do
  let s ← s.endBlocks?
  let (name, c) := s.cursor.next.span fun x => !isBlank x
  let (_, c) := c.span fun _ => true
  guard (name = "YAML".toList ∨ name = "TAG".toList)
  return { s with cursor := c }.push .directive

/-- The beginning of a collection in brackets. -/
def openFlow? (s : Scanner) (t : Token) : Option Scanner := do
  let s ← s.markKey?
  return { s with keys := none :: s.keys, keyAllowed := true }.take 1 t

/-- The end of a collection in brackets. -/
def closeFlow? (s : Scanner) (t : Token) : Option Scanner := do
  let s ← s.dropKey?
  return { s with
    keys := if s.inFlow then s.keys.drop 1 else s.keys
    keyAllowed := false }.take 1 t

/-- A comma between brackets. -/
def flowEntry? (s : Scanner) : Option Scanner := do
  let s ← s.dropKey?
  return { s with keyAllowed := true }.take 1 .flowEntry

/-- A block opens here, unless one is open; within brackets there are none. -/
def openBlock? (s : Scanner) (t : Token) : Option Scanner :=
  if s.inFlow then some s
  else if s.keyAllowed then some (s.roll s.cursor.column s.tokens.size t)
  else none

/-- A dash. -/
def entry? (s : Scanner) : Option Scanner := do
  let s ← s.openBlock? .blockSequence
  let s ← s.dropKey?
  return { s with keyAllowed := true }.take 1 .entry

/-- A question mark. -/
def key? (s : Scanner) : Option Scanner := do
  let s ← s.openBlock? .blockMapping
  let s ← s.dropKey?
  return { s with keyAllowed := !s.inFlow }.take 1 .key

/-- A colon: what began at the last place for a key has been one. -/
def value? (s : Scanner) : Option Scanner :=
  match s.keys with
  | some k :: keys =>
    let s := { s with
      tokens := s.tokens.insertIdxIfInBounds k.tokens .key
      keys := none :: keys
      keyAllowed := false }
    some ((s.roll k.column k.tokens .blockMapping).take 1 .value)
  | _ => do
    let s ← s.openBlock? .blockMapping
    return { s with keyAllowed := !s.inFlow }.take 1 .value

/-- Whether a character may be part of a name. -/
def isNameChar (x : Char) : Bool := x.isAlphanum || x == '_' || x == '-'

/-- The name of a node, or a reference to one. -/
def name? (s : Scanner) (t : String → Token) : Option Scanner := do
  let s ← s.markKey?
  let (name, c) := s.cursor.next.span isNameChar
  guard (!name.isEmpty)
  guard (c.gapAt 0 ||
    (c.peek? 0).any fun x => ['?', ':', ',', ']', '\x7d', '%', '@', '\u0060'].contains x)
  return { s with cursor := c, keyAllowed := false }.push (t (String.ofList name))

/-- A tag, which is not looked at any further. -/
def tag? (s : Scanner) : Option Scanner := do
  let s ← s.markKey?
  let (_, c) := s.cursor.next.span fun x => !isBlank x && !(s.inFlow && flowMarks.contains x)
  guard (c.gapAt 0 || (s.inFlow && c.hasAt 0 ','))
  return { s with cursor := c, keyAllowed := false }.push .tag

/-- A block of lines. -/
def blockScalar? (s : Scanner) (literal : Bool) : Option Scanner := do
  let s ← s.dropKey?
  let (text, c) ← block? literal s.indent s.cursor
  return { s with cursor := c, keyAllowed := true }.push (.scalar false text)

/-- A scalar between quotes. -/
def quotedScalar? (s : Scanner) (double : Bool) : Option Scanner := do
  let s ← s.markKey?
  let (text, c) ← quoted? double s.cursor
  return { s with cursor := c, keyAllowed := false }.push (.scalar false text)

/-- The characters that no scalar without quotes begins with. -/
def marks : List Char :=
  ['-', '?', ':', ',', '[', ']', '\x7b', '\x7d', '#', '&', '*', '!', '|', '>', '\'', '"', '%',
    '@', '\u0060']

/-- A scalar without quotes. -/
def plainScalar? (s : Scanner) (x : Char) : Option Scanner := do
  let c := s.cursor
  let spaced := (c.peek? 1).any isBlank
  let begins := (!isBlank x && !marks.contains x) || (x == '-' && !spaced) ||
    (!s.inFlow && (x == '?' || x == ':') && !c.gapAt 1)
  guard begins
  let s ← s.markKey?
  let (text, c, ended) ← plain? (s.indent + 1) s.inFlow s.cursor
  return { s with cursor := c, keyAllowed := ended }.push (.scalar true text)

/-- The next token, which begins with a character. -/
def fetch? (s : Scanner) (x : Char) : Option Scanner :=
  let c := s.cursor
  let spaced := s.inFlow || c.gapAt 1
  if c.column == 0 && x == '%' then s.directive?
  else if c.isMarker '-' then s.endBlocks?.map (·.take 3 .documentStart)
  else if c.isMarker '.' then s.endBlocks?.map (·.take 3 .documentEnd)
  else if x == '[' then s.openFlow? .flowSequence
  else if x == '\x7b' then s.openFlow? .flowMapping
  else if x == ']' then s.closeFlow? .flowSequenceEnd
  else if x == '\x7d' then s.closeFlow? .flowMappingEnd
  else if x == ',' then s.flowEntry?
  else if x == '-' && c.gapAt 1 then s.entry?
  else if x == '?' && spaced then s.key?
  else if x == ':' && spaced then s.value?
  else if x == '*' then s.name? .alias
  else if x == '&' then s.name? .anchor
  else if x == '!' then s.tag?
  else if (x == '|' || x == '>') && !s.inFlow then s.blockScalar? (x == '|')
  else if x == '\'' || x == '"' then s.quotedScalar? (x == '"')
  else s.plainScalar? x

/-- All further tokens, of a text with at most `fuel` more of them. -/
def run? : (fuel : Nat) → Scanner → Option Scanner
  | 0, _ => none
  | fuel + 1, s => do
    let s ← (s.skipBlanks (s.cursor.rest.length + 1)).dropStaleKeys?
    match s.cursor.peek? 0 with
    | some x =>
      let s ← (s.unroll s.cursor.column).fetch? x
      run? fuel s
    | none => s.endBlocks?

end Scanner

/-- The tokens of a text. -/
def Token.scan? (text : String) : Option (List Token) :=
  if text.toList.all isAllowed then
    ((Scanner.start text).run? (text.length + 1)).map (·.tokens.toList)
  else none

end VideoExport.Yaml
