import VideoExport.Datum.Basic
import VideoExport.Yaml.Token

/-!
# YAML documents

A document is a tree of scalars, sequences and mappings. A node may be given a
name and be referred to by it later on.

* `Node`: the nodes of a document;
* `Node.read?`: the only document of a text;
* `Node.datum`: a document as data.
-/

namespace VideoExport.Yaml

/-- A node of a document. A scalar without quotes may stand for more than its
    text. -/
inductive Node
  | scalar (isPlain : Bool) (text : String)
  | sequence (items : List Node)
  | mapping (pairs : List (Node × Node))
  deriving Inhabited

namespace Node

/-- What stands where nothing is written. -/
def empty : Node := .scalar true ""

/-- The tokens that are left, and the nodes with names so far, the last one
    first. -/
structure Feed where
  tokens : List Token
  named : List (String × Node)

namespace Feed

/-- The next token. -/
def head? (f : Feed) : Option Token := f.tokens.head?

/-- What is left after the next token. -/
def tail (f : Feed) : Feed := { f with tokens := f.tokens.drop 1 }

/-- Whether the next token is one of these. -/
def isAt (f : Feed) (ts : List Token) : Bool := f.head?.any ts.contains

/-- What is left after a certain token. -/
def after? (f : Feed) (t : Token) : Option Feed := if f.isAt [t] then some f.tail else none

/-- A node that can be referred to from now on, if it has a name. -/
def remember (f : Feed) (name : Option String) (n : Node) : Feed :=
  match name with
  | some name => { f with named := (name, n) :: f.named }
  | none => f

/-- The node that a name refers to. -/
def referent? (f : Feed) (name : String) : Option Node :=
  (f.named.find? (·.1 == name)).map (·.2)

/-- The name of the next node, whether there is a name or a tag, and what is
    left. They may come in any order. -/
def properties (f : Feed) : Option String × Bool × Feed :=
  match f.tokens with
  | .anchor name :: .tag :: rest | .tag :: .anchor name :: rest =>
    (some name, true, { f with tokens := rest })
  | .anchor name :: rest => (some name, true, { f with tokens := rest })
  | .tag :: rest => (none, true, { f with tokens := rest })
  | _ => (none, false, f)

end Feed

/-! ## Reading -/

/-- The tokens that end a value in a block. -/
def blockStops : List Token := [.key, .value, .blockEnd]

/-- What stands where there is no node: only a name or a tag may stand there
    alone. -/
def unmarked (isMarked : Bool) (f : Feed) : Option (Node × Feed) :=
  if isMarked then some (.empty, f) else none

mutual

/-- A node and what is left. In a block it may be a block, and after a key a
    sequence need not be indented. -/
def node? (inBlock loose : Bool) : (fuel : Nat) → Feed → Option (Node × Feed)
  | 0, _ => none
  | fuel + 1, f =>
    match f.head? with
    | some (.alias name) => (f.referent? name).map (·, f.tail)
    | _ =>
      let (name, isMarked, f) := f.properties
      let found : Option (Node × Feed) := match f.head? with
        | some (.scalar isPlain text) => some (.scalar isPlain text, f.tail)
        | some .flowSequence => (flowItems? fuel true f.tail).map fun (l, f) => (.sequence l, f)
        | some .flowMapping => (flowPairs? fuel true f.tail).map fun (l, f) => (.mapping l, f)
        | some .blockSequence =>
          if inBlock then (blockItems? fuel f.tail).map fun (l, f) => (.sequence l, f)
          else unmarked isMarked f
        | some .blockMapping =>
          if inBlock then (blockPairs? fuel f.tail).map fun (l, f) => (.mapping l, f)
          else unmarked isMarked f
        | some .entry =>
          if loose then (looseItems? fuel f).map fun (l, f) => (.sequence l, f)
          else unmarked isMarked f
        | _ => unmarked isMarked f
      found.map fun (n, f) => (n, f.remember name n)

/-- A node, unless one of these tokens comes next. -/
def nodeUnless? (inBlock loose : Bool) (stops : List Token) :
    (fuel : Nat) → Feed → Option (Node × Feed)
  | 0, _ => none
  | fuel + 1, f => if f.isAt stops then some (.empty, f) else node? inBlock loose fuel f

/-- A value after a colon, or none. -/
def value? (inBlock : Bool) (stops : List Token) : (fuel : Nat) → Feed → Option (Node × Feed)
  | 0, _ => none
  | fuel + 1, f =>
    match f.after? .value with
    | some f => nodeUnless? inBlock inBlock stops fuel f
    | none => some (.empty, f)

/-- The items of a sequence in a block. -/
def blockItems? : (fuel : Nat) → Feed → Option (List Node × Feed)
  | 0, _ => none
  | fuel + 1, f =>
    match f.head? with
    | some .blockEnd => some ([], f.tail)
    | some .entry => do
      let (n, f) ← nodeUnless? true false [.entry, .blockEnd] fuel f.tail
      let (more, f) ← blockItems? fuel f
      return (n :: more, f)
    | _ => none

/-- The items of a sequence that is not indented. -/
def looseItems? : (fuel : Nat) → Feed → Option (List Node × Feed)
  | 0, _ => none
  | fuel + 1, f =>
    match f.head? with
    | some .entry => do
      let (n, f) ← nodeUnless? true false (.entry :: blockStops) fuel f.tail
      let (more, f) ← looseItems? fuel f
      return (n :: more, f)
    | _ => some ([], f)

/-- The pairs of a mapping in a block. -/
def blockPairs? : (fuel : Nat) → Feed → Option (List (Node × Node) × Feed)
  | 0, _ => none
  | fuel + 1, f =>
    match f.head? with
    | some .blockEnd => some ([], f.tail)
    | some .key => do
      let (k, f) ← nodeUnless? true true blockStops fuel f.tail
      let (v, f) ← value? true blockStops fuel f
      let (more, f) ← blockPairs? fuel f
      return ((k, v) :: more, f)
    | _ => none

/-- The items of a sequence in brackets. An item may be a single pair. -/
def flowItems? : (fuel : Nat) → (first : Bool) → Feed → Option (List Node × Feed)
  | 0, _, _ => none
  | fuel + 1, first, f =>
    if f.isAt [.flowSequenceEnd] then some ([], f.tail)
    else do
      let f ← if first then some f else f.after? .flowEntry
      if f.isAt [.flowSequenceEnd] then some ([], f.tail)
      else
        let (n, f) ← match f.after? .key with
          | some f => do
            let (k, f) ← nodeUnless? false false [.value, .flowEntry, .flowSequenceEnd] fuel f
            let (v, f) ← value? false [.flowEntry, .flowSequenceEnd] fuel f
            some (.mapping [(k, v)], f)
          | none => node? false false fuel f
        let (more, f) ← flowItems? fuel false f
        return (n :: more, f)

/-- The pairs of a mapping in braces. A key may be without a value. -/
def flowPairs? : (fuel : Nat) → (first : Bool) → Feed → Option (List (Node × Node) × Feed)
  | 0, _, _ => none
  | fuel + 1, first, f =>
    if f.isAt [.flowMappingEnd] then some ([], f.tail)
    else do
      let f ← if first then some f else f.after? .flowEntry
      if f.isAt [.flowMappingEnd] then some ([], f.tail)
      else
        let (pair, f) ← match f.after? .key with
          | some f => do
            let (k, f) ← nodeUnless? false false [.value, .flowEntry, .flowMappingEnd] fuel f
            let (v, f) ← value? false [.flowEntry, .flowMappingEnd] fuel f
            some ((k, v), f)
          | none => (node? false false fuel f).map fun (k, f) => ((k, .empty), f)
        let (more, f) ← flowPairs? fuel false f
        return (pair :: more, f)

end

/-- Whether directives come before a document, which then has to be marked. -/
def dropDirectives (f : Feed) : Bool × Feed :=
  let rest := f.tokens.dropWhile (· == .directive)
  (rest.length < f.tokens.length, { f with tokens := rest })

/-- The document that tokens write. There is no other one after it. -/
def ofTokens? (tokens : List Token) : Option Node := do
  let (isAnnounced, f) := dropDirectives ⟨tokens, []⟩
  -- Each token takes at most three calls to be read.
  let fuel := 3 * tokens.length + 3
  let (n, f) ← match f.after? .documentStart with
    | some f =>
      if f.tokens.isEmpty then some (.empty, f)
      else nodeUnless? true false [.directive, .documentStart, .documentEnd] fuel f
    | none =>
      if isAnnounced then none
      else if f.tokens.isEmpty then some (.empty, f)
      else node? true false fuel f
  if f.tokens.all (· == .documentEnd) then some n else none

/-- The only document of a text. -/
def read? (text : String) : Option Node := (Token.scan? text).bind ofTokens?

/-! ## As data -/

mutual

/-- A document as data. Sequences are no records, and keys are scalars; what is
    not so can only be skipped. -/
def datum : Node → Datum
  | .scalar true text => .plain text
  | .scalar false text => .str text
  | .sequence _ => .flawed
  | .mapping pairs =>
    match fields? pairs with
    | some fields => .map fields
    | none => .flawed

/-- The pairs of a mapping as fields, if all keys are scalars. -/
def fields? : List (Node × Node) → Option (List (String × Datum))
  | [] => some []
  | (.scalar _ name, v) :: rest => (fields? rest).map ((name, v.datum) :: ·)
  | _ => none

end

end Node

end VideoExport.Yaml
