import VideoExport.Toml.Scalar
import VideoExport.Toml.Table

/-!
# TOML documents

A document is a sequence of lines. A line gives a value to a key, or is the
header of a table, to which the keys below it belong.

* `value?`: a value, which may hold further ones;
* `read?`: the document that a text writes.
-/

namespace VideoExport.Toml

/-! ## Keys -/

/-- The characters of keys without quotes. -/
def isKeyChar (c : Char) : Bool := c.isAlphanum || c == '_' || c == '-'

/-- A key without dots. -/
def simpleKey? (s : List Char) : Option (String × List Char) :=
  match s with
  | '"' :: _ | '\'' :: _ => (lineString? s).map fun (t, s) => (String.ofList t, s)
  | _ =>
    let (key, s) := s.span isKeyChar
    if key.isEmpty then none else some (String.ofList key, s)

/-- A key: simple keys with dots between them, and blanks wherever one likes.
    The last of them comes apart. -/
def key? : (fuel : Nat) → List Char → Option ((List String × String) × List Char)
  | 0, _ => none
  | fuel + 1, s => do
    let (key, s) ← simpleKey? (blanks s)
    match blanks s with
    | '.' :: s =>
      let ((path, last), s) ← key? fuel s
      return ((key :: path, last), s)
    | s => return (([], key), s)

/-- The most simple keys that a key is made of, and how deep values go. -/
def maxDepth : Nat := 79

/-! ## Values -/

/-- A text without the blanks, line breaks and comments it starts with. -/
def gaps : (fuel : Nat) → List Char → List Char
  | 0, s => s
  | fuel + 1, s =>
    match comment (blanks s) with
    | [] => []
    | t =>
      match break? t with
      | some u => gaps fuel u
      | none => t

mutual

/-- A value. Lists and tables hold further ones, up to a `depth`. -/
def value? (depth : Nat) : (fuel : Nat) → List Char → Option (Datum × List Char)
  | 0, _ => none
  | fuel + 1, s =>
    match s with
    | '[' :: s =>
      if depth = 0 then none
      else (items? (depth - 1) fuel s).map fun (l, s) => (.list l, s)
    | '\x7b' :: s =>
      if depth = 0 then none
      else match blanks s with
        | '\x7d' :: s => some (.map [], s)
        | _ => (pairs? (depth - 1) fuel [] s).map fun (es, s) => (es.datum, s)
    | s => scalar? s

/-- The rest of a list. A comma may come after its last item. -/
def items? (depth : Nat) : (fuel : Nat) → List Char → Option (List Datum × List Char)
  | 0, _ => none
  | fuel + 1, s =>
    match gaps s.length s with
    | ']' :: s => some ([], s)
    | s => do
      let (d, s) ← value? depth fuel s
      match gaps s.length s with
      | ',' :: s =>
        let (l, s) ← items? depth fuel s
        return (d :: l, s)
      | ']' :: s => return ([d], s)
      | _ => none

/-- The rest of a table between braces, all on one line. -/
def pairs? (depth : Nat) : (fuel : Nat) → Entries → List Char → Option (Entries × List Char)
  | 0, _, _ => none
  | fuel + 1, es, s => do
    let ((path, key), s) ← key? maxDepth s
    let (d, s) ← value? depth fuel (blanks (← after? '=' s))
    let es ← es.define? path key d
    match blanks s with
    | ',' :: s => pairs? depth fuel es s
    | '\x7d' :: s => return (es, s)
    | _ => none

end

/-! ## Documents -/

/-- A document so far, and the path to the table that keys belong to. -/
structure Draft where
  root : Entries
  here : List String

namespace Draft

/-- The draft after a header, which begins after its first bracket. -/
def header? (w : Draft) (s : List Char) : Option (Draft × List Char) :=
  match s with
  | '[' :: s => do
    let ((path, key), s) ← key? maxDepth s
    let s ← lineEnd? (← after? ']' (← after? ']' s))
    return (⟨← w.root.openElement? path key, path ++ [key]⟩, s)
  | s => do
    let ((path, key), s) ← key? maxDepth s
    let s ← lineEnd? (← after? ']' s)
    return (⟨← w.root.openTable? path key, path ++ [key]⟩, s)

/-- The draft after a line that gives a value to a key. -/
def define? (w : Draft) (s : List Char) : Option (Draft × List Char) := do
  let ((path, key), s) ← key? maxDepth s
  let s := blanks (← after? '=' s)
  let (d, s) ← value? maxDepth (2 * s.length + 1) s
  let s ← lineEnd? s
  let root ← w.root.alter? false (fun _ es => es.define? path key d) w.here .header
  return ({ w with root }, s)

/-- The draft after all lines of a text with at most `fuel` of them. -/
def lines? : (fuel : Nat) → Draft → List Char → Option Draft
  | 0, _, _ => none
  | fuel + 1, w, s =>
    match blanks s with
    | [] => some w
    | '[' :: s => do
      let (w, s) ← w.header? s
      lines? fuel w s
    | s =>
      match end? (comment s) with
      | some s => lines? fuel w s
      | none => do
        let (w, s) ← w.define? s
        lines? fuel w s

end Draft

/-- The document that a text writes. A byte order mark may come first. -/
def read? (text : String) : Option Datum :=
  let s := match text.toList with
    | '\ufeff' :: s => s
    | s => s
  (Draft.lines? (s.length + 1) ⟨[], []⟩ s).map (·.root.datum)

end VideoExport.Toml
