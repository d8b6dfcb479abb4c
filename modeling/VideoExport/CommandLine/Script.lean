import VideoExport.Configuration.Basic
import VideoExport.Frame.Grading
import VideoExport.Settings.File
import VideoExport.Settings.Overrides
import VideoExport.Text.FileName

/-!
# Scripts

What a command does is a tree of what it asks of the outside: texts of files,
whether they are there, lines to print and files to write. The tree says in
which order these happen; a folder, of this machine or imagined, answers it.

* `Script`: the effects on the way to a result;
* `Refusal`: why a command ends without one;
* `Folder.play`: a script in an imagined folder.
-/

namespace VideoExport

/-- Why a command ends without a result. -/
inductive Refusal
  | configuration (fault : Configuration.Fault)
  /-- Neither an input nor a description of its streams is given. -/
  | noSource
  | inputMissing (path : String)
  | probe (input : String) (f : Failure)
  | streamsUnreadable (path : String)
  | streamsMalformed (path : String)
  | settingsUnreadable (path : String)
  | settingsMalformed (n : DataNotation) (path : String)
  | overrides (fault : Overrides.Fault)
  | outputExists (path : String)
  | outputUnwritable (path : String)
  /-- A plan whose tracks do not go together. -/
  | inconsistent (issues : Nat)
  | cancelled
  | failure (f : Failure)
  deriving Repr

/-- The text of a refusal. -/
def Refusal.message : Refusal → String
  | configuration _ => "Failed to load configuration"
  | noSource => "Either --input or --streams is required"
  | inputMissing path => s!"Input file does not exist: {path}"
  | probe input _ => s!"Failed to probe {input}"
  | streamsUnreadable path => s!"Failed to read streams file {path}"
  | streamsMalformed path => s!"Invalid streams file {path}"
  | settingsUnreadable path => s!"Failed to read settings file {path}"
  | settingsMalformed n path => s!"Invalid {n.name} settings in {path}"
  | overrides fault => fault.message
  | outputExists path => s!"Output file already exists: {path} (use --force)"
  | outputUnwritable path => s!"Failed to write {path}"
  | inconsistent issues => s!"Plan failed validation with {Number.text issues} issue(s)"
  | cancelled => "Export cancelled"
  | failure f => f.message

/-- What a command asks of the outside on the way to its result. -/
inductive Script (α : Type)
  /-- The result. -/
  | done (a : α)
  /-- The end without a result. -/
  | refuse (why : Refusal)
  /-- The text of a file, or why it cannot be read. -/
  | readText (path : String) (next : Except String String → Script α)
  /-- Whether there is a file. -/
  | isFile (path : String) (next : Bool → Script α)
  /-- Whether there is anything. -/
  | isThere (path : String) (next : Bool → Script α)
  /-- A file to write, and whether that could be done. -/
  | write (path : String) (bytes : Bytes) (next : Bool → Script α)
  /-- A line to print. -/
  | print (line : String) (next : Script α)

namespace Script

variable {α β : Type}

/-- A script, and another one that depends on its result. -/
def andThen (s : Script α) (f : α → Script β) : Script β :=
  match s with
  | done a => f a
  | refuse why => refuse why
  | readText path next => readText path fun r => (next r).andThen f
  | isFile path next => isFile path fun b => (next b).andThen f
  | isThere path next => isThere path fun b => (next b).andThen f
  | write path bytes next => write path bytes fun b => (next b).andThen f
  | print line next => print line (next.andThen f)

instance : Monad Script where
  pure := done
  bind := andThen

/-- A result, or the end without one. -/
def ofExcept {ε : Type} (why : ε → Refusal) : Except ε α → Script α
  | .ok a => done a
  | .error e => refuse (why e)

/-- A result that may be missing. -/
def ofOption (why : Refusal) : Option α → Script α
  | some a => done a
  | none => refuse why

/-- The text of a file. -/
def textOf (path : String) (why : String → Refusal) : Script String :=
  readText path (ofExcept why)

/-- A line to print, and nothing else. -/
def say (line : String) : Script Unit := print line (done ())

/-- Lines to print. -/
def sayAll : List String → Script Unit
  | [] => done ()
  | line :: lines => print line (sayAll lines)

/-- The first of these paths where there is a file. -/
def firstFile? : List String → Script (Option String)
  | [] => done none
  | path :: paths => isFile path fun here => if here then done (some path) else firstFile? paths

end Script

/-- An imagined folder: the files in it and in the folders below it, by the
    names that lead to them. -/
structure Folder where
  files : List (List String × Bytes)

namespace Folder

/-- A folder with files by their paths. -/
def ofFiles (files : List (String × Bytes)) : Folder :=
  ⟨files.map fun (path, bytes) => (Text.pathParts path, bytes)⟩

/-- The file that names lead to. -/
def at? (d : Folder) (parts : List String) : Option Bytes :=
  (d.files.find? (·.1 == parts)).map (·.2)

/-- Whether names lead to a folder. -/
def isFolder (d : Folder) (parts : List String) : Bool :=
  parts.isEmpty ||
    d.files.any fun (p, _) => parts.isPrefixOf p && parts.length < p.length

/-- Where a path leads from a place, which is told with its last name first.
    Only folders lead any further. -/
def follow (d : Folder) : (here path : List String) → Option (List String)
  | here, [] => some here
  | here, part :: path =>
    if !d.isFolder here.reverse then none
    else if part = "" ∨ part = "." then follow d here path
    else if part = ".." then
      match here with
      | [] => none
      | _ :: up => follow d up path
    else follow d (part :: here) path

/-- The names that a path leads along, if it stays in the folder. -/
def place? (d : Folder) (path : String) : Option (List String) :=
  if path.isEmpty || Text.startsWith "/" path then none
  else (d.follow [] (Text.splitOn '/' path)).map List.reverse

/-- The file of a path. -/
def file? (d : Folder) (path : String) : Option Bytes := (d.place? path).bind d.at?

/-- Whether a path leads to a file or a folder. -/
def has (d : Folder) (path : String) : Bool :=
  (d.place? path).any fun parts => (d.at? parts).isSome || d.isFolder parts

/-- The folder with one more file, or with another one in its place. It is not
    put where a folder is. -/
def put? (d : Folder) (path : String) (bytes : Bytes) : Option Folder := do
  let parts ← d.place? path
  guard (!d.isFolder parts)
  return ⟨(parts, bytes) :: d.files.filter (·.1 != parts)⟩

/-- A script in a folder: its end, the lines that it prints, and the folder
    afterwards. -/
def play {α : Type} (d : Folder) : Script α → Except Refusal α × List String × Folder
  | .done a => (.ok a, [], d)
  | .refuse why => (.error why, [], d)
  | .readText path next =>
    match (d.file? path).map Text.Utf8.text? with
    | some (some text) => d.play (next (.ok text))
    | some none => d.play (next (.error "stream did not contain valid UTF-8"))
    | none => d.play (next (.error "No such file or directory (os error 2)"))
  | .isFile path next => d.play (next (d.file? path).isSome)
  | .isThere path next => d.play (next (d.has path))
  | .write path bytes next =>
    match d.put? path bytes with
    | some after => after.play (next true)
    | none => d.play (next false)
  | .print line next =>
    let (end_, lines, after) := d.play next
    (end_, line :: lines, after)

end Folder

end VideoExport
