import VideoExport.Text.Split

/-!
# File names

A path is a sequence of components between slashes; empty components and
single dots mean nothing. Its file name is its last component, unless that
leads to the parent directory. The last dot of a file name that does not start
it separates the stem from the extension.

* `fileName?`, `stem?`, `extension?`: the parts of a path;
* `stem?_isSome`: a path with a file name has a stem.
-/

namespace VideoExport.Text

/-- The components of a path that name something. -/
def pathParts (path : String) : List String :=
  (splitOn '/' path).filter fun part => !part.isEmpty && part != "."

/-- The last component of a path, unless it leads to the parent directory. -/
def fileName? (path : String) : Option String :=
  match (pathParts path).getLast? with
  | some ".." => none
  | last => last

/-- Stem and extension of a file name: the texts before and after its last
    dot. A dot that starts the name belongs to the stem. -/
def splitExtension (name : String) : String × Option String :=
  match Chars.cutAt? (· == '.') name.toList.reverse with
  | none | some (_, []) => (name, none)
  | some (ext, stem) => (String.ofList stem.reverse, some (String.ofList ext.reverse))

/-- The file name of a path without its extension. -/
def stem? (path : String) : Option String :=
  (fileName? path).map fun name => (splitExtension name).1

/-- The extension of the file name of a path. -/
def extension? (path : String) : Option String :=
  (fileName? path).bind fun name => (splitExtension name).2

/-- A path with a file name has a stem. -/
theorem stem?_isSome (path : String) : (stem? path).isSome = (fileName? path).isSome := by
  simp [stem?]

end VideoExport.Text
