import VideoExport.Text.Blank
import VideoExport.Text.Case
import VideoExport.Text.FileName
import VideoExport.Failure

/-!
# Containers

An export is written into one of four video containers or as an animated GIF.
Whoever runs it learns the container from the extension of the output's name
and from nothing else.

* `Container.read`: a container by its name or extension;
* `Container.ofFileName?`: the container that an output name implies;
* `Container.read_extension`: an extension names its own container.
-/

namespace VideoExport

/-- The kind of file that an export is written into. -/
inductive Container
  | mp4
  | mov
  | mkv
  | webm
  | gif
  deriving DecidableEq, Repr, Inhabited

namespace Container

/-- The containers of video with sound and subtitles. An animation holds
    neither and is kept out. -/
def video : List Container := [mp4, mov, mkv, webm]

/-- The extension of files in a container, which is also its name. -/
def extension : Container → String
  | mp4 => "mp4"
  | mov => "mov"
  | mkv => "mkv"
  | webm => "webm"
  | gif => "gif"

/-- The media type of files in a container. -/
def mimeType : Container → String
  | mp4 => "video/mp4"
  | mov => "video/quicktime"
  | mkv => "video/x-matroska"
  | webm => "video/webm"
  | gif => "image/gif"

/-- Whether a container holds moving pictures only. -/
def isAnimation (c : Container) : Bool := c == gif

/-- The container of a name in documents. -/
def named? : String → Option Container
  | "mp4" => some mp4
  | "mov" => some mov
  | "mkv" => some mkv
  | "webm" => some webm
  | "gif" => some gif
  | _ => none

/-- The container of a name or an extension in lower case, with the names that
    are also in use. -/
def alias? : String → Option Container
  | "mp4" | "m4v" => some mp4
  | "mov" | "quicktime" => some mov
  | "mkv" | "matroska" => some mkv
  | "webm" => some webm
  | "gif" => some gif
  | _ => none

/-- A name or an extension as it is looked up: without blanks around it, dots
    before it, and capitals. -/
def key (text : String) : String :=
  Text.lower (String.ofList ((Text.Chars.trim text.toList).dropWhile (· == '.')))

/-- The container of a name or an extension. -/
def read (text : String) : Except Failure Container :=
  match alias? (key text) with
  | some c => .ok c
  | none => .error (.badArguments
      s!"Unknown container '{key text}'. Valid containers: mp4, mov, mkv, webm, gif")

/-- The container that the name of an output implies. -/
def ofFileName? (name : String) : Option Container :=
  (Text.extension? name).bind fun ext => alias? (key ext)

/-- The container that an output is written into: MP4 unless its name says
    otherwise. -/
def ofOutput (name : String) : Container := (ofFileName? name).getD mp4

/-- An extension names its own container. -/
theorem alias?_extension (c : Container) : alias? c.extension = some c := by
  cases c <;> rfl

/-- An extension is its own look-up key. -/
theorem key_extension (c : Container) : key c.extension = c.extension := by
  cases c <;> decide +kernel

/-- An extension names its own container. -/
theorem read_extension (c : Container) : read c.extension = .ok c := by
  rw [read, key_extension, alias?_extension]

end Container

end VideoExport
