import VideoExport.Datum.Json
import VideoExport.Settings.Document
import VideoExport.Text.Case
import VideoExport.Text.FileName
import VideoExport.Yaml.Node

/-!
# Settings files

Settings are kept in files of one of two notations. The extension of a file
tells which: YAML is announced, and all else is JSON.

* `DataNotation.ofFileName`: the notation of a file;
* `Settings.ofText?`: the settings that a text writes in a notation.
-/

namespace VideoExport

/-- A notation for data documents. -/
inductive DataNotation
  | json
  | yaml
  deriving DecidableEq, Repr, Inhabited

namespace DataNotation

/-- The name of a notation. -/
def name : DataNotation → String
  | json => "JSON"
  | yaml => "YAML"

/-- The notation that an extension announces. -/
def ofExtension (ext : String) : DataNotation :=
  if Text.sameIgnoringCase ext "yaml" || Text.sameIgnoringCase ext "yml" then yaml else json

/-- The notation of a file. -/
def ofFileName (path : String) : DataNotation :=
  match Text.extension? path with
  | some ext => ofExtension ext
  | none => json

/-- The document that a text writes. -/
def read? (n : DataNotation) (text : String) : Option Datum :=
  match n with
  | json => Json.read? text
  | yaml => (Yaml.Node.read? text).map Yaml.Node.datum

end DataNotation

/-- The settings that a text writes. -/
def Settings.ofText? (n : DataNotation) (text : String) : Option Settings :=
  (n.read? text).bind Settings.ofDatum?

end VideoExport
