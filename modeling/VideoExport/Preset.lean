import VideoExport.Settings.Document

/-!
# Presets

A preset takes the place of codec, rate control and speed, and may put a
filter before those of the user.

* `presets`: the table of presets;
* `Preset.find`: the preset of a name.
-/

namespace VideoExport

/-- A named choice of codec, rate control, speed and filter. -/
structure Preset where
  name : String
  description : String
  codec : VideoCodec
  rateControl : RateControl
  speed : Option String
  filter : Option String
  deriving DecidableEq, Repr, Inhabited

/-- The table of presets. -/
def presets : List Preset := [
  { name := "web"
    description := "H.264 at 720p for browsers and chat apps"
    codec := .h264
    rateControl := .crf 23
    speed := some "fast"
    filter := some "scale=-2:720" },
  { name := "archive"
    description := "High quality HEVC at source resolution"
    codec := .hevc
    rateControl := .crf 18
    speed := some "slow"
    filter := none },
  { name := "social"
    description := "Constant 30 fps H.264 at 4.5 Mbps"
    codec := .h264
    rateControl := .bitrate 4500
    speed := some "medium"
    filter := some "fps=30" },
  { name := "tiny"
    description := "Small VP9 file at 480p"
    codec := .vp9
    rateControl := .crf 40
    speed := none
    filter := some "scale=-2:480" }]

namespace Preset

/-- The preset of a name, in any case and with blanks around it. -/
def find (name : String) : Except Failure Preset :=
  let wanted := Text.trim name
  match presets.find? fun p => Text.sameIgnoringCase p.name wanted with
  | some p => .ok p
  | none => .error (.unknownPreset wanted)

/-- A preset in documents. -/
def datum (p : Preset) : Datum :=
  .map [("name", .str p.name), ("description", .str p.description), ("codec", .str p.codec.name),
    ("rate_control", p.rateControl.datum), ("speed", .ofOption .str p.speed),
    ("filter", .ofOption .str p.filter)]

/-- What is found is in the table. -/
theorem mem_of_find {name : String} {p : Preset} (h : find name = .ok p) : p ∈ presets := by
  simp only [find] at h
  split at h
  case h_1 q hq => cases h; exact List.mem_of_find?_eq_some hq
  case h_2 => cases h

end Preset

end VideoExport
