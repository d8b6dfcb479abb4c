import VideoExport.Configuration.Basic
import VideoExport.Datum.Decode
import VideoExport.Toml.Document
import VideoExport.Toml.Text

/-!
# Configuration files

A configuration is a document with a section for each of its parts. Sections
and their fields may be left out and then have their defaults; fields that
nobody knows are skipped.

* `Configuration.datum`, `Configuration.ofDatum?`: a configuration in documents;
* `Configuration.read`, `Configuration.text?`: a configuration in files.
-/

namespace VideoExport

/-- The fields of a section. Of a section that is a list, what comes after the
    last field is skipped. -/
def Datum.section? (names : List String) : Taker Fields
  | list items => fields? names (list (items.take names.length))
  | d => d.fields? names

namespace LoggingOptions

/-- The section in documents. -/
def datum (o : LoggingOptions) : Datum := .map [("level", .str o.level), ("json", .bool o.json)]

/-- The section that a document describes. -/
def ofDatum? : Taker LoggingOptions := fun d => do
  let fs ← d.section? ["level", "json"]
  let otherwise := Configuration.default.logging
  return {
    level := ← fs.orElse "level" Datum.str? otherwise.level
    json := ← fs.orElse "json" Datum.bool? otherwise.json }

end LoggingOptions

namespace WatchdogOptions

/-- The section in documents. -/
def datum (o : WatchdogOptions) : Datum :=
  .map [("start_timeout_ms", .word64 o.startTimeoutMs),
    ("progress_interval_ms", .word64 o.progressIntervalMs)]

/-- The section that a document describes. -/
def ofDatum? : Taker WatchdogOptions := fun d => do
  let fs ← d.section? ["start_timeout_ms", "progress_interval_ms"]
  let otherwise := Configuration.default.watchdog
  return {
    startTimeoutMs := ← fs.orElse "start_timeout_ms" Datum.word64? otherwise.startTimeoutMs
    progressIntervalMs :=
      ← fs.orElse "progress_interval_ms" Datum.word64? otherwise.progressIntervalMs }

end WatchdogOptions

namespace EncoderOptions

/-- The section in documents. -/
def datum (o : EncoderOptions) : Datum :=
  .map [("threads", .ofOption .word32 o.threads), ("default_preset", .ofOption .str o.preset)]

/-- The section that a document describes. -/
def ofDatum? : Taker EncoderOptions := fun d => do
  let fs ← d.section? ["threads", "default_preset"]
  return {
    threads := ← fs.orElse "threads" (Datum.option? Datum.word32?) none
    preset := ← fs.orElse "default_preset" (Datum.option? Datum.str?) none }

end EncoderOptions

namespace ToolOptions

/-- The section in documents. -/
def datum (o : ToolOptions) : Datum :=
  .map [("ffmpeg", .str o.converter), ("ffprobe", .str o.prober)]

/-- The section that a document describes. -/
def ofDatum? : Taker ToolOptions := fun d => do
  let fs ← d.section? ["ffmpeg", "ffprobe"]
  let otherwise := Configuration.default.tools
  return {
    converter := ← fs.orElse "ffmpeg" Datum.str? otherwise.converter
    prober := ← fs.orElse "ffprobe" Datum.str? otherwise.prober }

end ToolOptions

namespace Configuration

/-- A configuration in documents. -/
def datum (c : Configuration) : Datum :=
  .map [("logging", c.logging.datum), ("watchdog", c.watchdog.datum),
    ("encoder", c.encoder.datum), ("ffmpeg", c.tools.datum)]

/-- The configuration that a document describes. -/
def ofDatum? : Taker Configuration := fun d => do
  let fs ← d.section? ["logging", "watchdog", "encoder", "ffmpeg"]
  return {
    logging := ← fs.orElse "logging" LoggingOptions.ofDatum? default.logging
    watchdog := ← fs.orElse "watchdog" WatchdogOptions.ofDatum? default.watchdog
    encoder := ← fs.orElse "encoder" EncoderOptions.ofDatum? default.encoder
    tools := ← fs.orElse "ffmpeg" ToolOptions.ofDatum? default.tools }

/-- The configuration that a text writes. -/
def read (text : String) : Except Fault Configuration :=
  match (Toml.read? text).bind ofDatum? with
  | some c => .ok c
  | none => .error .malformed

/-- A configuration as it is written, if all of its numbers can be. -/
def text? (c : Configuration) : Option String := Toml.text? c.datum

end Configuration

end VideoExport
