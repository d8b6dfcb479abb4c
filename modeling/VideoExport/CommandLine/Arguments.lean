import VideoExport.CommandLine.Value
import VideoExport.Settings.Overrides

/-!
# Arguments

The command line names a command and gives it options; a few options concern
all commands and may come before or after the name.

* `Command`: the commands with what they are given;
* `Arguments`: a whole command line;
* `Arguments.read`: the command line that words make up.
-/

namespace VideoExport.CommandLine

/-! ## Arguments of commands -/

/-- Where a source comes from. -/
structure SourceArguments where
  input : Option String
  /-- A file that describes the streams. -/
  streams : Option String
  synthetic : Bool
  deriving DecidableEq, Repr, Inhabited

/-- What to ask of an export: a file, and what overrides it. -/
structure SettingsArguments where
  file : Option String
  overrides : Overrides
  threads : Option UInt32
  deriving Inhabited

/-- Where to write an export and how to tell of it. -/
structure OutputArguments where
  path : Option String
  force : Bool
  json : Bool
  startTimeoutMs : Option UInt64
  deriving DecidableEq, Repr, Inhabited

/-- The commands. -/
inductive Command
  /-- It shows the plan of an export, or only its tokens. -/
  | compile (source : SourceArguments) (settings : SettingsArguments) (tokens : Bool)
  /-- It shows what tokens mean. -/
  | parse (output : String) (tokens : List String)
  /-- It shows what would become of the tracks. -/
  | check (source : SourceArguments) (settings : SettingsArguments) (json : Bool)
  /-- It exports. -/
  | convert (source : SourceArguments) (settings : SettingsArguments) (output : OutputArguments)
  /-- It shows the subtitles of a track. -/
  | subtitles (source : SourceArguments) (track : UInt64)
  /-- It lists the presets. -/
  | presets (json : Bool)
  deriving Inhabited

/-- A command line. -/
structure Arguments where
  /-- The file of the configuration. -/
  config : Option String
  logLevel : Option String
  logJson : Bool
  command : Command
  deriving Inhabited

/-! ## Grammars -/

/-- The options that concern all commands. -/
def commonOptions : List OptionRule := [
  (.value "config" Value.path : OptionRule).withVariable "CLIPBRIDGE_CONFIG",
  .value "log-level" Value.text,
  .flag "log-json"]

/-- The options for a source. -/
def sourceOptions : List OptionRule := [
  (.value "input" Value.text : OptionRule).withShort 'i',
  .value "streams" Value.path,
  .flag "synthetic"]

/-- The options for settings. -/
def settingsOptions : List OptionRule := [
  .value "settings" Value.path,
  (.value "start" Value.text : OptionRule).withShort 's',
  (.value "end" Value.text : OptionRule).withShort 'e',
  .value "container" Value.text,
  .value "codec" Value.text,
  .value "crf" Value.quality,
  .value "bitrate" Value.word32,
  .value "qp" Value.quality,
  .value "speed" Value.text,
  .value "preset" Value.text,
  .value "resize" Value.resize,
  .value "fit" Value.fit,
  (.value "brightness" Value.number : OptionRule).dashed,
  .value "contrast" Value.number,
  .value "saturation" Value.number,
  (.value "hue" Value.number : OptionRule).dashed,
  .value "audio-codec" Value.text,
  .value "audio-bitrate" Value.word32,
  .flag "video-copy",
  .flag "audio-copy",
  .value "audio-track" Value.index,
  .flag "no-audio",
  .value "subtitle-track" Value.index,
  .flag "all-subtitles",
  .flag "auto-tracks",
  .value "threads" Value.word32,
  .value "gif-fps" (Value.within AnimationOptions.fpsRange),
  .value "gif-speed" (Value.within AnimationOptions.speedRange)]

/-- The grammar of a command with some options of its own. -/
def commandGrammar (options : List OptionRule) : Grammar :=
  ⟨options ++ commonOptions ++ [.help], [], false, [], [], []⟩

/-- The grammar of a command that has settings. -/
def settingsGrammar (options : List OptionRule) : Grammar :=
  { commandGrammar (sourceOptions ++ settingsOptions ++ options) with
    excludes := [("crf", "bitrate"), ("crf", "qp"), ("bitrate", "qp"),
      ("audio-track", "no-audio"), ("subtitle-track", "all-subtitles")]
    requires := [("fit", "resize")] }

/-- The names of the commands. -/
def commandNames : List String := ["compile", "parse", "check", "export", "subtitles", "presets"]

/-- The command that shows help on others. -/
def helpCommand : String := "help"

/-- The grammar before the name of a command. -/
def mainGrammar : Grammar :=
  ⟨commonOptions ++ [.help, .version], commandNames ++ [helpCommand], false, [], [], []⟩

/-- The grammar of a command. -/
def grammarOf : String → Grammar
  | "compile" => settingsGrammar [.flag "tokens"]
  | "parse" =>
    { commandGrammar [(.value "output-name" Value.text : OptionRule).withShort 'o'] with
      keepsWords := true
      demands := ["output-name"] }
  | "check" => settingsGrammar [.flag "json"]
  | "export" => settingsGrammar [
      (.value "output" Value.path : OptionRule).withShort 'o', .flag "force", .flag "json",
      .value "start-timeout-ms" Value.milliseconds]
  | "subtitles" =>
    { commandGrammar (sourceOptions ++
        [(.value "track" Value.index : OptionRule).withShort 't']) with
      demands := ["track"] }
  | _ => commandGrammar [.flag "json"]

/-! ## Reading -/

namespace Given

/-- The arguments for a source. -/
def source (gs : Given) : SourceArguments where
  input := gs.value? "input" Value.text
  streams := gs.value? "streams" Value.path
  synthetic := gs.has "synthetic"

/-- The overrides of settings. -/
def overrides (gs : Given) : Overrides where
  start := gs.value? "start" Value.text
  stop := gs.value? "end" Value.text
  container := gs.value? "container" Value.text
  videoCodec := gs.value? "codec" Value.text
  crf := gs.value? "crf" Value.quality
  bitrate := gs.value? "bitrate" Value.word32
  qp := gs.value? "qp" Value.quality
  speed := gs.value? "speed" Value.text
  preset := gs.value? "preset" Value.text
  resize := gs.value? "resize" Value.resize
  fit := gs.value? "fit" Value.fit
  brightness := gs.value? "brightness" Value.number
  contrast := gs.value? "contrast" Value.number
  saturation := gs.value? "saturation" Value.number
  hue := gs.value? "hue" Value.number
  audioCodec := gs.value? "audio-codec" Value.text
  audioKbps := gs.value? "audio-bitrate" Value.word32
  copyVideo := gs.has "video-copy"
  copyAudio := gs.has "audio-copy"
  audioTrack := gs.value? "audio-track" Value.index
  noAudio := gs.has "no-audio"
  subtitleTrack := gs.value? "subtitle-track" Value.index
  allSubtitles := gs.has "all-subtitles"
  suggestedTracks := gs.has "auto-tracks"
  frameRate := gs.value? "gif-fps" (Value.within AnimationOptions.fpsRange)
  paletteSpeed := gs.value? "gif-speed" (Value.within AnimationOptions.speedRange)

/-- The arguments for settings. -/
def settings (gs : Given) : SettingsArguments where
  file := gs.value? "settings" Value.path
  overrides := gs.overrides
  threads := gs.value? "threads" Value.word32

/-- The arguments for an output. -/
def output (gs : Given) : OutputArguments where
  path := gs.value? "output" Value.path
  force := gs.has "force"
  json := gs.has "json"
  startTimeoutMs := gs.value? "start-timeout-ms" Value.milliseconds

/-- The command of a name with what is given to it. -/
def command (gs : Given) : String → Command
  | "compile" => .compile gs.source gs.settings (gs.has "tokens")
  | "parse" => .parse ((gs.value? "output-name" Value.text).getD "") gs.words
  | "check" => .check gs.source gs.settings (gs.has "json")
  | "export" => .convert gs.source gs.settings gs.output
  | "subtitles" => .subtitles gs.source ((gs.value? "track" Value.index).getD 0)
  | _ => .presets (gs.has "json")

/-- What is given before and after the name of a command: what comes from words
    counts more than what comes from the environment, and the later words count
    more than the earlier ones. -/
def common {α : Type} (before after : Given) (name : String) (read : ValueReader α) : Option α :=
  match before.find? name, after.find? name with
  | some b, some a =>
    if a.origin = .environment && b.origin = .words then before.value? name read
    else after.value? name read
  | some _, none => before.value? name read
  | none, _ => after.value? name read

end Given

/-- What is wrong with a wish for help on commands, or that it is one: no
    command has commands of its own. -/
def helpFault : List String → UsageFault
  | [] => .helpWanted
  | [name] => if mainGrammar.commands.contains name then .helpWanted else .unknownCommand
  | _ => .unknownCommand

/-- The command line that words make up. What is wrong after the name of the
    command is found before the rest. -/
def Arguments.read (lookup : String → Option String) (words : List String) :
    Except UsageFault Arguments := do
  let (s, command) ← Scan.run mainGrammar .start words
  match command with
  | none =>
    let gs ← mainGrammar.gather lookup s
    throw (if gs.options.isEmpty then .nothingGiven else .missingCommand)
  | some (name, rest) =>
    if name = helpCommand then throw (helpFault rest)
    let after ← (grammarOf name).finish lookup rest
    let before ← mainGrammar.gather lookup s
    return {
      config := before.common after "config" Value.path
      logLevel := before.common after "log-level" Value.text
      logJson := before.has "log-json" || after.has "log-json"
      command := after.command name }

end VideoExport.CommandLine
