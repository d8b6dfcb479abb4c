import VideoExport.Number.Natural
import VideoExport.Text.Blank

/-!
# Configuration

What the user can set up once for all exports. A configuration starts with
defaults; a file may set any of its parts, and variables of the environment
override some of them.

* `Configuration`: the parts, and `Configuration.default` their defaults;
* `Configuration.override`: what the environment changes;
* `Configuration.threadCount`: the number of threads to encode with.
-/

namespace VideoExport

/-- What is reported while the program runs. -/
structure LoggingOptions where
  level : String
  json : Bool
  deriving DecidableEq, Repr, Inhabited

/-- How long a job may take to start, and how often it tells its progress. -/
structure WatchdogOptions where
  startTimeoutMs : UInt64
  progressIntervalMs : UInt64
  deriving DecidableEq, Repr, Inhabited

/-- How to encode where nothing else is said. -/
structure EncoderOptions where
  threads : Option UInt32
  preset : Option String
  deriving DecidableEq, Repr, Inhabited

/-- The programs that convert and probe. -/
structure ToolOptions where
  converter : String
  prober : String
  deriving DecidableEq, Repr, Inhabited

/-- What the user can set up. -/
structure Configuration where
  logging : LoggingOptions
  watchdog : WatchdogOptions
  encoder : EncoderOptions
  tools : ToolOptions
  deriving DecidableEq, Repr, Inhabited

/-- The variables of an environment. -/
abbrev Environment := List (String × String)

/-- The value of a variable. -/
def Environment.value? (env : Environment) (key : String) : Option String :=
  (env.find? (·.1 == key)).map (·.2)

namespace Configuration

/-- The configuration where nothing is set up. -/
def default : Configuration where
  logging := ⟨"info", false⟩
  watchdog := ⟨30000, 100⟩
  encoder := ⟨none, none⟩
  tools := ⟨"ffmpeg", "ffprobe"⟩

/-- The number of threads to encode with: one for each processor, unless a
    number other than zero is set up. -/
def threadCount (c : Configuration) (processors : UInt32) : UInt32 :=
  match c.encoder.threads with
  | some n => if n = 0 then processors else n
  | none => processors

/-- Why there is no configuration. -/
inductive Fault
  /-- The file cannot be read. -/
  | unreadable (path reason : String)
  /-- The file is not a configuration. -/
  | malformed
  /-- A variable has a value that its part cannot take. -/
  | invalidValue (key value : String)
  deriving DecidableEq, Repr, Inhabited

/-- The text of a fault. -/
def Fault.message : Fault → String
  | unreadable path reason => s!"Failed to read config file {path}: {reason}"
  | malformed => "Failed to parse TOML config"
  | invalidValue key value => s!"Invalid value for {key}: {value}"

/-- A truth value. -/
def truth? : String → Option Bool
  | "true" => some true
  | "false" => some false
  | _ => none

/-- The value of a variable, as its part takes it; blanks around it do not
    count. -/
def taken {α : Type} (env : Environment) (key : String) (take : String → Option α)
    (otherwise : α) : Except Fault α :=
  match env.value? key with
  | none => .ok otherwise
  | some value =>
    match take (Text.trim value) with
    | some a => .ok a
    | none => .error (.invalidValue key value)

/-- The configuration with what the environment says. -/
def override (env : Environment) (c : Configuration) : Except Fault Configuration := do
  let json ← taken env "CLIPBRIDGE_LOG_JSON" truth? c.logging.json
  let startTimeoutMs ←
    taken env "CLIPBRIDGE_START_TIMEOUT_MS" Number.word64? c.watchdog.startTimeoutMs
  let threads ←
    taken env "CLIPBRIDGE_THREADS" (fun s => (Number.word32? s).map some) c.encoder.threads
  return {
    logging := ⟨(env.value? "CLIPBRIDGE_LOG_LEVEL").getD c.logging.level, json⟩
    watchdog := { c.watchdog with startTimeoutMs }
    encoder := { c.encoder with threads }
    tools := ⟨(env.value? "CLIPBRIDGE_FFMPEG").getD c.tools.converter,
      (env.value? "CLIPBRIDGE_FFPROBE").getD c.tools.prober⟩ }

end Configuration

end VideoExport
