import VideoExport.Backend.Synthetic
import VideoExport.CommandLine.Arguments
import VideoExport.CommandLine.Script
import VideoExport.Configuration.Document
import VideoExport.Datum.Json
import VideoExport.Datum.JsonText
import VideoExport.Job.Objection
import VideoExport.Plan.Compile
import VideoExport.Recipe.Document
import VideoExport.Session.Caller
import VideoExport.Tool.Backend

/-!
# Commands

Every command begins with the configuration. Most then find out about a source
and put settings together; what they show goes to the lines they print.

* `Arguments.configuration`: the configuration of a command line;
* `SourceArguments.locate`: a source with its backend;
* `Arguments.script`: what a command line does.
-/

namespace VideoExport.CommandLine

/-- What commands find around them, besides what encodes animations. -/
structure Surroundings where
  environment : Environment
  processors : UInt32
  launcher : Launcher
  /-- The name of a new file with an extension. -/
  scratch : String → String
  now : Timestamp

/-! ## Configuration -/

/-- A path within a folder. -/
def within (folder name : String) : String :=
  if folder.isEmpty then name
  else if folder.endsWith "/" then folder ++ name
  else folder ++ "/" ++ name

/-- Where to look for a configuration: here first, then among what the user
    has set up for all programs. -/
def configurationPaths (env : Environment) : List String :=
  ["clipbridge.toml", "config/clipbridge.toml"] ++
    match env.value? "XDG_CONFIG_HOME", env.value? "HOME" with
    | some folder, _ => [within folder "clipbridge/config.toml"]
    | none, some folder => [within folder ".config/clipbridge/config.toml"]
    | none, none => []

/-- The configuration of a file. -/
def configurationOf (path : String) : Script Configuration := do
  let text ← Script.textOf path fun reason => .configuration (.unreadable path reason)
  Script.ofExcept .configuration (Configuration.read text)

/-- The configuration: a file, overridden by the environment, overridden by the
    command line. -/
def Arguments.configuration (a : Arguments) (env : Environment) : Script Configuration := do
  let path ← match a.config with
    | some path => pure (some path)
    | none => Script.firstFile? (configurationPaths env)
  let file ← match path with
    | some path => configurationOf path
    | none => pure Configuration.default
  let c ← Script.ofExcept .configuration (file.override env)
  return { c with
    logging := ⟨a.logLevel.getD c.logging.level, c.logging.json || a.logJson⟩ }

/-! ## Sources -/

/-- A source, the name of its input, and what works on it. -/
structure Located where
  input : String
  source : Source
  backend : Backend

namespace SourceArguments

/-- The source that a file of streams describes, by the name of its input. -/
def described (a : SourceArguments) (path : String) : Script (String × Source) := do
  let text ← Script.textOf path fun _ => .streamsUnreadable path
  let source ←
    Script.ofOption (.streamsMalformed path) ((Json.read? text).bind Source.ofDatum?)
  return (a.input.getD source.name, source)

/-- The backend to work with. One without other programs knows at most the one
    source that is described. -/
def backend (a : SourceArguments) (u : Surroundings) (e : AnimationEncoder) (c : Configuration)
    (known : Option (String × Source)) : Backend :=
  if a.synthetic then { Synthetic.default with sources := known.toList }.backend e
  else (Tools.mk c.tools.converter c.tools.prober u.scratch e).backend

/-- The source that a backend finds under the name of an input. -/
def probed (a : SourceArguments) (u : Surroundings) (b : Backend) : Script Located := do
  let input ← Script.ofOption .noSource a.input
  let here ← if a.synthetic then pure true else Script.isThere input .done
  if !here then Script.refuse (.inputMissing input)
  else match ((b.probe input).play u.launcher .never .empty).1 with
    | some (.ok source) => return ⟨input, source, b⟩
    | some (.error f) => Script.refuse (.probe input f)
    | none => Script.refuse .cancelled

/-- The source of a command, which a file may describe so that nothing has to be
    probed. -/
def locate (a : SourceArguments) (u : Surroundings) (e : AnimationEncoder) (c : Configuration) :
    Script Located :=
  match a.streams with
  | some path => do
    let known ← a.described path
    return ⟨known.1, known.2, a.backend u e c (some known)⟩
  | none => a.probed u (a.backend u e c none)

end SourceArguments

/-! ## Plans -/

namespace SettingsArguments

/-- The settings of a file. -/
def load (path : String) : Script Settings := do
  let text ← Script.textOf path fun _ => .settingsUnreadable path
  let n := DataNotation.ofFileName path
  Script.ofOption (.settingsMalformed n path) (Settings.ofText? n text)

/-- The settings of all layers. -/
def resolve (a : SettingsArguments) (source : Source) (preset : Option String) :
    Script Settings := do
  let file ← match a.file with
    | some path => some <$> load path
    | none => pure none
  Script.ofExcept .overrides (a.overrides.resolve file source preset)

/-- The number of threads to encode with. -/
def threadCount (a : SettingsArguments) (u : Surroundings) (c : Configuration) : UInt32 :=
  a.threads.getD (c.threadCount u.processors)

/-- The plan for a source. -/
def plan (a : SettingsArguments) (u : Surroundings) (c : Configuration) (source : Source) :
    Script Plan := do
  let s ← a.resolve source c.encoder.preset
  Script.ofExcept .failure (Plan.compile (some (a.threadCount u c)) s source)

end SettingsArguments

/-! ## What is shown -/

/-- A decision as a line with columns. -/
def decisionLine (d : TrackDecision) : String :=
  "  #" ++ Text.padRight 2 (Number.text d.index.toNat) ++ " " ++
    Text.padRight 9 d.kind.name ++ " " ++ Text.padRight 10 d.codec ++ " " ++
    Text.padRight 7 (if d.kept then "keep" else "discard") ++ " " ++ d.verdict.reason

/-- A plan and what would become of the tracks, in lines. -/
def planLines (p : Plan) (decisions : List TrackDecision) (objections : List Objection) :
    List String :=
  [s!"Output: {p.output.fileName} ({p.output.container.mimeType})",
    s!"Duration: {Timecode.display p.expectedDuration}"] ++
    p.warnings.map (fun w => s!"Warning: {w.text}") ++
    decisions.map decisionLine ++ objections.map fun o => s!"Issue: {o.issue.text}"

/-- A plan and what would become of the tracks, as a document. -/
def planReport (p : Plan) (decisions : List TrackDecision) (objections : List Objection) :
    Datum :=
  .map [("output", p.output.datum), ("warnings", .ofList PlanWarning.datum p.warnings),
    ("tracks", .ofList TrackDecision.datum decisions),
    ("issues", .ofList (fun o : Objection => .str o.issue.text) objections)]

/-- Progress in documents. -/
def progressDatum (u : ProgressUpdate) : Datum :=
  .map [("fraction", .float u.fraction), ("media_time", .float u.mediaTime),
    ("frames", .ofOption .word64 u.frames), ("fps", .ofOption .float u.fps),
    ("speed", .ofOption .float u.speed)]

/-- An event of an export in documents. -/
def eventDatum (now : Timestamp) (name : String) (fields : List (String × Datum)) : Datum :=
  .map ([("event", .str name), ("at", .str now.text)] ++ fields)

/-- What an observer is told, in documents. -/
def noticeDatum (now : Timestamp) : Notice → Datum
  | .started id => eventDatum now "started" [("job_id", .word64 id)]
  | .progress id u =>
    eventDatum now "progress" [("job_id", .word64 id), ("progress", progressDatum u)]

/-- A written export in documents. -/
def doneDatum (now : Timestamp) (a : Artifact) (path : String) : Datum :=
  eventDatum now "done" [
    ("artifact", .map [("job_id", .word64 a.jobId), ("file_name", .str a.fileName),
      ("mime_type", .str a.mimeType), ("warnings", .ofList PlanWarning.datum a.warnings)]),
    ("path", .str path), ("size", .int a.bytes.length)]

/-! ## Commands -/

/-- A session with a backend. -/
def setup (u : Surroundings) (c : Configuration) (b : Backend) (startTimeoutMs : UInt64)
    (threads : UInt32) : SessionSetup :=
  ⟨⟨b, u.launcher, c.watchdog.progressIntervalMs.toNat * nanosPerMs, u.now⟩,
    startTimeoutMs.toNat, some threads⟩

/-- The only errand of a new session: what its caller is told, and the answer. -/
def runErrand (u : SessionSetup) (e : Errand) : List Notice × Option (Except Failure Answer) :=
  match (Office.serve u scheduleLimit .new [e]).callers with
  | caller :: _ => (caller.notices.reverse, caller.answer?)
  | [] => ([], none)

/-- A plan carried out and written to a file. -/
def carryOut (u : Surroundings) (setup : SessionSetup) (l : Located) (p : Plan)
    (o : OutputArguments) : Script Unit := do
  let path := o.path.getD p.output.fileName
  let taken ← Script.isThere path .done
  if taken && !o.force then Script.refuse (.outputExists path)
  else
    let (notices, answer) := runErrand setup (.carryOut l.input p none)
    if o.json then Script.sayAll (notices.map fun n => (noticeDatum u.now n).compact)
    match answer with
    | some (.ok (.outcome (.completed a))) =>
      let written ← Script.write path a.bytes .done
      if !written then Script.refuse (.outputUnwritable path)
      else if o.json then Script.say (doneDatum u.now a path).compact
      else Script.say s!"Wrote {path} ({Number.text a.bytes.length} bytes)"
    | some (.error f) => Script.refuse (.failure f)
    | _ =>
      if o.json then Script.say (eventDatum u.now "cancelled" []).compact
      Script.refuse .cancelled

/-- What a command does. -/
def Command.script (u : Surroundings) (e : AnimationEncoder) (c : Configuration) :
    Command → Script Unit
  | .compile source settings tokens => do
    let l ← source.locate u e c
    let p ← settings.plan u c l.source
    Script.say (if tokens then Directive.line p.directives else p.datum.pretty)
  | .parse output tokens => Script.say (Recipe.read tokens output).datum.pretty
  | .check source settings json => do
    let l ← source.locate u e c
    let p ← settings.plan u c l.source
    let r := Recipe.ofDirectives p.directives p.output.fileName
    let decisions := r.decisions l.source l.backend.passthrough
    let objections := r.objections l.source decisions
    if json then Script.say (planReport p decisions objections).pretty
    else Script.sayAll (planLines p decisions objections)
    if objections.isEmpty then pure () else Script.refuse (.inconsistent objections.length)
  | .convert source settings output => do
    let l ← source.locate u e c
    let s ← settings.resolve l.source c.encoder.preset
    let threads := settings.threadCount u c
    let p ← Script.ofExcept .failure (Plan.compile (some threads) s l.source)
    let timeout := output.startTimeoutMs.getD c.watchdog.startTimeoutMs
    carryOut u (setup u c l.backend timeout threads) l p output
  | .subtitles source track => do
    let l ← source.locate u e c
    let threads := c.threadCount u.processors
    let (_, answer) :=
      runErrand (setup u c l.backend c.watchdog.startTimeoutMs threads) (.preview l.input track)
    match answer with
    | some (.ok (.cues cues)) => Script.say (Datum.ofList Cue.datum cues).pretty
    | some (.error f) => Script.refuse (.failure f)
    | _ => Script.refuse .cancelled
  | .presets json =>
    if json then Script.say (Datum.ofList Preset.datum VideoExport.presets).pretty
    else Script.sayAll <|
      VideoExport.presets.map fun p => Text.padRight 8 p.name ++ " " ++ p.description

/-- What a command line does. -/
def Arguments.script (a : Arguments) (u : Surroundings) (e : AnimationEncoder) : Script Unit := do
  let c ← a.configuration u.environment
  a.command.script u e c

end VideoExport.CommandLine
