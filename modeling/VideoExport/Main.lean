import VideoExport.CommandLine.Commands
import VideoExport.CommandLine.Help

/-!
# The program

The command line is read, and the script that it stands for is played on this
machine. No other programs are started from here: whatever is to be launched
is answered to be missing, and so is what encodes animations.
-/

namespace VideoExport.CommandLine

/-- A script on this machine: its end. -/
def play {α : Type} : Script α → IO (Except Refusal α)
  | .done a => pure (.ok a)
  | .refuse why => pure (.error why)
  | .readText path next => do
    let text ← try Except.ok <$> IO.FS.readFile path catch e => pure (.error (toString e))
    play (next text)
  | .isFile path next => do
    let here ← try (fun _ => true) <$> IO.FS.readBinFile path catch _ => pure false
    play (next here)
  | .isThere path next => do
    let here ← try (fun _ => true) <$> IO.FS.Handle.mk path .read catch _ => pure false
    play (next here)
  | .write path bytes next => do
    let written ←
      try
        IO.FS.writeBinFile path ⟨bytes.toArray⟩
        pure true
      catch _ => pure false
    play (next written)
  | .print line next => do
    IO.println line
    play next

/-- The lines of a file, if it can be read. -/
def linesOf (path : String) : IO (List String) :=
  try Text.lines <$> IO.FS.readFile path catch _ => pure []

/-- The number of processors. -/
def processorCount : IO UInt32 := do
  let n := (← linesOf "/proc/cpuinfo").countP (Text.startsWith "processor" ·)
  return UInt32.ofNat (max n 1)

/-- The time: when this machine was started, and how long it has been on. -/
def currentTime : IO Timestamp := do
  let lines ← linesOf "/proc/stat"
  let started := (lines.findSome? (Text.after? "btime ")).bind fun s => Number.word64? s
  let ms ← IO.monoMsNow
  return (⟨((started.getD 0).toNat : Int), 0⟩ : Timestamp).after (ms * nanosPerMs)

/-- The variables that are looked at. -/
def variableNames : List String :=
  ["CLIPBRIDGE_CONFIG", "CLIPBRIDGE_LOG_LEVEL", "CLIPBRIDGE_LOG_JSON",
    "CLIPBRIDGE_START_TIMEOUT_MS", "CLIPBRIDGE_THREADS", "CLIPBRIDGE_FFMPEG",
    "CLIPBRIDGE_FFPROBE", "XDG_CONFIG_HOME", "HOME"]

/-- The environment. -/
def currentEnvironment : IO Environment :=
  variableNames.filterMapM fun name => do return (← IO.getEnv name).map (name, ·)

/-- What commands find on this machine. -/
def currentSurroundings : IO Surroundings := do
  return {
    environment := ← currentEnvironment
    processors := ← processorCount
    launcher := fun _ => .error "No such file or directory (os error 2)"
    scratch := fun ext => s!"clipbridge-export.{ext}"
    now := ← currentTime }

/-- What encodes animations where nothing does. -/
def missingEncoder : AnimationEncoder where
  State := Empty
  Image := Unit
  create _ _ := .error "no encoder"
  repeatForever := nofun
  quantize _ _ _ pixels := ((), pixels)
  write := nofun
  finish := nofun

end VideoExport.CommandLine

open VideoExport VideoExport.CommandLine

/-- The program: it ends with 0 if all is well, with 2 if its words are not
    understood, and with 1 otherwise. -/
def main (words : List String) : IO UInt32 := do
  let u ← currentSurroundings
  match Arguments.read u.environment.value? words with
  | .error fault =>
    if fault.isRequest then
      IO.println fault.message
      return 0
    else
      IO.eprintln s!"error: {fault.message}"
      return 2
  | .ok a =>
    match ← play (a.script u missingEncoder) with
    | .ok () => return 0
    | .error why =>
      IO.eprintln s!"Error: {why.message}"
      return 1
