import VideoExport.Animation.Basic
import VideoExport.Tool.Arguments
import VideoExport.Tool.Frames
import VideoExport.Tool.Probe
import VideoExport.Tool.Srt

/-!
# The tool backend

Real conversions are left to other programs. Where colours change, one of them
decodes frames, which are graded one by one, and another one encodes them; an
animation is written from decoded frames; all else is done in one go.

* `Pump`: moving frames from one program to the next;
* `Tools.backend`: the backend.
-/

namespace VideoExport

/-- The programs to start, the name of a new file with an extension, and what
    encodes animations. -/
structure Tools where
  converter : String
  prober : String
  scratch : String → String
  encoder : AnimationEncoder

/-! ## Programs -/

/-- Whether a program has ended well. -/
def ToolRun.succeeded (r : ToolRun) : Bool := r.status == some 0

/-- What a program has complained about: its last line that is not blank. -/
def ToolRun.complaint? (r : ToolRun) : Option String :=
  ((Text.lines ((Text.Utf8.text? r.errors).getD "")).reverse).findSome? Text.nonBlank?

/-- The failure of a program. -/
def ToolRun.failure (r : ToolRun) (what : String) : Failure :=
  .conversion <| r.complaint?.getD <|
    match r.status with
    | some code => s!"{what} exited with status {Number.intText code}"
    | none => s!"{what} was terminated"

/-- The failure of a program that could not be started. -/
def notRun (program reason : String) : Failure := .backend s!"failed to run {program}: {reason}"

/-- Another program, and what depends on how it runs. -/
def withTool {α : Type} (program : String) (role : ToolRole) (arguments : List String)
    (next : ToolRun → Activity α) : Activity α :=
  .launch ⟨role, arguments⟩ fun
    | .ok run => next run
    | .error reason => .fail (notRun program reason)

/-! ## Progress of a program -/

/-- What a converting program has told: its position in seconds, the number of
    its frame, and whether it has ended. -/
structure ToolProgress where
  seconds : Float
  frame : Option UInt64
  ended : Bool

namespace ToolProgress

/-- Nothing yet. -/
def empty : ToolProgress := ⟨0.0, none, false⟩

/-- One more line, and whether it completes a report. -/
def update (p : ToolProgress) (key value : String) : ToolProgress × Bool :=
  match key with
  | "frame" => ({ p with frame := Number.word64? value <|> p.frame }, false)
  | "out_time_ms" | "out_time_us" =>
    match Number.float? value with
    | some us => ({ p with seconds := us / 1000000.0 }, false)
    | none => (p, false)
  | "progress" => ({ p with ended := value == "end" }, true)
  | _ => (p, false)

/-- The share of a number of seconds. -/
def fraction (p : ToolProgress) (expected : Float) : Float :=
  if p.ended then 1.0 else if 0.0 < expected then p.seconds / expected else 0.0

/-- The report of what has been told. -/
def sample (p : ToolProgress) (expected : Float) : Sample := ⟨p.fraction expected, p.frame⟩

end ToolProgress

/-- The lines of what a program has written, up to the first one that is no
    text. -/
def outputLines (output : Bytes) : List String :=
  let whole := output.foldr
    (fun b (acc : Bytes × List Bytes) =>
      if b = 10 then ([], acc.1 :: acc.2) else (b :: acc.1, acc.2)) ([], [])
  let pieces := whole.1 :: whole.2
  let pieces := if pieces.getLast? = some [] then pieces.dropLast else pieces
  let strip (l : Bytes) : Bytes := if l.getLast? = some 13 then l.dropLast else l
  ((pieces.map fun l => Text.Utf8.text? (strip l)).takeWhile (·.isSome)).filterMap id

/-- The reports in the lines of a program, and what comes after the last one or
    after the end is asked for. -/
def followLines {α : Type} (expected : Float) (next : Bool → Activity α) :
    ToolProgress → List String → Activity α
  | _, [] => next false
  | p, line :: rest =>
    .poll fun cancelled =>
      if cancelled then next true
      else match Text.cut? '=' line with
        | none => followLines expected next p rest
        | some (key, value) =>
          match p.update (Text.trim key) (Text.trim value) with
          | (p, true) => .started (.report (p.sample expected) (followLines expected next p rest))
          | (p, false) => followLines expected next p rest

/-! ## Frames -/

/-- How the moving of frames ended: after so many of them, or before that. -/
inductive PumpEnd
  | finished (count : UInt64)
  | cancelled
  | failed (f : Failure)

/-- A frame after the filter, if there is one, and the filter after it. -/
def graded (filter : Option FrameFilter) (size : FrameSize) (frame : Bytes) :
    Except Failure (Bytes × Option FrameFilter) :=
  match filter with
  | some f =>
    match f.apply size frame with
    | (.ok out, f) => .ok (out, some f)
    | (.error e, _) => .error e
  | none => .ok (frame, none)

/-- The way of frames of a size: what is made of each of them after the filter,
    and how many of them there should be. -/
structure Pump (σ : Type) where
  size : FrameSize
  emit : σ → Bytes → Except Failure σ
  expected : Float

/-- What is carried from frame to frame: the filter, if there is one, and what
    has been made of the frames. -/
structure Pump.State (σ : Type) where
  filter : Option FrameFilter
  made : σ

namespace Pump

variable {σ α : Type}

/-- The report after so many frames. -/
def sample (p : Pump σ) (count : Nat) : Sample :=
  ⟨Float.ofNat count / p.expected, some (UInt64.ofNat count)⟩

/-- One more frame. -/
def take (p : Pump σ) (state : State σ) (frame : Bytes) : Except Failure (State σ) := do
  let (out, filter) ← graded state.filter p.size frame
  return ⟨filter, ← p.emit state.made out⟩

/-- One more frame after so many of them, and what depends on its outcome. The
    first one is the start. -/
def step (p : Pump σ) (count : Nat) (state : State σ) (frame : Bytes)
    (next : Except Failure (State σ) → Activity α) : Activity α :=
  let taken := match p.take state frame with
    | .ok state => .report (p.sample (count + 1)) (next (.ok state))
    | .error f => next (.error f)
  if count = 0 then .started taken else taken

/-- Frames one after the other, and what depends on how that ends. -/
def run (p : Pump σ) (next : PumpEnd → State σ → Activity α) :
    Nat → State σ → List Bytes → Activity α
  | count, state, [] => .poll fun cancelled =>
    next (if cancelled then .cancelled else .finished (UInt64.ofNat count)) state
  | count, state, frame :: rest => .poll fun cancelled =>
    if cancelled then next .cancelled state
    else p.step count state frame fun
      | .ok state => run p next (count + 1) state rest
      | .error f => next (.failed f) state

/-- Frames of no bytes, of which there is no end. -/
def runEmpty (p : Pump σ) (next : PumpEnd → State σ → Activity α) (state : State σ) :
    Activity α :=
  .poll fun cancelled =>
    if cancelled then next .cancelled state
    else p.step 0 state [] fun
      | .ok state =>
        .untilCancelled (fun n => some (p.sample (n + 2))) (next .cancelled state)
      | .error f => next (.failed f) state

/-- All frames in what a program delivers. -/
def all (p : Pump σ) (stream : List Delivery) (state : State σ)
    (next : PumpEnd → State σ → Activity α) : Activity α :=
  if p.size.bufferLength = 0 then p.runEmpty next state
  else p.run next 0 state (wholeFrames p.size stream)

end Pump

/-! ## Conversion -/

namespace Tools

/-- A last question whether to end, after which the result stands. -/
def unlessCancelled (result : Bytes) : Activity Bytes :=
  .poll fun cancelled => if cancelled then .fail .cancelled else .ok result

/-- The conversion of a job in one go. -/
def convertDirect (t : Tools) (j : Job) : Activity Bytes :=
  let output := t.scratch j.recipe.container.extension
  withTool t.converter .direct (j.directArguments output) fun run =>
    followLines j.expectedDuration
      (fun cancelled =>
        if cancelled then .fail .cancelled
        else if run.succeeded then unlessCancelled (run.file [])
        else .fail (run.failure "ffmpeg"))
      .empty (outputLines run.output)

/-- A frame given to the encoder, after those that it has been given, the last
    one first. -/
def encode (encoder : ToolRun) (frames : List Bytes) (frame : Bytes) :
    Except Failure (List Bytes) :=
  if encoder.readsInput || frame.isEmpty then .ok (frame :: frames)
  else .error (.file "broken pipe")

/-- The conversion of a job with its frames graded. -/
def convertGraded (t : Tools) (j : Job) (g : Grading) : Activity Bytes :=
  match j.frameGeometry with
  | .error f => .fail f
  | .ok (video, size) =>
    let output := t.scratch j.recipe.container.extension
    withTool t.converter .decode (j.decodeArguments video size) fun decoder =>
      withTool t.converter .encode (j.encodeArguments size output) fun encoder =>
        let pump : Pump (List Bytes) := ⟨size, encode encoder, j.expectedFrames⟩
        pump.all decoder.deliveries ⟨some (.ofGrading g), []⟩ fun end_ state =>
          match end_ with
          | .cancelled => .fail .cancelled
          | .failed _ => .fail (encoder.failure "ffmpeg encoder")
          | .finished _ =>
            if !decoder.succeeded then .fail (decoder.failure "ffmpeg decoder")
            else if !encoder.succeeded then .fail (encoder.failure "ffmpeg encoder")
            else unlessCancelled (encoder.file state.made.reverse.flatten)

/-- The conversion of a job into an animation. -/
def convertAnimation (t : Tools) (j : Job) : Activity Bytes :=
  let speed := j.recipe.video.quality.getD Settings.default.animation.speed
  let begun := do
    let (video, size) ← j.frameGeometry
    return (video, size, ← AnimationWriter.start t.encoder size j.frameRate speed)
  match begun with
  | .error f => .fail f
  | .ok (video, size, writer) =>
    withTool t.converter .decode (j.decodeArguments video size) fun decoder =>
      let pump : Pump (AnimationWriter t.encoder) :=
        ⟨size, AnimationWriter.push, j.expectedFrames⟩
      pump.all decoder.deliveries ⟨j.grading?.map .ofGrading, writer⟩ fun end_ state =>
        match end_ with
        | .cancelled => .fail .cancelled
        | .failed f => .fail f
        | .finished _ =>
          if !decoder.succeeded then .fail (decoder.failure "ffmpeg decoder")
          else match state.made.finish with
            | .error f => .fail f
            | .ok animation => unlessCancelled animation

/-- The conversion of a job. -/
def convert (t : Tools) (j : Job) : Activity Bytes :=
  if j.recipe.container.isAnimation then t.convertAnimation j
  else match j.grading? with
    | some g => t.convertGraded j g
    | none => t.convertDirect j

/-- The source of an input. -/
def probe (t : Tools) (input : String) : Activity Source :=
  withTool t.prober .probe (probeArguments input) fun run =>
    if run.succeeded then
      match ProbeReport.ofBytes? run.output with
      | some report => .ok (report.source input)
      | none => .fail .document
    else
      .fail (.probeFailed
        s!"ffprobe failed for '{input}': {Text.trim (Text.Utf8.lossy run.errors)}")

/-- The subtitles of a track of an input. -/
def subtitles (t : Tools) (input : String) (track : UInt64) : Activity (List (Cue Float)) :=
  withTool t.converter .subtitles (subtitleArguments input track) fun run =>
    if run.succeeded then .ok (Srt.cues (Text.Utf8.lossy run.output))
    else
      .fail (.backend (s!"subtitle extraction failed for track {Number.text track.toNat}: " ++
        Text.trim (Text.Utf8.lossy run.errors)))

/-- The backend. -/
def backend (t : Tools) : Backend where
  name := "ffmpeg"
  passthrough := true
  probe := t.probe
  subtitles := t.subtitles
  convert := t.convert

end Tools

end VideoExport
