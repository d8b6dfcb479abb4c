import VideoExport.Job.Progress
import VideoExport.Session.Preview
import VideoExport.Timestamp

/-!
# Messages

What crosses the boundary between who asks for exports and who carries them
out: requests one way, events the other. Both can be written as documents and
read back.

* `Request`, `Event`: the messages;
* `Event.jobId?`, `Event.isTerminal`: what an event is about;
* `Request.datum`, `Event.datum` and their readers.
-/

namespace VideoExport

/-- A request to whoever carries out exports. -/
inductive Request
  /-- One conversion: the tokens of its directives, and the seconds that the
      result should last, if they are known. -/
  | transcode (jobId : UInt64) (input : String) (directives : List String) (output : String)
      (expectedDuration : Option Float)
  /-- The subtitles of one track. -/
  | extractSubtitles (requestId : UInt64) (input : String) (track : UInt64)
  deriving Inhabited

/-- An event of whoever carries out exports. -/
inductive Event
  | started (jobId : UInt64)
  | progress (jobId : UInt64) (update : ProgressUpdate) (at_ : Timestamp)
  | done (jobId : UInt64) (output mimeType : String) (bytes : List UInt8)
  | error (jobId : UInt64) (message : String) (issues : List TrackIssue)
  | subtitleCues (requestId : UInt64) (cues : List (Cue Float))
  | subtitleError (requestId : UInt64) (message : String)
  deriving Inhabited

/-- The message of an error that tells that another job is running. -/
def busyMessage : String := "busy"

namespace Event

/-- The job that an event belongs to; answers to previews belong to none. -/
def jobId? : Event → Option UInt64
  | started id | progress id _ _ | done id _ _ _ | error id _ _ => some id
  | subtitleCues _ _ | subtitleError _ _ => none

/-- The request for a preview that an event answers. -/
def requestId? : Event → Option UInt64
  | subtitleCues id _ | subtitleError id _ => some id
  | _ => none

/-- Whether no other event follows for the same job. -/
def isTerminal : Event → Bool
  | done _ _ _ _ | error _ _ _ => true
  | _ => false

end Event

/-! ## In documents -/

/-- A field of a document, if it has a value. -/
def knownField {α : Type} (name : String) (f : α → Datum) (x : Option α) :
    List (String × Datum) :=
  (x.map fun a => (name, f a)).toList

/-- An issue in documents. -/
def TrackIssue.datum (i : TrackIssue) : Datum :=
  .map [("track", .ofOption .word64 i.track), ("reason", .str i.reason)]

/-- The issue that a document describes. -/
def TrackIssue.ofDatum? : Taker TrackIssue := fun d => do
  let fs ← d.fields? ["track", "reason"]
  return {
    track := ← fs.maybe "track" Datum.word64?
    reason := ← fs.required "reason" Datum.str? }

namespace Request

/-- A request in documents. -/
def datum : Request → Datum
  | transcode jobId input directives output expectedDuration =>
    .map [("type", .str "TRANSCODE"), ("job_id", .word64 jobId), ("input", .str input),
      ("directives", .ofList .str directives), ("output_name", .str output),
      ("expected_duration", .ofOption .float expectedDuration)]
  | extractSubtitles requestId input track =>
    .map [("type", .str "EXTRACT_SUBTITLES"), ("request_id", .word64 requestId),
      ("input", .str input), ("track", .word64 track)]

/-- The request of a type with these fields. -/
def ofFields? (type : String) (d : Datum) : Option Request :=
  match type with
  | "TRANSCODE" => do
    let fs ← d.fields? ["job_id", "input", "directives", "output_name", "expected_duration"]
    return transcode (← fs.required "job_id" Datum.word64?) (← fs.required "input" Datum.str?)
      (← fs.required "directives" (Datum.list? Datum.str?))
      (← fs.required "output_name" Datum.str?) (← fs.maybe "expected_duration" Datum.float?)
  | "EXTRACT_SUBTITLES" => do
    let fs ← d.fields? ["request_id", "input", "track"]
    return extractSubtitles (← fs.required "request_id" Datum.word64?)
      (← fs.required "input" Datum.str?) (← fs.required "track" Datum.word64?)
  | _ => none

/-- The request that a document describes. -/
def ofDatum? : Taker Request := Datum.labelled? "type" ofFields?

end Request

namespace Event

/-- An event in documents. What is not known is left out. -/
def datum : Event → Datum
  | started jobId => .map [("type", .str "STARTED"), ("job_id", .word64 jobId)]
  | progress jobId u at_ =>
    .map <| [("type", .str "PROGRESS"), ("job_id", .word64 jobId), ("fraction", .float u.fraction),
      ("media_time", .float u.mediaTime)] ++
      knownField "frames" .word64 u.frames ++ knownField "fps" .float u.fps ++
      knownField "speed" .float u.speed ++ [("at", .str at_.text)]
  | done jobId output mimeType bytes =>
    .map [("type", .str "DONE"), ("job_id", .word64 jobId), ("output_name", .str output),
      ("mime_type", .str mimeType), ("bytes", .ofList .word8 bytes)]
  | error jobId message issues =>
    .map <| [("type", .str "ERROR"), ("job_id", .word64 jobId), ("message", .str message)] ++
      if issues.isEmpty then [] else [("issues", .ofList TrackIssue.datum issues)]
  | subtitleCues requestId cues =>
    .map [("type", .str "SUBTITLE_CUES"), ("request_id", .word64 requestId),
      ("cues", .ofList Cue.datum cues)]
  | subtitleError requestId message =>
    .map [("type", .str "SUBTITLE_ERROR"), ("request_id", .word64 requestId),
      ("message", .str message)]

/-- The progress that fields describe. -/
def progressOfFields? (d : Datum) : Option Event := do
  let fs ← d.fields? ["job_id", "fraction", "media_time", "frames", "fps", "speed", "at"]
  let update : ProgressUpdate := {
    fraction := ← fs.required "fraction" Datum.float?
    mediaTime := ← fs.required "media_time" Datum.float?
    frames := ← fs.orElse "frames" (Datum.option? Datum.word64?) none
    fps := ← fs.orElse "fps" (Datum.option? Datum.float?) none
    speed := ← fs.orElse "speed" (Datum.option? Datum.float?) none }
  return progress (← fs.required "job_id" Datum.word64?) update
    (← fs.required "at" fun d => d.str?.bind Timestamp.read?)

/-- The event of a type with these fields. -/
def ofFields? (type : String) (d : Datum) : Option Event :=
  match type with
  | "STARTED" => do
    let fs ← d.fields? ["job_id"]
    return started (← fs.required "job_id" Datum.word64?)
  | "PROGRESS" => progressOfFields? d
  | "DONE" => do
    let fs ← d.fields? ["job_id", "output_name", "mime_type", "bytes"]
    return done (← fs.required "job_id" Datum.word64?) (← fs.required "output_name" Datum.str?)
      (← fs.required "mime_type" Datum.str?) (← fs.required "bytes" (Datum.list? Datum.word8?))
  | "ERROR" => do
    let fs ← d.fields? ["job_id", "message", "issues"]
    return error (← fs.required "job_id" Datum.word64?) (← fs.required "message" Datum.str?)
      (← fs.orElse "issues" (Datum.list? TrackIssue.ofDatum?) [])
  | "SUBTITLE_CUES" => do
    let fs ← d.fields? ["request_id", "cues"]
    return subtitleCues (← fs.required "request_id" Datum.word64?)
      (← fs.required "cues" (Datum.list? Cue.ofDatum?))
  | "SUBTITLE_ERROR" => do
    let fs ← d.fields? ["request_id", "message"]
    return subtitleError (← fs.required "request_id" Datum.word64?)
      (← fs.required "message" Datum.str?)
  | _ => none

/-- The event that a document describes. -/
def ofDatum? : Taker Event := Datum.labelled? "type" ofFields?

end Event

end VideoExport
