import VideoExport.Plan.Basic

/-!
# The watchdog

A job has to show within a time limit that it has started or come forward; when
the limit has passed the watchdog decides, once, what to make of the job.

* `Watchdog`: what has been seen of a job;
* `Watchdog.expire`: the verdict when the time limit has passed;
* `Watchdog.expire_of_not_armed`: there is at most one verdict.
-/

namespace VideoExport

/-- What has been seen of a job. -/
structure Watchdog where
  jobId : UInt64
  /-- The time limit in milliseconds. -/
  timeoutMs : Nat
  started : Bool
  lastFraction : Float
  frames : Option UInt64
  fired : Bool
  cleared : Bool
  outputName : String
  directives : List String
  tracks : List UInt64
  deriving Inhabited

/-- What is kept of a job for whoever wants to know what went wrong. -/
structure Diagnosis where
  jobId : UInt64
  timeoutMs : Nat
  started : Bool
  lastFraction : Float
  frames : Option UInt64
  outputName : String
  directives : List String
  tracks : List UInt64
  deriving Inhabited

/-- What to make of a job when its time limit has passed. -/
inductive WatchdogVerdict
  /-- It has neither started nor come forward: end it. -/
  | hardCancel (found : Diagnosis)
  /-- It has started and not come forward: wait. -/
  | stallWarning
  /-- It comes forward. -/
  | healthy

namespace Watchdog

/-- A watchdog for a job that carries out a plan. -/
def arm (jobId : UInt64) (timeoutMs : Nat) (p : Plan) : Watchdog where
  jobId := jobId
  timeoutMs := timeoutMs
  started := false
  lastFraction := 0.0
  frames := none
  fired := false
  cleared := false
  outputName := p.output.fileName
  directives := p.tokens
  tracks := p.output.videoTrack :: p.output.audioTracks ++ p.output.subtitleTracks

/-- Whether there still is a time limit. -/
def isArmed (w : Watchdog) : Bool := !w.fired && !w.cleared

/-- The job has started. -/
def observeStarted (w : Watchdog) : Watchdog := { w with started := true }

/-- The job has come forward. -/
def observeProgress (w : Watchdog) (fraction : Float) (frames : Option UInt64) : Watchdog :=
  { w with
    lastFraction :=
      if fraction.isFinite && w.lastFraction < fraction then fraction else w.lastFraction
    frames := frames <|> w.frames }

/-- The job has ended. -/
def clear (w : Watchdog) : Watchdog := { w with cleared := true }

/-- What has been seen so far. -/
def diagnosis (w : Watchdog) : Diagnosis :=
  ⟨w.jobId, w.timeoutMs, w.started, w.lastFraction, w.frames, w.outputName, w.directives,
    w.tracks⟩

/-- What the job has shown. -/
def verdict (w : Watchdog) : WatchdogVerdict :=
  if 0.0 < w.lastFraction then .healthy
  else if w.started then .stallWarning
  else .hardCancel { w with fired := true }.diagnosis

/-- The time limit has passed. -/
def expire (w : Watchdog) : Watchdog × Option WatchdogVerdict :=
  if w.isArmed then ({ w with fired := true }, some w.verdict) else (w, none)

/-- Without a time limit there is no verdict. -/
theorem expire_of_not_armed {w : Watchdog} (h : w.isArmed = false) : w.expire = (w, none) := by
  simp [expire, h]

/-- After the time limit has passed there is none any more. -/
theorem isArmed_expire (w : Watchdog) : w.expire.1.isArmed = false := by
  unfold expire
  split
  case isTrue => simp [isArmed]
  case isFalse h => simpa using h

end Watchdog

/-- What is kept of a job, in documents. -/
def Diagnosis.datum (d : Diagnosis) : Datum :=
  .map [("job_id", .word64 d.jobId), ("timeout_ms", .int d.timeoutMs), ("started", .bool d.started),
    ("last_fraction", .float d.lastFraction), ("frames", .ofOption .word64 d.frames),
    ("output_name", .str d.outputName), ("directives", .ofList .str d.directives),
    ("tracks", .ofList .word64 d.tracks)]

end VideoExport
