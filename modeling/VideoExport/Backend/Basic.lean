import VideoExport.Job.Activity
import VideoExport.Job.Basic

/-!
# Backends

A backend probes sources, extracts subtitles and converts. What it does is an
activity; a job is run by letting its backend convert and noting how that ends.

* `Backend`: what a backend can do;
* `Job.run`: a job carried to its end.
-/

namespace VideoExport

/-- What probes, extracts and converts. -/
structure Backend where
  name : String
  /-- Whether subtitles can be passed through into an output. -/
  passthrough : Bool
  probe : String → Activity Source
  subtitles : String → UInt64 → Activity (List (Cue Float))
  convert : Job → Activity Bytes

/-- The failure of what has been cancelled. -/
def Failure.cancelled : Failure := .conversion "cancelled"

/-- The end of a job whose conversion has this result: a failure after which
    the end turns out to be wanted is none of its own. -/
def Job.conclude (j : Job) (result : Except Failure Bytes) :
    Activity (Job × Except Failure Bytes) :=
  match result with
  | .ok _ => .ok ((j.move .done).1, result)
  | .error _ => .poll fun cancelled =>
    .ok ((j.move (if cancelled then .cancelled else .failed)).1, result)

/-- A job carried to its end, unless the end is wanted before it starts: the
    job afterwards, and its result. -/
def Job.run (backend : Backend) (j : Job) : Activity (Job × Except Failure Bytes) :=
  .poll fun cancelled =>
    if cancelled then
      .ok ((j.move .cancelled).1, .error (.conversion "cancelled before start"))
    else
      let running := (j.move .running).1
      (backend.convert running).andThen running.conclude

end VideoExport
