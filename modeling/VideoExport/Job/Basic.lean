import VideoExport.Frame.Filter
import VideoExport.Job.Objection

/-!
# Jobs

A job is a recipe that has been admitted: nothing speaks against carrying it
out on its source. It starts out pending, may run, and ends in one of three
ways, for good.

* `JobState.allows`, `JobState.not_allows_of_isTerminal`: how a job moves on;
* `Job.prepare`: a job, or all objections to it;
* `Job.move`: the next state, if that is allowed.
-/

namespace VideoExport

/-- Where a job stands. -/
inductive JobState
  | pending
  | running
  | done
  | failed
  | cancelled
  deriving DecidableEq, Repr, Inhabited

namespace JobState

/-- The name of a state. -/
def name : JobState → String
  | pending => "pending"
  | running => "running"
  | done => "done"
  | failed => "failed"
  | cancelled => "cancelled"

/-- The state of a name. -/
def named? : String → Option JobState
  | "pending" => some pending
  | "running" => some running
  | "done" => some done
  | "failed" => some failed
  | "cancelled" => some cancelled
  | _ => none

/-- Whether a job has ended. -/
def isTerminal : JobState → Bool
  | done | failed | cancelled => true
  | pending | running => false

/-- Whether a job may move from a state to another. -/
def allows : JobState → JobState → Bool
  | pending, running | pending, failed | pending, cancelled => true
  | running, done | running, failed | running, cancelled => true
  | _, _ => false

/-- A job that has ended stays as it is. -/
theorem not_allows_of_isTerminal {s : JobState} (h : s.isTerminal = true) (next : JobState) :
    s.allows next = false := by
  cases s <;> first | rfl | contradiction

end JobState

/-- An admitted conversion. -/
structure Job where
  id : UInt64
  input : String
  output : String
  recipe : Recipe
  source : Source
  tracks : List TrackDecision
  /-- The seconds that progress is measured against. -/
  expectedDuration : Float
  state : JobState
  deriving Inhabited

namespace Job

/-- The seconds to measure progress against: a hint that makes sense, or the
    requested duration, or what remains of the source. -/
def durationFor (hint : Option Float) (r : Recipe) (source : Source) : Float :=
  match hint.filter fun d => d.isFinite && 0.0 < d, r.trimDuration with
  | some d, _ | none, some d => d
  | none, none =>
    let rest := source.duration - r.trimStart.getD 0.0
    if 0.0 < rest then rest else 0.0

/-- A job for a recipe, or the failure of one that cannot be admitted. -/
def prepare (passthrough : Bool) (id : UInt64) (input output : String) (r : Recipe)
    (source : Source) (hint : Option Float) : Except Failure Job :=
  let tracks := r.decisions source passthrough
  match r.objections source tracks with
  | [] => .ok {
      id, input, output, recipe := r, source, tracks
      expectedDuration := durationFor hint r source
      state := .pending }
  | found => .error (.invalidPlan (found.map Objection.issue))

/-- The job in another state, and whether it could move there. -/
def move (j : Job) (next : JobState) : Job × Bool :=
  if j.state.allows next then ({ j with state := next }, true) else (j, false)

/-- The decisions on tracks of a kind that are kept. -/
def keptTracks (j : Job) (kind : MediaKind) : List TrackDecision :=
  j.tracks.filter fun d => d.kept && d.kind == kind

/-- The track of video that is kept. -/
def primary? (j : Job) : Option TrackDecision := (j.keptTracks .video).head?

/-- The grading of a job: that of its last change of colours, if frames are
    decoded at all and something would change. -/
def grading? (j : Job) : Option Grading :=
  if j.recipe.video.transcode then
    (j.recipe.filters.color.map Grading.ofColor).filter (!·.isIdentity)
  else none

/-- A job that has ended does not move. -/
theorem move_of_isTerminal {j : Job} (h : j.state.isTerminal = true) (next : JobState) :
    j.move next = (j, false) := by
  simp [move, JobState.not_allows_of_isTerminal h]

end Job

end VideoExport
