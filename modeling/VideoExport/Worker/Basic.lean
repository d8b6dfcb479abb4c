import VideoExport.Backend.Basic
import VideoExport.Session.Message

/-!
# Workers

A worker carries out requests. It can only be reached by messages: requests go
in, events come out. It works on one conversion at a time and turns down any
other one meanwhile; subtitles are extracted beside it.

All of its work happens in steps, and any of them may be next: a request is
taken up, or one of the tasks that have begun goes one step ahead.

* `Task.advance`: a step of a task;
* `Worker.dispatch`, `Worker.advance`: a step of a worker;
* `WorkerMove`: the steps, to be chosen from.
-/

namespace VideoExport

/-- What a worker works with. -/
structure Host where
  backend : Backend
  launcher : Launcher
  /-- The least nanoseconds between two events of progress. -/
  interval : Nat
  /-- When the clock was at zero. -/
  epoch : Timestamp

/-! ## Tasks -/

/-- How far a conversion has come. The worker can take up another one before
    the last event is sent, but not before the conversion has ended. -/
inductive Stage
  | probing (rest : Activity Source)
  | converting (progress : Progress) (begun : Nat) (rest : Activity (Job × Except Failure Bytes))
  | converted (result : Except Failure Bytes)
  | closing (result : Except Failure Bytes)

/-- A conversion that has been taken up. -/
structure Conversion where
  jobId : UInt64
  input : String
  directives : List String
  output : String
  expectedDuration : Option Float
  stage : Stage

/-- What a worker has taken up. -/
inductive Task
  | conversion (c : Conversion)
  | extraction (requestId : UInt64) (rest : Activity (List (Cue Float)))

/-- What a step of a task comes to: what is left of it, the event that it sends,
    and whether the worker can take up another conversion from then on. -/
structure TaskStep where
  rest : Option Task
  event : Option Event
  frees : Bool

namespace Conversion

/-- A step that leaves a conversion at a stage. -/
def reach (c : Conversion) (stage : Stage) (event : Option Event) : TaskStep :=
  ⟨some (.conversion { c with stage }), event, false⟩

/-- The stage after a source is known: the job is accepted, or the conversion
    ends here. -/
def judge (h : Host) (now : Nat) (c : Conversion) (source : Source) : Stage :=
  let recipe := Recipe.read c.directives c.output
  match Job.prepare h.backend.passthrough c.jobId c.input c.output recipe source
      c.expectedDuration with
  | .ok job =>
    .converting { Progress.start job.expectedDuration with interval := h.interval } now
      (job.run h.backend)
  | .error f => .converted (.error f)

/-- What is known of progress after an effect, and the event to send. At least
    a nanosecond has passed since the conversion began. -/
def relay (h : Host) (now begun : Nat) (c : Conversion) (p : Progress) :
    Effect → Progress × Option Event
  | .silent => (p, none)
  | .started =>
    let (p, first) := p.begin_
    (p, if first then some (.started c.jobId) else none)
  | .reported s =>
    let (p, update) := p.accept (now - begun + 1) s
    (p, update.map fun u => .progress c.jobId u (h.epoch.after now))

/-- The event that ends a conversion. -/
def terminal (c : Conversion) : Except Failure Bytes → Event
  | .ok bytes => .done c.jobId c.output (Container.ofOutput c.output).mimeType bytes
  | .error (.invalidPlan issues) => .error c.jobId (Failure.invalidPlan issues).message issues
  | .error f => .error c.jobId f.message []

/-- One step of a conversion. -/
def advance (h : Host) (now : Nat) (hungUp : Bool) (c : Conversion) : TaskStep :=
  match c.stage with
  | .probing rest =>
    match rest.advance h.launcher hungUp with
    | .ahead _ rest => c.reach (.probing rest) none
    | .ended (.ok source) => c.reach (c.judge h now source) none
    | .ended (.error f) => c.reach (.converted (.error f)) none
  | .converting p begun rest =>
    match rest.advance h.launcher hungUp with
    | .ahead effect rest =>
      let (p, event) := c.relay h now begun p effect
      c.reach (.converting p begun rest) event
    | .ended (.ok (_, result)) => c.reach (.converted result) none
    | .ended (.error f) => c.reach (.converted (.error f)) none
  | .converted result => { c.reach (.closing result) none with frees := true }
  | .closing result => ⟨none, some (c.terminal result), false⟩

end Conversion

namespace Task

/-- The answer to a request for subtitles. -/
def reply (requestId : UInt64) : Except Failure (List (Cue Float)) → Event
  | .ok cues => .subtitleCues requestId cues
  | .error f => .subtitleError requestId f.message

/-- One step of a task at a time of the clock, in nanoseconds. -/
def advance (h : Host) (now : Nat) (hungUp : Bool) : Task → TaskStep
  | conversion c => c.advance h now hungUp
  | extraction id rest =>
    match rest.advance h.launcher hungUp with
    | .ahead _ rest => ⟨some (.extraction id rest), none, false⟩
    | .ended result => ⟨none, some (reply id result), false⟩

end Task

/-! ## Workers -/

/-- A worker: the requests that it has not taken up, whether it works on a
    conversion, its tasks in the order in which they were taken up, the events
    that have been sent and not been read, and whether nobody reads them any
    more. -/
structure Worker where
  requests : List Request
  busy : Bool
  tasks : List Task
  events : List Event
  hungUp : Bool

/-- A step of a worker. -/
inductive WorkerMove
  /-- The first request is taken up. -/
  | dispatch
  /-- The task at a place goes one step ahead. -/
  | advance (place : Nat)
  deriving DecidableEq, Repr

namespace Worker

/-- A worker without work. -/
def idle : Worker := ⟨[], false, [], [], false⟩

/-- One more request. -/
def post (w : Worker) (r : Request) : Worker := { w with requests := w.requests ++ [r] }

/-- One more event, if there is one. -/
def send (w : Worker) (e : Option Event) : Worker := { w with events := w.events ++ e.toList }

/-- Nobody reads the events any more. -/
def hangUp (w : Worker) : Worker := { w with hungUp := true }

/-- A request is taken up, unless it is for a conversion and there is one. -/
def take (h : Host) (w : Worker) : Request → Worker
  | .transcode jobId input directives output expectedDuration =>
    if w.busy then w.send (some (.error jobId busyMessage []))
    else
      { w with
        busy := true
        tasks := w.tasks ++ [.conversion {
          jobId, input, directives, output, expectedDuration
          stage := .probing (h.backend.probe input) }] }
  | .extractSubtitles requestId input track =>
    { w with tasks := w.tasks ++ [.extraction requestId (h.backend.subtitles input track)] }

/-- The first request is taken up, if there is one. -/
def dispatch (h : Host) (w : Worker) : Worker :=
  match w.requests with
  | [] => w
  | r :: rest => { w with requests := rest }.take h r

/-- A worker after a step of the task at a place. -/
def settle (w : Worker) (place : Nat) (s : TaskStep) : Worker :=
  { w with
    busy := w.busy && !s.frees
    tasks := match s.rest with
      | some t => w.tasks.set place t
      | none => w.tasks.eraseIdx place }.send s.event

/-- The task at a place goes one step ahead, if there is one. -/
def advance (h : Host) (now : Nat) (w : Worker) (place : Nat) : Worker :=
  match w.tasks[place]? with
  | some t => w.settle place (t.advance h now w.hungUp)
  | none => w

/-- A step. -/
def move (h : Host) (now : Nat) (w : Worker) : WorkerMove → Worker
  | .dispatch => w.dispatch h
  | .advance place => w.advance h now place

end Worker

end VideoExport
