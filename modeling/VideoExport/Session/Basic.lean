import VideoExport.Session.Preview
import VideoExport.Session.Watchdog
import VideoExport.Worker.Schedule

/-!
# Sessions

A session stands between callers and a worker. It hands out plans to be carried
out, one at a time, and relays what the worker tells about the current one; it
relays previews, of which only the newest matters; and it replaces the worker
when a run is cancelled or does not start in time.

A counter, the generation, tells runs apart: a run takes the next number for
its job, and a cancellation moves the counter on, so that nothing that is told
about the job after that is heard. A cancellation takes two steps: the counter
is moved on, then the run is notified; a notification that nobody waits for is
kept, once, for the next run.

All of this happens in steps, and whichever of them is possible may be next.

* `Session`: the state of a session, `Run`: the run that is current;
* `Signal`, `Session.isReady`: what a run may react to;
* `Session.react`: how it does;
* `Session.step`: all steps, with what callers are told.
-/

namespace VideoExport

/-- What a session works with: its host, the milliseconds that a job has for
    its start, and the number of threads that plans ask for. -/
structure SessionSetup where
  host : Host
  startTimeoutMs : Nat
  threads : Option UInt32

/-- The result of an export. -/
structure Artifact where
  jobId : UInt64
  fileName : String
  mimeType : String
  bytes : Bytes
  warnings : List PlanWarning
  deriving DecidableEq, Repr

/-- How a run ends that does not fail. -/
inductive Outcome
  | completed (artifact : Artifact)
  | cancelled
  deriving DecidableEq, Repr

/-- What an observer of a run is told. -/
inductive Notice
  | started (jobId : UInt64)
  | progress (jobId : UInt64) (update : ProgressUpdate)

/-- What callers are told. -/
inductive Occurrence
  /-- A run has begun. -/
  | accepted (jobId : UInt64)
  /-- A run has not begun. -/
  | refused (reason : Failure)
  /-- The observer of the run is told something. -/
  | noticed (notice : Notice)
  /-- A run has ended. -/
  | ended (jobId : UInt64) (result : Except Failure Outcome)
  /-- A preview has been asked for. -/
  | asked (requestId : UInt64)
  /-- A preview is answered. -/
  | replied (reply : Reply (List (Cue Float)))

/-- The run that is current: the job, the plan that it carries out, its
    watchdog, and when the time for its start is up. -/
structure Run where
  jobId : UInt64
  plan : Plan
  watchdog : Watchdog
  deadline : Nat

/-- The state of a session. The clock counts milliseconds. -/
structure Session where
  generation : UInt64
  /-- Whether a notification is kept. -/
  notified : Bool
  run : Option Run
  worker : Worker
  /-- Whether the worker has ended on its own. -/
  lost : Bool
  /-- The events about jobs that have been relayed and not been read. -/
  inbox : List Event
  previews : PreviewGate
  clock : Nat

/-- What a run may react to. -/
inductive Signal
  | notification
  | deadline
  | event
  | closed
  deriving DecidableEq, Repr

/-- A step of a session. -/
inductive SessionMove
  /-- The first step of a cancellation. -/
  | supersede
  /-- The second step of a cancellation. -/
  | notify
  | submit (input : String) (plan : Plan)
  | preview (input : String) (track : UInt64)
  /-- A step of the worker. -/
  | work (m : WorkerMove)
  /-- The next event of the worker is relayed. -/
  | relay
  | react (s : Signal)
  /-- The worker ends on its own. -/
  | lose
  | elapse (ms : Nat)

namespace Session

/-- A session that has done nothing. -/
def new : Session := ⟨0, false, none, .idle, false, [], .empty, 0⟩

/-- Whether a run is current. -/
def isExporting (s : Session) : Bool := s.run.isSome

/-- The answers to previews, as callers are told. -/
def replies (r : Option (Reply (List (Cue Float)))) : List Occurrence :=
  (r.map .replied).toList

/-- A session with another worker in place of its own, of which nothing is
    heard any more. -/
def replaceWorker (s : Session) : Session × List Occurrence :=
  let (previews, reply) := s.previews.abandon .contextClosed
  ({ s with worker := .idle, lost := false, inbox := [], previews }, replies reply)

/-! ## Requests -/

/-- A plan is handed to the worker, unless one is being carried out. -/
def submit (u : SessionSetup) (s : Session) (input : String) (p : Plan) :
    Session × List Occurrence :=
  if s.run.isSome then (s, [.refused .busy])
  else
    let jobId := s.generation + 1
    let s := { s with generation := jobId, inbox := [] }
    if s.lost then (s, [.refused .contextClosed])
    else
      let request := .transcode jobId input p.tokens p.output.fileName (some p.expectedDuration)
      let run := ⟨jobId, p, .arm jobId u.startTimeoutMs p, s.clock + u.startTimeoutMs⟩
      ({ s with worker := s.worker.post request, run := some run }, [.accepted jobId])

/-- A preview is asked for, in place of the one before it. -/
def preview (s : Session) (input : String) (track : UInt64) : Session × List Occurrence :=
  let (previews, reply) := s.previews.begin_
  let id := previews.lastId
  let told := .asked id :: replies reply
  if s.lost then
    ({ s with previews := (previews.drop id).1 }, told ++ [.replied ⟨id, .error .contextClosed⟩])
  else
    ({ s with previews, worker := s.worker.post (.extractSubtitles id input track) }, told)

/-! ## Events -/

/-- An event is relayed: answers to previews to whoever asked, all else to the
    run. -/
def relay (s : Session) : Session × List Occurrence :=
  match s.worker.events with
  | [] => (s, [])
  | e :: events =>
    let s := { s with worker := { s.worker with events } }
    match e with
    | .subtitleCues id cues => resolve s id (.ok cues)
    | .subtitleError id message => resolve s id (.error (.backend message))
    | e => ({ s with inbox := s.inbox ++ [e] }, [])
where
  /-- The answer to a preview. -/
  resolve (s : Session) (id : UInt64) (result : Except Failure (List (Cue Float))) :
      Session × List Occurrence :=
    let (previews, reply) := s.previews.resolve id result
    ({ s with previews }, replies reply)

/-! ## The current run -/

/-- Whether a run can react to something. -/
def isReady (s : Session) (r : Run) : Signal → Bool
  | .notification => s.notified
  | .deadline => r.watchdog.isArmed && decide (r.deadline ≤ s.clock)
  | .event => !s.inbox.isEmpty
  | .closed => s.lost && s.worker.events.isEmpty && s.inbox.isEmpty

/-- The end of a run. -/
def conclude (s : Session) (r : Run) (result : Except Failure Outcome) :
    Session × List Occurrence :=
  ({ s with run := none }, [.ended r.jobId result])

/-- The end of a run whose worker is replaced. -/
def breakOff (s : Session) (r : Run) (result : Except Failure Outcome) :
    Session × List Occurrence :=
  let (s, told) := s.replaceWorker
  let (s, ended) := s.conclude r result
  (s, told ++ ended)

/-- A run with something observed. -/
def observe (s : Session) (r : Run) (w : Watchdog) (notice : Notice) :
    Session × List Occurrence :=
  ({ s with run := some { r with watchdog := w } }, [.noticed notice])

/-- The failure that an event tells of. -/
def failureOf (message : String) (issues : List TrackIssue) : Failure :=
  if message = busyMessage then .busy
  else if issues.isEmpty then .conversion message
  else .invalidPlan issues

/-- How a run reacts to an event about its job. -/
def hear (s : Session) (r : Run) : Event → Session × List Occurrence
  | .started _ => s.observe r r.watchdog.observeStarted (.started r.jobId)
  | .progress _ u _ =>
    s.observe r (r.watchdog.observeProgress u.fraction u.frames) (.progress r.jobId u)
  | .done _ fileName mimeType bytes =>
    s.conclude r (.ok (.completed ⟨r.jobId, fileName, mimeType, bytes, r.plan.warnings⟩))
  | .error _ message issues => s.conclude r (.error (failureOf message issues))
  | .subtitleCues _ _ | .subtitleError _ _ => (s, [])

/-- How a run reacts. -/
def react (u : SessionSetup) (s : Session) (r : Run) : Signal → Session × List Occurrence
  | .notification =>
    let s := { s with notified := false }
    if s.generation = r.jobId then (s, []) else s.breakOff r (.ok .cancelled)
  | .deadline =>
    match r.watchdog.expire with
    | (_, some (.hardCancel _)) =>
      { s with generation := s.generation + 1 }.breakOff r (.error (.notStarted u.startTimeoutMs))
    | (w, _) => ({ s with run := some { r with watchdog := w } }, [])
  | .event =>
    match s.inbox with
    | [] => (s, [])
    | e :: inbox =>
      let s := { s with inbox }
      if e.jobId? = some r.jobId ∧ s.generation = r.jobId then s.hear r e else (s, [])
  | .closed => s.breakOff r (.error .contextClosed)

/-! ## Steps -/

/-- A step, with what callers are told. One that is not possible changes
    nothing. -/
def step (u : SessionSetup) (s : Session) : SessionMove → Session × List Occurrence
  | .supersede => ({ s with generation := s.generation + 1 }, [])
  | .notify => ({ s with notified := true }, [])
  | .submit input p => s.submit u input p
  | .preview input track => s.preview input track
  | .work m =>
    if s.lost then (s, [])
    else ({ s with worker := s.worker.move u.host (s.clock * nanosPerMs) m }, [])
  | .relay => s.relay
  | .react signal =>
    match s.run with
    | some r => if s.isReady r signal then s.react u r signal else (s, [])
    | none => (s, [])
  | .lose => ({ s with lost := true }, [])
  | .elapse ms => ({ s with clock := s.clock + ms, worker := s.worker.elapse ms }, [])

/-- Steps, with all that callers are told. -/
def steps (u : SessionSetup) (s : Session) : List SessionMove → Session × List Occurrence
  | [] => (s, [])
  | m :: rest =>
    let (s, told) := s.step u m
    let (s, more) := s.steps u rest
    (s, told ++ more)

/-- A cancellation. -/
def cancellation : List SessionMove := [.supersede, .notify]

end Session

end VideoExport
