import VideoExport.Plan.Compile
import VideoExport.Session.Basic

/-!
# Callers

Callers come to a session with errands and wait for answers, several of them at
the same time if they like. Where nothing else decides which step is next, a
schedule does: notifications and events go before work, work before waiting,
and the clock is moved on when everybody waits.

* `Errand`, `Answer`: what callers come for and what they leave with;
* `Session.next?`: the next step;
* `Office.serve`: errands that are run side by side.
-/

namespace VideoExport

/-- When a caller loses interest in a run: at its start, or at the report of a
    number that counts from one. -/
inductive Milestone
  | start
  | report (number : Nat)
  deriving DecidableEq, Repr

/-- What a caller comes for. -/
inductive Errand
  | compile (settings : Settings) (source : Source)
  /-- A plan is compiled and carried out. -/
  | convert (input : String) (settings : Settings) (source : Source) (quits : Option Milestone)
  /-- A plan is carried out. -/
  | carryOut (input : String) (plan : Plan) (quits : Option Milestone)
  | preview (input : String) (track : UInt64)
  | cancel

/-- What a caller leaves with. -/
inductive Answer
  | plan (p : Plan)
  | outcome (o : Outcome)
  | cues (cues : List (Cue Float))
  | nothing

/-- Whether a caller has got anywhere. -/
inductive CallerState
  | arrived
  | awaitsRun (jobId : UInt64)
  | awaitsPreview (requestId : UInt64)
  | leaves (answer : Except Failure Answer)

/-- A caller, with all that it has noticed, the last notice first. -/
structure Caller where
  quits : Option Milestone
  state : CallerState
  notices : List Notice

/-- The job that a notice is about. -/
def Notice.jobId : Notice → UInt64
  | started id | progress id _ => id

/-- Whether a notice is about progress. -/
def Notice.isProgress : Notice → Bool
  | progress _ _ => true
  | started _ => false

namespace Caller

/-- A caller who has just arrived. -/
def arrive (quits : Option Milestone) : Caller := ⟨quits, .arrived, []⟩

/-- A caller who leaves at once. -/
def leave (answer : Except Failure Answer) : Caller := ⟨none, .leaves answer, []⟩

/-- The answer that a caller leaves with. -/
def answer? (c : Caller) : Option (Except Failure Answer) :=
  match c.state with
  | .leaves a => some a
  | _ => none

/-- A caller after an occurrence. -/
def hear (c : Caller) (o : Occurrence) : Caller :=
  match c.state, o with
  | .arrived, .accepted id => { c with state := .awaitsRun id }
  | .arrived, .refused reason => { c with state := .leaves (.error reason) }
  | .arrived, .asked id => { c with state := .awaitsPreview id }
  | .awaitsRun id, .noticed n => if n.jobId = id then { c with notices := n :: c.notices } else c
  | .awaitsRun id, .ended job result =>
    if job = id then { c with state := .leaves (result.map .outcome) } else c
  | .awaitsPreview id, .replied r =>
    if r.id = id then { c with state := .leaves (r.result.map .cues) } else c
  | _, _ => c

/-- Whether the last notice is the one at which a caller loses interest. -/
def losesInterest (c : Caller) : Bool :=
  match c.quits, c.notices with
  | some .start, .started _ :: _ => true
  | some (.report n), .progress _ _ :: _ => c.notices.countP Notice.isProgress == n
  | _, _ => false

end Caller

namespace Session

/-- The milliseconds that have to pass before anything else can be done. -/
def pause? (s : Session) : Option Nat :=
  let limit := s.run.bind fun r =>
    if r.watchdog.isArmed then some (r.deadline - s.clock) else none
  (s.worker.pause?.toList ++ limit.toList).min?

/-- The next step, unless nothing will ever happen. -/
def next? (s : Session) : Option SessionMove :=
  let reaction (signal : Signal) : Option SessionMove :=
    s.run.bind fun r => if s.isReady r signal then some (.react signal) else none
  reaction .notification <|>
    (if s.worker.events.isEmpty then none else some .relay) <|>
    reaction .event <|>
    s.worker.next?.map .work <|>
    reaction .closed <|>
    reaction .deadline <|>
    s.pause?.map .elapse

end Session

/-- A session with its callers, in the order in which they arrived. -/
structure Office where
  session : Session
  callers : List Caller

namespace Office

/-- A step of the session, of which all callers hear. A caller who loses
    interest cancels. -/
def step (u : SessionSetup) (o : Office) (m : SessionMove) : Office :=
  let (session, told) := o.session.step u m
  let callers := told.foldl (fun callers occurrence => callers.map (·.hear occurrence)) o.callers
  let isNotice : Occurrence → Bool
    | .noticed _ => true
    | _ => false
  let session :=
    if told.any isNotice && callers.any Caller.losesInterest then
      (session.steps u Session.cancellation).1
    else session
  ⟨session, callers⟩

/-- One more caller. -/
def receive (o : Office) (c : Caller) : Office := { o with callers := o.callers ++ [c] }

/-- One more caller, who has a plan carried out. -/
def receiveRun (u : SessionSetup) (o : Office) (input : String) (p : Plan)
    (quits : Option Milestone) : Office :=
  (o.receive (.arrive quits)).step u (.submit input p)

/-- A caller's errand up to where it has to wait. -/
def begin_ (u : SessionSetup) (o : Office) : Errand → Office
  | .compile settings source =>
    o.receive (.leave ((Plan.compile u.threads settings source).map .plan))
  | .convert input settings source quits =>
    match Plan.compile u.threads settings source with
    | .ok p => o.receiveRun u input p quits
    | .error f => o.receive (.leave (.error f))
  | .carryOut input p quits => o.receiveRun u input p quits
  | .preview input track => (o.receive (.arrive none)).step u (.preview input track)
  | .cancel =>
    { o with session := (o.session.steps u Session.cancellation).1 }.receive (.leave (.ok .nothing))

/-- Steps until every caller has left, or nothing will ever happen, or so many
    steps are over. -/
def settle (u : SessionSetup) : (steps : Nat) → Office → Office
  | 0, o => o
  | steps + 1, o =>
    if o.callers.all fun c => c.answer?.isSome then o
    else match o.session.next? with
      | some m => settle u steps (o.step u m)
      | none => o

/-- Errands side by side, each begun after the one before it has to wait: the
    session and the callers afterwards. -/
def serve (u : SessionSetup) (steps : Nat) (s : Session) (errands : List Errand) : Office :=
  (errands.foldl (begin_ u) ⟨s, []⟩).settle u steps

end Office

end VideoExport
