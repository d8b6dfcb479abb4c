import VideoExport.Frame.Grading
import VideoExport.Job.Progress

/-!
# Activities

What a backend does is a tree of the effects that others can notice, down to
its result: it reports, asks whether it shall end, lets time pass, and starts
other programs. The tree says in which order these happen; who reads it decides
what they mean.

* `ToolRun`: what another program does, and how its output is delivered;
* `Activity`: the effects on the way to a result;
* `Activity.andThen`: one activity after another;
* `Activity.play`: an activity by itself, against a schedule of cancellation;
* `Activity.advance`: one step of an activity among others.
-/

namespace VideoExport

/-- What another program is started for. -/
inductive ToolRole
  | probe
  | subtitles
  | direct
  | decode
  | encode
  deriving DecidableEq, Repr, Inhabited

/-- The start of another program. -/
structure ToolCall where
  role : ToolRole
  arguments : List String
  deriving DecidableEq, Repr, Inhabited

/-- What an attempt to read comes to before the end is reached: some bytes, at
    least one of them, or none for now. -/
inductive Delivery
  | bytes (first : UInt8) (rest : Bytes)
  | interrupted
  deriving DecidableEq, Repr, Inhabited

namespace Delivery

/-- The bytes of a delivery. -/
def data : Delivery → Bytes
  | bytes first rest => first :: rest
  | interrupted => []

/-- Bytes that are delivered at once. -/
def ofBytes : Bytes → List Delivery
  | [] => []
  | first :: rest => [bytes first rest]

/-- The bytes of deliveries, one after the other. -/
def output (stream : List Delivery) : Bytes := stream.flatMap data

/-- Bytes that are delivered at once are delivered. -/
@[simp]
theorem output_ofBytes (b : Bytes) : output (ofBytes b) = b := by
  cases b <;> simp [output, ofBytes, data]

/-- Deliveries after others add their bytes. -/
@[simp]
theorem output_append (s t : List Delivery) : output (s ++ t) = output s ++ output t := by
  simp [output]

end Delivery

/-- What another program does: what it writes, delivery by delivery, how it ends
    (unless it is killed), whether it reads its input, and the file that it
    leaves, by what it has read. -/
structure ToolRun where
  deliveries : List Delivery
  errors : Bytes
  status : Option Int
  readsInput : Bool
  file : Bytes → Bytes

/-- All that another program writes. -/
def ToolRun.output (r : ToolRun) : Bytes := Delivery.output r.deliveries

/-- The effects on the way to a result. -/
inductive Activity (α : Type)
  /-- The result. -/
  | finish (result : Except Failure α)
  /-- Work on the first frame has begun. -/
  | started (next : Activity α)
  /-- A report. -/
  | report (sample : Sample) (next : Activity α)
  /-- The question whether to end. -/
  | poll (next : Bool → Activity α)
  /-- The same question over and over until the answer is yes, with what is
      reported after each time that it is no. -/
  | untilCancelled (each : Nat → Option Sample) (next : Activity α)
  /-- Milliseconds that pass. -/
  | sleep (ms : Nat) (next : Activity α)
  /-- The start of another program, which may fail for a reason. -/
  | launch (call : ToolCall) (next : Except String ToolRun → Activity α)

namespace Activity

variable {α β : Type}

/-- A result that is there. -/
def ok (a : α) : Activity α := finish (.ok a)

/-- A failure. -/
def fail (f : Failure) : Activity α := finish (.error f)

/-- An activity, and another one that depends on its result. -/
def andThen (a : Activity α) (f : Except Failure α → Activity β) : Activity β :=
  match a with
  | finish result => f result
  | started next => started (next.andThen f)
  | report s next => report s (next.andThen f)
  | poll next => poll fun b => (next b).andThen f
  | untilCancelled each next => untilCancelled each (next.andThen f)
  | sleep ms next => sleep ms (next.andThen f)
  | launch call next => launch call fun r => (next r).andThen f

/-- Milliseconds that pass, if there are any. -/
def pause (ms : Nat) (next : Activity α) : Activity α := if ms = 0 then next else sleep ms next

end Activity

/-- When the question whether to end is answered yes: the answer to each
    question by its number, counted from one, and for each number the first
    question after it that is answered yes, if there is one. -/
structure PollSchedule where
  answer : Nat → Bool
  nextYes : Nat → Option Nat
  nextYes_spec : ∀ n m, nextYes n = some m →
    n < m ∧ answer m = true ∧ ∀ k, n < k → k < m → answer k = false
  nextYes_none : ∀ n, nextYes n = none → ∀ k, n < k → answer k = false

namespace PollSchedule

/-- Every answer is no. -/
def never : PollSchedule := ⟨fun _ => false, fun _ => none, by simp, by simp⟩

/-- So many answers are no, all others yes. -/
def after (count : Nat) : PollSchedule where
  answer n := decide (count < n)
  nextYes n := some (max n count + 1)
  nextYes_spec n m h := by
    cases h
    refine ⟨by omega, decide_eq_true (by omega), ?_⟩
    intro k hk hm
    simp
    omega
  nextYes_none n h := by simp at h

end PollSchedule

/-- What has been noticed of an activity: the questions so far, whether it has
    started, its reports, and the programs that ran, the last ones first. -/
structure Record where
  polls : Nat
  started : Bool
  reports : List Sample
  calls : List ToolCall
  deriving Inhabited

namespace Record

/-- Nothing yet. -/
def empty : Record := ⟨0, false, [], []⟩

/-- One more report. -/
def withReport (r : Record) (s : Sample) : Record := { r with reports := s :: r.reports }

/-- Reports of the questions that are answered no in a wait. -/
def withWait (r : Record) (each : Nat → Option Sample) (until_ : Nat) : Record :=
  { r with
    polls := until_
    reports := ((List.range (until_ - r.polls - 1)).filterMap each).reverse ++ r.reports }

end Record

/-- The answer to the start of another program. -/
abbrev Launcher := ToolCall → Except String ToolRun

namespace Activity

variable {α : Type}

/-- An activity by itself: its result, unless it waits for ever, and what has
    been noticed of it. A program that could not be started did not run. -/
def play (launcher : Launcher) (schedule : PollSchedule) (r : Record) :
    Activity α → Option (Except Failure α) × Record
  | finish result => (some result, r)
  | started next => play launcher schedule { r with started := true } next
  | report s next => play launcher schedule (r.withReport s) next
  | poll next =>
    let n := r.polls + 1
    play launcher schedule { r with polls := n } (next (schedule.answer n))
  | untilCancelled each next =>
    match schedule.nextYes r.polls with
    | some n => play launcher schedule (r.withWait each n) next
    | none => (none, r)
  | sleep _ next => play launcher schedule r next
  | launch call next =>
    match launcher call with
    | .ok run => play launcher schedule { r with calls := call :: r.calls } (next (.ok run))
    | .error reason => play launcher schedule r (next (.error reason))

end Activity

/-! ## Step by step -/

/-- What others notice of a step. -/
inductive Effect
  | silent
  | started
  | reported (sample : Sample)

/-- What a step comes to: the end, or an effect and what is left. -/
inductive ActivityStep (α : Type)
  | ended (result : Except Failure α)
  | ahead (effect : Effect) (rest : Activity α)

namespace Activity

variable {α : Type}

/-- One step of an activity, by the answers to its questions. Time may pass at
    any speed, and a wait goes on unless its question is answered yes. -/
def advance (launcher : Launcher) (cancelled : Bool) : Activity α → ActivityStep α
  | finish result => .ended result
  | started next => .ahead .started next
  | report s next => .ahead (.reported s) next
  | poll next => .ahead .silent (next cancelled)
  | untilCancelled each next =>
    if cancelled then .ahead .silent next
    else .ahead ((each 0).elim .silent .reported) (untilCancelled (fun n => each (n + 1)) next)
  | sleep _ next => .ahead .silent next
  | launch call next => .ahead .silent (next (launcher call))

/-- Whether something is to be done now: neither time has to pass first, nor
    the answer to a question to change. -/
def isReady (cancelled : Bool) : Activity α → Bool
  | sleep ms _ => ms == 0
  | untilCancelled each _ => cancelled || (each 0).isSome
  | _ => true

/-- The milliseconds that have to pass first. -/
def pause? : Activity α → Option Nat
  | sleep ms _ => some ms
  | _ => none

/-- An activity after so many milliseconds. -/
def elapse (ms : Nat) : Activity α → Activity α
  | sleep rest next => sleep (rest - ms) next
  | a => a

/-- An activity ends in a step exactly if it is finished. -/
theorem advance_eq_ended_iff {launcher : Launcher} {cancelled : Bool} {a : Activity α}
    {result : Except Failure α} :
    a.advance launcher cancelled = .ended result ↔ a = finish result := by
  cases a
  case untilCancelled => simp only [advance]; split <;> simp
  all_goals simp [advance]

end Activity

end VideoExport
