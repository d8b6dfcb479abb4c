import VideoExport.Worker.Basic

/-!
# Schedules of workers

Where nothing else decides which step of a worker is next, a schedule does:
what takes no time goes first, in the order in which it was taken up, and
conversions give way to all else. The clock is moved on when everybody waits.

* `Worker.next?`: the next step;
* `Worker.collect`: the events up to one that is waited for.
-/

namespace VideoExport

namespace Task

/-- Whether a task waits for nothing. -/
def isReady (hungUp : Bool) : Task → Bool
  | conversion c =>
    match c.stage with
    | .probing rest => rest.isReady hungUp
    | .converting _ _ rest => rest.isReady hungUp
    | .converted _ | .closing _ => true
  | extraction _ rest => rest.isReady hungUp

/-- Whether frames are converted. -/
def isConverting : Task → Bool
  | conversion { stage := .converting _ _ _, .. } => true
  | _ => false

/-- The milliseconds that a task lets pass. -/
def pause? : Task → Option Nat
  | conversion c =>
    match c.stage with
    | .probing rest => rest.pause?
    | .converting _ _ rest => rest.pause?
    | .converted _ | .closing _ => none
  | extraction _ rest => rest.pause?

/-- A task after so many milliseconds. -/
def elapse (ms : Nat) : Task → Task
  | conversion c =>
    match c.stage with
    | .probing rest => .conversion { c with stage := .probing (rest.elapse ms) }
    | .converting p begun rest =>
      .conversion { c with stage := .converting p begun (rest.elapse ms) }
    | .converted _ | .closing _ => .conversion c
  | extraction id rest => .extraction id (rest.elapse ms)

end Task

/-- Nanoseconds in a millisecond. -/
def nanosPerMs : Nat := 1000000

/-- More steps than anything takes that comes to an end. -/
def scheduleLimit : Nat := Nat.pow 2 48

namespace Worker

/-- The next step, if there is anything to be done now. -/
def next? (w : Worker) : Option WorkerMove :=
  if w.requests.isEmpty then
    let ready (converting : Bool) : Option Nat :=
      w.tasks.findIdx? fun t => t.isReady w.hungUp && t.isConverting == converting
    (ready false <|> ready true).map .advance
  else some .dispatch

/-- The milliseconds that have to pass before anything else can be done. -/
def pause? (w : Worker) : Option Nat := (w.tasks.filterMap Task.pause?).min?

/-- A worker after so many milliseconds. -/
def elapse (ms : Nat) (w : Worker) : Worker := { w with tasks := w.tasks.map (Task.elapse ms) }

/-- The events of a worker up to one that is waited for, with the worker and
    the clock, in milliseconds, after that. Ends without that event if the
    worker will not send any more, or after so many steps. -/
def collect (h : Host) (isLast : Event → Bool) :
    (steps : Nat) → (clock : Nat) → Worker → List Event × Worker × Nat
  | 0, clock, w => ([], w, clock)
  | steps + 1, clock, w =>
    match w.events with
    | e :: events =>
      let w := { w with events }
      if isLast e then ([e], w, clock)
      else
        let (more, w, clock) := collect h isLast steps clock w
        (e :: more, w, clock)
    | [] =>
      match w.next?, w.pause? with
      | some m, _ => collect h isLast steps clock (w.move h (clock * nanosPerMs) m)
      | none, some ms => collect h isLast steps (clock + ms) (w.elapse ms)
      | none, none => ([], w, clock)

end Worker

end VideoExport
