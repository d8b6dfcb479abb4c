import VideoExport.Media.Stream

/-!
# Progress

Whoever converts reports how far it has come; what is shown of that never goes
back, stays between nothing and all, and is passed on no more often than the
listeners want, except that the first report and completion always are.

* `Progress.accept`: one report;
* `Progress.fraction_accept`: progress never goes back;
* `Tracker`: progress with its listeners, and what each of them has been told.
-/

namespace VideoExport

/-- A report of whoever converts: the completed share, and how many frames have
    been written, if they are counted. -/
structure Sample where
  fraction : Float
  frames : Option UInt64
  deriving Inhabited

/-- Progress as it is shown: the completed share, the position in seconds, and
    rates per second of the clock. -/
structure ProgressUpdate where
  fraction : Float
  mediaTime : Float
  frames : Option UInt64
  fps : Option Float
  speed : Option Float
  deriving Inhabited

/-- A conversion's progress. Times are nanoseconds since it was begun. -/
structure Progress where
  expectedDuration : Float
  interval : Nat
  latest : ProgressUpdate
  lastShown : Option Nat
  started : Bool
  cancelled : Bool
  deriving Inhabited

namespace Progress

/-- The least time between two updates unless something else is asked for. -/
def defaultInterval : Nat := 100000000

/-- A conversion that should last so many seconds, before its first report. -/
def start (expectedDuration : Float) : Progress where
  expectedDuration :=
    if expectedDuration.isFinite && 0.0 < expectedDuration then expectedDuration else 0.0
  interval := defaultInterval
  latest := ⟨0.0, 0.0, none, none, none⟩
  lastShown := none
  started := false
  cancelled := false

/-- A reported share between nothing and all. -/
def share (x : Float) : Float :=
  if x.isFinite then if x < 0.0 then 0.0 else if 1.0 < x then 1.0 else x else 0.0

/-- A time in seconds: the whole ones, and what is left of them. -/
def seconds (nanos : Nat) : Float :=
  Float.ofNat (nanos / 1000000000) + Float.ofNat (nanos % 1000000000) / 1000000000.0

/-- What is known after a report at a time. -/
def update (p : Progress) (now : Nat) (s : Sample) : ProgressUpdate :=
  let fraction := if p.latest.fraction < share s.fraction then share s.fraction
    else p.latest.fraction
  let mediaTime := fraction * p.expectedDuration
  let frames := s.frames <|> p.latest.frames
  let elapsed := seconds now
  { fraction, mediaTime, frames
    fps := if 0.0 < elapsed then frames.map fun f => f.toFloat / elapsed else none
    speed :=
      if 0.0 < elapsed && 0.0 < p.expectedDuration then some (mediaTime / elapsed) else none }

/-- Whether an update is to be passed on. -/
def isDue (p : Progress) (now : Nat) (u : ProgressUpdate) : Bool :=
  1.0 ≤ u.fraction || p.lastShown.all fun last => p.interval ≤ now - last

/-- One report at a time: the progress after it, and the update to pass on. -/
def accept (p : Progress) (now : Nat) (s : Sample) : Progress × Option ProgressUpdate :=
  let u := p.update now s
  if p.isDue now u then ({ p with latest := u, lastShown := some now }, some u)
  else ({ p with latest := u }, none)

/-- The start, and whether it is the first one. -/
def begin_ (p : Progress) : Progress × Bool := ({ p with started := true }, !p.started)

/-- Progress is what it was or the share that was reported. -/
theorem fraction_accept (p : Progress) (now : Nat) (s : Sample) :
    (p.accept now s).1.latest.fraction = p.latest.fraction ∨
      p.latest.fraction < (p.accept now s).1.latest.fraction := by
  have h : (p.accept now s).1.latest = p.update now s := by
    unfold accept
    simp only
    split <;> rfl
  rw [h]
  unfold update
  simp only
  split
  case isTrue hlt => exact .inr hlt
  case isFalse => exact .inl rfl

end Progress

/-- What a listener has been told, and whether it wants the conversion to
    end. -/
structure Listener where
  starts : Nat
  updates : List ProgressUpdate
  cancels : Bool
  deriving Inhabited

/-- Progress with its listeners, in the order in which they came. -/
structure Tracker where
  progress : Progress
  listeners : List Listener
  deriving Inhabited

namespace Tracker

/-- A tracker without listeners. -/
def start (expectedDuration : Float) : Tracker := ⟨.start expectedDuration, []⟩

/-- One more listener, who has been told nothing. -/
def listen (t : Tracker) : Tracker := { t with listeners := t.listeners ++ [⟨0, [], false⟩] }

/-- The least time between two updates. -/
def setInterval (t : Tracker) (nanoseconds : Nat) : Tracker :=
  { t with progress := { t.progress with interval := nanoseconds } }

/-- The end is asked for. -/
def cancel (t : Tracker) : Tracker := { t with progress := { t.progress with cancelled := true } }

/-- A listener wants the conversion to end, or does not any more. -/
def setCancels (t : Tracker) (k : Nat) (cancels : Bool) : Tracker :=
  { t with listeners := t.listeners.modify k fun l => { l with cancels } }

/-- The start, of which all listeners are told the first time. -/
def started (t : Tracker) : Tracker :=
  let (p, first) := t.progress.begin_
  { progress := p
    listeners := if first then t.listeners.map fun l => { l with starts := l.starts + 1 }
      else t.listeners }

/-- A report at a time, of which all listeners are told if it is due. -/
def report (t : Tracker) (now : Nat) (s : Sample) : Tracker :=
  match t.progress.accept now s with
  | (p, some u) =>
    { progress := p, listeners := t.listeners.map fun l => { l with updates := l.updates ++ [u] } }
  | (p, none) => { t with progress := p }

/-- Whether the end is asked for, or a listener wants it. -/
def isCancelled (t : Tracker) : Bool := t.progress.cancelled || t.listeners.any (·.cancels)

end Tracker

end VideoExport
