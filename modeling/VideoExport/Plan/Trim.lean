import VideoExport.Media.Compatibility

/-!
# Trim windows

The window of an export is the requested one, limited to its source and never
shorter than one frame. It is asked for only if it leaves out something worth
leaving out.

* `TrimWindow.resolve`: the window of a request;
* `TrimWindow.isKnown`: which durations it can be limited to.
-/

namespace VideoExport

open Number

/-- A window in seconds, and whether it has to be asked for. -/
structure TrimWindow (α : Type) where
  start : α
  duration : α
  requested : Bool

namespace TrimWindow

variable {α : Type} [Quantity α]

/-- Whether a duration or an end is known: it is finite and positive. -/
def isKnown (duration : α) : Bool := Quantity.isFinite duration && Quantity.ofNat 0 < duration

/-- The window from `start` to `stop`, or to the end of the source if `stop` is
    not positive. Where the source's duration is unknown, an open end leaves
    one frame. -/
def resolve (start stop duration shortest : α) : TrimWindow α :=
  let tolerance := trimTolerance shortest
  let open_ : Bool := !(Quantity.ofNat 0 < stop)
  if isKnown duration then
    let from_ := Quantity.clamp (Quantity.ofNat 0) duration start
    let upTo := Quantity.smaller (if open_ then duration else stop) duration
    { start := from_
      duration := Quantity.larger (upTo - from_) shortest
      requested := tolerance < from_ || tolerance < duration - upTo }
  else
    let upTo := if open_ then start else stop
    { start
      duration := Quantity.larger (upTo - start) shortest
      requested := tolerance < start || !open_ }

end TrimWindow

end VideoExport
