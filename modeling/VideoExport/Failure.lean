import VideoExport.Number.Natural

/-!
# Failures

What an export can fail with, as causes. The text of a failure is for people;
what a program decides on is the cause.

* `TrackIssue`: one reason why a plan cannot run;
* `Failure`: the causes, and `Failure.message` their texts;
* `bind_eq_ok_iff`: what it means that steps succeed one after the other.
-/

namespace VideoExport

/-- One reason why a plan cannot run, about one source track or about the plan
    as a whole. -/
structure TrackIssue where
  track : Option UInt64
  reason : String
  deriving DecidableEq, Repr, Inhabited

/-- The text of an issue, with what it is about. -/
def TrackIssue.text (i : TrackIssue) : String :=
  match i.track with
  | some index => s!"track {Number.text index.toNat}: {i.reason}"
  | none => s!"plan: {i.reason}"

/-- Why an operation failed. -/
inductive Failure
  /-- An argument that cannot be read. -/
  | badArguments (detail : String)
  /-- Settings outside their ranges. -/
  | invalidSettings (detail : String)
  /-- A codec that nobody knows. -/
  | unsupportedCodec (name : String)
  /-- A preset that is not in the table. -/
  | unknownPreset (name : String)
  /-- A source that could not be probed. -/
  | probeFailed (detail : String)
  /-- A plan that is not consistent with its source. -/
  | invalidPlan (issues : List TrackIssue)
  /-- A job that did not start in time. -/
  | notStarted (timeoutMs : Nat)
  /-- A conversion that failed. -/
  | conversion (detail : String)
  /-- Another conversion is running. -/
  | busy
  /-- A newer request took the place of this one. -/
  | superseded (request : UInt64)
  /-- The execution context ended before it answered. -/
  | contextClosed
  /-- A backend that could not do its work. -/
  | backend (detail : String)
  /-- A configuration that cannot be used. -/
  | configuration (detail : String)
  /-- A document that cannot be read. -/
  | document
  /-- A file that cannot be read or written. -/
  | file (detail : String)
  deriving DecidableEq, Repr, Inhabited

/-- The text of a failure. -/
def Failure.message : Failure → String
  | badArguments detail => s!"Bad arguments: {detail}"
  | invalidSettings detail => s!"Invalid export settings: {detail}"
  | unsupportedCodec name => s!"Unsupported codec: {name}"
  | unknownPreset name => s!"Unknown preset: {name}"
  | probeFailed detail => s!"Probe failed: {detail}"
  | invalidPlan issues =>
    "Invalid export plan: " ++ String.intercalate "; " (issues.map TrackIssue.text)
  | notStarted timeoutMs => s!"Conversion did not start within {Number.text timeoutMs} ms"
  | conversion detail => s!"Conversion failed: {detail}"
  | busy => "A conversion is already running"
  | superseded request => s!"Request {Number.text request.toNat} was superseded by a newer request"
  | contextClosed => "Execution context closed unexpectedly"
  | backend detail => s!"Backend error: {detail}"
  | configuration detail => s!"Configuration error: {detail}"
  | document => "JSON error"
  | file detail => s!"I/O error: {detail}"

/-- Steps succeed one after the other if the first one does and what follows it does with its
    result. -/
theorem bind_eq_ok_iff {ε α β : Type} {x : Except ε α} {f : α → Except ε β} {b : β} :
    x >>= f = .ok b ↔ ∃ a, x = .ok a ∧ f a = .ok b := by
  cases x <;> simp [bind, Except.bind]

end VideoExport
