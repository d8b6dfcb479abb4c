import VideoExport.Failure

/-!
# The preview gate

Of the requests for a preview only the newest one matters: a new one supersedes
the one before it, and answers to any other than the newest are dropped. Every
request is answered at most once.

* `PreviewGate`: the request that waits, if there is one;
* `PreviewGate.begin_`, `PreviewGate.resolve`, `PreviewGate.abandon`: what may
  happen to it.
-/

namespace VideoExport

/-- A request that waits, and whether anybody still wants its answer. -/
structure PendingRequest where
  id : UInt64
  wanted : Bool
  deriving DecidableEq, Repr, Inhabited

/-- The last id that was given, and the request that waits. -/
structure PreviewGate where
  lastId : UInt64
  pending : Option PendingRequest
  deriving DecidableEq, Repr, Inhabited

/-- The answer to a request. -/
structure Reply (α : Type) where
  id : UInt64
  result : Except Failure α

namespace PreviewGate

variable {α : Type}

/-- The gate before the first request. -/
def empty : PreviewGate := ⟨0, none⟩

/-- The id of the request that waits. -/
def current (g : PreviewGate) : Option UInt64 := g.pending.map (·.id)

/-- The answer to a request, if it is wanted. -/
def answer (p : PendingRequest) (result : Except Failure α) : Option (Reply α) :=
  if p.wanted then some ⟨p.id, result⟩ else none

/-- A new request: its id is the next one, and the one that waited is
    superseded. -/
def begin_ (g : PreviewGate) : PreviewGate × Option (Reply α) :=
  let id := g.lastId + 1
  (⟨id, some ⟨id, true⟩⟩, g.pending.bind fun p => answer p (.error (.superseded p.id)))

/-- A result for the request of an id, dropped unless that request waits. -/
def resolve (g : PreviewGate) (id : UInt64) (result : Except Failure α) :
    PreviewGate × Option (Reply α) :=
  match g.pending with
  | some p => if p.id = id then ({ g with pending := none }, answer p result) else (g, none)
  | none => (g, none)

/-- Whatever waits fails. -/
def abandon (g : PreviewGate) (f : Failure) : PreviewGate × Option (Reply α) :=
  ({ g with pending := none }, g.pending.bind fun p => answer p (.error f))

/-- Nobody wants the answer to the request of an id any more. Tells whether it
    still was to come. -/
def drop (g : PreviewGate) (id : UInt64) : PreviewGate × Bool :=
  match g.pending with
  | some p =>
    if p.id = id ∧ p.wanted then ({ g with pending := some { p with wanted := false } }, true)
    else (g, false)
  | none => (g, false)

/-- A result for a request that does not wait changes nothing. -/
theorem resolve_of_ne {g : PreviewGate} {id : UInt64} (h : g.current ≠ some id)
    (result : Except Failure α) : g.resolve id result = (g, none) := by
  unfold resolve
  split
  case h_1 p hp =>
    have : p.id ≠ id := fun e => h (by simp [current, hp, e])
    simp [this]
  case h_2 => rfl

end PreviewGate

end VideoExport
