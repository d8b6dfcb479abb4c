import VideoExport.Settings.Basic
import VideoExport.Media.Stream

/-!
# Chosen tracks

A selection of tracks is resolved against the streams of a source. Every track
of a kind can be named at once; a single one is named by its index, and one
that does not exist is reported, not replaced.

* `Selection.resolve`: the chosen tracks of a kind;
* `Selection.resolve_indices_subset`: only streams of that kind are chosen;
* `Source.suggested`: the selections that the marks of a source suggest.
-/

namespace VideoExport

/-- The chosen tracks of a kind: their indices, whether they are all there
    are by the selection itself, and the index that was asked for in vain. -/
structure ChosenTracks where
  indices : List UInt64
  wildcard : Bool
  missing : Option UInt64
  deriving DecidableEq, Repr, Inhabited

namespace ChosenTracks

/-- No tracks. -/
def none : ChosenTracks := ⟨[], false, .none⟩

end ChosenTracks

namespace Selection

/-- The tracks of a kind that a selection chooses from a source. -/
def resolve (sel : Selection) (source : Source) (kind : MediaKind) : ChosenTracks :=
  match sel.mode, sel.selected with
  | .all, _ => ⟨(source.ofKind kind).map (·.index), true, .none⟩
  | .single, .none => .none
  | .single, some index =>
    if (source.ofKind kind).any (·.index == index) then ⟨[index], false, .none⟩ else ⟨[], false, some index⟩

/-- Only streams of the kind are chosen. -/
theorem resolve_indices_subset (sel : Selection) (source : Source) (kind : MediaKind) :
    (sel.resolve source kind).indices ⊆ (source.ofKind kind).map (·.index) := by
  unfold resolve
  intro i hi
  split at hi
  case h_1 => exact hi
  case h_2 => simp [ChosenTracks.none] at hi
  case h_3 index _ _ =>
    split at hi
    case isTrue h =>
      obtain ⟨s, hs, he⟩ := List.any_eq_true.1 h
      rw [List.mem_singleton.1 hi]
      exact List.mem_map.2 ⟨s, hs, by simpa using he⟩
    case isFalse => simp at hi

/-- A single track, or none. -/
def ofTrack? : Option UInt64 → Selection
  | some index => single index
  | .none => none

end Selection

namespace Source

/-- The track of sound to start with: the first one marked as default, else
    the first one. -/
def suggestedAudio? (s : Source) : Option UInt64 :=
  let streams := s.ofKind .audio
  (streams.find? (·.isDefault) <|> streams.head?).map (·.index)

/-- The track of subtitles to start with: the first one marked as forced. -/
def suggestedSubtitle? (s : Source) : Option UInt64 :=
  ((s.ofKind .subtitle).find? (·.isForced)).map (·.index)

/-- The selections of sound and subtitles to start with. -/
def suggested (s : Source) : Selection × Selection :=
  (.ofTrack? s.suggestedAudio?, .ofTrack? s.suggestedSubtitle?)

end Source

end VideoExport
