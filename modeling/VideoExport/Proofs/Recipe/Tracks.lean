import Mathlib.Tactic.Common
import VideoExport.Plan.Compile
import VideoExport.Recipe.Basic

/-!
# Tracks of a recipe

The tracks that are asked for one by one are kept in order and without
repetitions. What they amount to is a set: that of all the indices that were
ever asked for.

* `Recipe.mem_insertTracks`: which tracks are asked for;
* `Recipe.pairwise_insertTracks`: they stay in order;
* `Recipe.foldl_mapAudio`, `Recipe.foldl_mapSubtitles`: what the directives for
  tracks do to a recipe.
-/

namespace VideoExport

namespace Recipe

theorem mem_insertTrack {index i : UInt64} {l : List UInt64} :
    i ∈ insertTrack index l ↔ i = index ∨ i ∈ l := by
  induction l with
  | nil => simp [insertTrack]
  | cons j l ih =>
    rw [insertTrack]
    split_ifs with hlt heq
    · simp
    · rw [heq]
      simp
    · rw [List.mem_cons, ih, List.mem_cons]
      tauto

theorem pairwise_insertTrack {index : UInt64} {l : List UInt64} (h : l.Pairwise (· < ·)) :
    (insertTrack index l).Pairwise (· < ·) := by
  induction l with
  | nil => simp [insertTrack]
  | cons j l ih =>
    obtain ⟨hj, hl⟩ := List.pairwise_cons.1 h
    rw [insertTrack]
    split_ifs with hlt heq
    -- The index goes before the head, and so before all that come after it.
    · refine List.pairwise_cons.2 ⟨fun i hi => ?_, h⟩
      rcases List.mem_cons.1 hi with rfl | hi
      · exact hlt
      · exact UInt64.lt_trans hlt (hj i hi)
    · exact h
    · refine List.pairwise_cons.2 ⟨fun i hi => ?_, ih hl⟩
      rcases mem_insertTrack.1 hi with rfl | hi
      · exact UInt64.lt_of_le_of_ne (UInt64.not_lt.1 hlt) (Ne.symm heq)
      · exact hj i hi

/-- An ordered list of indices with several more. -/
def insertTracks (indices l : List UInt64) : List UInt64 :=
  indices.foldl (fun acc index => insertTrack index acc) l

theorem mem_insertTracks {indices l : List UInt64} {i : UInt64} :
    i ∈ insertTracks indices l ↔ i ∈ indices ∨ i ∈ l := by
  rw [insertTracks]
  induction indices generalizing l with
  | nil => simp
  | cons j indices ih =>
    rw [List.foldl_cons, ih, mem_insertTrack, List.mem_cons]
    tauto

theorem pairwise_insertTracks (indices : List UInt64) {l : List UInt64}
    (h : l.Pairwise (· < ·)) : (insertTracks indices l).Pairwise (· < ·) := by
  rw [insertTracks]
  induction indices generalizing l with
  | nil => exact h
  | cons j indices ih => exact ih (pairwise_insertTrack h)

/-! ## Directives for tracks -/

/-- The tracks that directives ask for one by one. -/
def explicitTracks (tracks : List UInt64) (wildcard : Bool) : List UInt64 :=
  if wildcard then [] else tracks

/-- They are the tracks, unless these are asked for all at once. -/
theorem mem_explicitTracks {tracks : List UInt64} {wildcard : Bool} {i : UInt64} :
    i ∈ explicitTracks tracks wildcard ↔ (wildcard && !tracks.isEmpty) = false ∧ i ∈ tracks := by
  cases wildcard with
  | false => simp [explicitTracks]
  | true => cases tracks <;> simp [explicitTracks]

theorem foldl_track (tracks : List UInt64) (r : Recipe) :
    (tracks.map fun index => Directive.map (.track index)).foldl apply r =
      { r with tracks := insertTracks tracks r.tracks } := by
  induction tracks generalizing r with
  | nil => rfl
  | cons i tracks ih => rw [List.map_cons, List.foldl_cons, ih]; rfl

/-- Directives for sound ask for all of it, for some tracks, or for nothing. -/
theorem foldl_mapAudio (tracks : List UInt64) (wildcard : Bool) {r : Recipe}
    (h : r.allAudio = false) :
    (mapTracks tracks wildcard .allAudio).foldl apply r =
      { r with
        allAudio := wildcard && !tracks.isEmpty
        tracks := insertTracks (explicitTracks tracks wildcard) r.tracks } := by
  obtain ⟨container, start, duration, video, audio, subtitle, filters, pv, aa, as, tr, th, ig⟩ := r
  cases h
  rw [mapTracks]
  cases tracks with
  | nil => cases wildcard <;> rfl
  | cons i tracks =>
    cases wildcard with
    | true => rfl
    | false => exact foldl_track (i :: tracks) _

/-- Directives for subtitles ask for all of them, for some, or for nothing. -/
theorem foldl_mapSubtitles (tracks : List UInt64) (wildcard : Bool) {r : Recipe}
    (h : r.allSubtitles = false) :
    (mapTracks tracks wildcard .allSubtitles).foldl apply r =
      { r with
        allSubtitles := wildcard && !tracks.isEmpty
        tracks := insertTracks (explicitTracks tracks wildcard) r.tracks } := by
  obtain ⟨container, start, duration, video, audio, subtitle, filters, pv, aa, as, tr, th, ig⟩ := r
  cases h
  rw [mapTracks]
  cases tracks with
  | nil => cases wildcard <;> rfl
  | cons i tracks =>
    cases wildcard with
    | true => rfl
    | false => exact foldl_track (i :: tracks) _

end Recipe

end VideoExport
