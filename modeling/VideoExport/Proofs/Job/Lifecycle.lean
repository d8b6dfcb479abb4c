import VideoExport.Backend.Synthetic
import VideoExport.Proofs.Job.Admission
import VideoExport.Proofs.Job.Course

/-!
# The life of a job

A job is moved from state to state, and is carried to its end by a run. Every
run leaves its job in a state that is an end, and no move and no run leads away
from an end. A run of a job that has not ended has an output exactly if the job
is done afterwards. It is otherwise for a job that has ended: a run does not look
at the state that it finds, so that the backend converts once more, and its result
need not go with the state that is kept.

* `Job.leads_run_iff`: the courses of a run;
* `Job.IsLawfulRun`: a run that goes with the states of its job;
* `Job.isLawfulRun_iff`: which runs do;
* `Job.converts_done_sample`: one that does not.
-/

namespace VideoExport

namespace Job

variable {backend : Backend} {j k : Job} {hs : List Happening} {result : Except Failure Bytes}
  {x : Except Failure (Job × Except Failure Bytes)}

/-! ## Moves -/

theorem state_move (j : Job) (next : JobState) :
    (j.move next).1.state = if j.state.allows next then next else j.state := by
  rw [move]
  split <;> rfl

/-- A job that has not ended may be cancelled. -/
theorem state_move_cancelled (h : ¬ j.state.isTerminal = true) :
    (j.move .cancelled).1.state = .cancelled := by
  rw [state_move]
  cases hs : j.state <;> simp_all [JobState.allows, JobState.isTerminal]

/-- A job that has not ended may run, unless it does so already. -/
theorem state_move_running (h : ¬ j.state.isTerminal = true) :
    (j.move .running).1.state = .running := by
  rw [state_move]
  cases hs : j.state <;> simp_all [JobState.allows, JobState.isTerminal]

/-- A job that runs may end in every way. -/
theorem state_move_of_running (h : j.state = .running) {next : JobState}
    (hnext : next.isTerminal = true) : (j.move next).1.state = next := by
  rw [state_move, h]
  cases next <;> first | rfl | cases hnext

/-! ## Runs -/

/-- How a run ends after its conversion: at once if there is an output, else after one
    more question. -/
theorem leads_conclude_iff : (k.conclude result).Leads hs (.finish x) ↔
    (∃ bytes, result = .ok bytes ∧ hs = [] ∧ x = .ok ((k.move .done).1, result)) ∨
      ∃ f last, result = .error f ∧ hs = [.asked last] ∧
        x = .ok ((k.move (if last then .cancelled else .failed)).1, result) := by
  cases result with
  | ok bytes =>
    show (Activity.finish _).Leads hs (.finish x) ↔ _
    simp [Activity.leads_finish_iff]
  | error f =>
    show (Activity.poll _).Leads hs (.finish x) ↔ _
    rw [Activity.leads_poll_finish_iff]
    constructor
    · rintro ⟨last, rest, rfl, h⟩
      obtain ⟨rfl, hx⟩ := Activity.leads_finish_iff.1 h
      cases hx
      exact .inr ⟨f, last, rfl, rfl, rfl⟩
    · rintro (⟨bytes, h, -⟩ | ⟨-, last, -, rfl, rfl⟩)
      · cases h
      · exact ⟨last, [], rfl, .stay _⟩

/-- A run asks whether to start at all. If the answer is no, the conversion of the running
    job follows, and then its conclusion. -/
theorem leads_run_iff : (j.run backend).Leads hs (.finish x) ↔
    (hs = [.asked true] ∧
        x = .ok ((j.move .cancelled).1, .error (.conversion "cancelled before start"))) ∨
      ∃ during rest result, hs = .asked false :: (during ++ rest) ∧
        (backend.convert (j.move .running).1).Leads during (.finish result) ∧
        ((j.move .running).1.conclude result).Leads rest (.finish x) := by
  rw [run, Activity.leads_poll_finish_iff]
  constructor
  · rintro ⟨cancelled, rest, rfl, h⟩
    cases cancelled with
    | true =>
      obtain ⟨rfl, hx⟩ := Activity.leads_finish_iff.1 h
      cases hx
      exact .inl ⟨rfl, rfl⟩
    | false =>
      obtain ⟨during, rest, result, rfl, hduring, hrest⟩ := Activity.leads_andThen_iff.1 h
      exact .inr ⟨during, rest, result, rfl, hduring, hrest⟩
  · rintro (⟨rfl, rfl⟩ | ⟨during, rest, result, rfl, hduring, hrest⟩)
    · exact ⟨true, [], rfl, .stay _⟩
    · exact ⟨false, _, rfl, Activity.leads_andThen_iff.2 ⟨during, rest, result, rfl, hduring, hrest⟩⟩

/-- On its course a run of a job converts: a conversion of the job, to its end, is part of
    the course. -/
def Converts (backend : Backend) (j : Job) (hs : List Happening) : Prop :=
  ∃ during rest result, hs = .asked false :: (during ++ rest) ∧
    (backend.convert (j.move .running).1).Leads during (.finish result)

/-- A run that takes a course from a job to what the job is afterwards, with a result,
    goes with the states of the job. -/
structure IsLawfulRun (backend : Backend) (j : Job) (hs : List Happening) (after : Job)
    (result : Except Failure Bytes) : Prop where
  /-- There is an output exactly if the job is done. -/
  output_iff : (∃ bytes, result = .ok bytes) ↔ after.state = .done
  /-- A job that has ended stays as it is, and is not converted once more. -/
  ended : j.state.isTerminal = true → after.state = j.state ∧ ¬ Converts backend j hs

/-- What a run does to a job that has not ended: its output, or its failure, goes with the
    end that is reached. -/
theorem state_of_leads_run (hj : ¬ j.state.isTerminal = true)
    (h : (j.run backend).Leads hs (.finish x)) :
    ∃ after result, x = .ok (after, result) ∧ after.state.isTerminal = true ∧
      ((∃ bytes, result = .ok bytes) ↔ after.state = .done) := by
  have hrunning : (j.move .running).1.state = .running := state_move_running hj
  rcases leads_run_iff.1 h with ⟨rfl, rfl⟩ | ⟨during, rest, result, rfl, -, hrest⟩
  · have hstate : (j.move .cancelled).1.state = .cancelled := state_move_cancelled hj
    exact ⟨_, _, rfl, by rw [hstate]; rfl, by simp [hstate]⟩
  · rcases leads_conclude_iff.1 hrest with ⟨bytes, rfl, rfl, rfl⟩ | ⟨f, last, rfl, rfl, rfl⟩
    · have hstate := state_move_of_running hrunning (show JobState.done.isTerminal = true from rfl)
      exact ⟨_, _, rfl, by rw [hstate]; rfl, by simp [hstate]⟩
    · have hlast : (if last then JobState.cancelled else .failed).isTerminal = true := by
        cases last <;> rfl
      have hstate := state_move_of_running hrunning hlast
      refine ⟨_, _, rfl, by rw [hstate]; exact hlast, ?_⟩
      rw [hstate]
      cases last <;> simp

/-- What a run does to a job that has ended: nothing. -/
theorem eq_of_leads_run (hj : j.state.isTerminal = true)
    (h : (j.run backend).Leads hs (.finish x)) : ∃ result, x = .ok (j, result) := by
  rcases leads_run_iff.1 h with ⟨rfl, rfl⟩ | ⟨during, rest, result, rfl, -, hrest⟩
  · rw [move_of_isTerminal hj]
    exact ⟨_, rfl⟩
  · rw [move_of_isTerminal hj] at hrest
    rcases leads_conclude_iff.1 hrest with ⟨bytes, rfl, rfl, rfl⟩ | ⟨f, last, rfl, rfl, rfl⟩
    all_goals
      rw [move_of_isTerminal hj]
      exact ⟨_, rfl⟩

/-- What may become of a job in some moves and runs, by any backends. -/
inductive Becomes (j : Job) : Job → Prop
  | refl : Becomes j j
  | move {k : Job} (h : Becomes j k) (next : JobState) : Becomes j (k.move next).1
  | run {k after : Job} {backend : Backend} {hs : List Happening} {result : Except Failure Bytes}
    (h : Becomes j k) (hrun : (k.run backend).Leads hs (.finish (.ok (after, result)))) :
    Becomes j after

/-- A job that has ended has ended for good. -/
theorem Becomes.eq_of_isTerminal (h : Becomes j k) (hj : j.state.isTerminal = true) : k = j := by
  induction h with
  | refl => rfl
  | move _ next ih =>
    subst ih
    rw [move_of_isTerminal hj]
  | run _ hrun ih =>
    subst ih
    obtain ⟨result, hx⟩ := eq_of_leads_run hj hrun
    cases hx
    rfl

/-- A run that is lawful by the states of a job that has ended is one that is cancelled before
    it starts, while the job has failed or has been cancelled. -/
theorem isLawfulRun_of_isTerminal_iff (hj : j.state.isTerminal = true)
    (h : (j.run backend).Leads hs (.finish (.ok (j, result)))) :
    IsLawfulRun backend j hs j result ↔ hs = [.asked true] ∧ j.state ≠ .done := by
  rcases leads_run_iff.1 h with ⟨rfl, hx⟩ | ⟨during, rest, result', rfl, hduring, -⟩
  · obtain ⟨-, rfl⟩ := Prod.mk.inj (Except.ok.inj hx)
    constructor
    · intro hlawful
      refine ⟨rfl, fun hdone => ?_⟩
      obtain ⟨bytes, hbytes⟩ := hlawful.output_iff.2 hdone
      cases hbytes
    · rintro ⟨-, hdone⟩
      refine ⟨by simp [hdone], fun _ => ⟨rfl, ?_⟩⟩
      rintro ⟨during, rest, result, hhs, -⟩
      cases hhs
  · have hconverts : Converts backend j (.asked false :: (during ++ rest)) :=
      ⟨during, rest, result', rfl, hduring⟩
    exact iff_of_false (fun hlawful => (hlawful.ended hj).2 hconverts) (by simp)

/-- Whatever a backend does, and whatever is answered when, a run carries its job to an end,
    and it ends if the conversion does; and no moves and runs lead away from an end. Runs are
    lawful exactly if the job has not ended before, or else if it has failed or has been
    cancelled and the run is cancelled before it starts. -/
theorem isLawfulRun_iff (backend : Backend) (j : Job) :
    (∀ hs x, (j.run backend).Leads hs (.finish x) →
      ∃ after result, x = .ok (after, result) ∧ after.state.isTerminal = true ∧
        (IsLawfulRun backend j hs after result ↔
          (j.state.isTerminal = true → hs = [.asked true] ∧ j.state ≠ .done))) ∧
      (∀ during result, (backend.convert (j.move .running).1).Leads during (.finish result) →
        ∃ rest after, (j.run backend).Leads (.asked false :: (during ++ rest))
          (.finish (.ok (after, result)))) ∧
      ∀ k, Becomes j k → j.state.isTerminal = true → k = j := by
  refine ⟨fun hs x h => ?_, fun during result hduring => ?_, fun k => Becomes.eq_of_isTerminal⟩
  · by_cases hj : j.state.isTerminal = true
    · obtain ⟨result, rfl⟩ := eq_of_leads_run hj h
      refine ⟨j, result, rfl, hj, ?_⟩
      rw [isLawfulRun_of_isTerminal_iff hj h]
      exact ⟨fun hruns _ => hruns, fun hruns => hruns hj⟩
    · obtain ⟨after, result, rfl, hterminal, houtput⟩ := state_of_leads_run hj h
      exact ⟨after, result, rfl, hterminal, iff_of_true ⟨houtput, fun hended => absurd hended hj⟩
        fun hended => absurd hended hj⟩
  · obtain ⟨rest, after, hrest⟩ : ∃ rest after,
        ((j.move .running).1.conclude result).Leads rest (.finish (.ok (after, result))) := by
      cases hresult : result with
      | ok bytes => exact ⟨[], _, leads_conclude_iff.2 (.inl ⟨bytes, rfl, rfl, rfl⟩)⟩
      | error f =>
        exact ⟨[.asked false], _, leads_conclude_iff.2 (.inr ⟨f, false, rfl, rfl, rfl⟩)⟩
    exact ⟨rest, after, leads_run_iff.2 (.inr ⟨during, rest, result, rfl, hduring, hrest⟩)⟩

/-- A job that is done is converted once more. Here the conversion waits until it is cancelled,
    so that the run fails although its job stays done. -/
theorem converts_done_sample :
    ∃ j, prepare true 1 "clip.mkv" "out.mkv" (.read ["-map", "0:v:0"] "out.mkv") .sample none =
        .ok j ∧
      ∃ hs, ∀ e : AnimationEncoder, let done := ((j.move .running).1.move .done).1
        let backend := { Synthetic.default with behavior := .hang }.backend e
        done.state = .done ∧ (done.run backend).Leads hs (.finish (.ok (done, .error .cancelled))) ∧
          Converts backend done hs := by
  obtain ⟨j, hj⟩ := exists_prepare_iff.2 (show Recipe.objections
    (.read ["-map", "0:v:0"] "out.mkv") .sample (Recipe.decisions _ .sample true) = [] by
      decide +kernel)
  refine ⟨j, hj, [.asked false, .asked true, .asked true], ?_⟩
  intro e done backend
  have hpending : ¬ j.state.isTerminal = true := by
    simp [(prepare_eq_ok_iff.1 hj).2, JobState.isTerminal]
  have hdone : done.state = .done := state_move_of_running (state_move_running hpending) rfl
  have hended : done.state.isTerminal = true := by rw [hdone]; rfl
  have hconvert : (backend.convert (done.move .running).1).Leads [.asked true]
      (.finish (.error .cancelled)) := .wake (.stay _)
  have hconclude : ((done.move .running).1.conclude (.error .cancelled)).Leads [.asked true]
      (.finish (.ok (done, .error .cancelled))) := by
    refine leads_conclude_iff.2 (.inr ⟨_, true, rfl, rfl, ?_⟩)
    rw [move_of_isTerminal hended, move_of_isTerminal hended]
  exact ⟨hdone, leads_run_iff.2 (.inr ⟨_, _, _, rfl, hconvert, hconclude⟩), _, _, _, rfl, hconvert⟩

end Job

end VideoExport
