import VideoExport.Session.Watchdog
import VideoExport.Proofs.Number.Order

/-!
# The watchdog over a whole job

A job starts, comes forward and ends, and its time limit passes, in any order and any
number of times. Whatever happens, the watchdog gives one verdict at most, gives none
once the job has ended, and judges by everything it has seen.

* `Incident`, `Watchdog.act`, `Watchdog.run`: what may happen to a job that is watched;
* `Watchdog.verdicts`: the verdicts in the course of it;
* `Watchdog.HasSeen`: what a watchdog knows of what has happened;
* `Watchdog.isFair_arm`: the watchdog of a job is fair.
-/

namespace VideoExport

/-- What may happen to a job that is watched. -/
inductive Incident
  | started
  | progress (fraction : Float) (frames : Option UInt64)
  | ended
  /-- The time limit has passed. -/
  | expired

namespace Incident

/-- The share that is reported. -/
def fraction? : Incident → Option Float
  | progress x _ => some x
  | _ => none

/-- The number of frames that is reported. -/
def frames? : Incident → Option UInt64
  | progress _ n => n
  | _ => none

/-- Whether the job comes forward: its share is a number above zero. -/
def IsForward (i : Incident) : Prop := ∃ x ∈ i.fraction?, x.isFinite = true ∧ 0.0 < x

end Incident

namespace Watchdog

open Number

/-- The time up to which a job that has been watched since `armedAt` has to come
    forward, if there still is a time limit. -/
def deadline? (w : Watchdog) (armedAt : ℕ) : Option ℕ :=
  if w.isArmed then some (armedAt + w.timeoutMs) else none

/-- One incident: the watchdog after it, and the verdict. -/
def act (w : Watchdog) : Incident → Watchdog × Option WatchdogVerdict
  | .started => (w.observeStarted, none)
  | .progress x n => (w.observeProgress x n, none)
  | .ended => (w.clear, none)
  | .expired => w.expire

/-- The watchdog after several incidents. -/
def run (w : Watchdog) (is : List Incident) : Watchdog := is.foldl (fun w i => (w.act i).1) w

/-- The verdicts in the course of several incidents. -/
def verdicts (w : Watchdog) : List Incident → List WatchdogVerdict
  | [] => []
  | i :: is => (w.act i).2.toList ++ (w.act i).1.verdicts is

variable {w : Watchdog} {is : List Incident}

theorem run_concat (w : Watchdog) (is : List Incident) (i : Incident) :
    w.run (is ++ [i]) = ((w.run is).act i).1 := by
  simp [run]

/-! ## The time limit -/

/-- An incident without a verdict leaves the time limit as it is, unless it is the end;
    and with a verdict there is no time limit any more. -/
theorem act_cases (w : Watchdog) (i : Incident) :
    ((w.act i).2 = none ∧ ((w.act i).1.isArmed = true ↔ w.isArmed = true ∧ i ≠ .ended)) ∨
      ∃ v, (w.act i).2 = some v ∧ (w.act i).1.isArmed = false := by
  rcases i with _ | ⟨x, n⟩ | _ | _
  case started | progress | ended =>
    exact .inl ⟨rfl, by simp [act, isArmed, observeStarted, observeProgress, clear]⟩
  case expired =>
    by_cases harmed : w.isArmed = true
    · exact .inr ⟨w.verdict, by simp [act, expire, harmed], w.isArmed_expire⟩
    · exact .inl (by simp [act, expire_of_not_armed (Bool.eq_false_iff.2 harmed), harmed])

/-- Without a time limit nothing happens that leads to a verdict or to a new time limit. -/
theorem act_of_not_armed (h : w.isArmed = false) (i : Incident) :
    (w.act i).2 = none ∧ (w.act i).1.isArmed = false := by
  rcases i with _ | ⟨x, n⟩ | _ | _
  case started | progress => exact ⟨rfl, h⟩
  case ended => exact ⟨rfl, by simp [act, isArmed, clear]⟩
  case expired => exact ⟨by rw [act, expire_of_not_armed h], w.isArmed_expire⟩

theorem verdicts_of_not_armed (h : w.isArmed = false) (is : List Incident) :
    w.verdicts is = [] ∧ (w.run is).isArmed = false := by
  induction is generalizing w with
  | nil => exact ⟨rfl, h⟩
  | cons i is ih =>
    obtain ⟨hnone, hact⟩ := act_of_not_armed h i
    obtain ⟨hverdicts, hrun⟩ := ih hact
    exact ⟨by rw [verdicts, hnone, hverdicts]; rfl, hrun⟩

/-- There is one verdict at most. -/
theorem length_verdicts_le (w : Watchdog) (is : List Incident) : (w.verdicts is).length ≤ 1 := by
  induction is generalizing w with
  | nil => exact zero_le_one
  | cons i is ih =>
    rcases w.act_cases i with ⟨hnone, -⟩ | ⟨v, hsome, hact⟩
    · rw [verdicts, hnone]
      exact ih _
    · rw [verdicts, hsome, (verdicts_of_not_armed hact is).1]
      exact le_rfl

/-- There is a time limit as long as there was no verdict and the job has not ended. -/
theorem isArmed_run_iff (w : Watchdog) (is : List Incident) :
    (w.run is).isArmed = true ↔ w.isArmed = true ∧ w.verdicts is = [] ∧ .ended ∉ is := by
  induction is generalizing w with
  | nil => simp [run, verdicts]
  | cons i is ih =>
    have hrun : w.run (i :: is) = (w.act i).1.run is := rfl
    rcases w.act_cases i with ⟨hnone, hact⟩ | ⟨v, hsome, hact⟩
    · rw [hrun, ih, hact, verdicts, hnone, List.mem_cons, not_or, ne_comm]
      exact ⟨fun ⟨⟨ha, hi⟩, hv, his⟩ => ⟨ha, hv, hi, his⟩, fun ⟨ha, hv, hi, his⟩ => ⟨⟨ha, hi⟩, hv, his⟩⟩
    · rw [hrun, (verdicts_of_not_armed hact is).2, verdicts, hsome]
      simp

/-- Once the job has ended there is no verdict. -/
theorem verdicts_ended (w : Watchdog) (before after : List Incident) :
    (w.run (before ++ [.ended])).verdicts after = [] := by
  refine (verdicts_of_not_armed (Bool.eq_false_iff.2 fun h => ?_) after).1
  exact ((isArmed_run_iff _ _).1 h).2.2 (by simp)

/-! ## What has been seen -/

/-- What a watchdog knows of what has happened. -/
structure HasSeen (w : Watchdog) (is : List Incident) : Prop where
  started : w.started = true ↔ .started ∈ is
  isFinite : w.lastFraction.isFinite = true
  lastFraction : IsGreatest (exactValues (is.filterMap Incident.fraction?)) (exactValue w.lastFraction)
  frames : w.frames = (is.filterMap Incident.frames?).getLast?

/-- The largest share is a finite number, and with each report the larger one of it and
    the reported share. -/
theorem lastFraction_observeProgress (hfinite : w.lastFraction.isFinite = true) (x : Float)
    (n : Option UInt64) : (w.observeProgress x n).lastFraction.isFinite = true ∧
      exactValue (w.observeProgress x n).lastFraction =
        if x.isFinite = true then max (exactValue x) (exactValue w.lastFraction)
        else exactValue w.lastFraction := by
  by_cases hx : x.isFinite = true
  · simp only [observeProgress, hx, Bool.true_and, decide_eq_true_eq, if_true]
    split_ifs with hlt
    · exact ⟨hx, (max_eq_left ((lt_iff_exactValue hfinite hx).1 hlt).le).symm⟩
    · exact ⟨hfinite, (max_eq_right (not_lt.1 fun h => hlt ((lt_iff_exactValue hfinite hx).2 h))).symm⟩
  · simp [observeProgress, hx, hfinite]

/-- An incident that is no report leaves what has been reported as it is. -/
theorem HasSeen.of_no_report (h : w.HasSeen is) {i : Incident} (hfraction : i.fraction? = none)
    (hframes : i.frames? = none) {w' : Watchdog}
    (hstarted : w'.started = true ↔ w.started = true ∨ .started = i)
    (hlast : w'.lastFraction = w.lastFraction) (hcount : w'.frames = w.frames) :
    w'.HasSeen (is ++ [i]) where
  started := by rw [hstarted, h.started, List.mem_append, List.mem_singleton]
  isFinite := hlast ▸ h.isFinite
  lastFraction := by
    rw [hlast, List.filterMap_append, List.filterMap_cons_none hfraction, List.filterMap_nil,
      List.append_nil]
    exact h.lastFraction
  frames := by
    rw [hcount, List.filterMap_append, List.filterMap_cons_none hframes, List.filterMap_nil,
      List.append_nil]
    exact h.frames

/-- A watchdog sees every incident. -/
theorem HasSeen.act (h : w.HasSeen is) (i : Incident) : (w.act i).1.HasSeen (is ++ [i]) := by
  rcases i with _ | ⟨x, n⟩ | _ | _
  case started => exact h.of_no_report rfl rfl (by simp [Watchdog.act, observeStarted]) rfl rfl
  case ended => exact h.of_no_report rfl rfl (by simp [Watchdog.act, clear]) rfl rfl
  case expired =>
    have hkept : w.expire.1.started = w.started ∧ w.expire.1.lastFraction = w.lastFraction ∧
        w.expire.1.frames = w.frames := by
      unfold expire
      split <;> exact ⟨rfl, rfl, rfl⟩
    exact h.of_no_report rfl rfl (by simp [Watchdog.act, hkept.1]) hkept.2.1 hkept.2.2
  case progress =>
    obtain ⟨hx, hmax⟩ := lastFraction_observeProgress h.isFinite x n
    refine ⟨?_, hx, ?_, ?_⟩
    · show w.started = true ↔ _
      simp [h.started]
    · show IsGreatest _ (exactValue (w.observeProgress x n).lastFraction)
      rw [hmax, List.filterMap_append]
      exact isGreatest_exactValues_concat h.lastFraction x
    · show (n <|> w.frames) = _
      rw [List.filterMap_append, List.getLast?_append, ← h.frames]
      rcases n with _ | n <;> rfl

theorem HasSeen.run (h : w.HasSeen []) (is : List Incident) : (w.run is).HasSeen is := by
  induction is using List.reverseRecOn with
  | nil => exact h
  | append_singleton is i ih =>
    rw [run_concat]
    exact ih.act i

/-! ## Judgement -/

/-- What is not seen of a job does not change. -/
theorem diagnosis_act (w : Watchdog) (i : Incident) :
    (w.act i).1.diagnosis = { w.diagnosis with
      started := (w.act i).1.started
      lastFraction := (w.act i).1.lastFraction
      frames := (w.act i).1.frames } := by
  rcases i with _ | ⟨x, n⟩ | _ | _
  case started | progress | ended => rfl
  case expired =>
    rw [act, expire]
    split <;> rfl

theorem diagnosis_run (w : Watchdog) (is : List Incident) :
    (w.run is).diagnosis = { w.diagnosis with
      started := (w.run is).started
      lastFraction := (w.run is).lastFraction
      frames := (w.run is).frames } := by
  induction is using List.reverseRecOn with
  | nil => rfl
  | append_singleton is i ih => rw [run_concat, diagnosis_act, ih]

/-- Something has been seen of a job that comes forward. -/
theorem HasSeen.zero_lt_iff (h : w.HasSeen is) :
    0.0 < w.lastFraction ↔ ∃ i ∈ is, i.IsForward := by
  rw [← zero_lt_exactValue_iff h.isFinite, zero_lt_iff_of_isGreatest h.lastFraction]
  simp only [List.mem_filterMap, Incident.IsForward, Option.mem_def]
  exact ⟨fun ⟨x, ⟨i, hi, hx⟩, hpos⟩ => ⟨i, hi, x, hx, hpos⟩,
    fun ⟨i, hi, x, hx, hpos⟩ => ⟨x, ⟨i, hi, hx⟩, hpos⟩⟩

/-- The verdict follows from whether the job has started and whether it comes forward. -/
theorem HasSeen.verdict_iff (h : w.HasSeen is) :
    (w.verdict = .hardCancel w.diagnosis ↔ .started ∉ is ∧ ¬∃ i ∈ is, i.IsForward) ∧
      (w.verdict = .stallWarning ↔ .started ∈ is ∧ ¬∃ i ∈ is, i.IsForward) ∧
      (w.verdict = .healthy ↔ ∃ i ∈ is, i.IsForward) := by
  rw [← h.zero_lt_iff, ← h.started, verdict]
  by_cases hforward : 0.0 < w.lastFraction
  · simp [hforward]
  · by_cases hstarted : w.started = true
    · simp [hforward, hstarted]
    · simp [hforward, hstarted, diagnosis]

/-- A watchdog that has been armed for a job is fair in the course of some incidents. -/
structure IsFair (w : Watchdog) (is : List Incident) : Prop where
  /-- There is one verdict at most. -/
  once : (w.verdicts is).length ≤ 1
  /-- Once the job has ended there is none. -/
  ended : ∀ before after, is = before ++ .ended :: after →
    (w.run (before ++ [.ended])).verdicts after = []
  /-- There is a time limit, and it is the one that was set, exactly as long as there was
      no verdict and the job has not ended. -/
  deadline : ∀ armedAt t, (w.run is).deadline? armedAt = some t ↔
    w.verdicts is = [] ∧ .ended ∉ is ∧ armedAt + w.timeoutMs = t
  /-- When the time limit passes there is a verdict: on a job that has neither started
      nor come forward, with what has been seen of it, on one that has only started, or
      on one that comes forward. -/
  judges : w.verdicts is = [] → .ended ∉ is → ∃ v, (w.run is).expire.2 = some v ∧
    (v = .hardCancel (w.run is).diagnosis ↔ .started ∉ is ∧ ¬∃ i ∈ is, i.IsForward) ∧
    (v = .stallWarning ↔ .started ∈ is ∧ ¬∃ i ∈ is, i.IsForward) ∧
    (v = .healthy ↔ ∃ i ∈ is, i.IsForward)
  /-- What has been seen is whether the job has started, the largest of zero and the
      finite shares that were reported, and the number of frames that was reported last. -/
  diagnosis : ∃ started x, (w.run is).diagnosis = { w.diagnosis with
      started := started
      lastFraction := x
      frames := (is.filterMap Incident.frames?).getLast? } ∧
    (started = true ↔ .started ∈ is) ∧ x.isFinite = true ∧
    IsGreatest (exactValues (is.filterMap Incident.fraction?)) (exactValue x)

/-- A watchdog with a time limit that has seen nothing yet is fair. -/
theorem HasSeen.isFair (h : w.HasSeen []) (harmed : w.isArmed = true) (is : List Incident) :
    IsFair w is where
  once := length_verdicts_le w is
  ended := by
    rintro before after -
    exact verdicts_ended w before after
  deadline := by
    intro armedAt t
    have htimeout : (w.run is).timeoutMs = w.timeoutMs :=
      congrArg Diagnosis.timeoutMs (w.diagnosis_run is)
    rw [deadline?, htimeout, Option.ite_none_right_eq_some, isArmed_run_iff, Option.some_inj,
      harmed, eq_self, true_and, and_assoc]
  judges := by
    intro hnone hended
    have hlimit : (w.run is).isArmed = true := (isArmed_run_iff w is).2 ⟨harmed, hnone, hended⟩
    exact ⟨(w.run is).verdict, by rw [expire, if_pos hlimit], (h.run is).verdict_iff⟩
  diagnosis := by
    obtain ⟨hstarted, hfinite, hlast, hframes⟩ := h.run is
    exact ⟨_, _, hframes ▸ w.diagnosis_run is, hstarted, hfinite, hlast⟩

theorem hasSeen_arm (jobId : UInt64) (timeoutMs : ℕ) (p : Plan) :
    (arm jobId timeoutMs p).HasSeen [] where
  started := by simp [arm]
  isFinite := by
    show (0.0 : Float).isFinite = true
    decide
  lastFraction := by
    show IsGreatest _ (exactValue 0.0)
    rw [exactValue_zero]
    exact isGreatest_exactValues_nil
  frames := rfl

/-- Every watchdog is fair, whatever happens to the job and in whatever order. -/
theorem isFair_arm (jobId : UInt64) (timeoutMs : ℕ) (p : Plan) (is : List Incident) :
    IsFair (arm jobId timeoutMs p) is :=
  (hasSeen_arm jobId timeoutMs p).isFair rfl is

end Watchdog
end VideoExport
