import Mathlib
import VideoExport.Proofs.Session.Standing

/-!
# Runs do not hear of each other

Jobs are told apart by numbers that the generation gives out, and it never gives
out a number twice, unless it has gone through all of them. So whatever is left
of earlier jobs has smaller numbers than the current one, whose observer is told
what the worker sends about it and nothing else, in the same order, up to some
point: once the generation has moved past the job, nothing more.

* `Notice.heard`, `Notice.reported`: what an observer is told and what the worker
  has to tell;
* `Standing.Isolated`: what holds at any time, `Standing.Isolated.step`: that steps
  preserve it;
* `Session.isolated_steps`: so do all steps one after the other;
* `Session.heard_prefix_reported`: what observers are told;
* `Session.result_of_superseded`: how a run ends that has been cancelled.
-/

namespace VideoExport

/-! ## What is told -/

/-- What an observer is told. -/
def Occurrence.notice? : Occurrence → Option Notice
  | noticed n => some n
  | _ => none

/-- The job of a run that begins. -/
def Occurrence.accepted? : Occurrence → Option UInt64
  | accepted id => some id
  | _ => none

/-- Whether a run takes a number, if only to find that the worker has ended, or is
    cancelled because it has not started in time. -/
def Occurrence.isTurn : Occurrence → Bool
  | accepted _ | refused .contextClosed | ended _ (.error (.notStarted _)) => true
  | _ => false

/-- Whether a caller cancels. -/
def SessionMove.isCancellation : SessionMove → Bool
  | supersede => true
  | _ => false

/-- The jobs of the runs that have begun. -/
def acceptedJobs (told : List Occurrence) : List UInt64 := told.filterMap Occurrence.accepted?

namespace Notice

/-- What the observer of a job is told. -/
def heard (id : UInt64) (told : List Occurrence) : List Notice :=
  (told.filterMap Occurrence.notice?).filter (·.jobId == id)

/-- What events have to tell the observer of a job. -/
def reported (id : UInt64) (events : List Event) : List Notice :=
  (events.filterMap Event.notice?).filter (·.jobId == id)

@[simp] theorem heard_nil (id : UInt64) : heard id [] = [] := rfl

@[simp] theorem heard_append (id : UInt64) (told more : List Occurrence) :
    heard id (told ++ more) = heard id told ++ heard id more := by
  simp [heard]

@[simp] theorem reported_nil (id : UInt64) : reported id [] = [] := rfl

@[simp] theorem reported_append (id : UInt64) (events more : List Event) :
    reported id (events ++ more) = reported id events ++ reported id more := by
  simp [reported]

/-- An observer is told nothing if all that is told is about other jobs. -/
theorem heard_eq_nil_iff {id : UInt64} {told : List Occurrence} :
    heard id told = [] ↔ ∀ n, .noticed n ∈ told → n.jobId ≠ id := by
  have hmem : ∀ n, n ∈ told.filterMap Occurrence.notice? ↔ .noticed n ∈ told := by
    intro n
    rw [List.mem_filterMap]
    constructor
    · rintro ⟨o, ho, hn⟩
      cases o <;> cases hn
      exact ho
    · exact fun hn => ⟨_, hn, rfl⟩
  rw [heard, List.filter_eq_nil_iff]
  simp only [hmem, beq_iff_eq]

theorem heard_singleton (id : UInt64) (n : Notice) :
    heard id [.noticed n] = if n.jobId = id then [n] else [] := by
  by_cases h : n.jobId = id <;> simp [heard, Occurrence.notice?, h]

theorem reported_cons {e : Event} {n : Notice} (h : e.notice? = some n) (id : UInt64) (events : List Event) :
    reported id (e :: events) = (if n.jobId = id then [n] else []) ++ reported id events := by
  by_cases hid : n.jobId = id <;> simp [reported, h, hid]

theorem reported_cons_of_ne {e : Event} {id : UInt64} (h : e.jobId? ≠ some id) (events : List Event) :
    reported id (e :: events) = reported id events := by
  cases hn : e.notice? with
  | none => simp [reported, hn]
  | some n =>
    have hne : n.jobId ≠ id := fun he => h (by rw [Event.jobId?_of_notice? hn, he])
    rw [reported_cons hn, if_neg hne, List.nil_append]

/-- Nothing is told of jobs that events are not about. -/
theorem reported_eq_nil {id : UInt64} {events : List Event} (h : id ∉ events.filterMap Event.jobId?) :
    reported id events = [] := by
  rw [reported, List.filter_eq_nil_iff]
  intro n hn hid
  obtain ⟨e, he, hen⟩ := List.mem_filterMap.1 hn
  exact h (List.mem_filterMap.2 ⟨e, he, by rw [Event.jobId?_of_notice? hen, beq_iff_eq.1 hid]⟩)

end Notice

/-- What has no image can be left out before. -/
theorem filterMap_filter_eq {α β : Type} {f : α → Option β} {p : α → Bool}
    (h : ∀ a, p a = false → f a = none) (l : List α) : (l.filter p).filterMap f = l.filterMap f := by
  rw [List.filterMap_filter]
  refine List.filterMap_congr fun a _ => ?_
  cases hp : p a with
  | true => rfl
  | false => exact (h a hp).symm

namespace Notice

/-- What is not about runs is not told to observers. -/
theorem heard_filter (id : UInt64) (told : List Occurrence) :
    heard id (told.filter Occurrence.isAboutRun) = heard id told := by
  have hnone : ∀ o : Occurrence, o.isAboutRun = false → o.notice? = none := by
    rintro (_ | _ | _ | _ | _ | _) h <;> first | rfl | cases h
  rw [heard, filterMap_filter_eq hnone, heard]

theorem reported_filter (id : UInt64) (events : List Event) :
    reported id (events.filter Event.isAboutJob) = reported id events := by
  have hnone : ∀ e : Event, e.isAboutJob = false → e.notice? = none := by
    rintro (_ | _ | _ | _ | _ | _) h <;> first | rfl | cases h
  rw [reported, filterMap_filter_eq hnone, reported]

end Notice

@[simp] theorem acceptedJobs_append (told more : List Occurrence) :
    acceptedJobs (told ++ more) = acceptedJobs told ++ acceptedJobs more := by
  simp [acceptedJobs]

theorem acceptedJobs_filter (told : List Occurrence) :
    acceptedJobs (told.filter Occurrence.isAboutRun) = acceptedJobs told := by
  have hnone : ∀ o : Occurrence, o.isAboutRun = false → o.accepted? = none := by
    rintro (_ | _ | _ | _ | _ | _) h <;> first | rfl | cases h
  rw [acceptedJobs, filterMap_filter_eq hnone, acceptedJobs]

/-! ## Steps -/

open Notice

theorem toNat_add_one {g : UInt64} (h : g.toNat + 1 < 2 ^ 64) : (g + 1).toNat = g.toNat + 1 := by
  rw [UInt64.toNat_add, UInt64.toNat_one, Nat.mod_eq_of_lt h]

theorem lt_add_one {g : UInt64} (h : g.toNat + 1 < 2 ^ 64) : g < g + 1 := by
  rw [UInt64.lt_iff_toNat_lt, toNat_add_one h]
  exact Nat.lt_succ_self _

/-- How many runs and cancellations there are in steps, with what callers are told. -/
def turns (moves : List SessionMove) (told : List Occurrence) : ℕ :=
  moves.countP SessionMove.isCancellation + told.countP Occurrence.isTurn

theorem turns_append (moves more : List SessionMove) (told others : List Occurrence) :
    turns (moves ++ more) (told ++ others) = turns moves told + turns more others := by
  simp only [turns, List.countP_append]
  omega

theorem turns_filter (moves : List SessionMove) (told : List Occurrence) :
    turns moves (told.filter Occurrence.isAboutRun) = turns moves told := by
  rw [turns, List.countP_filter, turns]
  congr 2
  funext o
  cases o <;> simp [Occurrence.isTurn, Occurrence.isAboutRun]

namespace Standing

variable {ms : ℕ} {m : SessionMove} {v v' : Standing} {told told' : List Occurrence}
  {sent sent' : List Event}

namespace Step

/-- The generation moves on by the number of runs and cancellations, or less. -/
theorem toNat_generation_le (h : Step ms m v told sent v')
    (hbound : v.generation.toNat + turns [m] told < 2 ^ 64) :
    v.generation.toNat ≤ v'.generation.toNat ∧
      v'.generation.toNat ≤ v.generation.toNat + turns [m] told := by
  cases h with
  | supersede | timeOut | refuseClosed | accept =>
    have hone := toNat_add_one hbound
    exact ⟨Nat.le_trans (Nat.le_succ _) (Nat.le_of_eq hone.symm), Nat.le_of_eq hone⟩
  | _ => exact ⟨Nat.le_refl _, Nat.le_add_right _ _⟩

/-- A number that the generation gives out has not been there before. -/
theorem lt_of_accepted {id : UInt64} (h : Step ms m v told sent v')
    (hbound : v.generation.toNat + turns [m] told < 2 ^ 64) (hid : id ∈ acceptedJobs told) :
    v.generation < id ∧ id = v'.generation ∧ v.job? = none := by
  cases h with
  | accept =>
    obtain rfl := List.mem_singleton.1 hid
    exact ⟨lt_add_one hbound, rfl, rfl⟩
  | _ => cases hid

/-- An observer is only told something while the generation is that of the job. -/
theorem job_eq_of_noticed {n : Notice} (h : Step ms m v told sent v') (hn : .noticed n ∈ told) :
    v.generation = n.jobId ∧ ∃ p, v.job? = some (n.jobId, p) := by
  cases h with
  | observe =>
    cases List.mem_singleton.1 hn
    exact ⟨rfl, _, rfl⟩
  | _ => simp at hn

/-- Nothing that the worker has sent ends a run once the generation is not that of
    its job. -/
theorem result_of_ended {id : UInt64} {result : Except Failure Outcome} (h : Step ms m v told sent v')
    (hid : v.generation ≠ id) (hend : .ended id result ∈ told) :
    result = .ok .cancelled ∨ result = .error (.notStarted ms) ∨ result = .error .contextClosed := by
  cases h with
  | complete | fail =>
    cases List.mem_singleton.1 hend
    exact absurd rfl hid
  | cancel =>
    cases List.mem_singleton.1 hend
    exact .inl rfl
  | timeOut =>
    cases List.mem_singleton.1 hend
    exact .inr (.inl rfl)
  | close =>
    cases List.mem_singleton.1 hend
    exact .inr (.inr rfl)
  | _ => simp at hend

theorem pairwise_accepted (h : Step ms m v told sent v') : (acceptedJobs told).Pairwise (· < ·) := by
  cases h with
  | accept => exact List.pairwise_singleton _ _
  | _ => exact .nil

theorem job_cases (h : Step ms m v told sent v') :
    v'.job? = none ∨ v'.job? = v.job? ∨ ∃ p, v'.job? = some (v'.generation, p) := by
  cases h with
  | accept => exact .inr (.inr ⟨_, rfl⟩)
  | refuseClosed | complete | fail | cancel | timeOut | close => exact .inl rfl
  | _ => exact .inr (.inl rfl)

/-- No step brings up a job, but those of runs that begin. -/
theorem mem_jobIds {id : UInt64} (h : Step ms m v told sent v') (hid : id ∈ v'.load.jobIds) :
    id ∈ v.load.jobIds ∨ id ∈ acceptedJobs told := by
  cases h with
  | stay | supersede | refuseBusy => exact .inl hid
  | work h => exact .inl (h.jobIds_subset hid)
  | elapse => exact .inl (by rwa [Load.jobIds_elapse] at hid)
  | cancel | timeOut | close => cases hid
  | refuseClosed h => exact .inl (Load.jobIds_subset_of_suffix h hid)
  | @accept _ _ _ orders conversions busy _ news' h =>
    rcases Load.mem_jobIds_of_order (l := ⟨orders, conversions, busy, news'⟩) hid with hid | hid
    · exact .inl (Load.jobIds_subset_of_suffix h hid)
    · exact .inr (List.mem_singleton.2 (Option.some.inj hid).symm)
  | skip | observe | complete | fail =>
    exact .inl (Load.jobIds_subset_of_suffix (List.suffix_cons _ _) hid)

/-- What is sent is about jobs that are there. -/
theorem sent_subset (h : Step ms m v told sent v') : sent.filterMap Event.jobId? ⊆ v.load.jobIds := by
  cases h with
  | work h =>
    intro id hid
    refine h.jobIds_subset ?_
    rw [Load.jobIds, h.news_eq, List.filterMap_append]
    simp [hid]
  | _ => exact List.nil_subset _

end Step

/-- What holds at any time of a session that has told and sent something: all
    jobs that have been there have smaller numbers than those to come; observers have
    been told what has been reported, up to some point; and that of the current job
    has been told everything but what waits to be read. -/
structure Isolated (v : Standing) (told : List Occurrence) (sent : List Event) : Prop where
  jobIds_le : ∀ id ∈ v.load.jobIds, id ≤ v.generation
  job_le : ∀ id p, v.job? = some (id, p) → id ≤ v.generation
  accepted_le : ∀ id ∈ acceptedJobs told, id ≤ v.generation
  pairwise_accepted : (acceptedJobs told).Pairwise (· < ·)
  heard_eq_nil : ∀ id, v.generation < id → heard id told = []
  reported_eq_nil : ∀ id, v.generation < id → reported id sent = []
  heard_isPrefix : ∀ id, heard id told <+: reported id sent
  heard_append : ∀ p, v.job? = some (v.generation, p) →
    heard v.generation told ++ reported v.generation v.load.news = reported v.generation sent

namespace Isolated

/-- A session without a current run that has told nothing yet, and where all jobs
    that have been there have smaller numbers. -/
theorem of_jobIds_le (hrun : v.job? = none) (hjobs : ∀ id ∈ v.load.jobIds, id ≤ v.generation) :
    Isolated v [] [] where
  jobIds_le := hjobs
  job_le id p h := by rw [hrun] at h; cases h
  accepted_le id h := by cases h
  pairwise_accepted := .nil
  heard_eq_nil _ _ := rfl
  reported_eq_nil _ _ := rfl
  heard_isPrefix _ := List.prefix_refl _
  heard_append p h := by rw [hrun] at h; cases h

theorem step_heard_isPrefix (h : Isolated v told sent) (hstep : Step ms m v told' sent' v')
    (id : UInt64) : heard id (told ++ told') <+: reported id (sent ++ sent') := by
  have hprefix : heard id told ++ [] <+: reported id sent ++ reported id sent' := by
    rw [List.append_nil]
    exact (h.heard_isPrefix id).trans (List.prefix_append _ _)
  rw [Notice.heard_append, reported_append]
  cases hstep with
  | @observe p _ _ _ e n news he =>
    rw [heard_singleton]
    split_ifs with hid
    · -- What is passed on is the first of what waits to be read.
      subst hid
      rw [← h.heard_append p rfl, reported_cons he, if_pos rfl, ← List.append_assoc, List.append_assoc]
      exact List.prefix_append _ _
    · exact hprefix
  | _ => exact hprefix

theorem step_heard_append (h : Isolated v told sent) (hstep : Step ms m v told' sent' v')
    (hbound : v.generation.toNat + turns [m] told' < 2 ^ 64) {p : Plan}
    (hjob : v'.job? = some (v'.generation, p)) :
    heard v'.generation (told ++ told') ++ reported v'.generation v'.load.news =
      reported v'.generation (sent ++ sent') := by
  rw [Notice.heard_append, reported_append]
  cases hstep with
  | stay | elapse | refuseBusy =>
    rw [reported_nil, List.append_nil, ← h.heard_append p hjob]
    exact congrArg (· ++ _) (List.append_nil _)
  | supersede =>
    -- The current job has an earlier number.
    exact absurd (h.job_le _ p hjob) (UInt64.not_le.2 (lt_add_one hbound))
  | work hwork =>
    rw [hwork.news_eq, reported_append, ← h.heard_append p hjob, heard_nil, List.append_nil,
      List.append_assoc]
  | @accept input q g _ _ _ news news' hnews =>
    -- Nothing has been heard of the new job, and nothing waits to be read.
    have hlt : g < g + 1 := lt_add_one hbound
    have hnone : reported (g + 1) news' = [] := by
      refine Notice.reported_eq_nil fun hid => ?_
      have hold := (hnews.filterMap Event.jobId?).subset hid
      refine absurd (h.jobIds_le (g + 1) ?_) (UInt64.not_le.2 hlt)
      exact List.mem_append_right _ hold
    rw [hnone, h.heard_eq_nil _ hlt, h.reported_eq_nil _ hlt]
    rfl
  | skip hskip =>
    obtain ⟨rfl, rfl⟩ := Prod.mk.inj (Option.some.inj hjob)
    have := h.heard_append _ rfl
    rw [reported_cons_of_ne fun hid => hskip hid rfl] at this
    simpa using this
  | observe he =>
    have := h.heard_append _ rfl
    rw [reported_cons he, if_pos rfl, ← List.append_assoc] at this
    rw [heard_singleton, if_pos rfl, reported_nil, List.append_nil, this]
  | refuseClosed | complete | fail | cancel | timeOut | close => cases hjob

theorem step (h : Isolated v told sent) (hstep : Step ms m v told' sent' v')
    (hbound : v.generation.toNat + turns [m] told' < 2 ^ 64) :
    Isolated v' (told ++ told') (sent ++ sent') := by
  have hle : v.generation ≤ v'.generation :=
    UInt64.le_iff_toNat_le.2 (hstep.toNat_generation_le hbound).1
  have haccepted : ∀ id ∈ acceptedJobs told', v.generation < id ∧ id = v'.generation ∧ v.job? = none :=
    fun _ hid => hstep.lt_of_accepted hbound hid
  refine ⟨?_, ?_, ?_, ?_, ?_, ?_, h.step_heard_isPrefix hstep, fun p => h.step_heard_append hstep hbound⟩
  · intro id hid
    rcases hstep.mem_jobIds hid with hid | hid
    · exact UInt64.le_trans (h.jobIds_le id hid) hle
    · exact UInt64.le_of_eq (haccepted id hid).2.1
  · intro id p hjob
    rcases hstep.job_cases with hnone | hsame | ⟨q, hnew⟩
    · rw [hnone] at hjob
      cases hjob
    · exact UInt64.le_trans (h.job_le id p (hsame ▸ hjob)) hle
    · rw [hnew] at hjob
      cases hjob
      exact UInt64.le_refl _
  · intro id hid
    rw [acceptedJobs_append, List.mem_append] at hid
    rcases hid with hid | hid
    · exact UInt64.le_trans (h.accepted_le id hid) hle
    · exact UInt64.le_of_eq (haccepted id hid).2.1
  · rw [acceptedJobs_append, List.pairwise_append]
    exact ⟨h.pairwise_accepted, hstep.pairwise_accepted, fun a ha b hb =>
      UInt64.lt_of_le_of_lt (h.accepted_le a ha) (haccepted b hb).1⟩
  · intro id hid
    have hlt := UInt64.lt_of_le_of_lt hle hid
    rw [Notice.heard_append, h.heard_eq_nil id hlt, List.nil_append, heard_eq_nil_iff]
    rintro n hn rfl
    exact UInt64.ne_of_lt hlt (hstep.job_eq_of_noticed hn).1
  · intro id hid
    have hlt := UInt64.lt_of_le_of_lt hle hid
    rw [reported_append, h.reported_eq_nil id hlt, List.nil_append]
    exact Notice.reported_eq_nil fun hsent =>
      UInt64.not_lt.2 (h.jobIds_le id (hstep.sent_subset hsent)) hlt

end Isolated

end Standing

/-! ## Runs -/

namespace Session

variable {u : SessionSetup} {s : Session}

theorem turns_step {m : SessionMove} {rest : List SessionMove} {g : ℕ}
    (hbound : g + turns (m :: rest) (s.steps u (m :: rest)).2 < 2 ^ 64) :
    g + turns [m] ((s.step u m).2.filter Occurrence.isAboutRun) +
      turns rest ((s.step u m).1.steps u rest).2 < 2 ^ 64 := by
  have hsplit := turns_append [m] rest (s.step u m).2 ((s.step u m).1.steps u rest).2
  rw [turns_filter, Nat.add_assoc, ← hsplit]
  exact hbound

/-- However many steps there are, the generation moves on by the number of runs and
    cancellations, or less. -/
theorem toNat_generation_steps_le {moves : List SessionMove}
    (hbound : s.generation.toNat + turns moves (s.steps u moves).2 < 2 ^ 64) :
    (s.steps u moves).1.generation.toNat ≤ s.generation.toNat + turns moves (s.steps u moves).2 := by
  induction moves generalizing s with
  | nil => exact Nat.le_add_right _ _
  | cons m rest ih =>
    have hturns := turns_step hbound
    have hle := ((s.standing_step u m).toNat_generation_le
      (Nat.lt_of_le_of_lt (Nat.le_add_right _ _) hturns)).2
    have hlater := ih (Nat.lt_of_le_of_lt (Nat.add_le_add_right hle _) hturns)
    have htotal : turns (m :: rest) (s.steps u (m :: rest)).2 = _ :=
      turns_append [m] rest (s.step u m).2 ((s.step u m).1.steps u rest).2
    rw [turns_filter] at hle
    rw [htotal, ← Nat.add_assoc]
    exact Nat.le_trans hlater (Nat.add_le_add_right hle _)

/-- What holds at any time holds after any number of steps. -/
theorem isolated_steps {told : List Occurrence} {sent : List Event} {moves : List SessionMove}
    (h : s.standing.Isolated told sent)
    (hbound : s.generation.toNat + turns moves (s.steps u moves).2 < 2 ^ 64) :
    (s.steps u moves).1.standing.Isolated (told ++ (s.steps u moves).2.filter Occurrence.isAboutRun)
      (sent ++ (s.sent u moves).filter Event.isAboutJob) := by
  induction moves generalizing s told sent with
  | nil => simpa [steps, Session.sent] using h
  | cons m rest ih =>
    have hturns := turns_step hbound
    have hstep := s.standing_step u m
    have hnow := h.step hstep (Nat.lt_of_le_of_lt (Nat.le_add_right _ _) hturns)
    have hle := (hstep.toNat_generation_le (Nat.lt_of_le_of_lt (Nat.le_add_right _ _) hturns)).2
    have hlater := ih hnow (Nat.lt_of_le_of_lt (Nat.add_le_add_right hle _) hturns)
    simpa [steps, Session.sent, List.append_assoc] using hlater

/-- What is true of all that is told in one step, whenever the generation has moved past
    a job, is true of all that is told from then on. -/
theorem forall_told_of_lt {id : UInt64} {P : Occurrence → Prop} {moves : List SessionMove}
    (hid : id < s.generation)
    (hbound : s.generation.toNat + turns moves (s.steps u moves).2 < 2 ^ 64)
    (hP : ∀ (s : Session) (m : SessionMove), id < s.generation →
      ∀ o ∈ (s.step u m).2.filter Occurrence.isAboutRun, P o) :
    ∀ o ∈ (s.steps u moves).2.filter Occurrence.isAboutRun, P o := by
  induction moves generalizing s with
  | nil => exact List.forall_mem_nil _
  | cons m rest ih =>
    have hturns := turns_step hbound
    obtain ⟨hge, hle⟩ := (s.standing_step u m).toNat_generation_le
      (Nat.lt_of_le_of_lt (Nat.le_add_right _ _) hturns)
    have hlater := ih (UInt64.lt_of_lt_of_le hid (UInt64.le_iff_toNat_le.2 hge))
      (Nat.lt_of_le_of_lt (Nat.add_le_add_right hle _) hturns)
    rw [steps, List.filter_append, List.forall_mem_append]
    exact ⟨hP s m hid, hlater⟩

/-- Once the generation has moved past a job, nothing more is heard of it. -/
theorem heard_steps_eq_nil {id : UInt64} {moves : List SessionMove} (hid : id < s.generation)
    (hbound : s.generation.toNat + turns moves (s.steps u moves).2 < 2 ^ 64) :
    heard id (s.steps u moves).2 = [] := by
  have hother : ∀ o ∈ (s.steps u moves).2.filter Occurrence.isAboutRun,
      ∀ n, o = .noticed n → n.jobId ≠ id := by
    refine forall_told_of_lt hid hbound ?_
    rintro s m hlt o ho n rfl rfl
    exact UInt64.ne_of_lt hlt ((s.standing_step u m).job_eq_of_noticed ho).1.symm
  rw [← heard_filter, heard_eq_nil_iff]
  exact fun n hn => hother _ hn n rfl

/-- Once the generation has moved past a job, whatever the worker sends, its run does not
    end with that: it is cancelled, or has not started in time, or the worker has
    ended. -/
theorem result_of_superseded {id : UInt64} {moves : List SessionMove}
    {result : Except Failure Outcome} (hid : id < s.generation)
    (hbound : s.generation.toNat + turns moves (s.steps u moves).2 < 2 ^ 64)
    (hend : .ended id result ∈ (s.steps u moves).2) :
    result = .ok .cancelled ∨ result = .error (.notStarted u.startTimeoutMs) ∨
      result = .error .contextClosed := by
  have hresult : ∀ o ∈ (s.steps u moves).2.filter Occurrence.isAboutRun, ∀ result, o = .ended id result →
      result = .ok .cancelled ∨ result = .error (.notStarted u.startTimeoutMs) ∨
        result = .error .contextClosed := by
    refine forall_told_of_lt hid hbound ?_
    rintro s m hlt o ho result rfl
    exact (s.standing_step u m).result_of_ended (UInt64.ne_of_lt hlt).symm ho
  exact hresult _ (List.mem_filter.2 ⟨hend, rfl⟩) result rfl

/-- As long as there are fewer runs and cancellations than numbers, whatever is left of
    earlier jobs: jobs have different numbers, in the order in which they are
    accepted; what the observer of a job is told is what the worker has sent about
    it, up to some point; it is told while the run of this job is current and the
    generation is that of the job; and nothing is told after the generation has moved
    past the job. -/
theorem heard_prefix_reported (hrun : s.run = none)
    (hstale : ∀ id ∈ s.load.jobIds, id ≤ s.generation) (moves : List SessionMove)
    (hbound : s.generation.toNat + turns moves (s.steps u moves).2 < 2 ^ 64) :
    (acceptedJobs (s.steps u moves).2).Pairwise (· < ·) ∧
      (∀ id, heard id (s.steps u moves).2 <+: reported id (s.sent u moves)) ∧
      (∀ before m after n, moves = before ++ m :: after →
        .noticed n ∈ ((s.steps u before).1.step u m).2 →
          (s.steps u before).1.generation = n.jobId ∧
            ∃ r, (s.steps u before).1.run = some r ∧ r.jobId = n.jobId) ∧
      ∀ before after id, moves = before ++ after → id ∈ acceptedJobs (s.steps u before).2 →
        (s.steps u before).1.generation ≠ id →
          heard id ((s.steps u before).1.steps u after).2 = [] := by
  have hstart : s.standing.Isolated [] [] :=
    .of_jobIds_le (by rw [standing, hrun]; rfl) hstale
  refine ⟨?_, fun id => ?_, ?_, ?_⟩
  · have h := (isolated_steps hstart hbound).pairwise_accepted
    rwa [List.nil_append, acceptedJobs_filter] at h
  · have h := (isolated_steps hstart hbound).heard_isPrefix id
    rwa [List.nil_append, List.nil_append, heard_filter, reported_filter] at h
  · rintro before m after n - hn
    obtain ⟨hgen, p, hjob⟩ := ((s.steps u before).1.standing_step u m).job_eq_of_noticed
      (List.mem_filter.2 ⟨hn, rfl⟩)
    obtain ⟨r, hr, heq⟩ := Option.map_eq_some_iff.1 hjob
    exact ⟨hgen, r, hr, congrArg Prod.fst heq⟩
  · rintro before after id rfl hid hne
    have hsplit := turns_append before after (s.steps u before).2 ((s.steps u before).1.steps u after).2
    rw [steps_append, hsplit, ← Nat.add_assoc] at hbound
    have hbefore := Nat.lt_of_le_of_lt (Nat.le_add_right _ _) hbound
    have hle := toNat_generation_steps_le hbefore
    -- The job had its number before, so the generation is beyond it.
    have hold := (isolated_steps hstart hbefore).accepted_le id
      (by rwa [List.nil_append, acceptedJobs_filter])
    have hlt : id < (s.steps u before).1.generation := UInt64.lt_of_le_of_ne hold hne.symm
    exact heard_steps_eq_nil hlt (Nat.lt_of_le_of_lt (Nat.add_le_add_right hle _) hbound)

/-- So it is when an event is left of an earlier job, a run is cancelled after its report,
    and the next one is cancelled before it has heard of its start: the first hears all that
    its worker has sent, the next one nothing. -/
theorem heard_prefix_reported_cancelled :
    let s : Session := { new with generation := 1, worker := { Worker.idle with events := [.started 1] } }
    let moves := .submit "clip" .bare :: (hearing ++ opening ++ hearing ++ hearing ++ cancellation ++
      .react .notification :: .submit "clip" .bare :: (opening ++ .supersede :: hearing ++
        [.notify, .react .notification]))
    let told := (s.steps .prompt moves).2
    s.run = none ∧ s.load.jobIds = [1] ∧ (∀ id ∈ s.load.jobIds, id ≤ s.generation) ∧
      s.generation.toNat + turns moves told < 2 ^ 64 ∧
      (acceptedJobs told).Pairwise (· < ·) ∧
      (∀ id, heard id told <+: reported id (s.sent .prompt moves)) ∧
      (∀ before m after n, moves = before ++ m :: after →
        .noticed n ∈ ((s.steps .prompt before).1.step .prompt m).2 →
          (s.steps .prompt before).1.generation = n.jobId ∧
            ∃ r, (s.steps .prompt before).1.run = some r ∧ r.jobId = n.jobId) ∧
      (∀ before after id, moves = before ++ after → id ∈ acceptedJobs (s.steps .prompt before).2 →
        (s.steps .prompt before).1.generation ≠ id →
          heard id ((s.steps .prompt before).1.steps .prompt after).2 = []) ∧
      acceptedJobs told = [2, 4] ∧ heard 1 told = [] ∧ heard 4 told = [] ∧
      (heard 2 told).map Notice.isProgress = [false, true] ∧
      (reported 2 (s.sent .prompt moves)).map Notice.isProgress = [false, true] ∧
      (reported 4 (s.sent .prompt moves)).map Notice.isProgress = [false, true] := by
  intro s moves told
  have hstale : ∀ id ∈ s.load.jobIds, id ≤ s.generation := by
    intro id hid
    obtain rfl := List.mem_singleton.1 hid
    exact UInt64.le_refl 1
  have hturns : turns moves told = 4 := by decide +kernel
  have hbound : s.generation.toNat + turns moves told < 2 ^ 64 := by
    rw [hturns]
    decide
  obtain ⟨hjobs, hheard, hcurrent, hpast⟩ := heard_prefix_reported rfl hstale moves hbound
  exact ⟨rfl, rfl, hstale, hbound, hjobs, hheard, hcurrent, hpast, by decide +kernel, by decide +kernel,
    by decide +kernel, by decide +kernel, by decide +kernel, by decide +kernel⟩

end Session

end VideoExport
