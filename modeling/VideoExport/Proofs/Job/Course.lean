import VideoExport.Job.Activity

/-!
# Courses

The course of an activity is what it does on its way and what it is told: its
start, its reports, its questions and the programs that it starts, with the
answers. An activity can take one course for each way of answering, and each of
them leads to what is then left of the activity. The course that is taken when
an activity is played is the one with the answers of the schedule.

* `Activity.Leads`: the courses of an activity, and where they lead;
* `Activity.leads_andThen_iff`: the courses of one activity after another;
* `Activity.Leads.play_iff`, `Activity.play_eq_some_iff`: what is played is the
  course with the answers that are given;
* `Activity.Returns`: what comes to an end, whatever it is answered.
-/

namespace VideoExport

/-- What an activity does, and what it is told. -/
inductive Happening
  | started
  | reported (sample : Sample)
  | asked (answer : Bool)
  | launched (call : ToolCall) (answer : Except String ToolRun)

namespace PollSchedule

variable {schedule : PollSchedule} {n m : Nat}

/-- The next question that is answered yes is told apart by the answers. -/
theorem nextYes_eq_some_iff : schedule.nextYes n = some m ↔
    n < m ∧ schedule.answer m = true ∧ ∀ k, n < k → k < m → schedule.answer k = false := by
  refine ⟨schedule.nextYes_spec n m, fun ⟨hlt, hyes, hno⟩ => ?_⟩
  cases hnext : schedule.nextYes n with
  | none => exact absurd (schedule.nextYes_none n hnext m hlt) (by simp [hyes])
  | some l =>
    obtain ⟨hl, hlyes, hlno⟩ := schedule.nextYes_spec n l hnext
    rcases Nat.lt_trichotomy l m with h | rfl | h
    · simp [hno l hl h] at hlyes
    · rfl
    · simp [hlno m hlt h] at hyes

theorem nextYes_of_yes (h : schedule.answer (n + 1) = true) :
    schedule.nextYes n = some (n + 1) :=
  nextYes_eq_some_iff.2 ⟨Nat.lt_succ_self n, h, fun _ _ _ => by omega⟩

theorem nextYes_of_no (h : schedule.answer (n + 1) = false) :
    schedule.nextYes n = schedule.nextYes (n + 1) := by
  refine Option.ext fun m => ?_
  simp only [nextYes_eq_some_iff]
  constructor
  · rintro ⟨hlt, hyes, hno⟩
    have hne : m ≠ n + 1 := by
      rintro rfl
      simp [h] at hyes
    exact ⟨by omega, hyes, fun k hk => hno k (by omega)⟩
  · rintro ⟨hlt, hyes, hno⟩
    refine ⟨by omega, hyes, fun k hk hkm => ?_⟩
    by_cases he : k = n + 1
    · rw [he, h]
    · exact hno k (by omega) hkm

end PollSchedule

namespace Record

/-- What has been noticed after some happenings. A program that could not be
    started did not run. -/
def after (r : Record) : List Happening → Record
  | [] => r
  | .started :: hs => after { r with started := true } hs
  | .reported s :: hs => after (r.withReport s) hs
  | .asked _ :: hs => after { r with polls := r.polls + 1 } hs
  | .launched call (.ok _) :: hs => after { r with calls := call :: r.calls } hs
  | .launched _ (.error _) :: hs => after r hs

/-- What is reported in a wait, with its first question and the others apart. -/
theorem withWait_of_lt {r : Record} {until_ : Nat} (h : r.polls + 1 < until_)
    (each : Nat → Option Sample) :
    r.withWait each until_ =
      (r.after (.asked false :: (each 0).toList.map Happening.reported)).withWait
        (fun n => each (n + 1)) until_ := by
  obtain ⟨k, rfl⟩ : ∃ k, until_ = r.polls + k + 2 := ⟨until_ - r.polls - 2, by omega⟩
  have hall : r.polls + k + 2 - r.polls - 1 = k + 1 := by omega
  have hothers : r.polls + k + 2 - (r.polls + 1) - 1 = k := by omega
  have hreports : (List.range (k + 1)).filterMap each =
      (each 0).toList ++ (List.range k).filterMap fun n => each (n + 1) := by
    rw [List.range_succ_eq_map, List.filterMap_cons, List.filterMap_map]
    cases each 0 <;> rfl
  cases hfirst : each 0 <;>
    simp only [withWait, after, withReport, hall, hreports, hfirst, hothers, Option.toList_none,
      Option.toList_some, List.map_nil, List.map_cons, List.nil_append, List.singleton_append,
      List.reverse_cons, List.append_assoc]

end Record

/-- The answers in some happenings are those of a launcher and of a schedule by
    which so many questions have been answered before. -/
def AnsweredBy (launcher : Launcher) (schedule : PollSchedule) : Nat → List Happening → Prop
  | _, [] => True
  | n, .asked answer :: hs =>
    schedule.answer (n + 1) = answer ∧ AnsweredBy launcher schedule (n + 1) hs
  | n, .launched call answer :: hs => launcher call = answer ∧ AnsweredBy launcher schedule n hs
  | n, .started :: hs | n, .reported _ :: hs => AnsweredBy launcher schedule n hs

namespace Activity

variable {α β : Type}

/-- Where the courses of an activity lead. In a wait the question is asked until
    the answer is yes. -/
inductive Leads : Activity α → List Happening → Activity α → Prop
  | stay (a : Activity α) : Leads a [] a
  | started {next b : Activity α} {hs : List Happening} (h : next.Leads hs b) :
    Leads (.started next) (.started :: hs) b
  | report {s : Sample} {next b : Activity α} {hs : List Happening} (h : next.Leads hs b) :
    Leads (.report s next) (.reported s :: hs) b
  | poll {next : Bool → Activity α} {b : Activity α} {hs : List Happening} (answer : Bool)
    (h : (next answer).Leads hs b) : Leads (.poll next) (.asked answer :: hs) b
  | wait {each : Nat → Option Sample} {next b : Activity α} {hs : List Happening}
    (h : (untilCancelled (fun n => each (n + 1)) next).Leads hs b) :
    Leads (.untilCancelled each next)
      (.asked false :: ((each 0).toList.map Happening.reported ++ hs)) b
  | wake {each : Nat → Option Sample} {next b : Activity α} {hs : List Happening}
    (h : next.Leads hs b) : Leads (.untilCancelled each next) (.asked true :: hs) b
  | sleep {ms : Nat} {next b : Activity α} {hs : List Happening} (h : next.Leads hs b) :
    Leads (.sleep ms next) hs b
  | launch {call : ToolCall} {next : Except String ToolRun → Activity α} {b : Activity α}
    {hs : List Happening} (answer : Except String ToolRun) (h : (next answer).Leads hs b) :
    Leads (.launch call next) (.launched call answer :: hs) b

variable {a b c : Activity α} {hs hs' : List Happening}

/-! ## One activity after another -/

theorem leads_finish_iff {result : Except Failure α} :
    (finish result).Leads hs b ↔ hs = [] ∧ b = finish result := by
  constructor
  · intro h
    cases h
    exact ⟨rfl, rfl⟩
  · rintro ⟨rfl, rfl⟩
    exact .stay _

theorem leads_poll_finish_iff {next : Bool → Activity α} {result : Except Failure α} :
    (poll next).Leads hs (finish result) ↔
      ∃ answer rest, hs = .asked answer :: rest ∧ (next answer).Leads rest (finish result) := by
  constructor
  · intro h
    cases h with
    | poll answer h => exact ⟨answer, _, rfl, h⟩
  · rintro ⟨answer, rest, rfl, h⟩
    exact .poll answer h

theorem Leads.trans (h : a.Leads hs b) (h' : b.Leads hs' c) : a.Leads (hs ++ hs') c := by
  induction h with
  | stay => exact h'
  | started _ ih => exact .started (ih h')
  | report _ ih => exact .report (ih h')
  | poll answer _ ih => exact .poll answer (ih h')
  | wait _ ih =>
    rw [List.cons_append, List.append_assoc]
    exact .wait (ih h')
  | wake _ ih => exact .wake (ih h')
  | sleep _ ih => exact .sleep (ih h')
  | launch answer _ ih => exact .launch answer (ih h')

theorem Leads.andThen (h : a.Leads hs b) (f : Except Failure α → Activity β) :
    (a.andThen f).Leads hs (b.andThen f) := by
  induction h with
  | stay => exact .stay _
  | started _ ih => exact .started ih
  | report _ ih => exact .report ih
  | poll answer _ ih => exact .poll answer ih
  | wait _ ih => exact .wait ih
  | wake _ ih => exact .wake ih
  | sleep _ ih => exact .sleep ih
  | launch answer _ ih => exact .launch answer ih

/-- A wait that has come to an end has been answered yes, and what happened until then
    does not depend on what comes after it. -/
theorem exists_wait_of_leads {each : Nat → Option Sample} {x : Except Failure α}
    (h : (untilCancelled each a).Leads hs (finish x)) :
    ∃ waiting rest, hs = waiting ++ rest ∧ a.Leads rest (finish x) ∧
      ∀ {γ : Type} (other : Activity γ), (untilCancelled each other).Leads waiting other := by
  generalize hw : untilCancelled each a = w at h
  generalize he : finish x = e at h
  induction h generalizing each with
  | wait h ih =>
    cases hw
    obtain ⟨waiting, rest, rfl, hrest, hwaiting⟩ := ih rfl he
    exact ⟨_, rest, by rw [← List.append_assoc, ← List.cons_append], hrest,
      fun other => .wait (hwaiting other)⟩
  | wake h _ =>
    cases hw
    exact ⟨[.asked true], _, rfl, he ▸ h, fun other => .wake (.stay other)⟩
  | stay =>
    subst he
    cases hw
  | _ => cases hw

/-- Where an activity after another one comes to its end, the first one has come
    to its own before. -/
theorem exists_leads_of_andThen {f : Except Failure α → Activity β} {x : Except Failure β}
    (h : (a.andThen f).Leads hs (finish x)) :
    ∃ first second result, hs = first ++ second ∧ a.Leads first (finish result) ∧
      (f result).Leads second (finish x) := by
  induction a generalizing hs with
  | finish result => exact ⟨[], hs, result, rfl, .stay _, h⟩
  | started next ih =>
    cases h with
    | started h =>
      obtain ⟨first, second, result, rfl, hfirst, hsecond⟩ := ih h
      exact ⟨_, second, result, rfl, .started hfirst, hsecond⟩
  | report s next ih =>
    cases h with
    | report h =>
      obtain ⟨first, second, result, rfl, hfirst, hsecond⟩ := ih h
      exact ⟨_, second, result, rfl, .report hfirst, hsecond⟩
  | poll next ih =>
    cases h with
    | poll answer h =>
      obtain ⟨first, second, result, rfl, hfirst, hsecond⟩ := ih answer h
      exact ⟨_, second, result, rfl, .poll answer hfirst, hsecond⟩
  | untilCancelled each next ih =>
    obtain ⟨waiting, rest, rfl, hrest, hwaiting⟩ := exists_wait_of_leads h
    obtain ⟨first, second, result, rfl, hfirst, hsecond⟩ := ih hrest
    exact ⟨waiting ++ first, second, result, (List.append_assoc ..).symm,
      (hwaiting next).trans hfirst, hsecond⟩
  | sleep ms next ih =>
    cases h with
    | sleep h =>
      obtain ⟨first, second, result, rfl, hfirst, hsecond⟩ := ih h
      exact ⟨_, second, result, rfl, .sleep hfirst, hsecond⟩
  | launch call next ih =>
    cases h with
    | launch answer h =>
      obtain ⟨first, second, result, rfl, hfirst, hsecond⟩ := ih answer h
      exact ⟨_, second, result, rfl, .launch answer hfirst, hsecond⟩

/-- An activity after another one takes the courses of both, one after the other. -/
theorem leads_andThen_iff {f : Except Failure α → Activity β} {x : Except Failure β} :
    (a.andThen f).Leads hs (finish x) ↔
      ∃ first second result, hs = first ++ second ∧ a.Leads first (finish result) ∧
        (f result).Leads second (finish x) := by
  constructor
  · exact exists_leads_of_andThen
  · rintro ⟨first, second, result, rfl, hfirst, hsecond⟩
    exact (hfirst.andThen f).trans hsecond

/-! ## What is played -/

section

variable {launcher : Launcher} {schedule : PollSchedule} {r r' : Record}

/-- After a question that is answered no, a wait goes on. -/
theorem play_wait_iff {each : Nat → Option Sample} {x : Except Failure α}
    (h : schedule.answer (r.polls + 1) = false) :
    (untilCancelled each a).play launcher schedule r = (some x, r') ↔
      (untilCancelled (fun n => each (n + 1)) a).play launcher schedule
        (r.after (.asked false :: (each 0).toList.map Happening.reported)) = (some x, r') := by
  have hpolls : (r.after (.asked false :: (each 0).toList.map Happening.reported)).polls =
      r.polls + 1 := by
    cases each 0 <;> rfl
  rw [play, play, hpolls, ← PollSchedule.nextYes_of_no h]
  cases hnext : schedule.nextYes r.polls with
  | none => simp
  | some m =>
    have hlt : r.polls < m := (PollSchedule.nextYes_eq_some_iff.1 hnext).1
    have hne : m ≠ r.polls + 1 := by
      rintro rfl
      simp [(PollSchedule.nextYes_eq_some_iff.1 hnext).2.1] at h
    have hgoes : r.polls + 1 < m := by omega
    simp only [Record.withWait_of_lt hgoes each]

/-- After a question that is answered yes, a wait is over. -/
theorem play_wake {each : Nat → Option Sample} (h : schedule.answer (r.polls + 1) = true) :
    (untilCancelled each a).play launcher schedule r =
      a.play launcher schedule { r with polls := r.polls + 1 } := by
  rw [play, PollSchedule.nextYes_of_yes h]
  simp [Record.withWait]

/-- The answers decide on the course: where one leads, what is left is what is played from
    then on. -/
theorem Leads.play_iff (h : a.Leads hs b) (hanswered : AnsweredBy launcher schedule r.polls hs)
    {x : Except Failure α} :
    a.play launcher schedule r = (some x, r') ↔
      b.play launcher schedule (r.after hs) = (some x, r') := by
  induction h generalizing r with
  | stay => exact Iff.rfl
  | started _ ih => exact ih hanswered
  | report _ ih => exact ih hanswered
  | poll answer _ ih =>
    obtain ⟨rfl, hanswered⟩ := hanswered
    exact ih hanswered
  | @wait each _ _ hs _ ih =>
    obtain ⟨hno, hanswered⟩ := hanswered
    rw [play_wait_iff hno]
    cases hfirst : each 0 <;> simp only [hfirst] at hanswered ⊢ <;> exact ih hanswered
  | wake _ ih =>
    obtain ⟨hyes, hanswered⟩ := hanswered
    rw [play_wake hyes]
    exact ih hanswered
  | sleep _ ih => exact ih hanswered
  | launch answer _ ih =>
    obtain ⟨hcall, hanswered⟩ := hanswered
    rw [play, hcall]
    cases answer with
    | ok run => exact ih hanswered
    | error reason => exact ih hanswered

/-- A wait that is played to its end takes one of its courses. -/
theorem exists_leads_of_play_wait {x : Except Failure α}
    (ih : ∀ r, a.play launcher schedule r = (some x, r') → ∃ hs, a.Leads hs (finish x) ∧
      AnsweredBy launcher schedule r.polls hs ∧ r' = r.after hs)
    {each : Nat → Option Sample}
    (h : (untilCancelled each a).play launcher schedule r = (some x, r')) :
    ∃ hs, (untilCancelled each a).Leads hs (finish x) ∧
      AnsweredBy launcher schedule r.polls hs ∧ r' = r.after hs := by
  -- By induction on the number of questions that are answered no.
  obtain ⟨m, hm⟩ : ∃ m, schedule.nextYes r.polls = some m := by
    rw [play] at h
    cases hnext : schedule.nextYes r.polls with
    | none => simp [hnext] at h
    | some m => exact ⟨m, rfl⟩
  obtain ⟨hlt, -, -⟩ := PollSchedule.nextYes_eq_some_iff.1 hm
  induction hn : m - r.polls - 1 generalizing r each with
  | zero =>
    have hyes : schedule.answer (r.polls + 1) = true := by
      have he : m = r.polls + 1 := by omega
      rw [← he]
      exact (PollSchedule.nextYes_eq_some_iff.1 hm).2.1
    rw [play_wake hyes] at h
    obtain ⟨hs, hleads, hanswered, hr⟩ := ih _ h
    exact ⟨_, .wake hleads, ⟨hyes, hanswered⟩, hr⟩
  | succ n ihn =>
    have hno : schedule.answer (r.polls + 1) = false :=
      (PollSchedule.nextYes_eq_some_iff.1 hm).2.2 _ (by omega) (by omega)
    have hpolls : (r.after (.asked false :: (each 0).toList.map Happening.reported)).polls =
        r.polls + 1 := by
      cases each 0 <;> rfl
    obtain ⟨hs, hleads, hanswered, hr⟩ := ihn ((play_wait_iff hno).1 h)
      (by rw [hpolls, ← PollSchedule.nextYes_of_no hno, hm]) (by omega) (by omega)
    refine ⟨_, .wait hleads, ⟨hno, ?_⟩, ?_⟩
    · rw [hpolls] at hanswered
      cases each 0 <;> exact hanswered
    · rw [hr]
      cases each 0 <;> rfl

/-- What is played to its end is what happens on the course with the answers of the
    schedule. -/
theorem play_eq_some_iff {x : Except Failure α} :
    a.play launcher schedule r = (some x, r') ↔
      ∃ hs, a.Leads hs (finish x) ∧ AnsweredBy launcher schedule r.polls hs ∧ r' = r.after hs := by
  constructor
  · intro h
    induction a generalizing r with
    | finish result =>
      cases h
      exact ⟨[], .stay _, trivial, rfl⟩
    | started next ih =>
      obtain ⟨hs, hleads, hanswered, hr⟩ := ih h
      exact ⟨_, .started hleads, hanswered, hr⟩
    | report s next ih =>
      obtain ⟨hs, hleads, hanswered, hr⟩ := ih h
      exact ⟨_, .report hleads, hanswered, hr⟩
    | poll next ih =>
      obtain ⟨hs, hleads, hanswered, hr⟩ := ih _ h
      exact ⟨_, .poll _ hleads, ⟨rfl, hanswered⟩, hr⟩
    | untilCancelled each next ih => exact exists_leads_of_play_wait (fun r => ih) h
    | sleep ms next ih =>
      obtain ⟨hs, hleads, hanswered, hr⟩ := ih h
      exact ⟨_, .sleep hleads, hanswered, hr⟩
    | launch call next ih =>
      rw [play] at h
      cases hcall : launcher call with
      | ok run =>
        rw [hcall] at h
        obtain ⟨hs, hleads, hanswered, hr⟩ := ih _ h
        exact ⟨_, .launch _ hleads, ⟨hcall, hanswered⟩, hr⟩
      | error reason =>
        rw [hcall] at h
        obtain ⟨hs, hleads, hanswered, hr⟩ := ih _ h
        exact ⟨_, .launch _ hleads, ⟨hcall, hanswered⟩, hr⟩
  · rintro ⟨hs, h, hanswered, rfl⟩
    exact (h.play_iff hanswered).2 rfl

end

/-! ## What comes to an end -/

/-- An activity that comes to its end, whatever it is answered. A wait until the answer
    is yes need not end. -/
inductive Returns (launcher : Launcher) : Activity α → Prop
  | finish (result : Except Failure α) : Returns launcher (.finish result)
  | started {next : Activity α} (hnext : next.Returns launcher) : Returns launcher (.started next)
  | report {s : Sample} {next : Activity α} (hnext : next.Returns launcher) :
    Returns launcher (.report s next)
  | poll {next : Bool → Activity α} (hnext : ∀ b, (next b).Returns launcher) :
    Returns launcher (.poll next)
  | sleep {ms : Nat} {next : Activity α} (hnext : next.Returns launcher) :
    Returns launcher (.sleep ms next)
  | launch {call : ToolCall} {next : Except String ToolRun → Activity α}
    (hnext : (next (launcher call)).Returns launcher) : Returns launcher (.launch call next)

namespace Returns

variable {launcher : Launcher}

theorem andThen {a : Activity α} (h : a.Returns launcher) {f : Except Failure α → Activity β}
    (hf : ∀ result, (f result).Returns launcher) : (a.andThen f).Returns launcher := by
  induction h with
  | finish result => exact hf result
  | started _ ih => exact .started ih
  | report _ ih => exact .report ih
  | poll _ ih => exact .poll ih
  | sleep _ ih => exact .sleep ih
  | launch _ ih => exact .launch ih

/-- What comes to its end whatever it is answered does so when it is played. -/
theorem isSome_play {a : Activity α} (h : a.Returns launcher) (schedule : PollSchedule)
    (r : Record) : (a.play launcher schedule r).1.isSome = true := by
  induction h generalizing r with
  | finish result => rfl
  | started _ ih | report _ ih | sleep _ ih => exact ih _
  | poll _ ih => exact ih _ _
  | @launch call _ _ ih =>
    rw [play]
    cases hcall : launcher call with
    | ok run =>
      rw [hcall] at ih
      exact ih _
    | error reason =>
      rw [hcall] at ih
      exact ih _

end Returns

end Activity

end VideoExport
