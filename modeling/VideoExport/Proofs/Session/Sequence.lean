import Mathlib.Data.List.Induction
import VideoExport.Proofs.Session.Standing

/-!
# One run after the other

Callers who wait for each run to end before they ask for the next one always
find the worker free. While a run is current there is one thing to do for it at
a time: the request waits, or the conversion goes on, or its last event waits to
be read; and when the run has ended there is nothing to do, because its last
event has been read or the worker has been replaced.

* `Load.Phase`: how far the worker has come with the current run;
* `Standing.Step.of_idle`, `Standing.Step.of_current`: what a step does between runs
  and during one;
* `Session.IsRun`: a run that goes on, `Session.isRun_of_job`: every current run is
  one;
* `Session.not_busy_of_isSequential`: what becomes of runs one after the other.
-/

namespace VideoExport

/-! ## How far a run has come -/

namespace Load

/-- How far the worker has come with a request, when it has nothing else to do and
    had these conversions before: the request waits; or the conversion goes on; or
    its last event waits to be read; or that has been read. -/
inductive Phase (order : Request) (seen : Conversion → Prop) : Load → Prop
  | waiting : Phase order seen ⟨[order], [], false, []⟩
  | working {c news} (horder : c.order = order)
    (hnews : ∀ e ∈ news, Event.isTerminal e = false) :
    Phase order seen ⟨[], [c], !c.stage.isClosing, news⟩
  | finished {c news result} (horder : c.order = order) (hstage : c.stage = .closing result)
    (hseen : seen c) (hnews : ∀ e ∈ news, Event.isTerminal e = false) :
    Phase order seen ⟨[], [], false, news ++ [c.terminal result]⟩
  | settled : Phase order seen none

/-- When there is nothing to do, nothing is done. -/
theorem Step.eq_none {l l' : Load} {sent : List Event} (h : Step l sent l') (hl : l = none) :
    l' = none := by
  cases h with
  | stay => exact hl
  | takeUp | turnDown | goOn | release | finish => simp [none] at hl

namespace Phase

variable {order : Request} {seen : Conversion → Prop} {l l' : Load}

theorem mono {seen' : Conversion → Prop} (h : Phase order seen l) (hle : ∀ c, seen c → seen' c) :
    Phase order seen' l := by
  cases h with
  | waiting => exact .waiting
  | working horder hnews => exact .working horder hnews
  | finished horder hstage hseen hnews => exact .finished horder hstage (hle _ hseen) hnews
  | settled => exact .settled

theorem elapse (h : Phase order seen l) (ms : ℕ) : Phase order seen (l.elapse ms) := by
  cases h with
  | waiting => exact .waiting
  | @working c news horder hnews =>
    have hmore : Phase order seen ⟨[], [c.elapse ms], !(c.elapse ms).stage.isClosing, news⟩ :=
      .working ((c.order_elapse ms).trans horder) hnews
    rwa [Conversion.isClosing_elapse] at hmore
  | finished horder hstage hseen hnews => exact .finished horder hstage hseen hnews
  | settled => exact .settled

/-- There is one conversion, so it is the one that a step is about. -/
theorem eq_of_singleton {α : Type} {a b : α} {front back : List α} (h : [a] = front ++ b :: back) :
    front = [] ∧ a = b ∧ back = [] := by
  cases front with
  | nil =>
    rw [List.nil_append, List.cons.injEq] at h
    exact ⟨rfl, h.1, h.2.symm⟩
  | cons c front => simp at h

theorem step {sent : List Event} (h : Phase order seen l) (hstep : Step l sent l')
    (hseen : ∀ c ∈ l.conversions, seen c) : Phase order seen l' := by
  cases h with
  | waiting =>
    generalize hl : (⟨[order], [], false, []⟩ : Load) = l at hstep
    cases hstep with
    | stay => exact hl ▸ .waiting
    | @takeUp _ _ _ c hstage =>
      simp only [mk.injEq, List.cons.injEq, true_and] at hl
      obtain ⟨⟨rfl, rfl⟩, rfl, rfl⟩ := hl
      have hbegun : Phase c.order seen ⟨[], [c], !c.stage.isClosing, []⟩ :=
        .working rfl (List.forall_mem_nil _)
      rwa [hstage] at hbegun
    | turnDown => simp at hl
    | goOn | release | finish => simp at hl
  | @working c news horder hnews =>
    generalize hl : (⟨[], [c], !c.stage.isClosing, news⟩ : Load) = l at hstep
    cases hstep with
    | stay => exact hl ▸ .working horder hnews
    | takeUp | turnDown => simp at hl
    | @goOn _ _ _ _ _ c' stage event hstage hnext hevent =>
      simp only [mk.injEq] at hl
      obtain ⟨rfl, hc, rfl, rfl⟩ := hl
      obtain ⟨rfl, rfl, rfl⟩ := eq_of_singleton hc
      have hall : ∀ e ∈ news ++ event.toList, Event.isTerminal e = false := by
        intro e he
        rcases List.mem_append.1 he with he | he
        · exact hnews e he
        · exact (hevent e (Option.mem_toList.1 he)).2
      have hmore : Phase order seen ⟨[], [{ c with stage }], !stage.isClosing, news ++ event.toList⟩ :=
        .working (c := { c with stage }) horder hall
      rwa [hnext, ← hstage] at hmore
    | @release _ _ _ _ _ c' result hstage =>
      simp only [mk.injEq] at hl
      obtain ⟨rfl, hc, rfl, rfl⟩ := hl
      obtain ⟨rfl, rfl, rfl⟩ := eq_of_singleton hc
      exact .working (c := { c with stage := .closing result }) horder hnews
    | @finish _ _ _ _ _ c' result hstage =>
      simp only [mk.injEq] at hl
      obtain ⟨rfl, hc, rfl, rfl⟩ := hl
      obtain ⟨rfl, rfl, rfl⟩ := eq_of_singleton hc
      rw [hstage]
      exact .finished horder hstage (hseen c (List.mem_singleton_self c)) hnews
  | @finished c news result horder hstage hc hnews =>
    generalize hl : (⟨[], [], false, news ++ [c.terminal result]⟩ : Load) = l at hstep
    cases hstep with
    | stay => exact hl ▸ .finished horder hstage hc hnews
    | takeUp | turnDown | goOn | release | finish => simp at hl
  | settled => exact hstep.eq_none rfl ▸ .settled

/-- What is to be read is the last event of the conversion, and nothing is left to
    do after it, or an event that is not. -/
theorem of_cons {orders conversions busy e news}
    (h : Phase order seen ⟨orders, conversions, busy, e :: news⟩) :
    (Event.isTerminal e = false ∧ Phase order seen ⟨orders, conversions, busy, news⟩) ∨
      (⟨orders, conversions, busy, news⟩ : Load) = none ∧
        ∃ c result, seen c ∧ c.order = order ∧ c.stage = .closing result ∧ e = c.terminal result := by
  generalize hl : (⟨orders, conversions, busy, e :: news⟩ : Load) = l at h
  cases h with
  | waiting => simp at hl
  | settled => simp [none] at hl
  | @working c all horder hnews =>
    simp only [mk.injEq] at hl
    obtain ⟨rfl, rfl, rfl, rfl⟩ := hl
    rw [List.forall_mem_cons] at hnews
    exact .inl ⟨hnews.1, .working horder hnews.2⟩
  | @finished c all result horder hstage hc hnews =>
    cases all with
    | nil =>
      simp only [mk.injEq, List.nil_append, List.cons.injEq] at hl
      obtain ⟨rfl, rfl, rfl, rfl, rfl⟩ := hl
      exact .inr ⟨rfl, c, result, hc, horder, hstage, rfl⟩
    | cons first rest =>
      simp only [mk.injEq, List.cons_append, List.cons.injEq] at hl
      obtain ⟨rfl, rfl, rfl, rfl, rfl⟩ := hl
      rw [List.forall_mem_cons] at hnews
      exact .inl ⟨hnews.1, .finished horder hstage hc hnews.2⟩

end Phase

end Load

/-! ## Steps between runs and during one -/

/-- Whether a run ends. -/
def Occurrence.isEnd : Occurrence → Bool
  | ended _ _ => true
  | _ => false

/-- The job of a run that ends, with its result. -/
def Occurrence.result? : Occurrence → Option (UInt64 × Except Failure Outcome)
  | ended id result => some (id, result)
  | _ => none

/-- Whether a caller is turned down because another run is current, or a run fails
    because the worker works on another one. -/
def Occurrence.isBusy : Occurrence → Bool
  | refused .busy | ended _ (.error .busy) => true
  | _ => false

theorem Occurrence.isBusy_ended {id : UInt64} {result : Except Failure Outcome}
    (h : result ≠ .error .busy) : (ended id result).isBusy = false := by
  rw [← Bool.not_eq_true]
  intro hbusy
  unfold isBusy at hbusy
  split at hbusy
  case h_1 he => cases he
  case h_2 he =>
    cases he
    exact h rfl
  case h_3 => cases hbusy

/-- What is known of the result of a run when the worker had these conversions: it
    is never that the worker works on another one, and an artifact is what a
    conversion for this run has come to. -/
structure IsResult (id : UInt64) (input : String) (p : Plan) (seen : Conversion → Prop)
    (result : Except Failure Outcome) : Prop where
  ne_busy : result ≠ .error .busy
  completed : ∀ a, result = .ok (.completed a) →
    ∃ c bytes, seen c ∧ c.order = p.order id input ∧ c.stage = .closing (.ok bytes) ∧
      a = ⟨id, p.output.fileName, (Container.ofOutput p.output.fileName).mimeType, bytes, p.warnings⟩

theorem isResult_cancelled {id : UInt64} {input : String} {p : Plan} {seen : Conversion → Prop} :
    IsResult id input p seen (.ok .cancelled) where
  ne_busy := nofun
  completed := nofun

theorem isResult_error {id : UInt64} {input : String} {p : Plan} {seen : Conversion → Prop} {f : Failure}
    (h : f ≠ .busy) : IsResult id input p seen (.error f) where
  ne_busy he := h (Except.error.inj he)
  completed := nofun

theorem isResult_completed {id : UInt64} {input : String} {p : Plan} {seen : Conversion → Prop}
    {c : Conversion} {result : Except Failure Bytes} {fileName mimeType : String} {bytes : Bytes}
    (hseen : seen c) (horder : c.order = p.order id input) (hstage : c.stage = .closing result)
    (h : c.terminal result = .done id fileName mimeType bytes) :
    IsResult id input p seen (.ok (.completed ⟨id, fileName, mimeType, bytes, p.warnings⟩)) where
  ne_busy := nofun
  completed a ha := by
    cases ha
    cases result with
    | error f => cases f <;> cases h
    | ok b =>
      cases h
      have houtput : c.output = p.output.fileName := (Request.transcode.inj horder).2.2.2.1
      exact ⟨c, _, hseen, horder, hstage, by rw [houtput]⟩

/-- A conversion that fails does not fail as if it had been turned down. -/
theorem failureOf_ne_busy {c : Conversion} {result : Except Failure Bytes} {id : UInt64}
    {message : String} {issues : List TrackIssue} (h : c.terminal result = .error id message issues) :
    Session.failureOf message issues ≠ .busy := by
  rw [Session.failureOf, if_neg]
  · split <;> exact nofun
  · rintro rfl
    exact c.terminal_ne_busy h

namespace Standing.Step

variable {ms : ℕ} {m : SessionMove} {g id : UInt64} {input : String} {p : Plan} {l : Load} {v' : Standing}
  {told : List Occurrence} {sent : List Event} {seen : Conversion → Prop}

/-- Between runs there is nothing to do, until the next one begins. -/
theorem of_idle (hload : l = Load.none) (h : Step ms m ⟨g, none, l⟩ told sent v') :
    (v'.job? = none ∧ v'.load = Load.none ∧ ∀ o ∈ told, o.isEnd = false ∧ o.isBusy = false) ∨
      ∃ input p, m = .submit input p ∧ told = [.accepted (g + 1)] ∧
        v' = ⟨g + 1, some (g + 1, p), ⟨[p.order (g + 1) input], [], false, []⟩⟩ := by
  cases h with
  | stay | supersede => exact .inl ⟨rfl, hload, List.forall_mem_nil _⟩
  | elapse => exact .inl ⟨rfl, by rw [hload]; rfl, List.forall_mem_nil _⟩
  | work h => exact .inl ⟨rfl, h.eq_none hload, List.forall_mem_nil _⟩
  | refuseClosed h =>
    simp only [Load.none, Load.mk.injEq] at hload
    obtain ⟨rfl, rfl, rfl, rfl⟩ := hload
    obtain rfl := List.suffix_nil.1 h
    refine .inl ⟨rfl, rfl, fun o ho => ?_⟩
    obtain rfl := List.mem_singleton.1 ho
    exact ⟨rfl, rfl⟩
  | accept h =>
    simp only [Load.none, Load.mk.injEq] at hload
    obtain ⟨rfl, rfl, rfl, rfl⟩ := hload
    obtain rfl := List.suffix_nil.1 h
    exact .inr ⟨_, _, rfl, rfl, rfl⟩

/-- During a run the worker comes further with it, until the run ends. -/
theorem of_current (hphase : Load.Phase (p.order id input) seen l) (hseen : ∀ c ∈ l.conversions, seen c)
    (h : Step ms m ⟨g, some (id, p), l⟩ told sent v') :
    (v'.job? = some (id, p) ∧ Load.Phase (p.order id input) seen v'.load ∧
        (m ≠ .supersede → v'.generation = g) ∧
        ∀ o ∈ told, o.isEnd = false ∧ (o.isBusy = true → ∃ input p, m = .submit input p)) ∨
      v'.job? = none ∧ v'.load = Load.none ∧ ∃ result, told = [.ended id result] ∧
        (result = .ok .cancelled → g ≠ id) ∧ IsResult id input p seen result := by
  cases h with
  | stay => exact .inl ⟨rfl, hphase, fun _ => rfl, List.forall_mem_nil _⟩
  | supersede => exact .inl ⟨rfl, hphase, fun h => absurd rfl h, List.forall_mem_nil _⟩
  | work h => exact .inl ⟨rfl, hphase.step h hseen, fun _ => rfl, List.forall_mem_nil _⟩
  | elapse => exact .inl ⟨rfl, hphase.elapse _, fun _ => rfl, List.forall_mem_nil _⟩
  | refuseBusy =>
    refine .inl ⟨rfl, hphase, fun _ => rfl, fun o ho => ?_⟩
    obtain rfl := List.mem_singleton.1 ho
    exact ⟨rfl, fun _ => ⟨_, _, rfl⟩⟩
  | skip =>
    rcases hphase.of_cons with ⟨-, htail⟩ | ⟨hnone, -⟩
    · exact .inl ⟨rfl, htail, fun _ => rfl, List.forall_mem_nil _⟩
    · exact .inl ⟨rfl, hnone ▸ .settled, fun _ => rfl, List.forall_mem_nil _⟩
  | observe he =>
    rcases hphase.of_cons with ⟨-, htail⟩ | ⟨-, c, result, -, -, -, rfl⟩
    · refine .inl ⟨rfl, htail, fun _ => rfl, fun o ho => ?_⟩
      obtain rfl := List.mem_singleton.1 ho
      exact ⟨rfl, fun h => by cases h⟩
    · have := Event.isTerminal_of_notice? he
      rw [c.isTerminal_terminal] at this
      cases this
  | complete =>
    rcases hphase.of_cons with ⟨hlast, -⟩ | ⟨hnone, c, result, hc, horder, hstage, he⟩
    · cases hlast
    · exact .inr ⟨rfl, hnone, _, rfl, nofun, isResult_completed hc horder hstage he.symm⟩
  | fail =>
    rcases hphase.of_cons with ⟨hlast, -⟩ | ⟨hnone, c, result, hc, horder, hstage, he⟩
    · cases hlast
    · exact .inr ⟨rfl, hnone, _, rfl, nofun, isResult_error (failureOf_ne_busy he.symm)⟩
  | cancel hne => exact .inr ⟨rfl, rfl, _, rfl, fun _ => hne, isResult_cancelled⟩
  | timeOut => exact .inr ⟨rfl, rfl, _, rfl, nofun, isResult_error nofun⟩
  | close => exact .inr ⟨rfl, rfl, _, rfl, nofun, isResult_error nofun⟩

end Standing.Step

/-! ## Runs -/

namespace Session

variable {u : SessionSetup}

/-- The state of a new session after some steps. -/
def after (u : SessionSetup) (moves : List SessionMove) : Session := (new.steps u moves).1

theorem after_append (moves more : List SessionMove) :
    after u (moves ++ more) = ((after u moves).steps u more).1 := by
  rw [after, steps_append, after]

theorem after_concat (moves : List SessionMove) (m : SessionMove) :
    after u (moves ++ [m]) = ((after u moves).step u m).1 := after_append moves [m]

/-- A conversion that the worker has had in hand since a run began. -/
def HasSeen (u : SessionSetup) (begun during : List SessionMove) (c : Conversion) : Prop :=
  ∃ part, part <+: during ∧ .conversion c ∈ (after u (begun ++ part)).worker.tasks

/-- A run: after some steps no run was current, a plan was handed over and accepted
    as a job, and in the steps since then no run has ended. -/
structure IsRun (u : SessionSetup) (start : List SessionMove) (input : String) (p : Plan)
    (during : List SessionMove) (id : UInt64) : Prop where
  run_eq : (after u start).run = none
  accepted : .accepted id ∈ ((after u start).step u (.submit input p)).2
  not_ended : ∀ o ∈ ((after u (start ++ [.submit input p])).steps u during).2, o.isEnd = false

/-- What holds during a run: the worker has come so far with it, and the generation
    is that of the job unless someone has cancelled since. -/
structure IsUnderway (u : SessionSetup) (start : List SessionMove) (input : String) (p : Plan)
    (during : List SessionMove) (id : UInt64) : Prop extends IsRun u start input p during id where
  phase : Load.Phase (p.order id input) (HasSeen u (start ++ [.submit input p]) during)
    (after u (start ++ [.submit input p] ++ during)).load
  generation_eq : .supersede ∉ during →
    (after u (start ++ [.submit input p] ++ during)).generation = id

theorem mem_conversions_load {s : Session} {c : Conversion} :
    c ∈ s.load.conversions ↔ .conversion c ∈ s.worker.tasks := by
  simp only [load, Worker.load, List.mem_filterMap]
  constructor
  · rintro ⟨t, ht, hc⟩
    cases t with
    | conversion => exact Option.some.inj hc ▸ ht
    | extraction => cases hc
  · exact fun hc => ⟨_, hc, rfl⟩

theorem hasSeen (begun during : List SessionMove) :
    ∀ c ∈ (after u (begun ++ during)).load.conversions, HasSeen u begun during c :=
  fun _ hc => ⟨during, List.prefix_refl _, mem_conversions_load.1 hc⟩

theorem standing_of_run_eq_none {s : Session} (h : s.run = none) :
    s.standing = ⟨s.generation, none, s.load⟩ := by
  rw [standing, h]
  rfl

theorem standing_of_run_eq_some {s : Session} {r : Run} (h : s.run = some r) :
    s.standing = ⟨s.generation, some (r.jobId, r.plan), s.load⟩ := by
  rw [standing, h]
  rfl

theorem run_eq_none_of_job {s : Session} (h : s.standing.job? = none) : s.run = none :=
  Option.map_eq_none_iff.1 h

/-- No run ends in a step if none does among what is told about runs. -/
theorem isEnd_eq_false {told : List Occurrence}
    (h : ∀ o ∈ told.filter Occurrence.isAboutRun, o.isEnd = false) : ∀ o ∈ told, o.isEnd = false := by
  intro o ho
  cases habout : o.isAboutRun with
  | true => exact h o (List.mem_filter.2 ⟨ho, habout⟩)
  | false => cases o <;> first | rfl | cases habout

namespace IsUnderway

variable {start during : List SessionMove} {input : String} {p : Plan} {id : UInt64}

theorem begin_ (hrun : (after u start).run = none)
    (htold : ((after u start).step u (.submit input p)).2.filter Occurrence.isAboutRun = [.accepted id])
    (hstanding : (after u (start ++ [.submit input p])).standing =
      ⟨id, some (id, p), ⟨[p.order id input], [], false, []⟩⟩) :
    IsUnderway u start input p [] id where
  run_eq := hrun
  accepted := by
    have hmem : .accepted id ∈ ((after u start).step u (.submit input p)).2.filter Occurrence.isAboutRun := by
      rw [htold]
      exact List.mem_singleton_self _
    exact List.mem_of_mem_filter hmem
  not_ended := List.forall_mem_nil _
  phase := by
    have hload : (after u (start ++ [.submit input p])).load = _ := congrArg Standing.load hstanding
    rw [List.append_nil, hload]
    exact .waiting
  generation_eq _ := by
    rw [List.append_nil]
    exact congrArg Standing.generation hstanding

/-- A run that goes on in one more step. -/
theorem concat {m : SessionMove} (h : IsUnderway u start input p during id)
    (hphase : Load.Phase (p.order id input) (HasSeen u (start ++ [.submit input p]) during)
      ((after u (start ++ [.submit input p] ++ during)).step u m).1.load)
    (hgen : m ≠ .supersede → ((after u (start ++ [.submit input p] ++ during)).step u m).1.generation =
      (after u (start ++ [.submit input p] ++ during)).generation)
    (hend : ∀ o ∈ ((after u (start ++ [.submit input p] ++ during)).step u m).2.filter
      Occurrence.isAboutRun, o.isEnd = false) :
    IsUnderway u start input p (during ++ [m]) id where
  toIsRun := {
    run_eq := h.run_eq
    accepted := h.accepted
    not_ended := by
      rw [steps_append, ← after_append]
      intro o ho
      rcases List.mem_append.1 ho with ho | ho
      · exact h.not_ended o ho
      · simp only [steps, List.append_nil] at ho
        exact isEnd_eq_false hend o ho }
  phase := by
    rw [← List.append_assoc, after_concat]
    refine hphase.mono fun c hseen => ?_
    obtain ⟨part, hprefix, hc⟩ := hseen
    exact ⟨part, hprefix.trans (List.prefix_append _ _), hc⟩
  generation_eq hnone := by
    rw [List.mem_append, List.mem_singleton, not_or] at hnone
    rw [← List.append_assoc, after_concat, hgen (Ne.symm hnone.2), h.generation_eq hnone.1]

end IsUnderway

/-- At any time there is nothing to do, or a run is underway. -/
theorem idle_or_underway (u : SessionSetup) (moves : List SessionMove) :
    ((after u moves).run = none ∧ (after u moves).load = Load.none) ∨
      ∃ r start input during, (after u moves).run = some r ∧
        moves = start ++ [.submit input r.plan] ++ during ∧
        IsUnderway u start input r.plan during r.jobId := by
  induction moves using List.reverseRecOn with
  | nil => exact .inl ⟨rfl, rfl⟩
  | append_singleton moves m ih =>
    have hstep := (after u moves).standing_step u m
    rw [after_concat]
    rcases ih with ⟨hrun, hload⟩ | ⟨r, start, input, during, hrun, rfl, h⟩
    · rw [standing_of_run_eq_none hrun] at hstep
      rcases hstep.of_idle hload with ⟨hjob, hnone, -⟩ | ⟨input, p, rfl, htold, hstanding⟩
      · exact .inl ⟨run_eq_none_of_job hjob, hnone⟩
      · obtain ⟨r, hr, hjob⟩ := Option.map_eq_some_iff.1 (congrArg Standing.job? hstanding)
        obtain ⟨hid, rfl⟩ := Prod.mk.inj hjob
        refine .inr ⟨r, moves, input, [], hr, by rw [List.append_nil], ?_⟩
        rw [← hid] at htold hstanding
        exact .begin_ hrun htold (by rw [after_concat, hstanding])
    · rw [standing_of_run_eq_some hrun] at hstep
      rcases hstep.of_current h.phase (hasSeen _ _) with ⟨hjob, hphase, hgen, htold⟩ | ⟨hjob, hnone, -⟩
      · obtain ⟨r', hr', hsame⟩ := Option.map_eq_some_iff.1 hjob
        obtain ⟨hid, hplan⟩ := Prod.mk.inj hsame
        refine .inr ⟨r', start, input, during ++ [m], hr', by rw [hplan, List.append_assoc _ during], ?_⟩
        rw [hid, hplan]
        exact h.concat hphase hgen fun o ho => (htold o ho).1
      · exact .inl ⟨run_eq_none_of_job hjob, hnone⟩

/-- Callers ask for runs one after the other: no plan is handed over while a run is
    current. -/
def IsSequential (u : SessionSetup) (s : Session) : List SessionMove → Prop
  | [] => True
  | m :: rest => ((∃ input p, m = .submit input p) → s.run = none) ∧ (s.step u m).1.IsSequential u rest

instance (m : SessionMove) : Decidable (∃ input p, m = .submit input p) :=
  match m with
  | .submit input p => .isTrue ⟨input, p, rfl⟩
  | .supersede | .notify | .preview _ _ | .work _ | .relay | .react _ | .lose | .elapse _ =>
    .isFalse nofun

instance decidableIsSequential (u : SessionSetup) (s : Session) (moves : List SessionMove) :
    Decidable (s.IsSequential u moves) :=
  match moves with
  | [] => .isTrue trivial
  | m :: rest =>
    have := decidableIsSequential u (s.step u m).1 rest
    inferInstanceAs (Decidable (((∃ input p, m = .submit input p) → s.run = none) ∧
      (s.step u m).1.IsSequential u rest))

theorem IsSequential.run_eq_none {s : Session} {before rest : List SessionMove} {input : String}
    {p : Plan} (h : s.IsSequential u (before ++ .submit input p :: rest)) :
    (s.steps u before).1.run = none := by
  induction before generalizing s with
  | nil => exact h.1 ⟨input, p, rfl⟩
  | cons m before ih => exact ih h.2

/-- What is told in steps is told in one of them. -/
theorem exists_step_of_mem_steps {s : Session} {moves : List SessionMove} {o : Occurrence}
    (h : o ∈ (s.steps u moves).2) :
    ∃ before m rest, moves = before ++ m :: rest ∧ o ∈ ((s.steps u before).1.step u m).2 := by
  induction moves generalizing s with
  | nil => cases h
  | cons m rest ih =>
    rcases List.mem_append.1 h with h | h
    · exact ⟨[], m, rest, rfl, h⟩
    · obtain ⟨before, m', rest, rfl, hm'⟩ := ih h
      exact ⟨m :: before, m', rest, rfl, hm'⟩

/-- What is told in a step of a session whose callers ask for runs one after the
    other: nothing of other runs, and the end of a run only with a result of its own. -/
theorem told_of_isSequential {before rest : List SessionMove} {m : SessionMove}
    (hseq : new.IsSequential u (before ++ m :: rest)) {o : Occurrence}
    (ho : o ∈ ((after u before).step u m).2) :
    o.isBusy = false ∧ ∀ id result, o = .ended id result →
      ∃ start input p during, before = start ++ .submit input p :: during ∧
        IsRun u start input p during id ∧ (result = .ok .cancelled → .supersede ∈ during) ∧
          IsResult id input p (HasSeen u (start ++ [.submit input p]) during) result := by
  have hstep := (after u before).standing_step u m
  have hnever : o.isEnd = false → ∀ id result, o ≠ .ended id result := by
    rintro hend id result rfl
    cases hend
  cases habout : o.isAboutRun with
  | false =>
    have hquiet : o.isBusy = false ∧ o.isEnd = false := by
      cases o <;> first | exact ⟨rfl, rfl⟩ | cases habout
    exact ⟨hquiet.1, fun id result he => absurd he (hnever hquiet.2 id result)⟩
  | true =>
    have ho := List.mem_filter.2 ⟨ho, habout⟩
    rcases idle_or_underway u before with ⟨hrun, hload⟩ | ⟨r, start, input, during, hrun, rfl, h⟩
    · rw [standing_of_run_eq_none hrun] at hstep
      rcases hstep.of_idle hload with ⟨-, -, htold⟩ | ⟨_, _, -, htold, -⟩
      · exact ⟨(htold o ho).2, fun id result he => absurd he (hnever (htold o ho).1 id result)⟩
      · rw [htold] at ho
        obtain rfl := List.mem_singleton.1 ho
        exact ⟨rfl, nofun⟩
    · rw [standing_of_run_eq_some hrun] at hstep
      rcases hstep.of_current h.phase (hasSeen _ _) with ⟨-, -, -, htold⟩ | ⟨-, -, result, htold, hgen, hresult⟩
      · refine ⟨?_, fun id result he => absurd he (hnever (htold o ho).1 id result)⟩
        -- Whoever is turned down has not waited for the current run to end.
        rw [← Bool.not_eq_true]
        intro hbusy
        obtain ⟨input', p, rfl⟩ := (htold o ho).2 hbusy
        have hnone := hseq.run_eq_none
        rw [after] at hrun
        rw [hrun] at hnone
        cases hnone
      · rw [htold] at ho
        obtain rfl := List.mem_singleton.1 ho
        refine ⟨Occurrence.isBusy_ended hresult.ne_busy, fun id' result' he => ?_⟩
        cases he
        refine ⟨start, input, r.plan, during, by simp, h.toIsRun, fun hcancelled => ?_, hresult⟩
        by_contra hnone
        exact hgen hcancelled (h.generation_eq hnone)

/-- Runs that are asked for one after the other always find the worker free: nobody is
    turned down because another run is current or the worker works on one. A run
    is only cancelled if someone cancels during it, and an artifact carries the job, the
    warnings and the name of its own run, with the bytes that a conversion for this
    run has come to. -/
theorem not_busy_of_isSequential {moves : List SessionMove} (hseq : new.IsSequential u moves) :
    (∀ o ∈ (new.steps u moves).2, o.isBusy = false) ∧
      (∀ before rest, moves = before ++ rest → (after u before).run = none →
        (after u before).worker.busy = false) ∧
      ∀ before m rest id result, moves = before ++ m :: rest →
        .ended id result ∈ ((after u before).step u m).2 →
          ∃ start input p during, before = start ++ .submit input p :: during ∧
            IsRun u start input p during id ∧ (result = .ok .cancelled → .supersede ∈ during) ∧
              IsResult id input p (HasSeen u (start ++ [.submit input p]) during) result := by
  refine ⟨?_, ?_, ?_⟩
  · intro o ho
    obtain ⟨before, m, rest, rfl, hstep⟩ := exists_step_of_mem_steps ho
    exact (told_of_isSequential hseq hstep).1
  · rintro before rest - hrun
    rcases idle_or_underway u before with ⟨-, hload⟩ | ⟨r, _, _, _, hr, -⟩
    · exact congrArg Load.busy hload
    · rw [hrun] at hr
      cases hr
  · rintro before m rest id result rfl ho
    exact (told_of_isSequential hseq ho).2 id result rfl

/-- So they do when someone cancels before a run that completes, and during the next one. -/
theorem not_busy_of_isSequential_cancelled :
    let u := SessionSetup.prompt
    let moves := cancellation ++ .submit "clip" .bare :: .react .notification ::
      (opening ++ hearing ++ hearing ++ List.replicate 3 (.work (.advance 0)) ++ hearing ++
        .submit "clip" .bare :: (opening ++ hearing ++ cancellation ++
          [.react .notification, .submit "clip" .bare]))
    let told := (new.steps u moves).2
    new.IsSequential u moves ∧
      (∀ o ∈ told, o.isBusy = false) ∧
      (∀ before rest, moves = before ++ rest → (after u before).run = none →
        (after u before).worker.busy = false) ∧
      (∀ before m rest id result, moves = before ++ m :: rest →
        .ended id result ∈ ((after u before).step u m).2 →
          ∃ start input p during, before = start ++ .submit input p :: during ∧
            IsRun u start input p during id ∧ (result = .ok .cancelled → .supersede ∈ during) ∧
              IsResult id input p (HasSeen u (start ++ [.submit input p]) during) result) ∧
      told.filterMap Occurrence.result? =
        [(2, .ok (.completed ⟨2, "clip.mkv", "video/x-matroska", [7], [.copyOverriddenByFilters]⟩)),
          (3, .ok .cancelled)] := by
  intro u moves told
  have hseq : new.IsSequential u moves := by decide +kernel
  obtain ⟨hfree, hidle, hended⟩ := not_busy_of_isSequential hseq
  exact ⟨hseq, hfree, hidle, hended, by decide +kernel⟩

end Session

end VideoExport
