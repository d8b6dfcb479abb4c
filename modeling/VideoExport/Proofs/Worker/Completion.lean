import Mathlib
import VideoExport.Proofs.Job.Course
import VideoExport.Proofs.Worker.Account

/-!
# Completion

A worker whose backend returns is done with all that it has been asked for after
so many steps, in whatever order they are made: every step of a task takes it
nearer to its end, and every request that is taken up leaves one request less.
Until then something can be done. So all that is to be said of a request is said
of it, and a conversion finds the worker free if those before it have ended.

* `Host.Returns`: a host whose backend comes to an end whatever it is answered;
* `Activity.cost`, `Worker.cost`: the steps that are left at most;
* `Worker.spent_add_cost_le`: every step is one less that is left;
* `Worker.account_run`: what becomes of all that a worker is asked for.
-/

namespace VideoExport

/-! ## What comes to an end -/

namespace Activity

variable {α β : Type} {launcher : Launcher}

/-- The steps that an activity takes at most, with those that are left after its
    result. -/
def cost (launcher : Launcher) (left : Except Failure α → ℕ) : Activity α → ℕ
  | finish result => left result + 1
  | started next | report _ next | untilCancelled _ next | sleep _ next => next.cost launcher left + 1
  | poll next => max ((next true).cost launcher left) ((next false).cost launcher left) + 1
  | launch call next => (next (launcher call)).cost launcher left + 1

theorem cost_pos (left : Except Failure α → ℕ) (a : Activity α) : 0 < a.cost launcher left := by
  cases a <;> exact Nat.succ_pos _

theorem cost_elapse (left : Except Failure α → ℕ) (ms : ℕ) (a : Activity α) :
    (a.elapse ms).cost launcher left = a.cost launcher left := by
  cases a <;> rfl

/-- At the end of an activity there is left what its result leaves. -/
theorem lt_cost_of_ended {a : Activity α} {cancelled : Bool} {result : Except Failure α}
    (hended : a.advance launcher cancelled = .ended result) (left : Except Failure α → ℕ) :
    left result < a.cost launcher left := by
  rw [advance_eq_ended_iff.1 hended]
  exact Nat.lt_succ_self _

namespace Returns

theorem elapse {a : Activity α} (h : a.Returns launcher) (ms : ℕ) : (a.elapse ms).Returns launcher := by
  cases h with
  | sleep hnext => exact .sleep hnext
  | finish result => exact .finish result
  | started hnext => exact .started hnext
  | report hnext => exact .report hnext
  | poll hnext => exact .poll hnext
  | launch hnext => exact .launch hnext

/-- A step takes an activity nearer to its end. -/
theorem advance {a rest : Activity α} {cancelled : Bool} {effect : Effect} (h : a.Returns launcher)
    (hadvance : a.advance launcher cancelled = .ahead effect rest) (left : Except Failure α → ℕ) :
    rest.Returns launcher ∧ rest.cost launcher left < a.cost launcher left := by
  cases h with
  | finish => cases hadvance
  | poll hnext =>
    cases hadvance
    refine ⟨hnext _, Nat.lt_succ_of_le ?_⟩
    cases cancelled with
    | true => exact Nat.le_max_left ..
    | false => exact Nat.le_max_right ..
  | started hnext | report hnext | sleep hnext | launch hnext =>
    cases hadvance
    exact ⟨hnext, Nat.lt_succ_self _⟩

end Returns

end Activity

/-- A host whose backend returns from every call. -/
structure Host.Returns (h : Host) : Prop where
  probe : ∀ input, (h.backend.probe input).Returns h.launcher
  subtitles : ∀ input track, (h.backend.subtitles input track).Returns h.launcher
  convert : ∀ j, (h.backend.convert j).Returns h.launcher

/-- A job is carried to its end if its conversion ends. -/
theorem Job.returns_run {h : Host} (hreturns : h.Returns) (j : Job) :
    (j.run h.backend).Returns h.launcher := by
  refine .poll fun cancelled => ?_
  cases cancelled with
  | true => exact .finish _
  | false =>
    refine (hreturns.convert _).andThen fun result => ?_
    cases result with
    | ok => exact .finish _
    | error => exact .poll fun _ => .finish _

/-! ## Tasks -/

namespace Stage

/-- A stage that comes to its end. -/
def Returns (launcher : Launcher) : Stage → Prop
  | probing rest => rest.Returns launcher
  | converting _ _ rest => rest.Returns launcher
  | converted _ | closing _ => True

/-- The steps that are left after a probe, by those that are left after a source is
    known. -/
def probed (judged : Source → ℕ) : Except Failure Source → ℕ
  | .ok source => judged source
  | .error _ => 2

/-- The steps that are left at most at a stage, by those that are left after a source is
    known. -/
def cost (launcher : Launcher) (judged : Source → ℕ) : Stage → ℕ
  | probing rest => rest.cost launcher (probed judged)
  | converting _ _ rest => rest.cost launcher fun _ => 2
  | converted _ => 2
  | closing _ => 1

end Stage

namespace Conversion

/-- The steps that are left at most after a source is known. -/
def judgedCost (h : Host) (c : Conversion) (source : Source) : ℕ :=
  (c.judge h 0 source).cost h.launcher fun _ => 0

/-- The steps that are left at most of a conversion. -/
def cost (h : Host) (c : Conversion) : ℕ := c.stage.cost h.launcher (c.judgedCost h)

theorem returns_judge {h : Host} (hreturns : h.Returns) (now : ℕ) (c : Conversion) (source : Source) :
    (c.judge h now source).Returns h.launcher := by
  simp only [judge]
  split
  · exact Job.returns_run hreturns _
  · trivial

/-- It does not matter when a source is judged. -/
theorem cost_judge (h : Host) (now : ℕ) (c : Conversion) (source : Source) (judged : Source → ℕ) :
    (c.judge h now source).cost h.launcher judged = c.judgedCost h source := by
  simp only [judgedCost, judge]
  split <;> rfl

/-- A step takes a conversion nearer to its end. -/
theorem returns_advance {h : Host} (hreturns : h.Returns) {c : Conversion}
    (hstage : c.stage.Returns h.launcher) (now : ℕ) (hungUp : Bool) :
    ∀ t ∈ (c.advance h now hungUp).rest, ∃ stage, t = .conversion { c with stage } ∧
      stage.Returns h.launcher ∧ stage.cost h.launcher (c.judgedCost h) < c.cost h := by
  intro t ht
  rw [advance] at ht
  rw [cost]
  cases hc : c.stage with
  | probing rest =>
    rw [hc] at hstage
    simp only [hc] at ht
    split at ht
    all_goals
      rename_i hadvance
      cases ht
      refine ⟨_, rfl, ?_⟩
    · exact Activity.Returns.advance hstage hadvance _
    · rw [cost_judge]
      exact ⟨c.returns_judge hreturns now _,
        Activity.lt_cost_of_ended hadvance (Stage.probed (c.judgedCost h))⟩
    · exact ⟨trivial, Activity.lt_cost_of_ended hadvance (Stage.probed (c.judgedCost h))⟩
  | converting p begun rest =>
    rw [hc] at hstage
    simp only [hc] at ht
    split at ht
    all_goals
      rename_i hadvance
      cases ht
      refine ⟨_, rfl, ?_⟩
    · exact Activity.Returns.advance hstage hadvance _
    all_goals exact ⟨trivial, Activity.lt_cost_of_ended hadvance fun _ => 2⟩
  | converted result =>
    simp only [hc] at ht
    cases ht
    exact ⟨_, rfl, trivial, Nat.lt_succ_self _⟩
  | closing result =>
    simp only [hc] at ht
    cases ht

end Conversion

namespace Task

/-- A task that comes to its end. -/
def Returns (launcher : Launcher) : Task → Prop
  | conversion c => c.stage.Returns launcher
  | extraction _ rest => rest.Returns launcher

/-- The steps that are left at most of a task. -/
def cost (h : Host) : Task → ℕ
  | conversion c => c.cost h
  | extraction _ rest => rest.cost h.launcher fun _ => 0

theorem cost_pos (h : Host) (t : Task) : 0 < t.cost h := by
  cases t with
  | extraction => exact Activity.cost_pos ..
  | conversion c =>
    rw [cost, Conversion.cost]
    cases c.stage with
    | probing | converting => exact Activity.cost_pos ..
    | converted | closing => exact Nat.succ_pos _

theorem cost_elapse (h : Host) (ms : ℕ) (t : Task) : (t.elapse ms).cost h = t.cost h := by
  cases t with
  | extraction => exact Activity.cost_elapse ..
  | conversion c =>
    cases hstage : c.stage with
    | probing | converting =>
      simp only [elapse, hstage, cost, Conversion.cost, Stage.cost]
      exact Activity.cost_elapse ..
    | converted | closing => simp only [elapse, hstage]

theorem Returns.elapse {launcher : Launcher} {t : Task} (ht : t.Returns launcher) (ms : ℕ) :
    (t.elapse ms).Returns launcher := by
  cases t with
  | extraction => exact Activity.Returns.elapse ht ms
  | conversion c =>
    rw [Returns] at ht
    cases hstage : c.stage with
    | probing | converting =>
      rw [hstage] at ht
      simp only [Task.elapse, hstage]
      exact Activity.Returns.elapse ht ms
    | converted | closing => simpa only [Task.elapse, hstage, Returns] using ht

/-- A step takes a task nearer to its end. -/
theorem Returns.advance {h : Host} (hreturns : h.Returns) {t : Task} (ht : t.Returns h.launcher)
    (now : ℕ) (hungUp : Bool) :
    ∀ rest ∈ (t.advance h now hungUp).rest, rest.Returns h.launcher ∧ rest.cost h < t.cost h := by
  intro next hnext
  cases t with
  | conversion c =>
    obtain ⟨stage, rfl, hstage⟩ := Conversion.returns_advance hreturns ht now hungUp next hnext
    exact hstage
  | extraction id rest =>
    simp only [Task.advance] at hnext
    split at hnext
    · rename_i hadvance
      cases hnext
      exact Activity.Returns.advance ht hadvance _
    · cases hnext

end Task

/-! ## Workers -/

namespace Request

/-- The steps that a request takes at most: it is taken up, and its task is carried on to
    its end. -/
def cost (h : Host) (r : Request) : ℕ := (r.task h).cost h + 1

theorem returns_task {h : Host} (hreturns : h.Returns) (r : Request) :
    (r.task h).Returns h.launcher := by
  cases r with
  | transcode => exact hreturns.probe _
  | extractSubtitles => exact hreturns.subtitles _ _

end Request

namespace Worker

/-- Whether a step does anything. -/
def canMove (w : Worker) : WorkerMove → Bool
  | .dispatch => !w.requests.isEmpty
  | .advance place => place < w.tasks.length

/-- How many steps a turn is that do anything. -/
def spends (w : Worker) : WorkerTurn → ℕ
  | .move _ m => (w.canMove m).toNat
  | .post _ | .read | .hangUp | .elapse _ => 0

/-- How many steps are made in some turns that do anything. -/
def spent (h : Host) (w : Worker) : List WorkerTurn → ℕ
  | [] => 0
  | t :: ts => w.spends t + (w.turn h t).spent h ts

/-- The steps that are left at most of a worker. -/
def cost (h : Host) (w : Worker) : ℕ :=
  (w.requests.map (Request.cost h)).sum + (w.tasks.map (Task.cost h)).sum

/-- All tasks come to their ends. -/
def Returns (h : Host) (w : Worker) : Prop := ∀ t ∈ w.tasks, t.Returns h.launcher

namespace Returns

variable {h : Host} {w : Worker}

theorem idle : Worker.idle.Returns h := fun _ ht => by cases ht

/-- Taking up a request leaves less to be done. -/
theorem dispatch (hreturns : h.Returns) (hw : w.Returns h) :
    (w.dispatch h).Returns h ∧ (w.canMove .dispatch).toNat + (w.dispatch h).cost h ≤ w.cost h := by
  cases hrequests : w.requests with
  | nil =>
    rw [dispatch_of_nil h hrequests, canMove, hrequests]
    exact ⟨hw, Nat.le_of_eq (Nat.zero_add _)⟩
  | cons r rest =>
    have hmove : (w.canMove .dispatch).toNat = 1 := by rw [canMove, hrequests]; rfl
    rw [hmove, cost, cost, hrequests, List.map_cons, List.sum_cons, Request.cost]
    rcases dispatch_cases h hrequests with ⟨id, -, -, hdispatch⟩ | ⟨-, hdispatch⟩
    all_goals simp only [hdispatch]
    · exact ⟨hw, by omega⟩
    · rw [Returns, List.forall_mem_append, List.forall_mem_singleton, List.map_append,
        List.sum_append, List.map_singleton, List.sum_singleton]
      exact ⟨⟨hw, r.returns_task hreturns⟩, by omega⟩

/-- Carrying on a task leaves less to be done. -/
theorem advance (hreturns : h.Returns) (hw : w.Returns h) (now place : ℕ) :
    (w.advance h now place).Returns h ∧
      (w.canMove (.advance place)).toNat + (w.advance h now place).cost h ≤ w.cost h := by
  rw [Worker.advance]
  cases htask : w.tasks[place]? with
  | none =>
    have hplace : w.canMove (.advance place) = false :=
      decide_eq_false (Nat.not_lt_of_le (List.getElem?_eq_none_iff.1 htask))
    exact ⟨hw, by rw [hplace]; exact Nat.le_of_eq (Nat.zero_add _)⟩
  | some task =>
    obtain ⟨before, behind, htasks, hset, herase⟩ := exists_append_of_getElem? htask
    have hafter := tasks_settle hset herase (task.advance h now w.hungUp)
    have hrequests : (w.settle place (task.advance h now w.hungUp)).requests = w.requests := rfl
    rw [Returns, htasks, List.forall_mem_append, List.forall_mem_cons] at hw
    have hrest := Task.Returns.advance hreturns hw.2.1 now w.hungUp
    have hcost : ((task.advance h now w.hungUp).rest.toList.map (Task.cost h)).sum < task.cost h := by
      cases hr : (task.advance h now w.hungUp).rest with
      | none => exact task.cost_pos h
      | some t => simpa using (hrest t hr).2
    refine ⟨?_, ?_⟩
    · rw [Returns, hafter, List.forall_mem_append, List.forall_mem_append]
      exact ⟨⟨hw.1, fun t ht => (hrest t (Option.mem_toList.1 ht)).1⟩, hw.2.2⟩
    · have hmove := Bool.toNat_le (w.canMove (.advance place))
      rw [cost, cost, hrequests, hafter, htasks]
      simp only [List.map_append, List.map_cons, List.sum_append, List.sum_cons]
      omega

/-- Whatever happens, a step that does anything is one less that is left. -/
theorem turn (hreturns : h.Returns) (hw : w.Returns h) (t : WorkerTurn) :
    (w.turn h t).Returns h ∧
      w.spends t + (w.turn h t).cost h ≤ w.cost h + (t.request?.toList.map (Request.cost h)).sum := by
  cases t with
  | post r =>
    refine ⟨hw, ?_⟩
    simp only [Worker.turn, post, cost, spends, WorkerTurn.request?, Option.toList_some,
      List.map_append, List.map_singleton, List.sum_append]
    omega
  | read | hangUp => exact ⟨hw, Nat.le_of_eq (Nat.zero_add _)⟩
  | elapse ms =>
    have hcost : (w.elapse ms).cost h = w.cost h := by
      rw [cost, cost, Worker.elapse, List.map_map]
      congr 3
      funext t
      exact t.cost_elapse h ms
    refine ⟨?_, ?_⟩
    · rw [Worker.turn, Returns, Worker.elapse, List.forall_mem_map]
      exact fun t ht => (hw t ht).elapse ms
    · rw [Worker.turn, hcost]
      exact Nat.le_of_eq (Nat.zero_add _)
  | move now m =>
    cases m with
    | dispatch => exact hw.dispatch hreturns
    | advance place => exact hw.advance hreturns now place

end Returns

/-- The steps that are made and those that are left are not more than those that all
    requests take. -/
theorem spent_add_cost_le {h : Host} (hreturns : h.Returns) {w : Worker} (hw : w.Returns h)
    (ts : List WorkerTurn) :
    w.spent h ts + (w.run h ts).cost h ≤
      w.cost h + ((ts.filterMap WorkerTurn.request?).map (Request.cost h)).sum := by
  induction ts generalizing w with
  | nil => exact Nat.le_of_eq (Nat.zero_add _)
  | cons t ts ih =>
    obtain ⟨hnext, hturn⟩ := hw.turn hreturns t
    have hrun := ih hnext
    have hasked : (t :: ts).filterMap WorkerTurn.request? =
        t.request?.toList ++ ts.filterMap WorkerTurn.request? := by
      cases t <;> rfl
    rw [hasked, List.map_append, List.sum_append, spent]
    show _ + ((w.turn h t).run h ts).cost h ≤ _
    omega

/-! ## What becomes of requests -/

theorem exists_canMove_of_request {w : Worker} {r : Request} (hr : r ∈ w.requests) :
    ∃ m, w.canMove m = true := by
  refine ⟨.dispatch, ?_⟩
  cases hrequests : w.requests with
  | nil => rw [hrequests] at hr; cases hr
  | cons => simp [canMove, hrequests]

theorem exists_canMove_of_task {w : Worker} {t : Task} (ht : t ∈ w.tasks) :
    ∃ m, w.canMove m = true := by
  obtain ⟨place, hplace, -⟩ := List.mem_iff_getElem.1 ht
  exact ⟨.advance place, decide_eq_true hplace⟩

/-- A worker that is free turns nothing down. -/
theorem dispatch_of_not_busy {h : Host} {w : Worker} {r : Request} {rest : List Request}
    (hbusy : w.busy = false) (hrequests : w.requests = r :: rest) :
    (w.dispatch h).events = w.events ∧ (w.dispatch h).tasks = w.tasks ++ [r.task h] := by
  rcases dispatch_cases h hrequests with ⟨id, -, hno, -⟩ | ⟨-, hdispatch⟩
  · rw [hno] at hbusy
    cases hbusy
  · rw [hdispatch]
    exact ⟨rfl, rfl⟩

/-- A worker that is asked for different things works on one conversion at a time and says
    nothing but the beginning of an account of each request, and all of it before it is
    done with the request. It is done with all of them after so many steps if its backend
    returns, and turns down no conversion after all jobs before it have ended. -/
theorem account_run (h : Host) (ts : List WorkerTurn)
    (hids : ((ts.filterMap WorkerTurn.request?).map Request.concern).Nodup) :
    let asked := ts.filterMap WorkerTurn.request?
    let w := idle.run h ts
    let sent := idle.sent h ts
    w.tasks.countP Task.isActive ≤ 1 ∧
      (∀ e ∈ sent, ∃ r ∈ asked, e.concern = r.concern) ∧
      (∀ r ∈ asked, (∃ more, r.IsAccount (r.concern.pick sent ++ more)) ∧
        (r.IsAccount (r.concern.pick sent) ∨
          (∃ m, w.canMove m = true) ∧
            (r ∈ w.requests ∨ ∃ task ∈ w.tasks, task.concern = r.concern))) ∧
      (h.Returns → idle.spent h ts ≤ (asked.map (Request.cost h)).sum) ∧
      ∀ earlier r rest, asked = earlier ++ r :: rest → w.requests = r :: rest →
        (∀ q ∈ earlier, ∀ id, q.jobId? = some id →
          ∃ e ∈ sent, e.jobId? = some id ∧ e.isTerminal = true) →
        ∀ now, w.sends h now .dispatch = [] ∧ (w.dispatch h).tasks = w.tasks ++ [r.task h] := by
  intro asked w sent
  obtain ⟨threads, hw⟩ : ∃ threads, w.IsAccounted asked sent threads :=
    exists_isAccounted h ts hids
  refine ⟨?_, fun e he => hw.exists_concern_eq he, fun r hr => ?_, fun hreturns => ?_, ?_⟩
  · rw [hw.busy]
    exact Bool.toNat_le _
  · refine ⟨hw.exists_isAccount hids hr, (hw.isAccount_or hr).imp_right fun hleft => ⟨?_, hleft⟩⟩
    exact hleft.elim exists_canMove_of_request fun ⟨_, htask, _⟩ => exists_canMove_of_task htask
  · have hspent := spent_add_cost_le hreturns Returns.idle ts
    rw [show idle.cost h = 0 from rfl, Nat.zero_add] at hspent
    exact Nat.le_trans (Nat.le_add_right ..) hspent
  · intro earlier r rest hasked hrequests hended now
    rw [hasked, ← hrequests] at hw
    obtain ⟨hevents, htasks⟩ := dispatch_of_not_busy (h := h) (hw.busy_eq_false hended) hrequests
    exact ⟨sends_eq (by rw [move, hevents, List.append_nil]), htasks⟩

/-- A host that finds nothing: no source can be probed, and there are no subtitles. -/
def blindHost : Host where
  backend := {
    name := "blind"
    passthrough := false
    probe := fun _ => .sleep 5 (.fail (.probeFailed "no such file"))
    subtitles := fun _ _ => .ok []
    convert := fun _ => .fail .cancelled }
  launcher := fun _ => .error "no such program"
  interval := 0
  epoch := default

/-- A conversion, subtitles, and another conversion that comes too early; a last one waits
    until the first has ended. -/
def blindTurns : List WorkerTurn :=
  let job id : WorkerTurn := .post (.transcode id "in.mkv" [] "out.mp4" none)
  [job 1, .post (.extractSubtitles 1 "in.mkv" 2), job 2, .move 0 .dispatch, .move 0 .dispatch,
    .move 0 .dispatch, .elapse 5, .move 5 (.advance 0), .move 5 (.advance 1), .move 6 (.advance 0),
    .read, .move 7 (.advance 0), .hangUp, .move 8 (.advance 0), job 3]

theorem account_run_blind :
    ((blindTurns.filterMap WorkerTurn.request?).map Request.concern).Nodup ∧
      idle.sent blindHost blindTurns =
        [.error 2 busyMessage [], .subtitleCues 1 [], .error 1 "Probe failed: no such file" []] ∧
      (∀ r ∈ blindTurns.filterMap WorkerTurn.request?, r.concern ≠ .job 3 →
        r.IsAccount (r.concern.pick (idle.sent blindHost blindTurns))) ∧
      idle.spent blindHost blindTurns ≤
        ((blindTurns.filterMap WorkerTurn.request?).map (Request.cost blindHost)).sum ∧
      (idle.run blindHost blindTurns).sends blindHost 9 .dispatch = [] := by
  have hids : ((blindTurns.filterMap WorkerTurn.request?).map Request.concern).Nodup := by decide
  have hreturns : blindHost.Returns :=
    ⟨fun _ => .sleep (.finish _), fun _ _ => .finish _, fun _ => .finish _⟩
  have hsent : idle.sent blindHost blindTurns =
      [.error 2 busyMessage [], .subtitleCues 1 [], .error 1 "Probe failed: no such file" []] := rfl
  have hrequests : (idle.run blindHost blindTurns).requests =
      [.transcode 3 "in.mkv" [] "out.mp4" none] := rfl
  obtain ⟨-, -, haccounts, hspent, hfree⟩ := account_run blindHost blindTurns hids
  refine ⟨hids, hsent, fun r hr hlast => ?_, hspent hreturns, ?_⟩
  · -- There is no task any more, and only the last request has not been taken up.
    refine (haccounts r hr).2.resolve_right ?_
    rintro ⟨-, hwaits | ⟨task, htask, -⟩⟩
    · rw [hrequests, List.mem_singleton] at hwaits
      exact hlast (congrArg Request.concern hwaits)
    · cases htask
  · refine (hfree [_, _, _] _ [] rfl hrequests ?_ 9).1
    rw [hsent]
    simp [Request.jobId?, Event.jobId?, Event.isTerminal]

end Worker

end VideoExport
