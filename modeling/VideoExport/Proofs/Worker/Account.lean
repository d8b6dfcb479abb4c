import Mathlib.Data.List.Induction
import Mathlib.Data.List.Nodup
import VideoExport.Proofs.Worker.Load

/-!
# Accounts

Whoever asks a worker for something is told how that went: a conversion is
turned down, or begins, goes on and ends, and subtitles are answered with once.
Requests come in any order and tasks are carried on in any order, so that what
is said of one request is scattered among what is said of all others; picked
out of it, it makes an account of that request and of nothing else.

* `WorkerTurn`, `Worker.run`, `Worker.sent`: what may happen to a worker;
* `Request.IsAccount`: all that is to be said of a request;
* `Thread`, `Worker.IsAccounted`: how far the requests have come that have been
  taken up;
* `Worker.exists_isAccounted`: after anything that may happen, all that was said
  belongs to one of them.
-/

namespace VideoExport

/-! ## What may happen -/

/-- What may happen to a worker: it is asked for something, an event is read,
    nobody listens any more, time passes, or it makes a step. -/
inductive WorkerTurn
  | post (r : Request)
  | read
  | hangUp
  | elapse (ms : ℕ)
  | move (now : ℕ) (m : WorkerMove)

/-- The request that a turn is, if it is one. -/
def WorkerTurn.request? : WorkerTurn → Option Request
  | post r => some r
  | read | hangUp | elapse _ | move _ _ => none

namespace Worker

/-- A worker after a turn. -/
def turn (h : Host) (w : Worker) : WorkerTurn → Worker
  | .post r => w.post r
  | .read => { w with events := w.events.tail }
  | .hangUp => w.hangUp
  | .elapse ms => w.elapse ms
  | .move now m => w.move h now m

/-- A worker after some turns. -/
def run (h : Host) (w : Worker) (ts : List WorkerTurn) : Worker := ts.foldl (turn h) w

/-- The events that are sent in a turn. -/
def turnSends (h : Host) (w : Worker) : WorkerTurn → List Event
  | .move now m => w.sends h now m
  | .post _ | .read | .hangUp | .elapse _ => []

/-- The events that are sent in some turns. -/
def sent (h : Host) (w : Worker) : List WorkerTurn → List Event
  | [] => []
  | t :: ts => w.turnSends h t ++ (w.turn h t).sent h ts

theorem run_concat (h : Host) (w : Worker) (ts : List WorkerTurn) (t : WorkerTurn) :
    w.run h (ts ++ [t]) = (w.run h ts).turn h t := List.foldl_concat ..

theorem sent_concat (h : Host) (w : Worker) (ts : List WorkerTurn) (t : WorkerTurn) :
    w.sent h (ts ++ [t]) = w.sent h ts ++ (w.run h ts).turnSends h t := by
  induction ts generalizing w with
  | nil => simp [sent, run]
  | cons u ts ih => simp [sent, ih, run]

end Worker

/-! ## What is said of a request -/

/-- What a request asks for, and what an event is about. -/
inductive Concern
  | job (id : UInt64)
  | preview (id : UInt64)
  deriving DecidableEq

/-- What a request asks for. -/
def Request.concern : Request → Concern
  | transcode id _ _ _ _ => .job id
  | extractSubtitles id _ _ => .preview id

theorem Request.concern_eq_of_jobId? {r : Request} {id : UInt64} (h : r.jobId? = some id) :
    r.concern = .job id := by
  cases r <;> cases h
  rfl

namespace Event

/-- What an event is about. -/
def concern : Event → Concern
  | started id | progress id _ _ | done id _ _ _ | error id _ _ => .job id
  | subtitleCues id _ | subtitleError id _ => .preview id

/-- Whether an event tells that a conversion has begun. -/
def isStarted : Event → Bool
  | started _ => true
  | _ => false

/-- An event on the way of a conversion: it has begun, or has come so far. -/
def IsUnderway (id : UInt64) (e : Event) : Prop :=
  e = .started id ∨ ∃ update time, e = .progress id update time

/-- The event at the end of a conversion that was not turned down. -/
def IsOutcome (id : UInt64) (e : Event) : Prop :=
  (∃ output mimeType bytes, e = .done id output mimeType bytes) ∨
    ∃ message issues, e = .error id message issues ∧ message ≠ busyMessage

/-- What is about a job and not its end is on its way. -/
theorem isUnderway_of_jobId? {id : UInt64} {e : Event}
    (h : e.jobId? = some id ∧ e.isTerminal = false) : e.IsUnderway id := by
  obtain ⟨hid, hend⟩ := h
  cases e with
  | started => exact .inl (congrArg _ (Option.some.inj hid))
  | progress _ update time =>
    cases hid
    exact .inr ⟨update, time, rfl⟩
  | done | error => cases hend
  | subtitleCues | subtitleError => cases hid

theorem IsUnderway.concern_eq {id : UInt64} {e : Event} (h : e.IsUnderway id) :
    e.concern = .job id := by
  rcases h with rfl | ⟨update, time, rfl⟩ <;> rfl

theorem IsUnderway.isTerminal_eq {id : UInt64} {e : Event} (h : e.IsUnderway id) :
    e.isTerminal = false := by
  rcases h with rfl | ⟨update, time, rfl⟩ <;> rfl

theorem concern_eq_of_jobId? {id : UInt64} {e : Event} (h : e.jobId? = some id) :
    e.concern = .job id := by
  cases e <;> cases h <;> rfl

end Event

namespace Concern

/-- The events that are about something, picked out of others. -/
def pick (k : Concern) (es : List Event) : List Event := es.filter fun e => e.concern = k

/-- What is said of it comes after what was said of it. -/
theorem pick_append_of_eq {k : Concern} (sent : List Event) {es : List Event}
    (h : ∀ e ∈ es, e.concern = k) : k.pick (sent ++ es) = k.pick sent ++ es := by
  rw [pick, pick, List.filter_append, List.filter_eq_self.2 fun e he => decide_eq_true (h e he)]

/-- What is said of something else does not matter. -/
theorem pick_append_of_ne {k k' : Concern} (hne : k' ≠ k) (sent : List Event) {es : List Event}
    (h : ∀ e ∈ es, e.concern = k') : k.pick (sent ++ es) = k.pick sent := by
  have hnone : es.filter (fun e => decide (e.concern = k)) = [] := by
    rw [List.filter_eq_nil_iff]
    intro e he
    rw [h e he, decide_eq_true_iff]
    exact hne
  rw [pick, pick, List.filter_append, hnone, List.append_nil]

end Concern

/-- All that is to be said of a request. A conversion is turned down, or it may begin,
    once, and get along before it ends; subtitles are answered with. -/
inductive Request.IsAccount : Request → List Event → Prop
  | refused {id input directives output duration} :
    IsAccount (.transcode id input directives output duration) [.error id busyMessage []]
  | converted {id input directives output duration front last}
    (hfront : ∀ e ∈ front, Event.IsUnderway id e) (hstarted : front.countP Event.isStarted ≤ 1)
    (hlast : last.IsOutcome id) :
    IsAccount (.transcode id input directives output duration) (front ++ [last])
  | extracted {id input track answer} (hanswer : answer.requestId? = some id) :
    IsAccount (.extractSubtitles id input track) [answer]

theorem Request.IsAccount.refused_of_jobId? {r : Request} {id : UInt64} (h : r.jobId? = some id) :
    r.IsAccount [.error id busyMessage []] := by
  cases r <;> cases h
  exact .refused

/-- There always is something to be said. -/
theorem Request.exists_isAccount (r : Request) : ∃ es, r.IsAccount es := by
  cases r with
  | transcode => exact ⟨_, .refused⟩
  | extractSubtitles id => exact ⟨_, .extracted (rfl : (Event.subtitleError id "").requestId? = _)⟩

/-- What a task is about. -/
def Task.concern : Task → Concern
  | conversion c => .job c.jobId
  | extraction id _ => .preview id

/-- The task that a request is for. -/
def Request.task (h : Host) : Request → Task
  | transcode id input directives output duration =>
    .conversion ⟨id, input, directives, output, duration, .probing (h.backend.probe input)⟩
  | extractSubtitles id input track => .extraction id (h.backend.subtitles input track)

namespace Worker

variable {w : Worker} {r : Request} {rest : List Request}

theorem dispatch_of_nil (h : Host) (hrequests : w.requests = []) : w.dispatch h = w := by
  rw [dispatch, hrequests]

/-- The first request is turned down, or its task is begun. -/
theorem dispatch_cases (h : Host) (hrequests : w.requests = r :: rest) :
    (∃ id, r.jobId? = some id ∧ w.busy = true ∧ w.dispatch h =
        { w with requests := rest, events := w.events ++ [.error id busyMessage []] }) ∨
      (w.busy = true → r.isAboutJob = false) ∧ w.dispatch h =
        { w with requests := rest, busy := w.busy || r.isAboutJob, tasks := w.tasks ++ [r.task h] } := by
  rw [dispatch, hrequests]
  cases r with
  | extractSubtitles =>
    exact .inr ⟨fun _ => rfl, by simp [take, Request.isAboutJob, Request.jobId?, Request.task]⟩
  | transcode =>
    cases hbusy : w.busy with
    | true => exact .inl ⟨_, rfl, rfl, by simp [take, send]⟩
    | false =>
      refine .inr ⟨(absurd · Bool.false_ne_true), ?_⟩
      simp [take, Request.isAboutJob, Request.jobId?, Request.task]

end Worker

/-! ## One request -/

/-- How often a conversion may still tell that it has begun. -/
def Stage.starts : Stage → ℕ
  | probing _ => 1
  | converting p _ _ => (!p.started).toNat
  | converted _ | closing _ => 0

namespace Conversion

theorem isOutcome_terminal (c : Conversion) (result : Except Failure Bytes) :
    (c.terminal result).IsOutcome c.jobId := by
  unfold terminal
  split
  · exact .inl ⟨_, _, _, rfl⟩
  all_goals exact .inr ⟨_, _, rfl, Failure.message_ne_busyMessage _⟩

/-- A conversion tells at most once that it has begun. -/
theorem starts_relay (h : Host) (now begun : ℕ) (c : Conversion) (p : Progress) (effect : Effect) :
    (c.relay h now begun p effect).2.toList.countP Event.isStarted +
        (!(c.relay h now begun p effect).1.started).toNat = (!p.started).toNat := by
  cases effect with
  | silent => exact Nat.zero_add _
  | started => cases hp : p.started <;> simp [relay, Progress.begin_, hp, Event.isStarted]
  | reported s =>
    have hstarted : (p.accept (now - begun + 1) s).1.started = p.started := by
      unfold Progress.accept
      simp only
      split <;> rfl
    simp only [relay, hstarted]
    cases (p.accept (now - begun + 1) s).2 <;> simp [Event.isStarted]

theorem starts_judge_le (h : Host) (now : ℕ) (c : Conversion) (source : Source) :
    (c.judge h now source).starts ≤ 1 := by
  simp only [judge]
  split
  · exact Bool.toNat_le _
  · exact Nat.zero_le _

theorem starts_advance (h : Host) (now : ℕ) (hungUp : Bool) (c : Conversion) {stage : Stage}
    {event : Option Event} (hadvance : c.advance h now hungUp = c.reach stage event) :
    event.toList.countP Event.isStarted + stage.starts ≤ c.stage.starts := by
  have hreach : ∀ {stage' event'}, c.reach stage' event' = c.reach stage event →
      stage' = stage ∧ event' = event := by
    intro stage' event' he
    simpa [reach] using he
  unfold advance at hadvance
  cases hstage : c.stage with
  | probing rest =>
    simp only [hstage] at hadvance
    split at hadvance
    all_goals obtain ⟨rfl, rfl⟩ := hreach hadvance
    · exact Nat.le_refl _
    · rw [Option.toList_none, List.countP_nil, Nat.zero_add]
      exact c.starts_judge_le h now _
    · exact Nat.zero_le _
  | converting p begun rest =>
    simp only [hstage] at hadvance
    split at hadvance
    all_goals obtain ⟨rfl, rfl⟩ := hreach hadvance
    · exact Nat.le_of_eq (c.starts_relay h now begun p _)
    all_goals exact Nat.zero_le _
  | converted result =>
    simp [hstage, reach] at hadvance
  | closing result =>
    simp [hstage, reach] at hadvance

end Conversion

/-- A request that has been taken up: what has been said of it, and what is left to be
    done. -/
structure Thread where
  request : Request
  said : List Event
  task : Option Task

/-- What has been said of a request and what is left of it go together. -/
inductive Thread.IsSound : Thread → Prop
  | underway {c : Conversion} {front : List Event}
    (hfront : ∀ e ∈ front, Event.IsUnderway c.jobId e)
    (hstarted : front.countP Event.isStarted + c.stage.starts ≤ 1) :
    IsSound ⟨c.order, front, some (.conversion c)⟩
  | extracting {id : UInt64} {input : String} {track : UInt64} {rest : Activity (List (Cue Float))} :
    IsSound ⟨.extractSubtitles id input track, [], some (.extraction id rest)⟩
  | ended {r : Request} {es : List Event} (haccount : r.IsAccount es) : IsSound ⟨r, es, none⟩

namespace Thread.IsSound

variable {r : Request} {es : List Event} {task : Task}

/-- When the task of a request begins nothing has been said. -/
theorem begun (h : Host) (r : Request) : IsSound ⟨r, [], some (r.task h)⟩ := by
  cases r with
  | transcode id input directives output duration =>
    let c : Conversion := ⟨id, input, directives, output, duration, .probing (h.backend.probe input)⟩
    exact underway (c := c) (fun e he => by cases he) (Nat.le_refl 1)
  | extractSubtitles => exact extracting

/-- A step of a task says what is still to be said of its request, and is about nothing
    else. -/
theorem advance (hsound : IsSound ⟨r, es, some task⟩) (h : Host) (now : ℕ) (hungUp : Bool) :
    IsSound ⟨r, es ++ (task.advance h now hungUp).event.toList, (task.advance h now hungUp).rest⟩ ∧
      ∀ e ∈ (task.advance h now hungUp).event, e.concern = r.concern := by
  cases hsound with
  | @underway c _ hfront hstarted =>
    rw [Task.advance]
    rcases c.advance_cases h now hungUp with
      ⟨stage, event, hadvance, -, -, hevent⟩ | ⟨result, hstage, hadvance⟩ |
      ⟨result, hstage, hadvance⟩
    · have hunderway : ∀ e ∈ event, e.IsUnderway c.jobId :=
        fun e he => Event.isUnderway_of_jobId? (hevent e he)
      have hstarts := c.starts_advance h now hungUp hadvance
      rw [hadvance, Conversion.reach]
      refine ⟨underway (c := { c with stage }) ?_ ?_, fun e he => (hunderway e he).concern_eq⟩
      · intro e he
        rcases List.mem_append.1 he with he | he
        · exact hfront e he
        · exact hunderway e (Option.mem_toList.1 he)
      · rw [List.countP_append]
        show es.countP Event.isStarted + event.toList.countP Event.isStarted + stage.starts ≤ 1
        omega
    · rw [hadvance, Conversion.reach]
      refine ⟨?_, fun e he => by cases he⟩
      rw [hstage] at hstarted
      exact underway (c := { c with stage := .closing result }) (by simpa using hfront)
        (by simpa [Stage.starts] using hstarted)
    · rw [hadvance]
      have houtcome := c.isOutcome_terminal result
      refine ⟨ended (.converted hfront (by omega) houtcome), fun e he => ?_⟩
      cases he
      exact Event.concern_eq_of_jobId? (c.jobId?_terminal result)
  | @extracting id _ _ rest =>
    simp only [Task.advance]
    split
    · exact ⟨extracting, fun e he => by cases he⟩
    · rename_i result _
      cases result with
      | ok cues => exact ⟨ended (.extracted rfl), fun e he => by cases he; rfl⟩
      | error f => exact ⟨ended (.extracted rfl), fun e he => by cases he; rfl⟩

/-- Time changes neither what was said nor what is to be said. -/
theorem elapse (hsound : IsSound ⟨r, es, some task⟩) (ms : ℕ) :
    IsSound ⟨r, es, some (task.elapse ms)⟩ := by
  cases hsound with
  | @underway c _ hfront hstarted =>
    have htask : (Task.conversion c).elapse ms = .conversion (c.elapse ms) := by
      cases hstage : c.stage <;> simp only [Task.elapse, Conversion.elapse, hstage]
    have hstarts : (c.elapse ms).stage.starts = c.stage.starts := by
      rw [Conversion.elapse]
      split <;> simp_all [Stage.starts]
    rw [htask, ← c.order_elapse ms]
    exact underway (by simpa using hfront) (by rw [hstarts]; exact hstarted)
  | extracting => exact extracting

/-- While there is a task it is about its request, of which no end was told. -/
theorem of_task (hsound : IsSound ⟨r, es, some task⟩) :
    task.concern = r.concern ∧ ∀ e ∈ es, e.isTerminal = false := by
  cases hsound with
  | underway hfront => exact ⟨rfl, fun e he => (hfront e he).isTerminal_eq⟩
  | extracting => exact ⟨rfl, fun e he => by cases he⟩

/-- When there is no task any more, all was said. -/
theorem isAccount (hsound : IsSound ⟨r, es, none⟩) : r.IsAccount es := by
  cases hsound with
  | ended haccount => exact haccount

/-- What was said can be completed. -/
theorem exists_isAccount {t : Thread} (hsound : t.IsSound) :
    ∃ more, t.request.IsAccount (t.said ++ more) := by
  cases hsound with
  | @underway c _ hfront hstarted =>
    have hlast : (Event.error c.jobId "" []).IsOutcome c.jobId := .inr ⟨"", [], rfl, by decide⟩
    exact ⟨_, .converted hfront (Nat.le_trans (Nat.le_add_right ..) hstarted) hlast⟩
  | @extracting id => exact ⟨_, .extracted (rfl : (Event.subtitleError id "").requestId? = _)⟩
  | ended haccount => exact ⟨[], by rwa [List.append_nil]⟩

end Thread.IsSound

/-! ## All requests -/

/-- Whether a task is a conversion that keeps others from being taken up. -/
def Task.isActive : Task → Bool
  | conversion c => !c.stage.isClosing
  | extraction _ _ => false

theorem Request.isActive_task (h : Host) (r : Request) : (r.task h).isActive = r.isAboutJob := by
  cases r <;> rfl

/-- A task that lets another conversion be taken up does not keep it from that any
    more. -/
theorem Task.isActive_advance (h : Host) (now : ℕ) (hungUp : Bool) (t : Task) :
    (t.advance h now hungUp).rest.toList.countP isActive + (t.advance h now hungUp).frees.toNat =
      t.isActive.toNat := by
  cases t with
  | conversion c =>
    rw [advance]
    rcases c.advance_cases h now hungUp with
      ⟨stage, event, hadvance, hstage, hnext, -⟩ | ⟨result, hstage, hadvance⟩ |
      ⟨result, hstage, hadvance⟩
    · simp [hadvance, Conversion.reach, isActive, hstage, hnext]
    · simp [hadvance, Conversion.reach, isActive, hstage, Stage.isClosing]
    · simp [hadvance, isActive, hstage, Stage.isClosing]
  | extraction id rest =>
    simp only [advance]
    split <;> simp [isActive]

/-- How the requests stand that were made of a worker: those that it has not taken up are
    still to come, and of each other it was said what its thread says. -/
structure Worker.IsAccounted (w : Worker) (asked : List Request) (sent : List Event)
    (threads : List Thread) : Prop where
  requests : asked = threads.map Thread.request ++ w.requests
  tasks : w.tasks = threads.filterMap Thread.task
  sound : ∀ t ∈ threads, t.IsSound
  said : ∀ t ∈ threads, t.request.concern.pick sent = t.said
  known : ∀ e ∈ sent, e.concern ∈ threads.map (·.request.concern)
  /-- There is one conversion at a time that keeps others from being taken up. -/
  busy : w.tasks.countP Task.isActive = w.busy.toNat

namespace Worker

/-- What is sent in a step is what comes after the events from before. -/
theorem sends_eq {h : Host} {now : ℕ} {w : Worker} {m : WorkerMove} {es : List Event}
    (hevents : (w.move h now m).events = w.events ++ es) : w.sends h now m = es :=
  List.append_cancel_left ((w.events_move h now m).symm.trans hevents)

namespace IsAccounted

variable {w w' : Worker} {asked rest : List Request} {r : Request} {sent es : List Event}
  {threads front back : List Thread} {t : Thread}

theorem idle : IsAccounted idle [] [] [] where
  requests := rfl
  tasks := rfl
  sound := fun _ ht => by cases ht
  said := fun _ ht => by cases ht
  known := fun _ he => by cases he
  busy := rfl

/-- Neither what waits to be read nor who reads it matters. -/
theorem ofParts (hw : w.IsAccounted asked sent threads) (hrequests : w'.requests = w.requests)
    (htasks : w'.tasks = w.tasks) (hbusy : w'.busy = w.busy) :
    w'.IsAccounted asked sent threads where
  requests := by rw [hrequests]; exact hw.requests
  tasks := by rw [htasks]; exact hw.tasks
  sound := hw.sound
  said := hw.said
  known := hw.known
  busy := by rw [htasks, hbusy]; exact hw.busy

theorem post (hw : w.IsAccounted asked sent threads) (r : Request) :
    (w.post r).IsAccounted (asked ++ [r]) sent threads where
  requests := by rw [hw.requests, Worker.post, List.append_assoc]
  tasks := hw.tasks
  sound := hw.sound
  said := hw.said
  known := hw.known
  busy := hw.busy

theorem elapse (hw : w.IsAccounted asked sent threads) (ms : ℕ) :
    (w.elapse ms).IsAccounted asked sent
      (threads.map fun t => { t with task := t.task.map (Task.elapse ms) }) where
  requests := by rw [List.map_map]; exact hw.requests
  tasks := by
    rw [Worker.elapse, hw.tasks, List.map_filterMap, List.filterMap_map]
    rfl
  sound := by
    rw [List.forall_mem_map]
    intro t ht
    have hsound := hw.sound t ht
    obtain ⟨request, said, task⟩ := t
    cases task with
    | none => exact hsound
    | some task => exact hsound.elapse ms
  said := by
    rw [List.forall_mem_map]
    exact hw.said
  known := by rw [List.map_map]; exact hw.known
  busy := by
    have hactive : ∀ t : Task, (t.elapse ms).isActive = t.isActive := by
      intro t
      cases t with
      | extraction => rfl
      | conversion c =>
        cases hstage : c.stage <;> simp [Task.elapse, Task.isActive, hstage, Stage.isClosing]
    rw [Worker.elapse, ← hw.busy, List.countP_map]
    exact List.countP_congr fun t _ => by rw [Function.comp_apply, hactive]

/-- The requests that were taken up and those that were not are about different
    things. -/
theorem concern_ne (hw : w.IsAccounted asked sent threads) (hids : (asked.map Request.concern).Nodup)
    (ht : t ∈ threads) (hr : r ∈ w.requests) : t.request.concern ≠ r.concern := by
  rw [hw.requests, List.map_append] at hids
  exact (List.nodup_append.1 hids).2.2 _ (List.mem_map_of_mem (List.mem_map_of_mem ht)) _
    (List.mem_map_of_mem hr)

/-- Nothing was said of a request that was not taken up. -/
theorem pick_eq_nil (hw : w.IsAccounted asked sent threads)
    (hids : (asked.map Request.concern).Nodup) (hr : r ∈ w.requests) : r.concern.pick sent = [] := by
  rw [Concern.pick, List.filter_eq_nil_iff]
  intro e he hconcern
  obtain ⟨t, ht, hknown⟩ := List.mem_map.1 (hw.known e he)
  exact hw.concern_ne hids ht hr (hknown.trans (of_decide_eq_true hconcern))

/-- A request is taken up. -/
theorem takeUp (hw : w.IsAccounted asked sent threads) (hids : (asked.map Request.concern).Nodup)
    (hrequests : w.requests = t.request :: w'.requests) (htasks : w'.tasks = w.tasks ++ t.task.toList)
    (hsound : t.IsSound) (hsaid : ∀ e ∈ t.said, e.concern = t.request.concern)
    (hbusy : w'.tasks.countP Task.isActive = w'.busy.toNat) :
    w'.IsAccounted asked (sent ++ t.said) (threads ++ [t]) := by
  have hnext : t.request ∈ w.requests := by
    rw [hrequests]
    exact List.mem_cons_self
  constructor
  case requests => rw [hw.requests, hrequests]; simp
  case tasks => rw [htasks, hw.tasks]; cases htask : t.task <;> simp [htask]
  case sound =>
    rw [List.forall_mem_append, List.forall_mem_singleton]
    exact ⟨hw.sound, hsound⟩
  case said =>
    rw [List.forall_mem_append, List.forall_mem_singleton]
    constructor
    · intro u hu
      rw [Concern.pick_append_of_ne (hw.concern_ne hids hu hnext).symm sent hsaid]
      exact hw.said u hu
    · rw [Concern.pick_append_of_eq sent hsaid, hw.pick_eq_nil hids hnext, List.nil_append]
  case known =>
    rw [List.forall_mem_append, List.map_append, List.map_singleton]
    exact ⟨fun e he => List.mem_append_left _ (hw.known e he),
      fun e he => List.mem_append_right _ (List.mem_singleton.2 (hsaid e he))⟩
  case busy => exact hbusy

/-- A request that was taken up goes on. -/
theorem goOn (hw : w.IsAccounted asked sent (front ++ t :: back))
    (hids : (asked.map Request.concern).Nodup) {task : Option Task}
    (hrequests : w'.requests = w.requests)
    (htasks : w'.tasks =
      front.filterMap Thread.task ++ task.toList ++ back.filterMap Thread.task)
    (hsound : Thread.IsSound ⟨t.request, t.said ++ es, task⟩)
    (hsaid : ∀ e ∈ es, e.concern = t.request.concern)
    (hbusy : w'.tasks.countP Task.isActive = w'.busy.toNat) :
    w'.IsAccounted asked (sent ++ es) (front ++ ⟨t.request, t.said ++ es, task⟩ :: back) := by
  have hnodup : ((front ++ t :: back).map (·.request.concern)).Nodup := by
    rw [hw.requests, List.map_append, List.map_map] at hids
    exact (List.nodup_append.1 hids).1
  have hother : ∀ u ∈ front ++ back, t.request.concern ≠ u.request.concern := by
    rw [List.map_append, List.map_cons, List.nodup_middle, ← List.map_append, List.nodup_cons] at hnodup
    exact fun u hu he => hnodup.1 (he ▸ List.mem_map_of_mem hu)
  have hsame : ∀ u ∈ front ++ back, u.IsSound ∧ u.request.concern.pick (sent ++ es) = u.said := by
    intro u hu
    have hmem : u ∈ front ++ t :: back := by
      simp only [List.mem_append, List.mem_cons] at hu ⊢
      tauto
    rw [Concern.pick_append_of_ne (hother u hu) sent hsaid]
    exact ⟨hw.sound u hmem, hw.said u hmem⟩
  have ht : t ∈ front ++ t :: back := List.mem_append_right _ List.mem_cons_self
  rw [List.forall_mem_append] at hsame
  constructor
  case requests => rw [hw.requests, hrequests]; simp
  case tasks => rw [htasks]; cases task <;> simp
  case sound =>
    rw [List.forall_mem_append, List.forall_mem_cons]
    exact ⟨fun u hu => (hsame.1 u hu).1, hsound, fun u hu => (hsame.2 u hu).1⟩
  case said =>
    rw [List.forall_mem_append, List.forall_mem_cons]
    refine ⟨fun u hu => (hsame.1 u hu).2, ?_, fun u hu => (hsame.2 u hu).2⟩
    rw [Concern.pick_append_of_eq sent hsaid, hw.said t ht]
  case known =>
    have hknown := hw.known
    simp only [List.map_append, List.map_cons] at hknown ⊢
    rw [List.forall_mem_append]
    refine ⟨hknown, fun e he => ?_⟩
    rw [hsaid e he]
    exact List.mem_append_right _ List.mem_cons_self
  case busy => exact hbusy

/-- What was said is about what was asked for. -/
theorem exists_concern_eq (hw : w.IsAccounted asked sent threads) {e : Event} (he : e ∈ sent) :
    ∃ r ∈ asked, e.concern = r.concern := by
  obtain ⟨t, ht, hconcern⟩ := List.mem_map.1 (hw.known e he)
  rw [hw.requests]
  exact ⟨t.request, List.mem_append_left _ (List.mem_map_of_mem ht), hconcern.symm⟩

/-- What was said of a request is the beginning of an account of it. -/
theorem exists_isAccount (hw : w.IsAccounted asked sent threads)
    (hids : (asked.map Request.concern).Nodup) (hr : r ∈ asked) :
    ∃ more, r.IsAccount (r.concern.pick sent ++ more) := by
  rw [hw.requests] at hr
  rcases List.mem_append.1 hr with hr | hr
  · obtain ⟨t, ht, rfl⟩ := List.mem_map.1 hr
    rw [hw.said t ht]
    exact (hw.sound t ht).exists_isAccount
  · rw [hw.pick_eq_nil hids hr]
    exact r.exists_isAccount

/-- All was said of a request, unless it waits to be taken up or a task is at work on
    it. -/
theorem isAccount_or (hw : w.IsAccounted asked sent threads) (hr : r ∈ asked) :
    r.IsAccount (r.concern.pick sent) ∨ r ∈ w.requests ∨
      ∃ task ∈ w.tasks, task.concern = r.concern := by
  rw [hw.requests] at hr
  rcases List.mem_append.1 hr with hr | hr
  · obtain ⟨⟨request, said, task⟩, ht, rfl⟩ := List.mem_map.1 hr
    rw [hw.said _ ht, hw.tasks]
    cases task with
    | none => exact .inl (hw.sound _ ht).isAccount
    | some task =>
      exact .inr (.inr ⟨task, List.mem_filterMap.2 ⟨_, ht, rfl⟩, (hw.sound _ ht).of_task.1⟩)
  · exact .inr (.inl hr)

/-- If all jobs that were taken up have ended, another one can be taken up. -/
theorem busy_eq_false {earlier : List Request}
    (hw : w.IsAccounted (earlier ++ w.requests) sent threads)
    (hended : ∀ q ∈ earlier, ∀ id, q.jobId? = some id →
      ∃ e ∈ sent, e.jobId? = some id ∧ e.isTerminal = true) :
    w.busy = false := by
  have hearlier : earlier = threads.map Thread.request := List.append_cancel_right hw.requests
  by_contra hbusy
  have hactive := hw.busy
  rw [Bool.of_not_eq_false hbusy] at hactive
  -- The worker is busy with a conversion, of which no end was told.
  obtain ⟨task, htask, hconverts⟩ :=
    List.countP_pos_iff.1 (show 0 < w.tasks.countP Task.isActive by rw [hactive]; exact Nat.one_pos)
  rw [hw.tasks] at htask
  obtain ⟨⟨request, said, _⟩, ht, rfl⟩ := List.mem_filterMap.1 htask
  cases hw.sound _ ht with
  | @extracting => cases hconverts
  | @underway c _ hfront _ =>
    have hrequest : c.order ∈ earlier := by
      rw [hearlier]
      exact List.mem_map_of_mem ht
    obtain ⟨e, he, hid, hend⟩ := hended _ hrequest c.jobId rfl
    have hpick : e ∈ c.order.concern.pick sent :=
      List.mem_filter.2 ⟨he, decide_eq_true (Event.concern_eq_of_jobId? hid)⟩
    rw [hw.said _ ht] at hpick
    rw [(hfront e hpick).isTerminal_eq] at hend
    cases hend

end IsAccounted

theorem exists_isAccounted_dispatch {w : Worker} {asked : List Request} {sent : List Event}
    {threads : List Thread} (hw : w.IsAccounted asked sent threads)
    (hids : (asked.map Request.concern).Nodup) (h : Host) :
    ∃ es threads', (w.dispatch h).events = w.events ++ es ∧
      (w.dispatch h).IsAccounted asked (sent ++ es) threads' := by
  cases hrequests : w.requests with
  | nil =>
    rw [dispatch_of_nil h hrequests]
    exact ⟨[], threads, (List.append_nil _).symm, by rwa [List.append_nil]⟩
  | cons r rest =>
    rcases dispatch_cases h hrequests with ⟨id, hid, -, hdispatch⟩ | ⟨hfree, hdispatch⟩
    all_goals rw [hdispatch]
    · have hconcern : ∀ e ∈ [Event.error id busyMessage []], e.concern = r.concern :=
        List.forall_mem_singleton.2 (Request.concern_eq_of_jobId? hid).symm
      exact ⟨_, _, rfl, hw.takeUp (t := ⟨r, _, none⟩) hids hrequests (List.append_nil _).symm
        (.ended (.refused_of_jobId? hid)) hconcern hw.busy⟩
    · refine ⟨[], _, (List.append_nil _).symm, hw.takeUp (t := ⟨r, [], some (r.task h)⟩) hids
        hrequests rfl (.begun h r) (fun e he => by cases he) ?_⟩
      rw [List.countP_append, hw.busy, List.countP_singleton, Request.isActive_task]
      cases hbusy : w.busy with
      | false => cases r.isAboutJob <;> rfl
      | true => rw [hfree hbusy]; rfl

/-- If one of several tasks lets go of a worker, the others do not keep it busy. -/
theorem toNat_and_not {before rest behind : ℕ} {busy active frees : Bool}
    (hbusy : before + (behind + if active then 1 else 0) = busy.toNat)
    (hactive : rest + frees.toNat = active.toNat) :
    before + rest + behind = (busy && !frees).toNat := by
  cases busy <;> cases active <;> cases frees <;> simp at * <;> omega

/-- The task at a place goes on, or it is gone. -/
theorem tasks_settle {w : Worker} {place : ℕ} {before behind : List Task}
    (hset : ∀ t, w.tasks.set place t = before ++ t :: behind)
    (herase : w.tasks.eraseIdx place = before ++ behind) (s : TaskStep) :
    (w.settle place s).tasks = before ++ s.rest.toList ++ behind := by
  rw [settle, send]
  cases s.rest with
  | none => simp [herase]
  | some t => simp [hset]

theorem exists_isAccounted_advance {w : Worker} {asked : List Request} {sent : List Event}
    {threads : List Thread} (hw : w.IsAccounted asked sent threads)
    (hids : (asked.map Request.concern).Nodup) (h : Host) (now place : ℕ) :
    ∃ es threads', (w.advance h now place).events = w.events ++ es ∧
      (w.advance h now place).IsAccounted asked (sent ++ es) threads' := by
  rw [advance]
  cases htask : w.tasks[place]? with
  | none => exact ⟨[], threads, (List.append_nil _).symm, by rwa [List.append_nil]⟩
  | some task =>
    obtain ⟨before, behind, htasks, hset, herase⟩ := exists_append_of_getElem? htask
    -- The task is that of a thread, with the tasks of the threads before it before it.
    have hthreads := hw.tasks
    rw [htasks] at hthreads
    obtain ⟨front, rest, rfl, rfl, hrest⟩ := List.filterMap_eq_append_iff.1 hthreads.symm
    obtain ⟨still, ⟨request, said, _⟩, back, rfl, hstill, rfl, rfl⟩ :=
      List.filterMap_eq_cons_iff.1 hrest
    rw [← List.append_assoc] at hw
    have hnone : still.filterMap Thread.task = [] := List.filterMap_eq_nil_iff.2 hstill
    obtain ⟨hsound, hsaid⟩ := (hw.sound ⟨request, said, some task⟩ (by simp)).advance h now w.hungUp
    have hafter := tasks_settle hset herase (task.advance h now w.hungUp)
    refine ⟨_, _, rfl, hw.goOn hids rfl (by rw [hafter]; simp [hnone]) hsound
      (fun e he => hsaid e (Option.mem_toList.1 he)) ?_⟩
    have hbusy := hw.busy
    rw [htasks, List.countP_append, List.countP_cons] at hbusy
    rw [hafter, List.countP_append, List.countP_append]
    exact toNat_and_not hbusy (task.isActive_advance h now w.hungUp)

/-- Whatever a worker does, what it says belongs to the requests that it has taken up. -/
theorem exists_isAccounted_move {w : Worker} {asked : List Request} {sent : List Event}
    {threads : List Thread} (hw : w.IsAccounted asked sent threads)
    (hids : (asked.map Request.concern).Nodup) (h : Host) (now : ℕ) (m : WorkerMove) :
    ∃ threads', (w.move h now m).IsAccounted asked (sent ++ w.sends h now m) threads' := by
  have hmove : ∃ es threads', (w.move h now m).events = w.events ++ es ∧
      (w.move h now m).IsAccounted asked (sent ++ es) threads' := by
    cases m with
    | dispatch => exact exists_isAccounted_dispatch hw hids h
    | advance place => exact exists_isAccounted_advance hw hids h now place
  obtain ⟨es, threads', hevents, hw'⟩ := hmove
  exact ⟨threads', by rwa [sends_eq hevents]⟩

/-- Whatever happens to a worker, what it says belongs to the requests that it has taken
    up. -/
theorem exists_isAccounted_turn {w : Worker} {asked : List Request} {sent : List Event}
    {threads : List Thread} (hw : w.IsAccounted asked sent threads)
    (hids : (asked.map Request.concern).Nodup) (h : Host) (t : WorkerTurn) :
    ∃ threads', (w.turn h t).IsAccounted (asked ++ t.request?.toList) (sent ++ w.turnSends h t)
      threads' := by
  cases t with
  | post r => exact ⟨threads, by rw [turnSends, List.append_nil]; exact hw.post r⟩
  | move now m =>
    obtain ⟨threads', hw'⟩ := exists_isAccounted_move hw hids h now m
    exact ⟨threads', by rw [WorkerTurn.request?, Option.toList_none, List.append_nil]; exact hw'⟩
  | read | hangUp =>
    refine ⟨threads, ?_⟩
    rw [turnSends, WorkerTurn.request?, Option.toList_none, List.append_nil, List.append_nil]
    exact hw.ofParts rfl rfl rfl
  | elapse ms =>
    refine ⟨threads.map fun t => { t with task := t.task.map (Task.elapse ms) }, ?_⟩
    rw [turnSends, WorkerTurn.request?, Option.toList_none, List.append_nil, List.append_nil]
    exact hw.elapse ms

/-- Whatever has happened to a worker, what it has said belongs to requests that were made
    of it. -/
theorem exists_isAccounted (h : Host) (ts : List WorkerTurn)
    (hids : ((ts.filterMap WorkerTurn.request?).map Request.concern).Nodup) :
    ∃ threads, (idle.run h ts).IsAccounted (ts.filterMap WorkerTurn.request?) (idle.sent h ts)
      threads := by
  induction ts using List.reverseRecOn with
  | nil => exact ⟨[], .idle⟩
  | append_singleton ts t ih =>
    have hlast : [t].filterMap WorkerTurn.request? = t.request?.toList := by
      cases t <;> rfl
    rw [List.filterMap_append, List.map_append] at hids
    obtain ⟨threads, hw⟩ := ih (List.nodup_append.1 hids).1
    rw [run_concat, sent_concat, List.filterMap_append, hlast]
    exact exists_isAccounted_turn hw (List.nodup_append.1 hids).1 h t

end Worker

end VideoExport
