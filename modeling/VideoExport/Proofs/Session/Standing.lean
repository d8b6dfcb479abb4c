import VideoExport.Proofs.Worker.Load
import VideoExport.Session.Caller

/-!
# Where a session stands

What matters of a session for its runs is the generation, the current job with
its plan, and the load: what the worker has to do with jobs, together with the
events that have been relayed. Every step of a session changes this in one of a
few ways, and with each of them it is known what callers are told.

* `Standing`, `Session.standing`: what matters;
* `Standing.Step`: what a step may do, `Session.standing_step`: that it does
  nothing else;
* `Session.sends`, `Session.sent`: the events that the worker sends;
* `Session.steps_append`: steps one after the other;
* `SessionSetup.prompt`, `Session.opening`, `Session.hearing`: a worker to try sessions out with.
-/

namespace VideoExport

/-- The request for a plan to be carried out. -/
def Plan.order (p : Plan) (jobId : UInt64) (input : String) : Request :=
  .transcode jobId input p.tokens p.output.fileName (some p.expectedDuration)

/-- What an observer is told of an event. -/
def Event.notice? : Event → Option Notice
  | started id => some (.started id)
  | progress id update _ => some (.progress id update)
  | _ => none

theorem Event.jobId?_of_notice? {e : Event} {n : Notice} (h : e.notice? = some n) :
    e.jobId? = some n.jobId := by
  cases e <;> cases h <;> rfl

theorem Event.isTerminal_of_notice? {e : Event} {n : Notice} (h : e.notice? = some n) :
    e.isTerminal = false := by
  cases e <;> cases h <;> rfl

/-- Whether callers are told about a run. -/
def Occurrence.isAboutRun : Occurrence → Bool
  | accepted _ | refused _ | noticed _ | ended _ _ => true
  | asked _ | replied _ => false

/-- What matters of a session for its runs: the generation, the current job
    with its plan, and what there is to do with jobs. -/
structure Standing where
  generation : UInt64
  job? : Option (UInt64 × Plan)
  load : Load

/-- What a step of a session may do with its standing, with what callers are told
    about runs and with the events about jobs that the worker sends. -/
inductive Standing.Step (startTimeoutMs : ℕ) :
    SessionMove → Standing → List Occurrence → List Event → Standing → Prop
  | stay (m : SessionMove) (v : Standing) : Step startTimeoutMs m v [] [] v
  | supersede {g job l} : Step startTimeoutMs .supersede ⟨g, job, l⟩ [] [] ⟨g + 1, job, l⟩
  | work {m g job l sent l'} (h : Load.Step l sent l') :
    Step startTimeoutMs (.work m) ⟨g, job, l⟩ [] sent ⟨g, job, l'⟩
  | elapse {ms g job l} :
    Step startTimeoutMs (.elapse ms) ⟨g, job, l⟩ [] [] ⟨g, job, l.elapse ms⟩
  | refuseBusy {input p g job l} :
    Step startTimeoutMs (.submit input p) ⟨g, some job, l⟩ [.refused .busy] [] ⟨g, some job, l⟩
  | refuseClosed {input p g orders conversions busy news news'} (h : news' <:+ news) :
    Step startTimeoutMs (.submit input p) ⟨g, none, ⟨orders, conversions, busy, news⟩⟩
      [.refused .contextClosed] [] ⟨g + 1, none, ⟨orders, conversions, busy, news'⟩⟩
  | accept {input p g orders conversions busy news news'} (h : news' <:+ news) :
    Step startTimeoutMs (.submit input p) ⟨g, none, ⟨orders, conversions, busy, news⟩⟩
      [.accepted (g + 1)] []
      ⟨g + 1, some (g + 1, p), ⟨orders ++ [p.order (g + 1) input], conversions, busy, news'⟩⟩
  /-- An event is passed over. -/
  | skip {id p g orders conversions busy e news} (h : e.jobId? = some id → g ≠ id) :
    Step startTimeoutMs (.react .event) ⟨g, some (id, p), ⟨orders, conversions, busy, e :: news⟩⟩
      [] [] ⟨g, some (id, p), ⟨orders, conversions, busy, news⟩⟩
  /-- An event is passed on to the observer. -/
  | observe {p orders conversions busy e n news} (h : e.notice? = some n) :
    Step startTimeoutMs (.react .event)
      ⟨n.jobId, some (n.jobId, p), ⟨orders, conversions, busy, e :: news⟩⟩ [.noticed n] []
      ⟨n.jobId, some (n.jobId, p), ⟨orders, conversions, busy, news⟩⟩
  | complete {id p orders conversions busy fileName mimeType bytes news} :
    Step startTimeoutMs (.react .event)
      ⟨id, some (id, p), ⟨orders, conversions, busy, .done id fileName mimeType bytes :: news⟩⟩
      [.ended id (.ok (.completed ⟨id, fileName, mimeType, bytes, p.warnings⟩))] []
      ⟨id, none, ⟨orders, conversions, busy, news⟩⟩
  | fail {id p orders conversions busy message issues news} :
    Step startTimeoutMs (.react .event)
      ⟨id, some (id, p), ⟨orders, conversions, busy, .error id message issues :: news⟩⟩
      [.ended id (.error (Session.failureOf message issues))] []
      ⟨id, none, ⟨orders, conversions, busy, news⟩⟩
  | cancel {id p g l} (h : g ≠ id) :
    Step startTimeoutMs (.react .notification) ⟨g, some (id, p), l⟩ [.ended id (.ok .cancelled)] []
      ⟨g, none, Load.none⟩
  | timeOut {id p g l} :
    Step startTimeoutMs (.react .deadline) ⟨g, some (id, p), l⟩
      [.ended id (.error (.notStarted startTimeoutMs))] [] ⟨g + 1, none, Load.none⟩
  | close {id p g l} :
    Step startTimeoutMs (.react .closed) ⟨g, some (id, p), l⟩
      [.ended id (.error .contextClosed)] [] ⟨g, none, Load.none⟩

namespace Session

/-- What a session has to do with jobs: the events that have been relayed come
    before those that have not. -/
def load (s : Session) : Load :=
  { s.worker.load with news := s.inbox.filter Event.isAboutJob ++ s.worker.load.news }

/-- Where a session stands. -/
def standing (s : Session) : Standing := ⟨s.generation, s.run.map fun r => (r.jobId, r.plan), s.load⟩

/-- The events that the worker sends in a step. -/
def sends (u : SessionSetup) (s : Session) : SessionMove → List Event
  | .work m => if s.lost then [] else s.worker.sends u.host (s.clock * nanosPerMs) m
  | _ => []

/-- The events that the worker sends in several steps. -/
def sent (u : SessionSetup) (s : Session) : List SessionMove → List Event
  | [] => []
  | m :: rest => s.sends u m ++ (s.step u m).1.sent u rest

/-! ## Single steps -/

/-- Answers to previews are not about runs. -/
theorem filter_replies (r : Option (Reply (List (Cue Float)))) :
    (replies r).filter Occurrence.isAboutRun = [] := by
  cases r <;> rfl

theorem standing_submit (u : SessionSetup) (s : Session) (input : String) (p : Plan) :
    Standing.Step u.startTimeoutMs (.submit input p) s.standing
      ((s.submit u input p).2.filter Occurrence.isAboutRun) [] (s.submit u input p).1.standing := by
  obtain ⟨generation, notified, run, worker, lost, inbox, previews, clock⟩ := s
  -- What has been relayed is dropped; what has not been stays.
  have hnews : [] ++ worker.load.news <:+ inbox.filter Event.isAboutJob ++ worker.load.news := by simp
  cases run with
  | some r => exact .refuseBusy
  | none =>
    cases lost with
    | true => exact .refuseClosed hnews
    | false =>
      have hload := worker.load_post (p.order (generation + 1) input)
      change Standing.Step _ _ _ _ _ ⟨_, _, { (worker.post (p.order (generation + 1) input)).load with
        news := [] ++ (worker.post (p.order (generation + 1) input)).load.news }⟩
      rw [hload]
      exact .accept hnews

theorem standing_preview (s : Session) (input : String) (track : UInt64) :
    (s.preview input track).1.standing = s.standing ∧
      (s.preview input track).2.filter Occurrence.isAboutRun = [] := by
  have hload := fun id => s.worker.load_post (.extractSubtitles id input track)
  simp only [preview]
  split
  · simp [standing, load, filter_replies, Occurrence.isAboutRun]
  · simp [standing, load, hload, filter_replies, Occurrence.isAboutRun, Request.isAboutJob,
      Request.jobId?]

theorem standing_relay (s : Session) :
    s.relay.1.standing = s.standing ∧ s.relay.2.filter Occurrence.isAboutRun = [] := by
  rw [relay]
  cases hevents : s.worker.events with
  | nil => exact ⟨rfl, rfl⟩
  | cons e events =>
    cases e <;> simp [standing, load, Worker.load, hevents, relay.resolve, filter_replies,
      List.filter_cons, Event.isAboutJob, Event.jobId?]

/-- The end of a run whose worker is replaced leaves nothing to do. -/
theorem standing_breakOff (s : Session) (r : Run) (result : Except Failure Outcome) :
    (s.breakOff r result).1.standing = ⟨s.generation, none, Load.none⟩ ∧
      (s.breakOff r result).2.filter Occurrence.isAboutRun = [.ended r.jobId result] := by
  constructor
  · rfl
  · simp [breakOff, replaceWorker, conclude, filter_replies, List.filter_cons, Occurrence.isAboutRun]

theorem standing_hear (u : SessionSetup) {s : Session} {r : Run} {e : Event} {inbox : List Event}
    (hrun : s.run = some r) (hinbox : s.inbox = e :: inbox) (hid : e.jobId? = some r.jobId)
    (hgen : s.generation = r.jobId) :
    Standing.Step u.startTimeoutMs (.react .event) s.standing
      (({ s with inbox }.hear r e).2.filter Occurrence.isAboutRun) []
      ({ s with inbox }.hear r e).1.standing := by
  obtain ⟨generation, notified, run, worker, lost, _, previews, clock⟩ := s
  obtain rfl : run = some r := hrun
  obtain rfl : _ = e :: inbox := hinbox
  obtain rfl : generation = r.jobId := hgen
  cases e with
  | started id =>
    obtain rfl : id = r.jobId := Option.some.inj hid
    exact .observe (n := .started r.jobId) rfl
  | progress id update at_ =>
    obtain rfl : id = r.jobId := Option.some.inj hid
    exact .observe (n := .progress r.jobId update) rfl
  | done id fileName mimeType bytes =>
    obtain rfl : id = r.jobId := Option.some.inj hid
    exact .complete
  | error id message issues =>
    obtain rfl : id = r.jobId := Option.some.inj hid
    exact .fail
  | subtitleCues | subtitleError => cases hid

theorem standing_skip (u : SessionSetup) {s : Session} {r : Run} {e : Event} {inbox : List Event}
    (hrun : s.run = some r) (hinbox : s.inbox = e :: inbox)
    (h : ¬(e.jobId? = some r.jobId ∧ s.generation = r.jobId)) :
    Standing.Step u.startTimeoutMs (.react .event) s.standing [] []
      (Session.standing { s with inbox }) := by
  obtain ⟨generation, notified, run, worker, lost, _, previews, clock⟩ := s
  obtain rfl : run = some r := hrun
  obtain rfl : _ = e :: inbox := hinbox
  cases habout : e.isAboutJob with
  | true =>
    have := @Standing.Step.skip u.startTimeoutMs r.jobId r.plan generation worker.load.orders
      worker.load.conversions worker.load.busy e (inbox.filter Event.isAboutJob ++ worker.load.news)
      fun hid hgen => h ⟨hid, hgen⟩
    simpa [standing, load, List.filter_cons, habout] using this
  | false =>
    have hsame : load ⟨generation, notified, some r, worker, lost, e :: inbox, previews, clock⟩ =
        load ⟨generation, notified, some r, worker, lost, inbox, previews, clock⟩ := by
      simp [load, habout]
    rw [standing, hsame]
    exact .stay _ _

theorem standing_react (u : SessionSetup) {s : Session} {r : Run} (hrun : s.run = some r)
    (signal : Signal) :
    Standing.Step u.startTimeoutMs (.react signal) s.standing
      ((s.react u r signal).2.filter Occurrence.isAboutRun) [] (s.react u r signal).1.standing := by
  have hstanding : s.standing = ⟨s.generation, some (r.jobId, r.plan), s.load⟩ := by
    rw [standing, hrun]
    rfl
  cases signal with
  | notification =>
    simp only [react]
    split
    · exact .stay _ _
    case isFalse hgen =>
      obtain ⟨hend, htold⟩ := standing_breakOff { s with notified := false } r (.ok .cancelled)
      rw [hend, htold, hstanding]
      exact .cancel hgen
  | deadline =>
    simp only [react]
    split
    · obtain ⟨hend, htold⟩ := standing_breakOff { s with generation := s.generation + 1 } r
        (.error (.notStarted u.startTimeoutMs))
      rw [hend, htold, hstanding]
      exact .timeOut
    case h_2 =>
      have hsame : ∀ watchdog, Session.standing { s with run := some { r with watchdog } } = s.standing := by
        intro watchdog
        rw [hstanding]
        rfl
      rw [hsame]
      exact .stay _ _
  | event =>
    simp only [react]
    cases hinbox : s.inbox with
    | nil => exact .stay _ _
    | cons e inbox =>
      simp only
      split
      case isTrue h => exact standing_hear u hrun hinbox h.1 h.2
      case isFalse h => exact standing_skip u hrun hinbox h
  | closed =>
    obtain ⟨hend, htold⟩ := standing_breakOff s r (.error .contextClosed)
    rw [react, hend, htold, hstanding]
    exact .close

/-- Whatever a session does is a step of its standing. -/
theorem standing_step (u : SessionSetup) (s : Session) (m : SessionMove) :
    Standing.Step u.startTimeoutMs m s.standing ((s.step u m).2.filter Occurrence.isAboutRun)
      ((s.sends u m).filter Event.isAboutJob) (s.step u m).1.standing := by
  cases m with
  | supersede => exact .supersede
  | notify => exact .stay _ _
  | submit input p => exact s.standing_submit u input p
  | preview input track =>
    obtain ⟨hsame, htold⟩ := s.standing_preview input track
    rw [step, hsame, htold]
    exact .stay _ _
  | work m =>
    rw [step, sends]
    split
    · exact .stay _ _
    · exact .work ((s.worker.load_move u.host _ m).behind _)
  | relay =>
    obtain ⟨hsame, htold⟩ := s.standing_relay
    rw [step, hsame, htold]
    exact .stay _ _
  | react signal =>
    rw [step]
    split
    case h_1 r hrun =>
      split
      · exact s.standing_react u hrun signal
      · exact .stay _ _
    · exact .stay _ _
  | lose => exact .stay _ _
  | elapse ms =>
    have hload : (s.step u (.elapse ms)).1.load = s.load.elapse ms := by
      rw [step, load, Worker.load_elapse]
      rfl
    rw [standing, standing, hload]
    exact .elapse

/-! ## Several steps -/

theorem steps_append (u : SessionSetup) (s : Session) (xs ys : List SessionMove) :
    s.steps u (xs ++ ys) =
      (((s.steps u xs).1.steps u ys).1, (s.steps u xs).2 ++ ((s.steps u xs).1.steps u ys).2) := by
  induction xs generalizing s with
  | nil => rfl
  | cons m xs ih => simp [steps, ih]

end Session

/-! ## A worker that does not wait -/

/-- A setup whose worker finds one stream of video in every source. It starts at once,
    reports one frame of two, and ends with a single byte. -/
def SessionSetup.prompt : SessionSetup where
  host := {
    backend := {
      name := "prompt"
      passthrough := false
      probe := fun input => .ok ⟨input, 1.0, [{ (default : Stream) with codec := "h264" }]⟩
      subtitles := fun _ _ => .ok []
      convert := fun _ => .started (.report ⟨0.5, some 1⟩ (.ok [7])) }
    launcher := fun _ => .error "nothing to start"
    interval := 0
    epoch := ⟨0, 0⟩ }
  startTimeoutMs := 30000
  threads := none

/-- A plan that leaves everything as it is, with a warning. -/
def Plan.bare : Plan :=
  ⟨[], ⟨"clip.mkv", .mkv, 0, [], []⟩, [.copyOverriddenByFilters], 1.0, true, none⟩

/-- A prompt worker from a request up to the report. -/
def Session.opening : List SessionMove :=
  .work .dispatch :: List.replicate 4 (.work (.advance 0))

/-- The next event is relayed, and the run reacts to it. -/
def Session.hearing : List SessionMove := [.relay, .react .event]

end VideoExport
