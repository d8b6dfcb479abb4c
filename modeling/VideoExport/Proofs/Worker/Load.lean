import Mathlib.Data.List.Basic
import VideoExport.Worker.Schedule

/-!
# The load of a worker

Of all that a worker has to do, only a part concerns jobs: the conversions that
it has been asked for and has not taken up, those that it has taken up, and the
events about them. Whatever the worker does next changes this part in one of
six ways, and extraction of subtitles leaves it alone.

* `Load`: what concerns jobs, `Worker.load`: this part of a worker;
* `Worker.sends`: the events that a step sends;
* `Load.Step`: what a step may do, `Worker.load_move`: that it does nothing else;
* `Load.Step.jobIds_subset`: no step invents a job.
-/

namespace VideoExport

/-! ## What concerns jobs -/

namespace Request

/-- The job that a request asks for; previews ask for none. -/
def jobId? : Request → Option UInt64
  | transcode id _ _ _ _ => some id
  | extractSubtitles _ _ _ => none

/-- Whether a request is for a conversion. -/
def isAboutJob (r : Request) : Bool := r.jobId?.isSome

end Request

/-- Whether an event is about a job. -/
def Event.isAboutJob (e : Event) : Bool := e.jobId?.isSome

theorem Event.jobId?_error (id : UInt64) (message : String) (issues : List TrackIssue) :
    (Event.error id message issues).jobId? = some id := rfl

/-- Whether nothing is left but the last event. -/
def Stage.isClosing : Stage → Bool
  | closing _ => true
  | _ => false

namespace Conversion

/-- The request that a conversion carries out. -/
def order (c : Conversion) : Request :=
  .transcode c.jobId c.input c.directives c.output c.expectedDuration

/-- A conversion after so many milliseconds. -/
def elapse (ms : ℕ) (c : Conversion) : Conversion :=
  match c.stage with
  | .probing rest => { c with stage := .probing (rest.elapse ms) }
  | .converting p begun rest => { c with stage := .converting p begun (rest.elapse ms) }
  | .converted _ | .closing _ => c

theorem jobId?_order (c : Conversion) : c.order.jobId? = some c.jobId := rfl

@[simp] theorem order_elapse (ms : ℕ) (c : Conversion) : (c.elapse ms).order = c.order := by
  unfold elapse
  split <;> rfl

@[simp] theorem jobId_elapse (ms : ℕ) (c : Conversion) : (c.elapse ms).jobId = c.jobId := by
  unfold elapse
  split <;> rfl

@[simp] theorem isClosing_elapse (ms : ℕ) (c : Conversion) :
    (c.elapse ms).stage.isClosing = c.stage.isClosing := by
  unfold elapse
  split <;> simp_all [Stage.isClosing]

end Conversion

/-- The conversion that a task is, if it is one. -/
def Task.conversion? : Task → Option Conversion
  | conversion c => some c
  | extraction _ _ => none

theorem Task.conversion?_elapse (ms : ℕ) (t : Task) :
    (t.elapse ms).conversion? = t.conversion?.map (Conversion.elapse ms) := by
  cases t with
  | extraction => rfl
  | conversion c =>
    rw [Task.elapse, conversion?, Option.map_some, Conversion.elapse]
    split <;> simp_all [conversion?]

/-- What a worker has to do with jobs: the conversions that it has not taken up,
    those that it has, whether it can take up another one, and the events that
    have not been read. -/
@[ext]
structure Load where
  orders : List Request
  conversions : List Conversion
  busy : Bool
  news : List Event

namespace Load

/-- Nothing to do. -/
def none : Load := ⟨[], [], false, []⟩

/-- A load after so many milliseconds. -/
def elapse (ms : ℕ) (l : Load) : Load :=
  { l with conversions := l.conversions.map (Conversion.elapse ms) }

/-- The jobs that a worker has to do with. -/
def jobIds (l : Load) : List UInt64 :=
  l.orders.filterMap Request.jobId? ++ l.conversions.map Conversion.jobId ++
    l.news.filterMap Event.jobId?

theorem jobIds_elapse (ms : ℕ) (l : Load) : (l.elapse ms).jobIds = l.jobIds := by
  simp [jobIds, elapse, Function.comp_def]

/-- Reading brings up no job. -/
theorem jobIds_subset_of_suffix {l : Load} {news : List Event} (h : news <:+ l.news) :
    jobIds { l with news } ⊆ l.jobIds := by
  intro id
  have hnews := (h.filterMap Event.jobId?).subset (a := id)
  simp only [jobIds, List.mem_append]
  tauto

/-- A request brings up its own job and no other one. -/
theorem mem_jobIds_of_order {l : Load} {r : Request} {id : UInt64}
    (h : id ∈ jobIds { l with orders := l.orders ++ [r] }) : id ∈ l.jobIds ∨ r.jobId? = some id := by
  simp only [jobIds, List.filterMap_append, List.mem_append, List.mem_filterMap,
    List.mem_singleton, exists_eq_left] at h ⊢
  rcases h with ((h | h) | h) | h
  · exact .inl (.inl (.inl h))
  · exact .inr h
  · exact .inl (.inl (.inr h))
  · exact .inl (.inr h)

end Load

namespace Worker

/-- The part of a worker that concerns jobs. -/
def load (w : Worker) : Load :=
  ⟨w.requests.filter Request.isAboutJob, w.tasks.filterMap Task.conversion?, w.busy,
    w.events.filter Event.isAboutJob⟩

theorem load_post (w : Worker) (r : Request) :
    (w.post r).load = { w.load with orders := w.load.orders ++ [r].filter Request.isAboutJob } := by
  simp [load, post]

theorem load_elapse (ms : ℕ) (w : Worker) : (w.elapse ms).load = w.load.elapse ms := by
  simp [load, elapse, Load.elapse, List.filterMap_map, List.map_filterMap, Task.conversion?_elapse]

/-- The events that a step sends. -/
def sends (h : Host) (now : ℕ) (w : Worker) (m : WorkerMove) : List Event :=
  (w.move h now m).events.drop w.events.length

end Worker

/-! ## Texts of failures -/

theorem head?_append (lead : String) {c : Char} (h : lead.toList.head? = some c) (rest : String) :
    (lead ++ rest).toList.head? = some c := by
  rw [String.toList_append, List.head?_append, h]
  rfl

/-- The text of a failure begins with a capital letter. -/
theorem Failure.exists_head?_message (f : Failure) :
    ∃ c, f.message.toList.head? = some c ∧ c.isUpper = true := by
  cases f with
  | badArguments => exact ⟨'B', head?_append "Bad arguments: " rfl _, rfl⟩
  | invalidSettings => exact ⟨'I', head?_append "Invalid export settings: " rfl _, rfl⟩
  | unsupportedCodec => exact ⟨'U', head?_append "Unsupported codec: " rfl _, rfl⟩
  | unknownPreset => exact ⟨'U', head?_append "Unknown preset: " rfl _, rfl⟩
  | probeFailed => exact ⟨'P', head?_append "Probe failed: " rfl _, rfl⟩
  | invalidPlan => exact ⟨'I', head?_append "Invalid export plan: " rfl _, rfl⟩
  | notStarted =>
    exact ⟨'C', head?_append _ (head?_append "Conversion did not start within " rfl _) _, rfl⟩
  | conversion => exact ⟨'C', head?_append "Conversion failed: " rfl _, rfl⟩
  | busy => exact ⟨'A', rfl, rfl⟩
  | superseded => exact ⟨'R', head?_append _ (head?_append "Request " rfl _) _, rfl⟩
  | contextClosed => exact ⟨'E', rfl, rfl⟩
  | backend => exact ⟨'B', head?_append "Backend error: " rfl _, rfl⟩
  | configuration => exact ⟨'C', head?_append "Configuration error: " rfl _, rfl⟩
  | document => exact ⟨'J', rfl, rfl⟩
  | file => exact ⟨'I', head?_append "I/O error: " rfl _, rfl⟩

/-- No failure has the text that tells that another job is running. -/
theorem Failure.message_ne_busyMessage (f : Failure) : f.message ≠ busyMessage := by
  obtain ⟨c, hhead, hupper⟩ := f.exists_head?_message
  intro h
  rw [h] at hhead
  cases hhead
  cases hupper

/-! ## What a step does -/

namespace Load

/-- What a step of a worker may do with its load, and the events about jobs that
    it sends. -/
inductive Step : Load → List Event → Load → Prop
  | stay (l : Load) : Step l [] l
  /-- A conversion is taken up. -/
  | takeUp {orders conversions news} {c : Conversion} (hstage : c.stage.isClosing = false) :
    Step ⟨c.order :: orders, conversions, false, news⟩ []
      ⟨orders, conversions ++ [c], true, news⟩
  /-- A conversion is turned down. -/
  | turnDown {orders conversions news} (c : Conversion) :
    Step ⟨c.order :: orders, conversions, true, news⟩ [.error c.jobId busyMessage []]
      ⟨orders, conversions, true, news ++ [.error c.jobId busyMessage []]⟩
  /-- A conversion goes on. -/
  | goOn {orders front back busy news} {c : Conversion} {stage : Stage} {event : Option Event}
    (hstage : c.stage.isClosing = false) (hnext : stage.isClosing = false)
    (hevent : ∀ e ∈ event, e.jobId? = some c.jobId ∧ e.isTerminal = false) :
    Step ⟨orders, front ++ c :: back, busy, news⟩ event.toList
      ⟨orders, front ++ { c with stage } :: back, busy, news ++ event.toList⟩
  /-- A conversion has come to its end, so that another one can be taken up. -/
  | release {orders front back busy news} {c : Conversion} {result : Except Failure Bytes}
    (hstage : c.stage = .converted result) :
    Step ⟨orders, front ++ c :: back, busy, news⟩ []
      ⟨orders, front ++ { c with stage := .closing result } :: back, false, news⟩
  /-- The last event of a conversion is sent. -/
  | finish {orders front back busy news} {c : Conversion} {result : Except Failure Bytes}
    (hstage : c.stage = .closing result) :
    Step ⟨orders, front ++ c :: back, busy, news⟩ [c.terminal result]
      ⟨orders, front ++ back, busy, news ++ [c.terminal result]⟩

end Load

namespace Conversion

theorem jobId?_terminal (c : Conversion) (result : Except Failure Bytes) :
    (c.terminal result).jobId? = some c.jobId := by
  unfold terminal
  split <;> rfl

theorem isTerminal_terminal (c : Conversion) (result : Except Failure Bytes) :
    (c.terminal result).isTerminal = true := by
  unfold terminal
  split <;> rfl

/-- A conversion that has been taken up does not end as if it had been turned down. -/
theorem terminal_ne_busy {c : Conversion} {result : Except Failure Bytes} {id : UInt64}
    {issues : List TrackIssue} : c.terminal result ≠ .error id busyMessage issues := by
  intro h
  unfold terminal at h
  split at h
  · cases h
  all_goals exact Failure.message_ne_busyMessage _ (Event.error.inj h).2.1

theorem relay_event {h : Host} {now begun : ℕ} {c : Conversion} {p : Progress} {effect : Effect}
    {e : Event} (he : e ∈ (c.relay h now begun p effect).2) :
    e.jobId? = some c.jobId ∧ e.isTerminal = false := by
  cases effect with
  | silent => cases he
  | started =>
    simp only [relay] at he
    split at he
    · cases he
      exact ⟨rfl, rfl⟩
    · cases he
  | reported s =>
    simp only [relay, Option.mem_def, Option.map_eq_some_iff] at he
    obtain ⟨u, -, rfl⟩ := he
    exact ⟨rfl, rfl⟩

theorem isClosing_judge (h : Host) (now : ℕ) (c : Conversion) (source : Source) :
    (c.judge h now source).isClosing = false := by
  simp only [judge]
  split <;> rfl

/-- A step of a conversion takes it to another stage, ends it, or sends its last
    event. -/
theorem advance_cases (h : Host) (now : ℕ) (hungUp : Bool) (c : Conversion) :
    (∃ stage event, c.advance h now hungUp = c.reach stage event ∧ c.stage.isClosing = false ∧
        stage.isClosing = false ∧ ∀ e ∈ event, e.jobId? = some c.jobId ∧ e.isTerminal = false) ∨
      (∃ result, c.stage = .converted result ∧
        c.advance h now hungUp = { c.reach (.closing result) none with frees := true }) ∨
      ∃ result, c.stage = .closing result ∧
        c.advance h now hungUp = ⟨none, some (c.terminal result), false⟩ := by
  cases hstage : c.stage with
  | probing rest =>
    left
    simp only [advance, hstage]
    split
    · exact ⟨_, _, rfl, rfl, rfl, by simp⟩
    · exact ⟨_, _, rfl, rfl, c.isClosing_judge h now _, by simp⟩
    · exact ⟨_, _, rfl, rfl, rfl, by simp⟩
  | converting p begun rest =>
    left
    simp only [advance, hstage]
    split
    · exact ⟨_, _, rfl, rfl, rfl, fun e he => relay_event he⟩
    · exact ⟨_, _, rfl, rfl, rfl, by simp⟩
    · exact ⟨_, _, rfl, rfl, rfl, by simp⟩
  | converted result => exact .inr (.inl ⟨result, rfl, by rw [advance, hstage]⟩)
  | closing result => exact .inr (.inr ⟨result, rfl, by rw [advance, hstage]⟩)

end Conversion

/-- What stands before and behind the element at a place. -/
theorem exists_append_of_getElem? {α : Type} {l : List α} {i : ℕ} {a : α} (h : l[i]? = some a) :
    ∃ front back, l = front ++ a :: back ∧ (∀ b, l.set i b = front ++ b :: back) ∧
      l.eraseIdx i = front ++ back := by
  obtain ⟨hi, rfl⟩ := List.getElem?_eq_some_iff.1 h
  refine ⟨l.take i, l.drop (i + 1), ?_, fun b => ?_, List.eraseIdx_eq_take_drop_succ l i⟩
  · rw [← List.drop_eq_getElem_cons hi, List.take_append_drop]
  · rw [List.set_eq_take_append_cons_drop, if_pos hi]

namespace Worker

theorem load_dispatch (h : Host) (w : Worker) :
    ∃ sent, (w.dispatch h).events = w.events ++ sent ∧
      Load.Step w.load (sent.filter Event.isAboutJob) (w.dispatch h).load := by
  obtain ⟨requests, busy, tasks, events, hungUp⟩ := w
  cases requests with
  | nil => exact ⟨[], by simp [dispatch], .stay _⟩
  | cons r rest =>
    cases r with
    | extractSubtitles id input track =>
      refine ⟨[], by simp [dispatch, take], ?_⟩
      have hload : (dispatch h ⟨.extractSubtitles id input track :: rest, busy, tasks, events, hungUp⟩).load =
          load ⟨.extractSubtitles id input track :: rest, busy, tasks, events, hungUp⟩ := by
        simp [dispatch, take, load, Request.isAboutJob, Request.jobId?, Task.conversion?]
      rw [hload]
      exact .stay _
    | transcode id input directives output duration =>
      let c : Conversion := ⟨id, input, directives, output, duration, .probing (h.backend.probe input)⟩
      cases busy with
      | false =>
        refine ⟨[], by simp [dispatch, take], ?_⟩
        have := @Load.Step.takeUp (rest.filter Request.isAboutJob) (tasks.filterMap Task.conversion?)
          (events.filter Event.isAboutJob) c rfl
        simpa [dispatch, take, load, List.filter_cons, Request.isAboutJob, Request.jobId?,
          Task.conversion?, c, Conversion.order] using this
      | true =>
        refine ⟨[.error id busyMessage []], by simp [dispatch, take, send], ?_⟩
        have := @Load.Step.turnDown (rest.filter Request.isAboutJob)
          (tasks.filterMap Task.conversion?) (events.filter Event.isAboutJob) c
        simpa [dispatch, take, send, load, List.filter_cons, Request.isAboutJob, Request.jobId?,
          Event.isAboutJob, Event.jobId?, Task.conversion?, c, Conversion.order] using this

theorem load_settle {w : Worker} {place : ℕ} {front back : List Task} {s : TaskStep}
    (hset : ∀ b, w.tasks.set place b = front ++ b :: back)
    (herase : w.tasks.eraseIdx place = front ++ back) :
    (w.settle place s).load =
      ⟨w.load.orders, front.filterMap Task.conversion? ++ (s.rest.bind Task.conversion?).toList ++
        back.filterMap Task.conversion?, w.busy && !s.frees,
        w.load.news ++ s.event.toList.filter Event.isAboutJob⟩ := by
  have htasks : (w.settle place s).tasks = front ++ s.rest.toList ++ back := by
    rw [settle, send]
    cases s.rest with
    | none => simp [herase]
    | some t => simp [hset]
  rw [load, htasks]
  cases hrest : s.rest with
  | none => simp [settle, send, load]
  | some t => cases ht : t.conversion? <;> simp [settle, send, load, ht]

theorem load_advance (h : Host) (now : ℕ) (w : Worker) (place : ℕ) :
    ∃ sent, (w.advance h now place).events = w.events ++ sent ∧
      Load.Step w.load (sent.filter Event.isAboutJob) (w.advance h now place).load := by
  rw [advance]
  cases ht : w.tasks[place]? with
  | none => exact ⟨[], by simp, .stay _⟩
  | some t =>
    refine ⟨(t.advance h now w.hungUp).event.toList, rfl, ?_⟩
    obtain ⟨front, back, htasks, hset, herase⟩ := exists_append_of_getElem? ht
    have hload : w.load = ⟨w.load.orders, front.filterMap Task.conversion? ++ t.conversion?.toList ++
        back.filterMap Task.conversion?, w.busy, w.load.news⟩ := by
      rw [load, htasks]
      cases hc : t.conversion? <;> simp [hc]
    simp only [load_settle hset herase]
    rw [hload]
    cases t with
    | extraction id rest =>
      -- Neither the task nor its answer concerns a job.
      simp only [Task.advance]
      split
      · simpa [Task.conversion?] using Load.Step.stay _
      · rename_i result _
        cases result <;>
          simpa [Task.conversion?, Task.reply, List.filter_cons, Event.isAboutJob, Event.jobId?] using
            Load.Step.stay _
    | conversion c =>
      have habout : ∀ {e : Event}, e.jobId? = some c.jobId → e.isAboutJob = true := by
        intro e he
        rw [Event.isAboutJob, he]
        rfl
      rcases c.advance_cases h now w.hungUp with
        ⟨stage, event, hadvance, hstage, hnext, hevent⟩ | ⟨result, hstage, hadvance⟩ |
        ⟨result, hstage, hadvance⟩
      · have hsent : event.toList.filter Event.isAboutJob = event.toList :=
          List.filter_eq_self.2 fun e he => habout (hevent e (Option.mem_toList.1 he)).1
        simpa [Task.advance, hadvance, Conversion.reach, Task.conversion?, hsent] using
          Load.Step.goOn hstage hnext hevent
      · simpa [Task.advance, hadvance, Conversion.reach, Task.conversion?] using
          Load.Step.release hstage
      · simpa [Task.advance, hadvance, Task.conversion?, List.filter_cons,
          habout (c.jobId?_terminal result)] using Load.Step.finish hstage

theorem exists_load_move (h : Host) (now : ℕ) (w : Worker) (m : WorkerMove) :
    ∃ sent, (w.move h now m).events = w.events ++ sent ∧
      Load.Step w.load (sent.filter Event.isAboutJob) (w.move h now m).load := by
  cases m with
  | dispatch => exact w.load_dispatch h
  | advance place => exact w.load_advance h now place

/-- Events are only ever added. -/
theorem events_move (h : Host) (now : ℕ) (w : Worker) (m : WorkerMove) :
    (w.move h now m).events = w.events ++ w.sends h now m := by
  obtain ⟨sent, hsent, -⟩ := w.exists_load_move h now m
  rw [sends, hsent, List.drop_left]

/-- Whatever a worker does is a step of its load. -/
theorem load_move (h : Host) (now : ℕ) (w : Worker) (m : WorkerMove) :
    Load.Step w.load ((w.sends h now m).filter Event.isAboutJob) (w.move h now m).load := by
  obtain ⟨sent, hsent, hstep⟩ := w.exists_load_move h now m
  rwa [sends, hsent, List.drop_left]

end Worker

/-! ## What steps leave alone -/

namespace Load.Step

variable {l l' : Load} {sent : List Event}

/-- What is sent waits to be read. -/
theorem news_eq (h : Step l sent l') : l'.news = l.news ++ sent := by
  cases h <;> simp

/-- It makes no difference to a step what there is to be read before. -/
theorem behind (h : Step l sent l') (news : List Event) :
    Step { l with news := news ++ l.news } sent { l' with news := news ++ l'.news } := by
  cases h with
  | stay => exact .stay _
  | takeUp hstage => exact .takeUp hstage
  | turnDown c =>
    simp only [← List.append_assoc]
    exact .turnDown c
  | goOn hstage hnext hevent =>
    simp only [← List.append_assoc news]
    exact .goOn hstage hnext hevent
  | release hstage => exact .release hstage
  | finish hstage =>
    simp only [← List.append_assoc news]
    exact .finish hstage

/-- No step invents a job. -/
theorem jobIds_subset (h : Step l sent l') : l'.jobIds ⊆ l.jobIds := by
  intro id
  cases h with
  | stay => exact fun hid => hid
  | takeUp | turnDown | release | finish =>
    simp only [jobIds, List.filterMap_cons, List.filterMap_nil, List.filterMap_append, List.map_append,
      List.map_cons, List.map_nil, List.mem_append, List.mem_cons, List.not_mem_nil, or_false,
      Conversion.jobId?_order, Conversion.jobId?_terminal, Event.jobId?_error]
    tauto
  | goOn hstage hnext hevent =>
    simp only [jobIds, List.filterMap_append, List.map_append, List.map_cons, List.mem_append,
      List.mem_cons]
    rintro ((hid | hid) | hid | hid)
    · tauto
    · tauto
    · tauto
    · -- What is sent is about the job of the conversion.
      obtain ⟨e, he, heid⟩ := List.mem_filterMap.1 hid
      rw [(hevent e (Option.mem_toList.1 he)).1] at heid
      exact .inl (.inr (.inr (.inl (Option.some.inj heid).symm)))

end Load.Step

end VideoExport
