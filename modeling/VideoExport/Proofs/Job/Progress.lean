import VideoExport.Job.Progress
import VideoExport.Proofs.Number.Order

/-!
# Progress over a whole conversion

Whoever converts starts and reports; whoever looks on asks for an interval, for the end,
or to be told. In whatever order this happens and whatever is reported, what is shown
is the largest share so far, and whoever has asked to be told hears what everybody hears.

* `Tracker.Call`, `Tracker.act`, `Tracker.run`: what may be asked of a tracker;
* `Progress.HasHeard`: what is shown after some reports;
* `Tracker.passed`, `Tracker.begins`: what listeners are told in the course of some calls;
* `Tracker.getElem?_listeners_run`: every listener is told this;
* `Tracker.isFaithful_start`: the tracker of a conversion is faithful.
-/

namespace VideoExport

open Number

/-! ## Reports -/

/-- The largest share so far, between nothing and all, with all that belongs to it. -/
structure Progress.HasHeard (p : Progress) (ss : List Sample) : Prop where
  fraction : ∃ m, IsGreatest (exactValues (ss.map (·.fraction))) m ∧
    HasAmount p.latest.fraction (min m 1)
  mediaTime : p.latest.mediaTime = p.latest.fraction * p.expectedDuration
  frames : p.latest.frames = (ss.filterMap (·.frames)).getLast?
  lastShown : ss = [] → p.lastShown = none

namespace Progress

/-- A share is a number between nothing and all; what is no number is nothing. -/
theorem hasAmount_share (x : Float) :
    HasAmount (share x) (if x.isFinite = true then min (max (exactValue x) 0) 1 else 0) := by
  have hzero : HasAmount 0.0 0 := hasAmount_zero unpack_zero
  have hone := hasAmount_one
  rw [share]
  by_cases hx : x.isFinite = true
  · rw [if_pos hx, if_pos hx]
    have hlow : x < 0.0 ↔ exactValue x < 0 := by
      rw [lt_iff_exactValue hx hzero.isFinite, hzero.exactValue_eq]
    have hhigh : 1.0 < x ↔ 1 < exactValue x := by
      rw [lt_iff_exactValue hone.isFinite hx, hone.exactValue_eq]
    by_cases hneg : exactValue x < 0
    · rw [if_pos (hlow.2 hneg), max_eq_right hneg.le, min_eq_left zero_le_one]
      exact hzero
    · rw [if_neg (mt hlow.1 hneg), max_eq_left (not_lt.1 hneg)]
      by_cases hmore : 1 < exactValue x
      · rw [if_pos (hhigh.2 hmore), min_eq_right hmore.le]
        exact hone
      · rw [if_neg (mt hhigh.1 hmore), min_eq_left (not_lt.1 hmore)]
        have hnonneg : 0.0 ≤ x := by
          rw [le_iff_exactValue hzero.isFinite hx, hzero.exactValue_eq]
          exact not_lt.1 hneg
        obtain ⟨q, hq⟩ := exists_hasAmount hx hnonneg
        exact hq.exactValue_eq ▸ hq
  · rw [if_neg hx, if_neg hx]
    exact hzero

theorem latest_accept (p : Progress) (now : ℕ) (s : Sample) :
    (p.accept now s).1.latest = p.update now s := by
  rw [accept]
  split <;> rfl

/-- With a report the share becomes the larger one of what it was and what is reported. -/
theorem hasAmount_update {p : Progress} {xs : List Float} {m : ℚ}
    (hm : IsGreatest (exactValues xs) m) (h : HasAmount p.latest.fraction (min m 1)) (now : ℕ)
    (s : Sample) : HasAmount (p.update now s).fraction
      (min (if s.fraction.isFinite = true then max (exactValue s.fraction) m else m) 1) := by
  have hpos : 0 ≤ m := hm.2 (.inl rfl)
  have hmax : max (min m 1)
        (if s.fraction.isFinite = true then min (max (exactValue s.fraction) 0) 1 else 0) =
      min (if s.fraction.isFinite = true then max (exactValue s.fraction) m else m) 1 := by
    split_ifs
    · rw [← min_max_distrib_right, max_left_comm, max_eq_left hpos]
    · exact max_eq_left (le_min hpos zero_le_one)
  exact hmax ▸ h.larger (hasAmount_share s.fraction)

theorem HasHeard.accept {p : Progress} {ss : List Sample} (h : p.HasHeard ss) (now : ℕ)
    (s : Sample) : (p.accept now s).1.HasHeard (ss ++ [s]) where
  fraction := by
    obtain ⟨m, hm, hamount⟩ := h.fraction
    rw [latest_accept, List.map_append]
    exact ⟨_, isGreatest_exactValues_concat hm s.fraction, hasAmount_update hm hamount now s⟩
  mediaTime := by
    rw [Progress.accept]
    split <;> rfl
  frames := by
    rw [latest_accept, List.filterMap_append, List.getLast?_append, ← h.frames]
    show (s.frames <|> p.latest.frames) = _
    rcases hs : s.frames with _ | n <;> simp [hs]
  lastShown := by simp

/-- Nothing of a conversion takes no time, however long it should last. -/
theorem hasHeard_start (d : Float) : (start d).HasHeard [] where
  fraction := by
    refine ⟨0, isGreatest_exactValues_nil, ?_⟩
    rw [min_eq_left zero_le_one]
    exact hasAmount_zero unpack_zero
  mediaTime := by
    show 0.0 = 0.0 * (if d.isFinite && 0.0 < d then d else 0.0 : Float)
    split_ifs with h
    · rw [Bool.and_eq_true, decide_eq_true_eq] at h
      obtain ⟨q, m, e, hc, hd, -⟩ := exists_hasValue h.1 h.2
      show 0.0 = Number.packed (.mul .binary64 (0.0 : Float).toModel.unpack d.toModel.unpack)
      rw [hd, unpack_zero]
      rfl
    · rfl
  frames := rfl
  lastShown := fun _ => rfl

end Progress

namespace Tracker

/-! ## Calls -/

/-- What may be asked of a tracker. -/
inductive Call
  | started
  | report (now : ℕ) (s : Sample)
  | setInterval (nanoseconds : ℕ)
  | cancel
  | listen

/-- The report that is made. -/
def Call.sample? : Call → Option Sample
  | report _ s => some s
  | _ => none

def Call.isStarted : Call → Bool
  | started => true
  | _ => false

def Call.isListen : Call → Bool
  | listen => true
  | _ => false

/-- One call. -/
def act (t : Tracker) : Call → Tracker
  | .started => t.started
  | .report now s => t.report now s
  | .setInterval nanoseconds => t.setInterval nanoseconds
  | .cancel => t.cancel
  | .listen => t.listen

/-- The tracker after several calls. -/
def run (t : Tracker) (cs : List Call) : Tracker := cs.foldl act t

/-- The update that listeners are told of in one call. -/
def passed? (t : Tracker) : Call → Option ProgressUpdate
  | .report now s => (t.progress.accept now s).2
  | _ => none

/-- The updates that listeners are told of in the course of several calls. -/
def passed (t : Tracker) : List Call → List ProgressUpdate
  | [] => []
  | c :: cs => (t.passed? c).toList ++ (t.act c).passed cs

/-- How often listeners are told of the start in the course of several calls. -/
def begins (t : Tracker) (cs : List Call) : ℕ :=
  if !t.progress.started && cs.any Call.isStarted then 1 else 0

end Tracker

/-- A listener who is told of the start so many times, and of some updates. -/
def Listener.hear (l : Listener) (n : ℕ) (us : List ProgressUpdate) : Listener :=
  { l with starts := l.starts + n, updates := l.updates ++ us }

@[simp] theorem Listener.hear_zero_nil (l : Listener) : l.hear 0 [] = l := by simp [hear]

theorem Listener.hear_hear (l : Listener) (m n : ℕ) (us vs : List ProgressUpdate) :
    (l.hear m us).hear n vs = l.hear (m + n) (us ++ vs) := by
  simp [hear, Nat.add_assoc]

namespace Tracker

variable {t : Tracker} {cs : List Call}

theorem run_append (t : Tracker) (before after : List Call) :
    t.run (before ++ after) = (t.run before).run after :=
  List.foldl_append

/-- A report is taken note of, and passed on to all listeners or to none. -/
theorem report_eq (t : Tracker) (now : ℕ) (s : Sample) :
    t.report now s = ⟨(t.progress.accept now s).1,
      t.listeners.map (·.hear 0 (t.progress.accept now s).2.toList)⟩ := by
  rw [report]
  rcases t.progress.accept now s with ⟨p, _ | u⟩
  · simp
  · rfl

/-! ## Listeners -/

/-- With a call all listeners are told the same, and there may be one more. -/
theorem listeners_act (t : Tracker) (c : Call) :
    (t.act c).listeners = t.listeners.map (·.hear (t.begins [c]) (t.passed? c).toList) ++
      if c.isListen then [⟨0, [], false⟩] else [] := by
  rcases c with _ | ⟨now, s⟩ | n | _ | _
  case setInterval | cancel | listen =>
    simp [act, begins, passed?, Call.isStarted, Call.isListen, setInterval, cancel, listen]
  case started =>
    by_cases h : t.progress.started = true <;>
      simp [act, started, Progress.begin_, begins, passed?, Call.isStarted, Call.isListen, h,
        Listener.hear]
  case report => simp [act, report_eq, begins, passed?, Call.isStarted, Call.isListen]

theorem started_act (t : Tracker) (c : Call) :
    (t.act c).progress.started = (t.progress.started || c.isStarted) := by
  rcases c with _ | ⟨now, s⟩ | n | _ | _
  case started => simp [act, started, Progress.begin_, Call.isStarted]
  case setInterval | cancel | listen => simp [act, Call.isStarted, setInterval, cancel, listen]
  case report =>
    have hc : (Call.report now s).isStarted = false := rfl
    rw [hc, Bool.or_false, act, report_eq, Progress.accept]
    split <;> rfl

theorem started_run (t : Tracker) (cs : List Call) :
    (t.run cs).progress.started = (t.progress.started || cs.any Call.isStarted) := by
  induction cs generalizing t with
  | nil => simp [run]
  | cons c cs ih => rw [run, List.foldl_cons, ← run, ih, started_act, List.any_cons, Bool.or_assoc]

theorem any_isStarted : cs.any Call.isStarted = true ↔ .started ∈ cs := by
  rw [List.any_eq_true]
  constructor
  · rintro ⟨c, hc, hstarted⟩
    match c, hstarted with
    | .started, _ => exact hc
  · exact fun h => ⟨_, h, rfl⟩

theorem started_run_start (d : Float) (cs : List Call) :
    ((start d).run cs).progress.started = true ↔ .started ∈ cs := by
  rw [started_run, ← any_isStarted]
  rfl

theorem begins_le_one (t : Tracker) (cs : List Call) : t.begins cs ≤ 1 := by
  rw [begins]
  split <;> decide

theorem begins_eq_one_iff :
    t.begins cs = 1 ↔ ¬t.progress.started = true ∧ .started ∈ cs := by
  rw [← any_isStarted, begins]
  split_ifs with h <;> simpa using h

/-- Listeners are told of the first start only. -/
theorem begins_cons (t : Tracker) (c : Call) (cs : List Call) :
    t.begins (c :: cs) = t.begins [c] + (t.act c).begins cs := by
  cases ht : t.progress.started <;> cases hc : c.isStarted <;>
    simp [begins, started_act, ht, hc]

/-- A listener is told what is passed on in the course of the calls, and nothing else. -/
theorem getElem?_listeners_run {k : ℕ} {l : Listener} (h : t.listeners[k]? = some l)
    (cs : List Call) : (t.run cs).listeners[k]? = some (l.hear (t.begins cs) (t.passed cs)) := by
  induction cs generalizing t l with
  | nil => simpa [run, begins, passed] using h
  | cons c cs ih =>
    have hact : (t.act c).listeners[k]? = some (l.hear (t.begins [c]) (t.passed? c).toList) := by
      have hk : k < (t.listeners.map (·.hear (t.begins [c]) (t.passed? c).toList)).length := by
        rw [List.length_map]
        exact (List.getElem?_eq_some_iff.1 h).1
      rw [listeners_act, List.getElem?_append_left hk, List.getElem?_map, h, Option.map_some]
    rw [run, List.foldl_cons, ← run, ih hact, Listener.hear_hear, ← begins_cons, passed]

theorem length_listeners_run (t : Tracker) (cs : List Call) :
    (t.run cs).listeners.length = t.listeners.length + cs.countP Call.isListen := by
  induction cs generalizing t with
  | nil => rfl
  | cons c cs ih =>
    have hact : (t.act c).listeners.length = t.listeners.length + if c.isListen then 1 else 0 := by
      rw [listeners_act, List.length_append, List.length_map]
      split <;> rfl
    rw [run, List.foldl_cons, ← run, ih, hact, List.countP_cons]
    omega

/-- A listener who comes in the course of some calls is the next one, and is told what
    is passed on from then on. -/
theorem getElem?_listeners_listen {d : Float} (before after : List Call) :
    ((start d).run (before ++ .listen :: after)).listeners[before.countP Call.isListen]? =
      some (Listener.hear ⟨0, [], false⟩ (((start d).run (before ++ [.listen])).begins after)
        (((start d).run (before ++ [.listen])).passed after)) := by
  have hlength : ((start d).run before).listeners.length = before.countP Call.isListen := by
    rw [length_listeners_run, start, List.length_nil, Nat.zero_add]
  have hlisten : ((start d).run (before ++ [.listen])).listeners =
      ((start d).run before).listeners ++ [⟨0, [], false⟩] := by
    rw [run_append]
    rfl
  rw [List.append_cons, run_append]
  refine getElem?_listeners_run ?_ after
  rw [hlisten, ← hlength, List.getElem?_concat_length]

/-! ## What is shown -/

/-- The reports among some calls. -/
def samples (cs : List Call) : List Sample := cs.filterMap Call.sample?

theorem samples_concat (cs : List Call) (c : Call) :
    samples (cs ++ [c]) = samples cs ++ c.sample?.toList := by
  rw [samples, List.filterMap_append, ← samples]
  rcases c with _ | _ | _ | _ | _ <;> rfl

theorem expectedDuration_act (t : Tracker) (c : Call) :
    (t.act c).progress.expectedDuration = t.progress.expectedDuration := by
  rcases c with _ | ⟨now, s⟩ | n | _ | _
  case started | setInterval | cancel | listen => rfl
  case report =>
    rw [act, report_eq, Progress.accept]
    split <;> rfl

theorem expectedDuration_run (t : Tracker) (cs : List Call) :
    (t.run cs).progress.expectedDuration = t.progress.expectedDuration := by
  induction cs generalizing t with
  | nil => rfl
  | cons c cs ih => rw [run, List.foldl_cons, ← run, ih, expectedDuration_act]

theorem hasHeard_act (h : t.progress.HasHeard (samples cs)) (c : Call) :
    (t.act c).progress.HasHeard (samples (cs ++ [c])) := by
  rw [samples_concat]
  rcases c with _ | ⟨now, s⟩ | n | _ | _
  case started | setInterval | cancel | listen =>
    show Progress.HasHeard _ (samples cs ++ [])
    rw [List.append_nil]
    exact ⟨h.fraction, h.mediaTime, h.frames, h.lastShown⟩
  case report =>
    rw [act, report_eq]
    exact h.accept now s

theorem hasHeard_run (d : Float) (cs : List Call) :
    ((start d).run cs).progress.HasHeard (samples cs) := by
  induction cs using List.reverseRecOn with
  | nil => exact Progress.hasHeard_start d
  | append_singleton cs c ih =>
    rw [run_append]
    exact hasHeard_act ih c

/-- The first report and every report of all that there is are passed on. -/
theorem passed?_report (h : t.progress.HasHeard (samples cs)) (now : ℕ) (s : Sample)
    (hdue : samples cs = [] ∨ 1.0 ≤ (t.report now s).progress.latest.fraction) :
    t.passed? (.report now s) = some (t.report now s).progress.latest := by
  rw [report_eq, Progress.latest_accept] at hdue ⊢
  have hdue : t.progress.isDue now (t.progress.update now s) = true := by
    rw [Progress.isDue, Bool.or_eq_true, decide_eq_true_eq]
    rcases hdue with hnone | hall
    · exact .inr (by rw [h.lastShown hnone]; rfl)
    · exact .inl hall
  rw [passed?, Progress.accept, if_pos hdue]

/-- What is shown in the course of some calls never goes back. -/
theorem fraction_le {d : Float} (before after : List Call) :
    ((start d).run before).progress.latest.fraction ≤
      ((start d).run (before ++ after)).progress.latest.fraction := by
  obtain ⟨m, hm, hbefore⟩ := (hasHeard_run d before).fraction
  obtain ⟨n, hn, hafter⟩ := (hasHeard_run d (before ++ after)).fraction
  rw [samples, List.filterMap_append, List.map_append] at hn
  have hle : m ≤ n := hm.mono hn (exactValues_subset_append _ _)
  rw [le_iff_exactValue hbefore.isFinite hafter.isFinite, hbefore.exactValue_eq,
    hafter.exactValue_eq]
  exact min_le_min_right 1 hle

/-- The tracker of a conversion that should last `d` seconds is faithful in the course
    of some calls. -/
structure IsFaithful (d : Float) (cs : List Call) : Prop where
  /-- What is shown is the largest of zero and the finite shares that were reported, or
      all if that is less. -/
  fraction : ∃ m, IsGreatest (exactValues ((samples cs).map (·.fraction))) m ∧
    HasAmount ((start d).run cs).progress.latest.fraction (min m 1)
  bounds : 0.0 ≤ ((start d).run cs).progress.latest.fraction ∧
    ((start d).run cs).progress.latest.fraction ≤ 1.0
  /-- What is shown never goes back. -/
  forward : ∀ before after, cs = before ++ after →
    ((start d).run before).progress.latest.fraction ≤
      ((start d).run cs).progress.latest.fraction
  /-- The position is this share of the time that the conversion should take, which is
      none if `d` is no number above zero. -/
  mediaTime : ∃ e, (e = if d.isFinite && 0.0 < d then d else 0.0) ∧ 0.0 ≤ e ∧
    ((start d).run cs).progress.latest.mediaTime =
      ((start d).run cs).progress.latest.fraction * e
  /-- The number of frames is the one that was reported last. -/
  frames : ((start d).run cs).progress.latest.frames =
    ((samples cs).filterMap (·.frames)).getLast?
  /-- A listener is told of the start, once, if the first one comes after the listener;
      and of the updates that are passed on from then on. -/
  listeners : ∀ before after, cs = before ++ .listen :: after →
    ∃ l, ((start d).run cs).listeners[before.countP Call.isListen]? = some l ∧
      l.starts ≤ 1 ∧ (l.starts = 1 ↔ .started ∉ before ∧ .started ∈ after) ∧
      l.updates = ((start d).run (before ++ [.listen])).passed after
  /-- With a report all listeners are told of the same update, or none of any. -/
  same : ∀ now s, (((start d).run cs).report now s).listeners =
    ((start d).run cs).listeners.map
      (·.hear 0 (((start d).run cs).passed? (.report now s)).toList)
  /-- They are told with the first report, and with every one after which all is shown. -/
  due : ∀ now s, (samples cs = [] ∨
      1.0 ≤ (((start d).run cs).report now s).progress.latest.fraction) →
    ((start d).run cs).passed? (.report now s) =
      some (((start d).run cs).report now s).progress.latest

/-- Every tracker is faithful, whatever is asked of it, in whatever order and at whatever
    times. -/
theorem isFaithful_start (d : Float) (cs : List Call) : IsFaithful d cs where
  fraction := (hasHeard_run d cs).fraction
  bounds := by
    obtain ⟨m, -, hamount⟩ := (hasHeard_run d cs).fraction
    refine ⟨hamount.nonneg, ?_⟩
    rw [le_iff_exactValue hamount.isFinite hasAmount_one.isFinite, hamount.exactValue_eq,
      hasAmount_one.exactValue_eq]
    exact min_le_right m 1
  forward := by
    rintro before after rfl
    exact fraction_le before after
  mediaTime := by
    refine ⟨_, rfl, ?_, ?_⟩
    · split_ifs with h
      · rw [Bool.and_eq_true, decide_eq_true_eq] at h
        exact zero_le_of_lt h.1 h.2
      · exact (hasAmount_zero unpack_zero).nonneg
    · rw [(hasHeard_run d cs).mediaTime, expectedDuration_run]
      rfl
  frames := (hasHeard_run d cs).frames
  listeners := by
    rintro before after rfl
    refine ⟨_, getElem?_listeners_listen before after, ?_, ?_, rfl⟩
    · rw [Listener.hear, Nat.zero_add]
      exact begins_le_one _ _
    · rw [Listener.hear, Nat.zero_add, begins_eq_one_iff, started_run_start]
      simp
  same := by
    intro now s
    rw [report_eq]
    rfl
  due := passed?_report (hasHeard_run d cs)

end Tracker
end VideoExport
