import VideoExport.Proofs.Session.Isolation

/-!
# Every preview is accounted for

Whatever happens at a preview gate, in whatever order and for however long, its
books balance: every id that was given out belongs either to the one request
that waits or to exactly one request that has ended, and a request ends by a
newer one, by its own result, or with all the others. Only what ends is
answered, with the result that it ended with, unless nobody wants to hear it.

* `PreviewGate.Action`, `PreviewGate.act`: what can happen at a gate;
* `PreviewGate.Step`, `PreviewGate.step_act`: the ways in which a gate changes;
* `PreviewGate.Ledger`: a gate with the books of all that happened at it;
* `Ledger.IsKept`, `Ledger.IsBalanced`: what holds of these;
* `Ledger.isBalanced_ofActions`: so it is whatever happens.
-/

namespace VideoExport.PreviewGate

variable {α : Type}

/-! ## Actions -/

/-- What can happen at a gate. -/
inductive Action (α : Type)
  | begin_
  | complete (id : UInt64) (value : α)
  | fail (id : UInt64) (reason : Failure)
  | abandon (reason : Failure)
  | drop (id : UInt64)

/-- The gate after an action, and the reply that reaches whoever waits for it. -/
def act (g : PreviewGate) : Action α → PreviewGate × Option (Reply α)
  | .begin_ => g.begin_
  | .complete id value => g.resolve id (.ok value)
  | .fail id reason => g.resolve id (.error reason)
  | .abandon reason => g.abandon reason
  | .drop id => ((g.drop id).1, none)

namespace Action

/-- Whether a request is begun. -/
def isBegin : Action α → Bool
  | begin_ => true
  | _ => false

/-- The id that is given out by an action that leads to a gate. -/
def given? (after : PreviewGate) : Action α → Option UInt64
  | begin_ => some after.lastId
  | _ => none

/-- The request that waits at a gate and whose answer nobody wants any more after
    an action. -/
def dropped? (before : PreviewGate) : Action α → Option UInt64
  | drop id => if (before.drop id).2 then some id else none
  | _ => none

/-- An action ends the request of an id, which then has a result. -/
inductive Ends : Action α → UInt64 → Except Failure α → Prop
  | superseded {id} : Ends begin_ id (.error (.superseded id))
  | completed {id value} : Ends (complete id value) id (.ok value)
  | failed {id reason} : Ends (fail id reason) id (.error reason)
  | abandoned {id reason} : Ends (abandon reason) id (.error reason)

end Action

/-! ## The ways in which a gate changes -/

/-- What an action may do with a gate, and the reply that it sends. -/
inductive Step : PreviewGate → Action α → PreviewGate → Option (Reply α) → Prop
  | stay {g a} (hbegin : a.isBegin = false) (hdrop : a.dropped? g = none) : Step g a g none
  | drop {n id} : Step ⟨n, some ⟨id, true⟩⟩ (.drop id) ⟨n, some ⟨id, false⟩⟩ none
  | finish {n p a result} (hbegin : a.isBegin = false) (h : a.Ends p.id result) :
    Step ⟨n, some p⟩ a ⟨n, none⟩ (answer p result)
  | begin_ {n} : Step ⟨n, none⟩ .begin_ ⟨n + 1, some ⟨n + 1, true⟩⟩ none
  | supersede {n p} :
    Step ⟨n, some p⟩ .begin_ ⟨n + 1, some ⟨n + 1, true⟩⟩ (answer p (.error (.superseded p.id)))

theorem resolve_id (n : UInt64) (p : PendingRequest) (result : Except Failure α) :
    resolve ⟨n, some p⟩ p.id result = (⟨n, none⟩, answer p result) := if_pos rfl

/-- A result goes to the request that waits for it, or nowhere. -/
theorem step_resolve (g : PreviewGate) {a : Action α} {id : UInt64} {result : Except Failure α}
    (hbegin : a.isBegin = false) (hdrop : a.dropped? g = none) (h : a.Ends id result) :
    Step g a (g.resolve id result).1 (g.resolve id result).2 := by
  by_cases hid : g.current = some id
  · obtain ⟨n, pending⟩ := g
    obtain ⟨p, rfl, rfl⟩ := Option.map_eq_some_iff.1 hid
    rw [resolve_id]
    exact .finish hbegin h
  · rw [resolve_of_ne hid]
    exact .stay hbegin hdrop

theorem step_act (g : PreviewGate) (a : Action α) : Step g a (g.act a).1 (g.act a).2 := by
  cases a with
  | begin_ =>
    obtain ⟨n, _ | p⟩ := g
    · exact .begin_
    · exact .supersede
  | complete id value => exact step_resolve g rfl rfl .completed
  | fail id reason => exact step_resolve g rfl rfl .failed
  | abandon reason =>
    obtain ⟨n, _ | p⟩ := g
    · exact .stay rfl rfl
    · exact .finish rfl .abandoned
  | drop id =>
    obtain ⟨n, _ | ⟨id', wanted⟩⟩ := g
    · exact .stay rfl rfl
    · by_cases h : id' = id ∧ wanted = true
      · obtain ⟨rfl, rfl⟩ := h
        simpa [act, PreviewGate.drop] using Step.drop
      · have hdrop : PreviewGate.drop ⟨n, some ⟨id', wanted⟩⟩ id = (⟨n, some ⟨id', wanted⟩⟩, false) :=
          if_neg h
        rw [act, hdrop]
        exact .stay rfl (by rw [Action.dropped?, hdrop]; rfl)

/-! ## Books -/

/-- A request that waits no longer: its id, the action that has ended it, and the
    reply that was sent with that. -/
structure Ending (α : Type) where
  id : UInt64
  cause : Action α
  reply : Option (Reply α)

/-- A gate with the books of what has happened at it: the ids that were given
    out, those of requests whose answers were given up while they waited, the
    requests that have ended, and the replies. -/
structure Ledger (α : Type) where
  gate : PreviewGate
  begun : List UInt64
  dropped : List UInt64
  ended : List (Ending α)
  replies : List (Reply α)

namespace Ledger

/-- The books of a gate at which nothing has happened. -/
def blank : Ledger α := ⟨empty, [], [], [], []⟩

/-- The request that waits at a gate and does not wait any more at another. -/
def over? (before after : PreviewGate) : Option UInt64 :=
  before.current.filter fun id => after.current ≠ some id

theorem over?_of_eq {before after : PreviewGate} (h : after.current = before.current) :
    over? before after = none := by
  rw [over?, h]
  cases before.current <;> simp

theorem over?_of_ne {before after : PreviewGate} {id : UInt64} (hbefore : before.current = some id)
    (hafter : after.current ≠ some id) : over? before after = some id := by
  rw [over?, hbefore, Option.filter_some, if_pos (decide_eq_true hafter)]

/-- The books after an action that has led to a gate and sent a reply. -/
def enter (l : Ledger α) (a : Action α) (next : PreviewGate) (reply : Option (Reply α)) :
    Ledger α where
  gate := next
  begun := l.begun ++ (a.given? next).toList
  dropped := l.dropped ++ (a.dropped? l.gate).toList
  ended := l.ended ++ ((over? l.gate next).map (⟨·, a, reply⟩)).toList
  replies := l.replies ++ reply.toList

/-- The books after one more action. -/
def record (l : Ledger α) (a : Action α) : Ledger α := l.enter a (l.gate.act a).1 (l.gate.act a).2

/-- The books of a gate at which these actions have happened. -/
def ofActions (as : List (Action α)) : Ledger α := as.foldl record blank

/-- Books in order. Ids are counted, and they are all accounted for; the gate
    knows which requests have been dropped. -/
structure IsKept (l : Ledger α) : Prop where
  /-- The last id is the number of requests that were begun. -/
  lastId : l.gate.lastId.toNat = l.begun.length
  le_lastId : ∀ id ∈ l.begun, id ≤ l.gate.lastId
  /-- Every id is larger than those before it. -/
  increasing : l.begun.Pairwise (· < ·)
  /-- The requests that were begun are those that have ended, in the same order,
      and the one that waits, if there is one. -/
  conserved : l.begun = l.ended.map (·.id) ++ l.gate.current.toList
  dropped_subset : l.dropped ⊆ l.begun
  wanted : ∀ p ∈ l.gate.pending, p.wanted = decide (p.id ∉ l.dropped)
  /-- A request ends with the result that its end gives to it, and this is sent
      unless nobody wants it. -/
  ended : ∀ e ∈ l.ended, ∃ result, e.cause.Ends e.id result ∧
    e.reply = if e.id ∈ l.dropped then none else some ⟨e.id, result⟩
  /-- Nothing is sent but to a request that ends. -/
  replies : l.replies = l.ended.filterMap (·.reply)

/-- What is superseded is so by a request that was begun later. -/
def SupersededByLater (l : Ledger α) : Prop :=
  ∀ e ∈ l.ended, e.cause.isBegin = true → ∃ id ∈ l.begun, e.id < id

/-- Books that balance. -/
structure IsBalanced (l : Ledger α) : Prop extends l.IsKept where
  later : l.SupersededByLater
  /-- Each request that was begun either waits or has ended, and that once. -/
  settled : ∀ id ∈ l.begun, (l.ended.map (·.id)).count id + l.gate.current.toList.count id = 1
  /-- The request that waits is the one that was begun last, unless that has
      ended. -/
  newest : ∀ id, l.gate.current = some id ↔
    l.begun.getLast? = some id ∧ ∀ e ∈ l.ended, e.id ≠ id
  /-- No request is answered twice. -/
  once : (l.replies.map (·.id)).Nodup
  /-- A result for any other request than the one that waits changes nothing and
      reaches nobody. -/
  stale : ∀ id (result : Except Failure α), l.gate.current ≠ some id →
    l.gate.resolve id result = (l.gate, none)
  /-- A result for the one that waits ends it, and reaches it unless it was
      dropped. -/
  awaited : ∀ id (result : Except Failure α), l.gate.current = some id →
    l.gate.resolve id result =
      (⟨l.gate.lastId, none⟩, if id ∈ l.dropped then none else some ⟨id, result⟩)
  /-- Whatever waits ends when it is abandoned, and is told why unless it was
      dropped. Then none waits. -/
  abandoned : ∀ reason, l.gate.abandon reason = (⟨l.gate.lastId, none⟩,
    l.gate.current.bind fun id =>
      if id ∈ l.dropped then none else some (⟨id, .error reason⟩ : Reply α))
  /-- A new request waits instead of the one before it, which is told so unless
      it was dropped. -/
  superseded : l.gate.begin_ = (⟨l.gate.lastId + 1, some ⟨l.gate.lastId + 1, true⟩⟩,
    l.gate.current.bind fun id =>
      if id ∈ l.dropped then none else some (⟨id, .error (.superseded id)⟩ : Reply α))

/-! ## What every action keeps -/

namespace IsKept

variable {l : Ledger α}

theorem nodup (h : l.IsKept) : l.begun.Nodup := h.increasing.imp fun hlt => UInt64.ne_of_lt hlt

/-- The request that waits has not ended. -/
theorem notMem_ended (h : l.IsKept) {id : UInt64} (hid : l.gate.current = some id) :
    id ∉ l.ended.map (·.id) := by
  have hnodup := h.nodup
  rw [h.conserved, hid, Option.toList_some, List.nodup_append] at hnodup
  exact fun hmem => hnodup.2.2 id hmem id (List.mem_singleton_self id) rfl

theorem current_mem (h : l.IsKept) {id : UInt64} (hid : l.gate.current = some id) : id ∈ l.begun := by
  rw [h.conserved, hid]
  simp

/-- What is sent to the request that waits if it ends. -/
theorem answer_eq (h : l.IsKept) {p : PendingRequest} (hp : l.gate.pending = some p)
    (result : Except Failure α) :
    answer p result = if p.id ∈ l.dropped then none else some ⟨p.id, result⟩ := by
  rw [answer, h.wanted p hp]
  by_cases hmem : p.id ∈ l.dropped <;> simp [hmem]

/-- What is sent to whichever request waits if it ends. -/
theorem bind_answer_eq (h : l.IsKept) (result : UInt64 → Except Failure α) :
    (l.gate.pending.bind fun p => answer p (result p.id)) =
      l.gate.current.bind fun id => if id ∈ l.dropped then none else some ⟨id, result id⟩ := by
  rw [current]
  cases hp : l.gate.pending with
  | none => rfl
  | some p => exact h.answer_eq hp (result p.id)

end IsKept

theorem isKept_blank : (blank : Ledger α).IsKept where
  lastId := rfl
  le_lastId := nofun
  increasing := .nil
  conserved := rfl
  dropped_subset := nofun
  wanted := nofun
  ended := nofun
  replies := rfl

theorem enter_stay (l : Ledger α) {a : Action α} (hbegin : a.isBegin = false)
    (hdrop : a.dropped? l.gate = none) : l.enter a l.gate none = l := by
  have hgiven : a.given? l.gate = none := by cases a <;> first | rfl | cases hbegin
  simp [enter, hgiven, hdrop, over?_of_eq]

namespace IsKept

variable {n : UInt64} {p : PendingRequest} {begun dropped : List UInt64}
  {ended : List (Ending α)} {replies : List (Reply α)}

theorem drop {id : UInt64} (h : IsKept ⟨⟨n, some ⟨id, true⟩⟩, begun, dropped, ended, replies⟩) :
    IsKept ⟨⟨n, some ⟨id, false⟩⟩, begun, dropped ++ [id], ended, replies⟩ where
  lastId := h.lastId
  le_lastId := h.le_lastId
  increasing := h.increasing
  conserved := h.conserved
  dropped_subset := List.append_subset.2 ⟨h.dropped_subset, by simpa using h.current_mem rfl⟩
  wanted := by rintro p ⟨⟩; simp
  ended := by
    intro e he
    obtain ⟨result, hends, hreply⟩ := h.ended e he
    -- The request waits, so it is none of those that have ended.
    have hne : e.id ≠ id := fun hid => h.notMem_ended rfl (List.mem_map.2 ⟨e, he, hid⟩)
    exact ⟨result, hends, by simpa [hne] using hreply⟩
  replies := h.replies

/-- The request that waits ends. -/
theorem finish {a : Action α} {result : Except Failure α}
    (h : IsKept ⟨⟨n, some p⟩, begun, dropped, ended, replies⟩) (hends : a.Ends p.id result) :
    IsKept ⟨⟨n, none⟩, begun, dropped, ended ++ [⟨p.id, a, answer p result⟩],
      replies ++ (answer p result).toList⟩ where
  lastId := h.lastId
  le_lastId := h.le_lastId
  increasing := h.increasing
  conserved := by simpa [current] using h.conserved
  dropped_subset := h.dropped_subset
  wanted := nofun
  ended := by
    simp only [List.mem_append, List.mem_singleton]
    rintro e (he | rfl)
    · exact h.ended e he
    · exact ⟨result, hends, h.answer_eq rfl result⟩
  replies := by
    rw [List.filterMap_append, ← h.replies]
    cases answer p result <;> rfl

/-- A request begins where none waits. -/
theorem begin_ (h : IsKept (α := α) ⟨⟨n, none⟩, begun, dropped, ended, replies⟩)
    (hbound : n.toNat + 1 < 2 ^ 64) :
    IsKept (α := α) ⟨⟨n + 1, some ⟨n + 1, true⟩⟩, begun ++ [n + 1], dropped, ended, replies⟩ where
  lastId := by
    have := h.lastId
    rw [toNat_add_one hbound, List.length_append, List.length_singleton]
    exact congrArg (· + 1) this
  le_lastId := by
    simp only [List.mem_append, List.mem_singleton]
    rintro id (hid | rfl)
    · exact UInt64.le_trans (h.le_lastId id hid) (UInt64.le_of_lt (lt_add_one hbound))
    · exact UInt64.le_refl _
  increasing := by
    rw [List.pairwise_append]
    refine ⟨h.increasing, List.pairwise_singleton _ _, fun id hid next hnext => ?_⟩
    rw [List.mem_singleton.1 hnext]
    exact UInt64.lt_of_le_of_lt (h.le_lastId id hid) (lt_add_one hbound)
  conserved := by simpa [current] using h.conserved
  dropped_subset := List.subset_append_of_subset_left _ h.dropped_subset
  wanted := by
    rintro p ⟨⟩
    have hnew : n + 1 ∉ dropped := fun hmem =>
      UInt64.not_le.2 (lt_add_one hbound) (h.le_lastId _ (h.dropped_subset hmem))
    simp [hnew]
  ended := h.ended
  replies := h.replies

/-- The next id is larger than that of the request that waits. -/
theorem lt_succ (h : IsKept (α := α) ⟨⟨n, some p⟩, begun, dropped, ended, replies⟩)
    (hbound : n.toNat + 1 < 2 ^ 64) : p.id < n + 1 :=
  UInt64.lt_of_le_of_lt (h.le_lastId _ (h.current_mem rfl)) (lt_add_one hbound)

/-- Books in order stay so whatever happens, as long as there are ids left. -/
theorem enter {l : Ledger α} {a : Action α} {next : PreviewGate} {reply : Option (Reply α)}
    (h : l.IsKept) (hstep : Step l.gate a next reply)
    (hbound : a.isBegin = true → l.begun.length + 1 < 2 ^ 64) : (l.enter a next reply).IsKept := by
  obtain ⟨gate, begun, dropped, ended, replies⟩ := l
  cases hstep with
  | stay hbegin hdrop =>
    rw [enter_stay _ hbegin hdrop]
    exact h
  | @drop n id =>
    have hdropped : Action.dropped? (α := α) ⟨n, some ⟨id, true⟩⟩ (.drop id) = some id := by
      simp [Action.dropped?, PreviewGate.drop]
    have hover : over? ⟨n, some ⟨id, true⟩⟩ ⟨n, some ⟨id, false⟩⟩ = none := over?_of_eq rfl
    simpa [Ledger.enter, hdropped, Action.given?, hover] using h.drop
  | @finish n p _ result hbegin hends =>
    have hgiven : a.given? ⟨n, none⟩ = none := by cases hends <;> first | rfl | cases hbegin
    have hdropped : a.dropped? ⟨n, some p⟩ = none := by cases hends <;> rfl
    have hover : over? ⟨n, some p⟩ ⟨n, none⟩ = some p.id := over?_of_ne rfl nofun
    simpa [Ledger.enter, hdropped, hgiven, hover] using h.finish hends
  | @begin_ n =>
    have hlast := h.lastId
    simpa [Ledger.enter, Action.dropped?, Action.given?, over?, current] using
      h.begin_ (hlast ▸ hbound rfl)
  | @supersede n p =>
    have hlast := h.lastId
    have hlt := h.lt_succ (hlast ▸ hbound rfl)
    have hover : over? ⟨n, some p⟩ ⟨n + 1, some ⟨n + 1, true⟩⟩ = some p.id :=
      over?_of_ne rfl fun he => UInt64.ne_of_lt hlt (Option.some.inj he).symm
    -- A newer request first ends the one that waits and then begins itself.
    simpa [Ledger.enter, Action.dropped?, Action.given?, hover] using
      (h.finish .superseded).begin_ (hlast ▸ hbound rfl)

/-- What supersedes a request has a larger id. -/
theorem later {l : Ledger α} {a : Action α} {next : PreviewGate} {reply : Option (Reply α)}
    (h : l.IsKept) (hlater : l.SupersededByLater) (hstep : Step l.gate a next reply)
    (hbound : a.isBegin = true → l.begun.length + 1 < 2 ^ 64) :
    (l.enter a next reply).SupersededByLater := by
  intro e he hbegin
  rcases List.mem_append.1 he with he | he
  · obtain ⟨id, hid, hlt⟩ := hlater e he hbegin
    exact ⟨id, List.mem_append_left _ hid, hlt⟩
  · obtain ⟨id, hover, rfl⟩ := Option.map_eq_some_iff.1 (Option.mem_toList.1 he)
    obtain ⟨gate, begun, dropped, ended, replies⟩ := l
    cases hstep with
    | stay hnot | finish hnot => exact absurd hbegin (by simp [hnot])
    | drop => cases hbegin
    | begin_ => cases hover
    | @supersede n p =>
      have hlast := h.lastId
      obtain ⟨hid, -⟩ := Option.filter_eq_some_iff.1 hover
      cases hid
      exact ⟨n + 1, List.mem_append_right _ (List.mem_singleton_self _),
        h.lt_succ (hlast ▸ hbound rfl)⟩

/-! ## Histories -/

/-- Books in order balance. -/
theorem isBalanced {l : Ledger α} (h : l.IsKept) (hlater : l.SupersededByLater) :
    l.IsBalanced where
  toIsKept := h
  later := hlater
  settled := by
    intro id hid
    rw [← List.count_append, ← h.conserved]
    exact List.count_eq_one_of_mem h.nodup hid
  newest := by
    intro id
    have hsplit := h.conserved
    constructor
    · intro hid
      refine ⟨by rw [hsplit, hid]; simp, fun e he heq => ?_⟩
      exact h.notMem_ended hid (List.mem_map.2 ⟨e, he, heq⟩)
    · rintro ⟨hlast, hended⟩
      cases hcurrent : l.gate.current with
      | some id' =>
        rw [hsplit, hcurrent] at hlast
        simpa using hlast
      | none =>
        -- If none waits, the one that was begun last is among those that have ended.
        rw [hsplit, hcurrent, Option.toList_none, List.append_nil] at hlast
        obtain ⟨e, he, heq⟩ := List.mem_map.1 (List.mem_of_getLast? hlast)
        exact absurd heq (hended e he)
  once := by
    have hids : l.replies.map (·.id) = (l.ended.map (·.id)).filter (· ∉ l.dropped) := by
      rw [h.replies, List.map_filterMap, ← List.filterMap_eq_filter, List.filterMap_map]
      refine List.filterMap_congr fun e he => ?_
      obtain ⟨result, -, hreply⟩ := h.ended e he
      by_cases hdropped : e.id ∈ l.dropped <;> simp [hreply, hdropped, Option.guard]
    have hnodup := h.nodup
    rw [h.conserved] at hnodup
    rw [hids]
    exact hnodup.of_append_left.filter _
  stale := fun id result hid => resolve_of_ne hid result
  awaited := by
    intro id result hid
    obtain ⟨p, hp, rfl⟩ := Option.map_eq_some_iff.1 hid
    rw [← h.answer_eq hp, resolve, hp]
    exact if_pos rfl
  abandoned := fun reason => congrArg (Prod.mk _) (h.bind_answer_eq fun _ => .error reason)
  superseded := congrArg (Prod.mk _) (h.bind_answer_eq fun id => .error (.superseded id))

end IsKept

theorem ofActions_concat (as : List (Action α)) (a : Action α) :
    ofActions (as ++ [a]) = (ofActions as).record a :=
  List.foldl_concat record blank a as

theorem length_begun (as : List (Action α)) :
    (ofActions as).begun.length = as.countP Action.isBegin := by
  induction as using List.reverseRecOn with
  | nil => rfl
  | append_singleton as a ih =>
    rw [ofActions_concat, record, enter, List.length_append, ih, List.countP_append]
    cases a <;> rfl

/-- Whatever happens at a gate keeps its books in order. -/
theorem isKept_ofActions (as : List (Action α)) (h : as.countP Action.isBegin < 2 ^ 64) :
    (ofActions as).IsKept ∧ (ofActions as).SupersededByLater := by
  induction as using List.reverseRecOn with
  | nil => exact ⟨isKept_blank, nofun⟩
  | append_singleton as a ih =>
    rw [List.countP_append] at h
    obtain ⟨hkept, hlater⟩ := ih (Nat.lt_of_le_of_lt (Nat.le_add_right _ _) h)
    have hstep := step_act (ofActions as).gate a
    have hbound : a.isBegin = true → (ofActions as).begun.length + 1 < 2 ^ 64 := by
      intro hbegin
      rwa [List.countP_singleton, if_pos hbegin, ← length_begun] at h
    rw [ofActions_concat]
    exact ⟨hkept.enter hstep hbound, hkept.later hlater hstep hbound⟩

/-- Whatever happens at a gate, its books balance, as long as there are ids left. -/
theorem isBalanced_ofActions (as : List (Action α)) (h : as.countP Action.isBegin < 2 ^ 64) :
    (ofActions as).IsBalanced :=
  (isKept_ofActions as h).1.isBalanced (isKept_ofActions as h).2

/-- So they do for a request that is superseded, one that is dropped before its
    result comes, late and early results, and one that is abandoned: this one is
    told so, and none waits until the next one begins. -/
theorem isBalanced_mixed :
    let before : List (Action ℕ) := [.begin_, .begin_, .complete 1 10, .drop 2, .complete 2 20,
      .begin_, .fail 4 .busy, .abandon .contextClosed]
    let as := before ++ [.begin_]
    as.countP Action.isBegin < 2 ^ 64 ∧ (ofActions as).IsBalanced ∧
      (ofActions as).begun = [1, 2, 3, 4] ∧
      (ofActions as).replies = [⟨1, .error (.superseded 1)⟩, ⟨3, .error .contextClosed⟩] ∧
      (ofActions before).gate.current = none ∧ (ofActions as).gate.current = some 4 := by
  intro before as
  have h : as.countP Action.isBegin < 2 ^ 64 := by decide
  exact ⟨h, isBalanced_ofActions as h, by decide +kernel, rfl, by decide +kernel,
    by decide +kernel⟩

end Ledger

end VideoExport.PreviewGate
