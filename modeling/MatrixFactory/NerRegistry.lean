/-
# Next-event requests and timers

The registry of next-event requests in `MainSimulator` (`submitNER`, `removeNER`,
`issueTimeAdvanceGrant`) with the timers of `TimerArtifact` that share it
(`startTimer`, `cancelTimer`, `evaluateTTLs`).  The registry has one slot for each
agent name, so a timer of a station agent takes the slot in which the latch of that
agent's own `processOrder` waits.  `latch_counted_iff` says when a latch survives.
-/
import MatrixFactory.Lib.PriorityQueue
import MatrixFactory.Lib.Runs
import Mathlib.Data.Rat.Lemmas
import Mathlib.Algebra.Order.Field.Rat
import Mathlib.Tactic.Linarith

namespace MatrixFactory

/-- `NEREntry`; a latch is given by a number. -/
structure NEREntry where
  agentId : String
  requestedNextTime : ℚ
  tagLatch : Option ℕ
  deriving DecidableEq, Repr

/-- `TimerEntry`. -/
structure TimerEntry where
  orderId : String
  fireAtSimTime : ℚ
  targetAgentId : String
  deriving DecidableEq, Repr

/-- The order of `timerQueue`. -/
def TimerEntry.Le (a b : TimerEntry) : Prop := a.fireAtSimTime ≤ b.fireAtSimTime

instance : DecidableRel TimerEntry.Le := fun a b => by unfold TimerEntry.Le; infer_instance

instance : IsTrans TimerEntry TimerEntry.Le where
  trans _ _ _ := le_trans

instance : Std.Total TimerEntry.Le where
  total a b := le_total a.fireAtSimTime b.fireAtSimTime

/-- The clock, `nerRegistry` (a map, held as a list with one entry for each agent), the
timers, the latches counted down so far and the signals `timer_expired`. -/
structure NerState where
  currentTime : ℚ
  nerRegistry : List NEREntry
  timerQueue : List TimerEntry
  countedDown : List ℕ
  timerExpired : List (String × String)

namespace NerState

/-- `submitNER`. -/
def submitNER (agentId : String) (requestedNextTime : ℚ) (tagLatch : Option ℕ)
    (s : NerState) : NerState :=
  { s with
    nerRegistry := ⟨agentId, requestedNextTime, tagLatch⟩ ::
      s.nerRegistry.filter (·.agentId ≠ agentId) }

/-- `removeNER`. -/
def removeNER (agentId : String) (s : NerState) : NerState :=
  { s with nerRegistry := s.nerRegistry.filter (·.agentId ≠ agentId) }

/-- `startTimer`. -/
def startTimer (pq : PriorityQueue TimerEntry TimerEntry.Le) (orderId : String) (ttlMs : ℤ)
    (agentId : String) (s : NerState) : NerState :=
  let fireAt := s.currentTime + ttlMs / 1000
  submitNER agentId fireAt none
    { s with timerQueue := pq.offer ⟨orderId, fireAt, agentId⟩ s.timerQueue }

/-- `cancelTimer`. -/
def cancelTimer (orderId agentId : String) (s : NerState) : NerState :=
  removeNER agentId
    { s with
      timerQueue := s.timerQueue.filter fun e =>
        ¬ (e.orderId = orderId ∧ e.targetAgentId = agentId) }

/-- The loop of `evaluateTTLs`, with the length of the queue as its bound. -/
def fireTimers (pq : PriorityQueue TimerEntry TimerEntry.Le) (simTime : ℚ) :
    ℕ → NerState → NerState
  | 0, s => s
  | bound + 1, s =>
    match pq.poll s.timerQueue with
    | none => s
    | some (e, rest) =>
      if e.fireAtSimTime ≤ simTime then
        fireTimers pq simTime bound
          (removeNER e.targetAgentId
            { s with
              timerQueue := rest
              timerExpired := (e.orderId, e.targetAgentId) :: s.timerExpired })
      else s

/-- `evaluateTTLs`. -/
def evaluateTTLs (pq : PriorityQueue TimerEntry TimerEntry.Le) (simTime : ℚ)
    (s : NerState) : NerState :=
  fireTimers pq simTime s.timerQueue.length s

/-- `issueTimeAdvanceGrant`. -/
def issueTimeAdvanceGrant (time : ℚ) (s : NerState) : NerState :=
  { s with
    countedDown := (s.nerRegistry.filter fun e => e.requestedNextTime ≤ time).filterMap
      (·.tagLatch) ++ s.countedDown }

end NerState

/-- The operations on registry, timers and clock. -/
inductive NerOp where
  | submitNER (agentId : String) (requestedNextTime : ℚ) (tagLatch : Option ℕ)
  | removeNER (agentId : String)
  | startTimer (orderId : String) (ttlMs : ℤ) (agentId : String)
  | cancelTimer (orderId agentId : String)
  | evaluateTTLs (simTime : ℚ)
  | advanceClock (time : ℚ)
  | issueTimeAdvanceGrant (time : ℚ)

namespace NerState

/-- One operation. -/
def exec (pq : PriorityQueue TimerEntry TimerEntry.Le) : NerOp → NerState → NerState
  | .submitNER agentId t latch, s => s.submitNER agentId t latch
  | .removeNER agentId, s => s.removeNER agentId
  | .startTimer orderId ttlMs agentId, s => s.startTimer pq orderId ttlMs agentId
  | .cancelTimer orderId agentId, s => s.cancelTimer orderId agentId
  | .evaluateTTLs simTime, s => s.evaluateTTLs pq simTime
  | .advanceClock time, s => { s with currentTime := time }
  | .issueTimeAdvanceGrant time, s => s.issueTimeAdvanceGrant time

/-- The operation is a call under the agent's name, or finds a due timer of the
agent. -/
def UsesSlot (agentId : String) (s : NerState) : NerOp → Prop
  | .submitNER a _ _ => a = agentId
  | .removeNER a => a = agentId
  | .startTimer _ _ a => a = agentId
  | .cancelTimer _ a => a = agentId
  | .evaluateTTLs simTime =>
    ∃ e ∈ s.timerQueue, e.targetAgentId = agentId ∧ e.fireAtSimTime ≤ simTime
  | _ => False

instance (agentId : String) (s : NerState) : DecidablePred (s.UsesSlot agentId) := fun op => by
  cases op <;> unfold UsesSlot <;> infer_instance

variable {pq : PriorityQueue TimerEntry TimerEntry.Le}

/-! ## What the timers do to the registry -/

/-- The loop drops the entries of the agents that have a due timer. -/
theorem mem_fireTimers {simTime : ℚ} {bound : ℕ} {s : NerState}
    (hb : s.timerQueue.length ≤ bound) (e : NEREntry) :
    e ∈ (fireTimers pq simTime bound s).nerRegistry ↔
      e ∈ s.nerRegistry ∧
        ∀ t ∈ s.timerQueue, t.fireAtSimTime ≤ simTime → t.targetAgentId ≠ e.agentId := by
  induction bound generalizing s with
  | zero =>
    have hnil : s.timerQueue = [] := List.eq_nil_of_length_eq_zero (by omega)
    simp [fireTimers, hnil]
  | succ bound ih =>
    rw [fireTimers]
    rcases hpoll : pq.poll s.timerQueue with _ | ⟨t, rest⟩
    · rw [pq.poll_eq_none_iff.mp hpoll]
      simp
    · dsimp only
      have hlen := pq.length_of_poll hpoll
      split
      · next hdue =>
        rw [ih (by simp only [removeNER]; omega)]
        simp only [removeNER, List.mem_filter, decide_eq_true_eq]
        constructor
        · rintro ⟨⟨he, hne⟩, hrest⟩
          refine ⟨he, fun t' ht' hd => ?_⟩
          rcases (pq.mem_of_poll hpoll t').mp ht' with rfl | ht'
          · exact Ne.symm hne
          · exact hrest t' ht' hd
        · rintro ⟨he, hall⟩
          exact ⟨⟨he, Ne.symm (hall t ((pq.mem_of_poll hpoll t).mpr (Or.inl rfl)) hdue)⟩,
            fun t' ht' => hall t' ((pq.mem_of_poll hpoll t').mpr (Or.inr ht'))⟩
      · next hdue =>
        refine ⟨fun he => ⟨he, fun t' ht' hd => ?_⟩, And.left⟩
        have hle := pq.poll_least _ _ _ hpoll t' ht'
        exact absurd (le_trans hle hd) hdue

theorem countedDown_fireTimers (simTime : ℚ) (bound : ℕ) (s : NerState) :
    (fireTimers pq simTime bound s).countedDown = s.countedDown := by
  induction bound generalizing s with
  | zero => rfl
  | succ bound ih =>
    rw [fireTimers]
    split
    · rfl
    · split
      · exact ih _
      · rfl

/-! ## A waiting latch -/

/-- The entry holds the agent's slot, and is the only one with its latch, which has not
been counted down. -/
structure Waiting (e : NEREntry) (latch : ℕ) (s : NerState) : Prop where
  entry : e ∈ s.nerRegistry
  holds : e.tagLatch = some latch
  slot : ∀ e' ∈ s.nerRegistry, e'.agentId = e.agentId → e' = e
  only : ∀ e' ∈ s.nerRegistry, e'.tagLatch = some latch → e' = e
  open_ : latch ∉ s.countedDown

/-- No entry has the latch, and it has not been counted down. -/
structure Lost (latch : ℕ) (s : NerState) : Prop where
  entry : ∀ e ∈ s.nerRegistry, e.tagLatch ≠ some latch
  open_ : latch ∉ s.countedDown

/-- The operation neither submits the latch again nor grants a time from `t` on. -/
def Before (t : ℚ) (latch : ℕ) : NerOp → Prop
  | .submitNER _ _ l => l ≠ some latch
  | .issueTimeAdvanceGrant time => time < t
  | _ => True

instance (t : ℚ) (latch : ℕ) : DecidablePred (Before t latch) := fun op => by
  cases op <;> unfold Before <;> infer_instance

/-- What an operation that precedes the grant leaves of the registry: a part of it, and
perhaps a new entry without the latch. -/
theorem exec_registry {t : ℚ} {latch : ℕ} {op : NerOp} (hop : Before t latch op) {s : NerState}
    {e : NEREntry} (he : e ∈ (exec pq op s).nerRegistry) :
    e ∈ s.nerRegistry ∨ (e.tagLatch ≠ some latch ∧ s.UsesSlot e.agentId op) := by
  cases op with
  | submitNER a r l =>
    rcases List.mem_cons.mp he with rfl | he
    · exact Or.inr ⟨hop, rfl⟩
    · exact Or.inl (List.mem_of_mem_filter he)
  | removeNER a => exact Or.inl (List.mem_of_mem_filter he)
  | startTimer o ttl a =>
    rcases List.mem_cons.mp he with rfl | he
    · exact Or.inr ⟨by simp, rfl⟩
    · exact Or.inl (List.mem_of_mem_filter he)
  | cancelTimer o a => exact Or.inl (List.mem_of_mem_filter he)
  | evaluateTTLs simTime => exact Or.inl ((mem_fireTimers le_rfl e).mp he).1
  | advanceClock time => exact Or.inl he
  | issueTimeAdvanceGrant time => exact Or.inl he

/-- An entry stays unless the operation uses its slot. -/
theorem mem_exec_of_not_usesSlot {op : NerOp} {s : NerState} {e : NEREntry}
    (he : e ∈ s.nerRegistry) (hu : ¬ s.UsesSlot e.agentId op) :
    e ∈ (exec pq op s).nerRegistry := by
  cases op with
  | submitNER a r l =>
    exact List.mem_cons_of_mem _ (List.mem_filter.mpr ⟨he, by simpa using Ne.symm hu⟩)
  | removeNER a => exact List.mem_filter.mpr ⟨he, by simpa using Ne.symm hu⟩
  | startTimer o ttl a =>
    exact List.mem_cons_of_mem _ (List.mem_filter.mpr ⟨he, by simpa using Ne.symm hu⟩)
  | cancelTimer o a => exact List.mem_filter.mpr ⟨he, by simpa using Ne.symm hu⟩
  | evaluateTTLs simTime =>
    refine (mem_fireTimers le_rfl e).mpr ⟨he, fun t ht hdue htarget => hu ⟨t, ht, htarget, hdue⟩⟩
  | advanceClock time => exact he
  | issueTimeAdvanceGrant time => exact he

variable (pq) in
/-- An operation that uses the slot drops the entry. -/
theorem notMem_exec_of_usesSlot {t : ℚ} {latch : ℕ} {op : NerOp} (hop : Before t latch op)
    {s : NerState} {e : NEREntry} (hl : e.tagLatch = some latch)
    (hu : s.UsesSlot e.agentId op) : e ∉ (exec pq op s).nerRegistry := by
  intro he
  cases op with
  | submitNER a r l =>
    rcases List.mem_cons.mp he with rfl | he
    · exact hop hl
    · exact absurd hu.symm (by simpa using (List.mem_filter.mp he).2)
  | removeNER a => exact absurd hu.symm (by simpa using (List.mem_filter.mp he).2)
  | startTimer o ttl a =>
    rcases List.mem_cons.mp he with rfl | he
    · simp at hl
    · exact absurd hu.symm (by simpa using (List.mem_filter.mp he).2)
  | cancelTimer o a => exact absurd hu.symm (by simpa using (List.mem_filter.mp he).2)
  | evaluateTTLs simTime =>
    obtain ⟨τ, hτ, htarget, hdue⟩ := hu
    exact ((mem_fireTimers le_rfl e).mp he).2 τ hτ hdue htarget
  | advanceClock time => exact hu
  | issueTimeAdvanceGrant time => exact hu

/-- Before the grant, no operation counts down the latch of a waiting or lost entry. -/
theorem open_exec {t : ℚ} {latch : ℕ} {op : NerOp} (hop : Before t latch op) {s : NerState}
    (hopen : latch ∉ s.countedDown)
    (hdue : ∀ e ∈ s.nerRegistry, e.tagLatch = some latch → t ≤ e.requestedNextTime) :
    latch ∉ (exec pq op s).countedDown := by
  cases op with
  | issueTimeAdvanceGrant time =>
    intro hmem
    rcases List.mem_append.mp hmem with hmem | hmem
    · obtain ⟨e, he, hl⟩ := List.mem_filterMap.mp hmem
      obtain ⟨he, hle⟩ := List.mem_filter.mp he
      have hreq := hdue e he hl
      have hlt : time < t := hop
      have hle : e.requestedNextTime ≤ time := by simpa using hle
      linarith
    · exact hopen hmem
  | evaluateTTLs simTime =>
    show latch ∉ (fireTimers pq simTime _ s).countedDown
    rwa [countedDown_fireTimers]
  | _ => exact hopen

theorem Waiting.exec {e : NEREntry} {latch : ℕ} {s : NerState} (h : Waiting e latch s) {op : NerOp}
    (hop : Before e.requestedNextTime latch op) (hu : ¬ s.UsesSlot e.agentId op) :
    Waiting e latch (exec pq op s) where
  entry := mem_exec_of_not_usesSlot h.entry hu
  holds := h.holds
  slot e' he' hid := by
    rcases exec_registry hop he' with he' | ⟨-, hu'⟩
    · exact h.slot e' he' hid
    · exact absurd (hid ▸ hu') hu
  only e' he' hl := by
    rcases exec_registry hop he' with he' | ⟨hne, -⟩
    · exact h.only e' he' hl
    · exact absurd hl hne
  open_ := open_exec hop h.open_ fun e' he' hl => (h.only e' he' hl).symm ▸ le_rfl

theorem Waiting.lost {e : NEREntry} {latch : ℕ} {s : NerState} (h : Waiting e latch s) {op : NerOp}
    (hop : Before e.requestedNextTime latch op) (hu : s.UsesSlot e.agentId op) :
    Lost latch (NerState.exec pq op s) where
  entry e' he' hl := by
    have hdrop := notMem_exec_of_usesSlot pq hop h.holds hu
    rcases exec_registry hop he' with hmem | ⟨hne, -⟩
    · exact hdrop (h.only e' hmem hl ▸ he')
    · exact hne hl
  open_ := open_exec hop h.open_ fun e' he' hl => (h.only e' he' hl).symm ▸ le_rfl

theorem Lost.exec {t : ℚ} {latch : ℕ} {s : NerState} (h : Lost latch s) {op : NerOp}
    (hop : Before t latch op) : Lost latch (NerState.exec pq op s) where
  entry e he := by
    rcases exec_registry hop he with he | ⟨hne, -⟩
    · exact h.entry e he
    · exact hne
  open_ := open_exec hop h.open_ fun e he hl => absurd hl (h.entry e he)

theorem Lost.run {t : ℚ} {latch : ℕ} {ops : List NerOp} (hops : ∀ op ∈ ops, Before t latch op)
    {s : NerState} (h : Lost latch s) : Lost latch (Runs.run (NerState.exec pq) ops s) := by
  induction ops generalizing s with
  | nil => exact h
  | cons op ops ih =>
    exact ih (fun o ho => hops o (List.mem_cons_of_mem _ ho)) (h.exec (hops op List.mem_cons_self))

variable (pq) in
/-- A run keeps the entry waiting as long as no operation uses its slot, and loses the
latch otherwise. -/
theorem Waiting.run {e : NEREntry} {latch : ℕ} {ops : List NerOp}
    (hops : ∀ op ∈ ops, Before e.requestedNextTime latch op) {s : NerState}
    (h : Waiting e latch s) :
    (Runs.Along (NerState.exec pq) (fun s op => ¬ s.UsesSlot e.agentId op) s ops ∧
        Waiting e latch (Runs.run (NerState.exec pq) ops s)) ∨
      (¬ Runs.Along (NerState.exec pq) (fun s op => ¬ s.UsesSlot e.agentId op) s ops ∧
        Lost latch (Runs.run (NerState.exec pq) ops s)) := by
  induction ops generalizing s with
  | nil => exact Or.inl ⟨trivial, h⟩
  | cons op ops ih =>
    have hop := hops op List.mem_cons_self
    have hrest := fun o ho => hops o (List.mem_cons_of_mem op ho)
    by_cases hu : s.UsesSlot e.agentId op
    · exact Or.inr ⟨fun halong => halong.1 hu, (h.lost hop hu).run hrest⟩
    · rcases ih hrest (h.exec hop hu) with ⟨halong, hw⟩ | ⟨halong, hl⟩
      · exact Or.inl ⟨⟨hu, halong⟩, hw⟩
      · exact Or.inr ⟨fun hall => halong hall.2, hl⟩

/-- The latch is new to the state. -/
def Fresh (latch : ℕ) (s : NerState) : Prop :=
  latch ∉ s.countedDown ∧ ∀ e ∈ s.nerRegistry, e.tagLatch ≠ some latch

theorem waiting_submitNER {latch : ℕ} {s : NerState} (h : s.Fresh latch) (agentId : String)
    (t : ℚ) : Waiting ⟨agentId, t, some latch⟩ latch (s.submitNER agentId t (some latch)) where
  entry := List.mem_cons_self
  holds := rfl
  slot e he hid := by
    rcases List.mem_cons.mp he with rfl | he
    · rfl
    · exact absurd hid (by simpa using (List.mem_filter.mp he).2)
  only e he hl := by
    rcases List.mem_cons.mp he with rfl | he
    · rfl
    · exact absurd hl (h.2 e (List.mem_of_mem_filter he))
  open_ := h.1

/-- **The first grant from the requested time on counts a latch down exactly when no
operation in between uses the slot of its agent.** -/
theorem latch_counted_iff (pq : PriorityQueue TimerEntry TimerEntry.Le) {s : NerState}
    {agentId : String} {t : ℚ} {latch : ℕ} (hfresh : s.Fresh latch) {ops : List NerOp}
    (hops : ∀ op ∈ ops, Before t latch op) {time : ℚ} (htime : t ≤ time) :
    latch ∈ (Runs.run (exec pq) (.submitNER agentId t (some latch) :: ops ++
        [.issueTimeAdvanceGrant time]) s).countedDown ↔
      Runs.Along (exec pq) (fun s op => ¬ s.UsesSlot agentId op)
        (s.submitNER agentId t (some latch)) ops := by
  rw [List.cons_append, Runs.run_cons, Runs.run_append, Runs.run_cons, Runs.run_nil]
  have hwait := waiting_submitNER hfresh agentId t
  rcases hwait.run pq hops with ⟨halong, hw⟩ | ⟨halong, hl⟩
  · refine iff_of_true (List.mem_append_left _ (List.mem_filterMap.mpr ⟨_, ?_, hw.holds⟩)) halong
    exact List.mem_filter.mpr ⟨hw.entry, by simpa using htime⟩
  · refine iff_of_false (fun hmem => ?_) halong
    rcases List.mem_append.mp hmem with hmem | hmem
    · obtain ⟨e, he, hlatch⟩ := List.mem_filterMap.mp hmem
      exact hl.entry e (List.mem_of_mem_filter he) hlatch
    · exact hl.open_ hmem

/-- The registry and the timers at the start. -/
def initial : NerState := ⟨0, [], [], [], []⟩

/-- The timer of another agent fires in between. -/
theorem latch_counted_iff_other :
    (0 : ℕ) ∈ (Runs.run (exec (.scan _)) (.submitNER "station_1" 10 (some 0) ::
        [.startTimer "ORD-1" 3000 "order_1", .advanceClock 3, .evaluateTTLs 3] ++
        [.issueTimeAdvanceGrant 10]) initial).countedDown ↔
      Runs.Along (exec (.scan _)) (fun s op => ¬ s.UsesSlot "station_1" op)
        (initial.submitNER "station_1" 10 (some 0))
        [.startTimer "ORD-1" 3000 "order_1", .advanceClock 3, .evaluateTTLs 3] :=
  latch_counted_iff _ ⟨by simp [initial], by simp [initial]⟩ (by decide) le_rfl

/-- A station that is suspended while it processes ORD-1 cancels a timer under its own
name, and with it the request its `processOrder` waits on. -/
theorem not_latch_counted :
    ¬ ∀ (pq : PriorityQueue TimerEntry TimerEntry.Le) (s : NerState) (agentId : String) (t : ℚ)
      (latch : ℕ) (ops : List NerOp) (time : ℚ), s.Fresh latch →
        (∀ op ∈ ops, Before t latch op) → t ≤ time →
        latch ∈ (Runs.run (exec pq) (.submitNER agentId t (some latch) :: ops ++
          [.issueTimeAdvanceGrant time]) s).countedDown := by
  intro h
  have hcounted := h (.scan _) initial "station_1" 10 0
    [.cancelTimer "ORD-1" "station_1", .advanceClock 10, .evaluateTTLs 10] 10
    ⟨by simp [initial], by simp [initial]⟩ (by decide) le_rfl
  revert hcounted
  decide

end NerState

end MatrixFactory
