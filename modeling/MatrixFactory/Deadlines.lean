/-
# The clock and the pending deadlines

The tick loop takes its step from the registry of next-event requests, which has one slot
for each agent, while an agent may have several timers in `timerQueue` and wait for its
own request besides.  Here the operations of `NerRegistry` run together with the phases of
a tick (`computeDt`, `advanceTime`); `onTime_run` says what keeps the registry a lower
bound of all pending deadlines, so that no tick passes one of them by more than the
minimum step.
-/
import MatrixFactory.TickLoop

namespace MatrixFactory

/-- A tick under way: the time it starts from, the time it goes to, and the deadlines that
were pending when its step was computed. -/
structure Tick where
  time : ℚ
  target : ℚ
  deadlines : List ℚ
  deriving DecidableEq, Repr

/-- Registry, timers and clock, with the requests whose callers still wait. -/
structure Deadlines where
  ner : NerState
  waits : List NEREntry
  tick : Option Tick

/-- The operations.  A request is told from the others of its agent by its latch;
`removeNER` is called by the one whose request has that latch. -/
inductive DeadlineOp
  | submitNER (agentId : String) (requestedNextTime : ℚ) (tagLatch : Option ℕ)
  | removeNER (agentId : String) (tagLatch : Option ℕ)
  | startTimer (orderId : String) (ttlMs : ℤ) (agentId : String)
  | cancelTimer (orderId agentId : String)
  | computeDt
  | advanceTime (success : Bool)
  | evaluateTTLs
  | issueTimeAdvanceGrant
  deriving DecidableEq

namespace Deadlines

/-- The shortest step of the clock. -/
def MIN_DT : ℚ := 1 / 100

/-- At the start. -/
def start (t₀ : ℚ) : Deadlines := ⟨⟨t₀, [], [], [], []⟩, [], none⟩

/-- The request is the one of that agent and latch. -/
def IsRequest (agentId : String) (tagLatch : Option ℕ) (w : NEREntry) : Prop :=
  w.agentId = agentId ∧ w.tagLatch = tagLatch

instance (agentId : String) (tagLatch : Option ℕ) : DecidablePred (IsRequest agentId tagLatch) :=
  fun _ => inferInstanceAs (Decidable (_ ∧ _))

/-- The latch of the request has not been counted down. -/
def Outstanding (s : Deadlines) (w : NEREntry) : Prop := ∀ l ∈ w.tagLatch, l ∉ s.ner.countedDown

instance (s : Deadlines) : DecidablePred s.Outstanding := fun w => by
  unfold Outstanding
  infer_instance

/-- Whose deadline is when: the timers not fired and not cancelled, and the outstanding
requests. -/
def pending (s : Deadlines) : List (String × ℚ) :=
  s.ner.timerQueue.map (fun t => (t.targetAgentId, t.fireAtSimTime)) ++
    (s.waits.filter fun w => s.Outstanding w).map fun w => (w.agentId, w.requestedNextTime)

/-- One operation. -/
def exec (pq : PriorityQueue TimerEntry TimerEntry.Le) (op : DeadlineOp) (s : Deadlines) :
    Deadlines :=
  match op with
  | .submitNER agentId t latch =>
    { s with
      ner := s.ner.submitNER agentId t latch
      waits := ⟨agentId, t, latch⟩ :: s.waits.filter fun w => ¬ IsRequest agentId latch w }
  | .removeNER agentId latch =>
    { s with
      ner := s.ner.removeNER agentId
      waits := s.waits.filter fun w => ¬ IsRequest agentId latch w }
  | .startTimer orderId ttlMs agentId => { s with ner := s.ner.startTimer pq orderId ttlMs agentId }
  | .cancelTimer orderId agentId => { s with ner := s.ner.cancelTimer orderId agentId }
  | .computeDt =>
    { s with
      tick := some {
        time := s.ner.currentTime
        target := s.ner.currentTime + computedDt s.ner.currentTime s.ner.nerRegistry
        deadlines := s.pending.map (·.2) } }
  | .advanceTime success =>
    match s.tick with
    | none => s
    | some τ =>
      { s with
        ner := { s.ner with currentTime := if success then τ.target else s.ner.currentTime }
        tick := none }
  | .evaluateTTLs => { s with ner := s.ner.evaluateTTLs pq s.ner.currentTime }
  | .issueTimeAdvanceGrant => { s with ner := s.ner.issueTimeAdvanceGrant s.ner.currentTime }

/-- A successful tick takes the clock past none of its deadlines by more than the minimum
step. -/
def OnTime (pq : PriorityQueue TimerEntry TimerEntry.Le) (s : Deadlines) : DeadlineOp → Prop
  | .advanceTime true => ∀ τ ∈ s.tick, ∀ d ∈ τ.deadlines,
      (exec pq (.advanceTime true) s).ner.currentTime ≤ max (τ.time + MIN_DT) d
  | _ => True

instance (pq : PriorityQueue TimerEntry TimerEntry.Le) (s : Deadlines) (op : DeadlineOp) :
    Decidable (s.OnTime pq op) := by
  unfold OnTime
  split <;> infer_instance

/-- The condition on one step: whoever takes over, clears or loses the slot of an agent
leaves that agent no pending deadline that is earlier than the request then in the slot. -/
def KeepsSlot (s : Deadlines) : DeadlineOp → Prop
  | .submitNER agentId t latch =>
    (∀ e ∈ s.ner.timerQueue, e.targetAgentId = agentId → t ≤ e.fireAtSimTime) ∧
      ∀ w ∈ s.waits, s.Outstanding w → w.agentId = agentId → w.tagLatch ≠ latch →
        t ≤ w.requestedNextTime
  | .removeNER agentId latch =>
    (∀ e ∈ s.ner.timerQueue, e.targetAgentId ≠ agentId) ∧
      ∀ w ∈ s.waits, s.Outstanding w → w.agentId = agentId → w.tagLatch = latch
  | .startTimer _ ttlMs agentId =>
    ∀ p ∈ s.pending, p.1 = agentId → s.ner.currentTime + ttlMs / 1000 ≤ p.2
  | .cancelTimer orderId agentId =>
    (∀ e ∈ s.ner.timerQueue, e.targetAgentId = agentId → e.orderId = orderId) ∧
      ∀ w ∈ s.waits, s.Outstanding w → w.agentId ≠ agentId
  | .evaluateTTLs =>
    ∀ e ∈ s.ner.timerQueue, e.fireAtSimTime ≤ s.ner.currentTime →
      (∀ e' ∈ s.ner.timerQueue, e'.targetAgentId = e.targetAgentId →
        e'.fireAtSimTime ≤ s.ner.currentTime) ∧
      ∀ w ∈ s.waits, s.Outstanding w → w.agentId ≠ e.targetAgentId
  | _ => True

instance (s : Deadlines) (op : DeadlineOp) : Decidable (s.KeepsSlot op) := by
  unfold KeepsSlot
  split <;> infer_instance

/-- The registry is a lower bound: each pending deadline has a request of its agent that
is no later. -/
def Covered (s : Deadlines) : Prop :=
  ∀ p ∈ s.pending, ∃ e ∈ s.ner.nerRegistry, e.agentId = p.1 ∧ e.requestedNextTime ≤ p.2

/-- The tick under way goes past none of its deadlines. -/
def TickOnTime (s : Deadlines) : Prop :=
  ∀ τ ∈ s.tick, ∀ d ∈ τ.deadlines, τ.target ≤ max (τ.time + MIN_DT) d

theorem foldl_le (t : ℚ) (l : List NEREntry) : ∀ acc : ℚ,
    (l.foldl (fun dt e => if e.requestedNextTime - t < dt then e.requestedNextTime - t else dt) acc)
        ≤ acc ∧
      ∀ e ∈ l, (l.foldl (fun dt e => if e.requestedNextTime - t < dt
        then e.requestedNextTime - t else dt) acc) ≤ e.requestedNextTime - t := by
  induction l with
  | nil => exact fun acc => ⟨le_rfl, by simp⟩
  | cons e l ih =>
    intro acc
    rw [List.foldl_cons]
    obtain ⟨h1, h2⟩ := ih (if e.requestedNextTime - t < acc then e.requestedNextTime - t else acc)
    have hle : (if e.requestedNextTime - t < acc then e.requestedNextTime - t else acc) ≤ acc ∧
        (if e.requestedNextTime - t < acc then e.requestedNextTime - t else acc)
          ≤ e.requestedNextTime - t := by
      split
      · next h => exact ⟨h.le, le_rfl⟩
      · next h => exact ⟨le_rfl, not_lt.1 h⟩
    refine ⟨h1.trans hle.1, fun e' he' => ?_⟩
    rcases List.mem_cons.1 he' with rfl | he'
    · exact h1.trans hle.2
    · exact h2 e' he'

/-- The step of a tick goes past no request by more than the minimum step. -/
theorem add_computedDt_le (t : ℚ) {l : List NEREntry} {e : NEREntry} (he : e ∈ l) {d : ℚ}
    (hd : e.requestedNextTime ≤ d) : t + computedDt t l ≤ max (t + MIN_DT) d := by
  have hfold := (foldl_le t l 1).2 e he
  unfold computedDt MIN_DT
  rcases max_choice (1 / 100) (min 1 (l.foldl (fun dt e => if e.requestedNextTime - t < dt
    then e.requestedNextTime - t else dt) 1)) with h | h
  · rw [h]
    exact le_max_left _ _
  · rw [h]
    refine le_trans ?_ (le_max_right _ _)
    have := min_le_right 1 (l.foldl (fun dt e => if e.requestedNextTime - t < dt
      then e.requestedNextTime - t else dt) 1)
    linarith

theorem mem_pending {s : Deadlines} {p : String × ℚ} : p ∈ s.pending ↔
    (∃ e ∈ s.ner.timerQueue, p = (e.targetAgentId, e.fireAtSimTime)) ∨
      ∃ w ∈ s.waits, s.Outstanding w ∧ p = (w.agentId, w.requestedNextTime) := by
  simp only [pending, List.mem_append, List.mem_map, List.mem_filter, decide_eq_true_eq]
  constructor
  · rintro (⟨e, he, rfl⟩ | ⟨w, ⟨hw, ho⟩, rfl⟩)
    · exact Or.inl ⟨e, he, rfl⟩
    · exact Or.inr ⟨w, hw, ho, rfl⟩
  · rintro (⟨e, he, rfl⟩ | ⟨w, hw, ho, rfl⟩)
    · exact Or.inl ⟨e, he, rfl⟩
    · exact Or.inr ⟨w, ⟨hw, ho⟩, rfl⟩

variable {pq : PriorityQueue TimerEntry TimerEntry.Le}

/-- The loop of `evaluateTTLs` leaves the timers that are not due. -/
theorem mem_timerQueue_fireTimers {simTime : ℚ} {bound : ℕ} {s : NerState}
    (hb : s.timerQueue.length ≤ bound) (t : TimerEntry) :
    t ∈ (NerState.fireTimers pq simTime bound s).timerQueue ↔
      t ∈ s.timerQueue ∧ simTime < t.fireAtSimTime := by
  induction bound generalizing s with
  | zero =>
    have hnil : s.timerQueue = [] := List.eq_nil_of_length_eq_zero (by omega)
    simp [NerState.fireTimers, hnil]
  | succ bound ih =>
    rw [NerState.fireTimers]
    rcases hpoll : pq.poll s.timerQueue with _ | ⟨e, rest⟩
    · have hnil := pq.poll_eq_none_iff.mp hpoll
      simp [hnil]
    · have hlen := pq.length_of_poll hpoll
      have hmem := pq.mem_of_poll hpoll
      simp only
      by_cases hdue : e.fireAtSimTime ≤ simTime
      · rw [if_pos hdue, ih (by simp only [NerState.removeNER]; omega)]
        simp only [NerState.removeNER]
        rw [hmem]
        constructor
        · exact fun h => ⟨Or.inr h.1, h.2⟩
        · rintro ⟨rfl | h, hlt⟩
          · exact absurd hdue (not_le.2 hlt)
          · exact ⟨h, hlt⟩
      · rw [if_neg hdue]
        refine ⟨fun h => ⟨h, ?_⟩, And.left⟩
        exact lt_of_lt_of_le (not_le.1 hdue) (pq.poll_least _ _ _ hpoll t h)

/-- A deadline of another agent keeps its request when the slot of `agentId` is cleared. -/
theorem covered_filter {agentId : String} {l : List NEREntry} {p : String × ℚ}
    (h : ∃ e ∈ l, e.agentId = p.1 ∧ e.requestedNextTime ≤ p.2) (hne : p.1 ≠ agentId) :
    ∃ e ∈ l.filter (fun e => e.agentId ≠ agentId), e.agentId = p.1 ∧ e.requestedNextTime ≤ p.2 := by
  obtain ⟨e, he, ha, hle⟩ := h
  exact ⟨e, List.mem_filter.2 ⟨he, by simpa [ha] using hne⟩, ha, hle⟩

/-- The same when it is taken by a request for the time `t`, and deadlines of `agentId` are
not before that. -/
theorem covered_submitNER {agentId : String} {t : ℚ} {latch : Option ℕ} {s : NerState}
    {p : String × ℚ}
    (h : p.1 ≠ agentId → ∃ e ∈ s.nerRegistry, e.agentId = p.1 ∧ e.requestedNextTime ≤ p.2)
    (ht : p.1 = agentId → t ≤ p.2) :
    ∃ e ∈ (s.submitNER agentId t latch).nerRegistry,
      e.agentId = p.1 ∧ e.requestedNextTime ≤ p.2 := by
  by_cases ha : p.1 = agentId
  · exact ⟨_, List.mem_cons_self, ha.symm, ht ha⟩
  · obtain ⟨e, he, hp⟩ := covered_filter (h ha) ha
    exact ⟨e, List.mem_cons_of_mem _ he, hp⟩

/-- **The step lemma.** -/
theorem Covered.exec {s : Deadlines} (h : s.Covered) {op : DeadlineOp} (hC : s.KeepsSlot op) :
    (exec pq op s).Covered := by
  cases op with
  | submitNER agentId t latch =>
    intro p hp
    rw [mem_pending] at hp
    refine covered_submitNER (fun hne => ?_) fun heq => ?_
    · rcases hp with ⟨e, he, rfl⟩ | ⟨w, hw, ho, rfl⟩
      · exact h _ (mem_pending.2 (Or.inl ⟨e, he, rfl⟩))
      · rcases List.mem_cons.1 hw with rfl | hw
        · exact absurd rfl hne
        · exact h _ (mem_pending.2 (Or.inr ⟨w, List.mem_of_mem_filter hw, ho, rfl⟩))
    · rcases hp with ⟨e, he, rfl⟩ | ⟨w, hw, ho, rfl⟩
      · exact hC.1 e he heq
      · rcases List.mem_cons.1 hw with rfl | hw
        · exact le_rfl
        · obtain ⟨hw, hreq⟩ := List.mem_filter.1 hw
          refine hC.2 w hw ho heq fun hl => ?_
          exact absurd (⟨heq, hl⟩ : IsRequest agentId latch w) (of_decide_eq_true hreq)
  | removeNER agentId latch =>
    intro p hp
    rw [mem_pending] at hp
    rcases hp with ⟨e, he, rfl⟩ | ⟨w, hw, ho, rfl⟩
    · exact covered_filter (h _ (mem_pending.2 (Or.inl ⟨e, he, rfl⟩))) (hC.1 e he)
    · obtain ⟨hw, hreq⟩ := List.mem_filter.1 hw
      refine covered_filter (h _ (mem_pending.2 (Or.inr ⟨w, hw, ho, rfl⟩))) fun ha => ?_
      exact absurd (⟨ha, hC.2 w hw ho ha⟩ : IsRequest agentId latch w) (of_decide_eq_true hreq)
  | startTimer orderId ttlMs agentId =>
    intro p hp
    rw [mem_pending] at hp
    refine covered_submitNER (fun hne => ?_) fun heq => ?_
    · rcases hp with ⟨e, he, rfl⟩ | ⟨w, hw, ho, rfl⟩
      · rcases pq.mem_offer.1 he with rfl | he
        · exact absurd rfl hne
        · exact h _ (mem_pending.2 (Or.inl ⟨e, he, rfl⟩))
      · exact h _ (mem_pending.2 (Or.inr ⟨w, hw, ho, rfl⟩))
    · rcases hp with ⟨e, he, rfl⟩ | ⟨w, hw, ho, rfl⟩
      · rcases pq.mem_offer.1 he with rfl | he
        · exact le_rfl
        · exact hC _ (mem_pending.2 (Or.inl ⟨e, he, rfl⟩)) heq
      · exact hC _ (mem_pending.2 (Or.inr ⟨w, hw, ho, rfl⟩)) heq
  | cancelTimer orderId agentId =>
    intro p hp
    rw [mem_pending] at hp
    rcases hp with ⟨e, he, rfl⟩ | ⟨w, hw, ho, rfl⟩
    · obtain ⟨he, hnot⟩ := List.mem_filter.1 he
      refine covered_filter (h _ (mem_pending.2 (Or.inl ⟨e, he, rfl⟩))) fun ha => ?_
      exact absurd ⟨hC.1 e he ha, ha⟩ (of_decide_eq_true hnot)
    · exact covered_filter (h _ (mem_pending.2 (Or.inr ⟨w, hw, ho, rfl⟩))) (hC.2 w hw ho)
  | computeDt => exact h
  | advanceTime success =>
    rw [Deadlines.exec]
    split
    · exact h
    · exact h
  | evaluateTTLs =>
    intro p hp
    rw [mem_pending] at hp
    have hcover : p ∈ s.pending ∧ ∀ t ∈ s.ner.timerQueue, t.fireAtSimTime ≤ s.ner.currentTime →
        t.targetAgentId ≠ p.1 := by
      rcases hp with ⟨e, he, rfl⟩ | ⟨w, hw, ho, rfl⟩
      · obtain ⟨he, hlt⟩ := (mem_timerQueue_fireTimers le_rfl e).1 he
        refine ⟨mem_pending.2 (Or.inl ⟨e, he, rfl⟩), fun t ht hdue heq => ?_⟩
        exact absurd ((hC t ht hdue).1 e he heq.symm) (not_le.2 hlt)
      · have ho' : s.Outstanding w := by
          intro l hl
          have := ho l hl
          rwa [Deadlines.exec, NerState.evaluateTTLs, NerState.countedDown_fireTimers] at this
        exact ⟨mem_pending.2 (Or.inr ⟨w, hw, ho', rfl⟩),
          fun t ht hdue heq => (hC t ht hdue).2 w hw ho' heq.symm⟩
    obtain ⟨e, he, ha, hle⟩ := h p hcover.1
    refine ⟨e, (NerState.mem_fireTimers le_rfl e).2 ⟨he, fun t ht hdue => ?_⟩, ha, hle⟩
    rw [ha]
    exact hcover.2 t ht hdue
  | issueTimeAdvanceGrant =>
    intro p hp
    rw [mem_pending] at hp
    refine h p (mem_pending.2 (hp.imp_right ?_))
    rintro ⟨w, hw, ho, rfl⟩
    exact ⟨w, hw, fun l hl hmem => ho l hl (List.mem_append_right _ hmem), rfl⟩

theorem TickOnTime.exec {s : Deadlines} (h : s.TickOnTime) (hcov : s.Covered) (op : DeadlineOp) :
    (exec pq op s).TickOnTime := by
  cases op with
  | computeDt =>
    intro τ hτ d hd
    cases hτ
    obtain ⟨p, hp, rfl⟩ := List.mem_map.1 hd
    obtain ⟨e, he, -, hle⟩ := hcov p hp
    exact add_computedDt_le _ he hle
  | advanceTime success =>
    rw [Deadlines.exec]
    split
    · exact h
    · exact fun τ hτ => nomatch hτ
  | submitNER _ _ _ => exact h
  | removeNER _ _ => exact h
  | startTimer _ _ _ => exact h
  | cancelTimer _ _ => exact h
  | evaluateTTLs => exact h
  | issueTimeAdvanceGrant => exact h

/-- **Ticks and deadlines.**  In every run in which no operation takes, clears or loses
the slot of an agent that has an earlier deadline pending, every successful tick is on
time. -/
theorem onTime_run (pq : PriorityQueue TimerEntry TimerEntry.Le) (t₀ : ℚ) (ops : List DeadlineOp)
    (h : Runs.Along (exec pq) KeepsSlot (start t₀) ops) :
    Runs.Along (exec pq) (OnTime pq) (start t₀) ops := by
  have hstart : (start t₀).Covered ∧ (start t₀).TickOnTime :=
    ⟨fun p hp => (nomatch hp), fun τ hτ => (nomatch hτ)⟩
  refine Runs.Along.imp ?_ (Runs.Along.and_invariant (I := fun s => s.Covered ∧ s.TickOnTime)
    (fun s op hI hop => ⟨hI.1.exec hop, hI.2.exec hI.1 op⟩) hstart h)
  rintro s op ⟨⟨-, htick⟩, -⟩
  cases op with
  | advanceTime success =>
    cases success with
    | false => trivial
    | true =>
      intro τ hτ d hd
      rw [exec, Option.mem_def.1 hτ]
      exact htick τ hτ d hd
  | _ => trivial

/-- A timer, and a tick that stops at it. -/
theorem onTime_run_two : Runs.Along (exec (.scan _)) (OnTime (.scan _)) (start 0)
    [.startTimer "ORD-1" 500 "order_1", .submitNER "station_1" 6 (some 0), .computeDt,
      .advanceTime true, .evaluateTTLs, .issueTimeAdvanceGrant] :=
  onTime_run _ _ _ (by decide +kernel)

/-- The supervisor cancels one of its two timers, and the tick goes past the other. -/
theorem not_onTime : ¬ Runs.Along (exec (.scan _)) (OnTime (.scan _)) (start 0)
    [.startTimer "phase0_transition" 15000 "supervisor", .startTimer "phase0_poll" 500 "supervisor",
      .cancelTimer "phase0_transition" "supervisor", .computeDt, .advanceTime true] := by
  decide +kernel

end Deadlines

end MatrixFactory
