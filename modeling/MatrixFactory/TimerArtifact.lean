/-
# Timers and their signals

The queue side of `TimerArtifact`: a timer that is due is polled by `evaluateTTLs` on the
thread of the tick loop, which queues the internal operation `signalTimerExpired`; the
signal is raised when the artifact comes to execute that operation.  `timers_iff` says
where each started timer is and when a `cancelTimer` comes too late for an expired one.

Each timer carries its number in the order of the calls of `startTimer`, which the code
does not see.  What the same operations do to the registry of the tick loop is in
`NerRegistry`.
-/
import MatrixFactory.NerRegistry
import Mathlib.Data.NNRat.Defs

namespace MatrixFactory

/-- A `TimerEntry` with its number. -/
structure Timer extends TimerEntry where
  seq : ℕ
  deriving DecidableEq, Repr

/-- The order of `timerQueue`. -/
def Timer.Le (a b : Timer) : Prop := a.fireAtSimTime ≤ b.fireAtSimTime

instance : DecidableRel Timer.Le := fun a b => by unfold Timer.Le; infer_instance

instance : IsTrans Timer Timer.Le where
  trans _ _ _ := le_trans

instance : Std.Total Timer.Le where
  total a b := le_total a.fireAtSimTime b.fireAtSimTime

/-- The artifact and the clock: the timers, the operations `signalTimerExpired` that wait
for their execution, the signals raised and when, and the timers that were cancelled. -/
structure TimerArtifact where
  currentTime : ℚ
  timerQueue : List Timer
  queued : List Timer
  raised : List (Timer × ℚ)
  cancelled : List Timer
  started : ℕ
  deriving DecidableEq, Repr

/-- The operations, and the advance of the clock. -/
inductive TimerOp
  | advanceClock (dt : ℚ≥0)
  | startTimer (orderId : String) (ttlMs : ℤ) (agentId : String)
  | cancelTimer (orderId agentId : String)
  | evaluateTTLs
  | signalTimerExpired (position : ℕ)
  deriving DecidableEq

namespace TimerArtifact

/-- After `init`. -/
def start : TimerArtifact := ⟨0, [], [], [], [], 0⟩

/-- The timer belongs to the order and the agent. -/
def IsFor (orderId agentId : String) (t : Timer) : Prop :=
  t.orderId = orderId ∧ t.targetAgentId = agentId

instance (orderId agentId : String) : DecidablePred (IsFor orderId agentId) := fun _ =>
  inferInstanceAs (Decidable (_ ∧ _))

/-- `startTimer`. -/
def startTimer (pq : PriorityQueue Timer Timer.Le) (orderId : String) (ttlMs : ℤ)
    (agentId : String) (s : TimerArtifact) : TimerArtifact :=
  let fireAt := s.currentTime + ttlMs / 1000
  { s with
    timerQueue := pq.offer ⟨⟨orderId, fireAt, agentId⟩, s.started⟩ s.timerQueue
    started := s.started + 1 }

/-- `cancelTimer`. -/
def cancelTimer (orderId agentId : String) (s : TimerArtifact) : TimerArtifact :=
  { s with
    timerQueue := s.timerQueue.filter fun t => ¬ IsFor orderId agentId t
    cancelled := s.timerQueue.filter (fun t => IsFor orderId agentId t) ++ s.cancelled }

/-- The loop of `evaluateTTLs`, with the length of the queue as its bound. -/
def fireTimers (pq : PriorityQueue Timer Timer.Le) : ℕ → TimerArtifact → TimerArtifact
  | 0, s => s
  | bound + 1, s =>
    match pq.poll s.timerQueue with
    | none => s
    | some (t, rest) =>
      if t.fireAtSimTime ≤ s.currentTime then
        fireTimers pq bound { s with timerQueue := rest, queued := s.queued ++ [t] }
      else s

/-- `evaluateTTLs`, which the tick loop calls with its current time. -/
def evaluateTTLs (pq : PriorityQueue Timer Timer.Le) (s : TimerArtifact) : TimerArtifact :=
  fireTimers pq s.timerQueue.length s

/-- `signalTimerExpired`, executed for one of the queued operations. -/
def signalTimerExpired (position : ℕ) (s : TimerArtifact) : TimerArtifact :=
  match s.queued[position]? with
  | none => s
  | some t =>
    { s with
      queued := s.queued.eraseIdx position
      raised := s.raised ++ [(t, s.currentTime)] }

/-- One operation. -/
def exec (pq : PriorityQueue Timer Timer.Le) (op : TimerOp) (s : TimerArtifact) :
    TimerArtifact :=
  match op with
  | .advanceClock dt => { s with currentTime := s.currentTime + dt }
  | .startTimer orderId ttlMs agentId => s.startTimer pq orderId ttlMs agentId
  | .cancelTimer orderId agentId => s.cancelTimer orderId agentId
  | .evaluateTTLs => s.evaluateTTLs pq
  | .signalTimerExpired position => s.signalTimerExpired position

/-! ## Where a timer is -/

/-- How often the timer with the number `i` is pending, queued, raised or cancelled. -/
def places (i : ℕ) (s : TimerArtifact) : ℕ :=
  s.timerQueue.countP (·.seq = i) + s.queued.countP (·.seq = i) +
    s.raised.countP (·.1.seq = i) + s.cancelled.countP (·.seq = i)

/-- Every started timer is pending, about to be signalled, signalled once or cancelled,
and none is signalled before it is due. -/
structure Accounted (s : TimerArtifact) : Prop where
  once : ∀ i, s.places i = if i < s.started then 1 else 0
  due : ∀ t ∈ s.queued, t.fireAtSimTime ≤ s.currentTime
  raised : ∀ p ∈ s.raised, p.1.fireAtSimTime ≤ p.2

/-- At a `cancelTimer` no signal of the order and agent is queued. -/
def InTime (s : TimerArtifact) : TimerOp → Prop
  | .cancelTimer orderId agentId => ∀ t ∈ s.queued, ¬ IsFor orderId agentId t
  | _ => True

instance (s : TimerArtifact) (op : TimerOp) : Decidable (s.InTime op) := by
  unfold InTime
  split <;> infer_instance

variable {pq : PriorityQueue Timer Timer.Le}

variable (pq) in
/-- The loop moves the due timers to the queue of operations. -/
theorem perm_fireTimers {bound : ℕ} {s : TimerArtifact} (hb : s.timerQueue.length ≤ bound) :
    ∃ fired, (fireTimers pq bound s) =
        { s with
          timerQueue := (fireTimers pq bound s).timerQueue
          queued := s.queued ++ fired } ∧
      s.timerQueue.Perm (fired ++ (fireTimers pq bound s).timerQueue) ∧
      (∀ t ∈ fired, t.fireAtSimTime ≤ s.currentTime) ∧
      ∀ t ∈ (fireTimers pq bound s).timerQueue, s.currentTime < t.fireAtSimTime := by
  induction bound generalizing s with
  | zero =>
    have hnil : s.timerQueue = [] := List.eq_nil_of_length_eq_zero (by omega)
    exact ⟨[], by simp [fireTimers], by simp [fireTimers], by simp, by simp [fireTimers, hnil]⟩
  | succ bound ih =>
    rw [fireTimers]
    rcases hpoll : pq.poll s.timerQueue with _ | ⟨t, rest⟩
    · have hnil := pq.poll_eq_none_iff.mp hpoll
      exact ⟨[], by simp, by simp, by simp, by simp [hnil]⟩
    · have hlen := pq.length_of_poll hpoll
      have hperm := pq.poll_perm _ _ _ hpoll
      simp only
      by_cases hdue : t.fireAtSimTime ≤ s.currentTime
      · rw [if_pos hdue]
        obtain ⟨fired, heq, hp, hfired, hrest⟩ :=
          ih (s := { s with timerQueue := rest, queued := s.queued ++ [t] })
            (by simp only; omega)
        refine ⟨t :: fired, ?_, ?_, ?_, hrest⟩
        · simpa using heq
        · exact hperm.trans (List.Perm.cons t hp)
        · rintro t' (_ | ⟨_, ht'⟩)
          · exact hdue
          · exact hfired t' ht'
      · rw [if_neg hdue]
        refine ⟨[], by simp, by simp, by simp, fun t' ht' => ?_⟩
        exact lt_of_lt_of_le (not_le.mp hdue) (pq.poll_least _ _ _ hpoll t' ht')

/-! ## Every timer is in one place -/

theorem countP_eraseIdx {α : Type*} (p : α → Bool) {l : List α} {k : ℕ} {a : α}
    (h : l[k]? = some a) : (l.eraseIdx k).countP p + (if p a then 1 else 0) = l.countP p := by
  obtain ⟨hk, rfl⟩ := List.getElem?_eq_some_iff.1 h
  have hsplit : l = l.take k ++ l[k] :: l.drop (k + 1) := by simp
  rw [List.eraseIdx_eq_take_drop_succ]
  conv_rhs => rw [hsplit]
  simp only [List.countP_append, List.countP_cons]
  omega

/-- **The step lemma.** -/
theorem Accounted.exec {s : TimerArtifact} (h : s.Accounted) (op : TimerOp) :
    (exec pq op s).Accounted := by
  cases op with
  | advanceClock dt =>
    refine ⟨h.once, fun t ht => ?_, h.raised⟩
    have hdt : (0 : ℚ) ≤ dt := dt.2
    have hdue := h.due t ht
    show t.fireAtSimTime ≤ s.currentTime + dt
    linarith
  | startTimer orderId ttlMs agentId =>
    refine ⟨fun i => ?_, h.due, h.raised⟩
    have hplaces : (s.startTimer pq orderId ttlMs agentId).places i
        = s.places i + if s.started = i then 1 else 0 := by
      simp only [places, startTimer]
      rw [(pq.offer_perm _ _).countP_eq, List.countP_cons]
      simp only [decide_eq_true_eq]
      omega
    show (s.startTimer pq orderId ttlMs agentId).places i = if i < s.started + 1 then 1 else 0
    rw [hplaces, h.once i]
    split_ifs <;> omega
  | cancelTimer orderId agentId =>
    refine ⟨fun i => ?_, h.due, h.raised⟩
    have hi := h.once i
    have hsplit := List.countP_eq_countP_filter_add s.timerQueue (fun t => decide (t.seq = i))
      (fun t => decide (IsFor orderId agentId t))
    simp only [places, TimerArtifact.exec, cancelTimer, List.countP_append, decide_not] at hi ⊢
    omega
  | evaluateTTLs =>
    obtain ⟨fired, heq, hperm, hfired, -⟩ := perm_fireTimers pq (s := s) le_rfl
    rw [TimerArtifact.exec, evaluateTTLs, heq]
    refine ⟨fun i => ?_, fun t ht => ?_, h.raised⟩
    · have hi := h.once i
      simp only [places, List.countP_append, hperm.countP_eq] at hi ⊢
      omega
    · rcases List.mem_append.1 ht with ht | ht
      · exact h.due t ht
      · exact hfired t ht
  | signalTimerExpired position =>
    rw [TimerArtifact.exec, signalTimerExpired]
    split
    · exact h
    · next t ht =>
      refine ⟨fun i => ?_, fun t' ht' => h.due t' (List.mem_of_mem_eraseIdx ht'), ?_⟩
      · have hi := h.once i
        have hcount := countP_eraseIdx (fun t : Timer => decide (t.seq = i)) ht
        simp only [places, List.countP_append, List.countP_cons, List.countP_nil] at hi ⊢
        omega
      · intro p hp
        rcases List.mem_append.1 hp with hp | hp
        · exact h.raised p hp
        · rw [List.mem_singleton] at hp
          rw [hp]
          exact h.due t (List.mem_of_getElem? ht)

theorem start_accounted : start.Accounted :=
  ⟨fun i => by simp [places, start], by simp [start], by simp [start]⟩

/-! ## Signals after a cancellation -/

/-- In the run, no signal is raised after a `cancelTimer` for a timer of that order and
agent that was started before. -/
def NoLateSignals (pq : PriorityQueue Timer Timer.Le) (ops : List TimerOp) : Prop :=
  ∀ before orderId agentId after, ops = before ++ .cancelTimer orderId agentId :: after →
    ∀ p ∈ (Runs.run (exec pq) ops start).raised, IsFor orderId agentId p.1 →
      p.1.seq < (Runs.run (exec pq) before start).started →
        p ∈ (Runs.run (exec pq) before start).raised

/-- What is left of the timers of an order and agent after a cancellation: those pending or
about to be signalled have been started since, and those signalled had been before it. -/
structure Cancelled (orderId agentId : String) (n : ℕ) (raised : List (Timer × ℚ))
    (s : TimerArtifact) : Prop where
  started : n ≤ s.started
  pending : ∀ t ∈ s.timerQueue, IsFor orderId agentId t → n ≤ t.seq
  queued : ∀ t ∈ s.queued, IsFor orderId agentId t → n ≤ t.seq
  raised : ∀ p ∈ s.raised, IsFor orderId agentId p.1 → p.1.seq < n → p ∈ raised

/-- A cancellation that comes in time leaves no timer to be signalled. -/
theorem cancelled_cancelTimer {orderId agentId : String} {s : TimerArtifact}
    (hC : s.InTime (.cancelTimer orderId agentId)) :
    Cancelled orderId agentId s.started s.raised (s.cancelTimer orderId agentId) where
  started := le_rfl
  pending t ht hfor := by
    have hnot := (List.mem_filter.1 ht).2
    exact absurd hfor (by simpa using hnot)
  queued t ht hfor := absurd hfor (hC t ht)
  raised _ hp _ _ := hp

theorem Cancelled.exec {orderId agentId : String} {n : ℕ} {raised : List (Timer × ℚ)}
    {s : TimerArtifact} (h : Cancelled orderId agentId n raised s) (op : TimerOp) :
    Cancelled orderId agentId n raised (exec pq op s) := by
  cases op with
  | advanceClock dt => exact ⟨h.started, h.pending, h.queued, h.raised⟩
  | startTimer o ttlMs a =>
    refine ⟨le_trans h.started (Nat.le_succ _), fun t ht hfor => ?_, h.queued, h.raised⟩
    rcases pq.mem_offer.1 ht with rfl | ht
    · exact h.started
    · exact h.pending t ht hfor
  | cancelTimer o a =>
    exact ⟨h.started, fun t ht => h.pending t (List.mem_of_mem_filter ht), h.queued, h.raised⟩
  | evaluateTTLs =>
    obtain ⟨fired, heq, hperm, -, -⟩ := perm_fireTimers pq (s := s) le_rfl
    have hmem : ∀ t, t ∈ fired ∨ t ∈ (fireTimers pq s.timerQueue.length s).timerQueue →
        t ∈ s.timerQueue := fun t ht => hperm.mem_iff.2 (List.mem_append.2 ht)
    rw [TimerArtifact.exec, evaluateTTLs, heq]
    refine ⟨h.started, fun t ht => h.pending t (hmem t (Or.inr ht)), fun t ht => ?_, h.raised⟩
    rcases List.mem_append.1 ht with ht | ht
    · exact h.queued t ht
    · exact h.pending t (hmem t (Or.inl ht))
  | signalTimerExpired position =>
    rw [TimerArtifact.exec, signalTimerExpired]
    split
    · exact h
    · next t ht =>
      refine ⟨h.started, h.pending, fun t' ht' => h.queued t' (List.mem_of_mem_eraseIdx ht'), ?_⟩
      intro p hp hfor hlt
      rcases List.mem_append.1 hp with hp | hp
      · exact h.raised p hp hfor hlt
      · rw [List.mem_singleton] at hp
        rw [hp] at hfor hlt
        have hle := h.queued t (List.mem_of_getElem? ht) hfor
        exact absurd hle (not_le.2 hlt)

/-- Cancellations that come in time are kept. -/
theorem noLateSignals_of_along {ops : List TimerOp}
    (h : Runs.Along (exec pq) InTime start ops) : NoLateSignals pq ops := by
  intro before orderId agentId after heq p hp hfor hlt
  have hC := (Runs.along_iff_split _ _ _ _).1 h before _ after heq
  have hcancelled := cancelled_cancelTimer hC
  rw [heq, Runs.run_append, Runs.run_cons] at hp
  exact (Runs.run_invariant (C := fun _ _ => True) (fun s op hs _ => hs.exec op) hcancelled
    (Runs.along_of_forall fun _ _ _ => trivial : Runs.Along (exec pq) _ _ after)).raised p hp hfor
      hlt

/-- A queued signal stays queued until it is raised. -/
theorem queued_or_raised {t : Timer} {s : TimerArtifact}
    (h : t ∈ s.queued ∨ ∃ τ, (t, τ) ∈ s.raised) (op : TimerOp) :
    t ∈ (exec pq op s).queued ∨ ∃ τ, (t, τ) ∈ (exec pq op s).raised := by
  cases op with
  | advanceClock _ => exact h
  | startTimer _ _ _ => exact h
  | cancelTimer _ _ => exact h
  | evaluateTTLs =>
    obtain ⟨fired, heq, -⟩ := perm_fireTimers pq (s := s) le_rfl
    rw [TimerArtifact.exec, evaluateTTLs, heq]
    exact h.imp_left (List.mem_append_left fired)
  | signalTimerExpired position =>
    rw [TimerArtifact.exec, signalTimerExpired]
    split
    · exact h
    · next t' ht' =>
      rcases h with h | ⟨τ, h⟩
      · obtain ⟨k, hk⟩ := List.mem_iff_getElem?.1 h
        by_cases hpos : k = position
        · rw [hpos, ht', Option.some.injEq] at hk
          rw [hk]
          exact Or.inr ⟨s.currentTime, List.mem_append_right _ List.mem_cons_self⟩
        · exact Or.inl (List.mem_eraseIdx_iff_getElem?.2 ⟨k, hpos, hk⟩)
      · exact Or.inr ⟨τ, List.mem_append_left _ h⟩

/-- Executing the operation at the head of the queue often enough empties the queue. -/
theorem queued_drain (n : ℕ) : ∀ s : TimerArtifact, s.queued.length ≤ n →
    (Runs.run (exec pq) (List.replicate n (.signalTimerExpired 0)) s).queued = [] := by
  induction n with
  | zero => exact fun s hs => List.eq_nil_of_length_eq_zero (by simpa using hs)
  | succ n ih =>
    intro s hs
    rw [List.replicate_succ, Runs.run_cons]
    apply ih
    rw [exec, signalTimerExpired]
    cases hq : s.queued with
    | nil => simp [hq]
    | cons t ts =>
      rw [hq, List.length_cons] at hs
      simp only [List.getElem?_cons_zero, List.eraseIdx_cons_zero]
      omega

/-- A cancellation that finds a signal queued is followed by that signal. -/
theorem along_of_noLateSignals {ops : List TimerOp}
    (h : ∀ positions : List ℕ, NoLateSignals pq (ops ++ positions.map .signalTimerExpired)) :
    Runs.Along (exec pq) InTime start ops := by
  rw [Runs.along_iff_split]
  rintro before op after rfl
  cases op with
  | cancelTimer orderId agentId =>
    intro t ht hfor
    -- execute all queued operations after the run
    set n :=
      (Runs.run (exec pq) (before ++ .cancelTimer orderId agentId :: after) start).queued.length
    have hlate := h (List.replicate n 0) before orderId agentId
      (after ++ (List.replicate n 0).map .signalTimerExpired) (by simp)
    have hbefore : (Runs.run (exec pq) before start).Accounted :=
      Runs.run_invariant (C := fun _ _ => True) (fun s op hs _ => hs.exec op) start_accounted
        (Runs.along_of_forall fun _ _ _ => trivial)
    have hcount := hbefore.once t.seq
    have hqueued : 0 < (Runs.run (exec pq) before start).queued.countP (·.seq = t.seq) :=
      List.countP_pos_iff.2 ⟨t, ht, by simp⟩
    have hseq : t.seq < (Runs.run (exec pq) before start).started := by
      by_contra hge
      rw [if_neg hge, places] at hcount
      omega
    -- the signal is raised in the end, so it had been raised before the cancellation
    have hend : t ∈ (Runs.run (exec pq) ((before ++ .cancelTimer orderId agentId :: after) ++
          (List.replicate n 0).map .signalTimerExpired) start).queued ∨
        ∃ τ, (t, τ) ∈ (Runs.run (exec pq) ((before ++ .cancelTimer orderId agentId :: after) ++
          (List.replicate n 0).map .signalTimerExpired) start).raised := by
      rw [List.append_assoc, Runs.run_append]
      exact Runs.run_invariant (I := fun s : TimerArtifact => t ∈ s.queued ∨ ∃ τ, (t, τ) ∈ s.raised)
        (C := fun _ _ => True) (fun s op hs _ => queued_or_raised hs op) (Or.inl ht)
        (Runs.along_of_forall fun _ _ _ => trivial)
    have hempty : (Runs.run (exec pq) ((before ++ .cancelTimer orderId agentId :: after) ++
        (List.replicate n 0).map .signalTimerExpired) start).queued = [] := by
      rw [Runs.run_append, List.map_replicate]
      exact queued_drain n _ le_rfl
    rw [hempty] at hend
    obtain ⟨τ, hτ⟩ := hend.resolve_left List.not_mem_nil
    have hraised := hlate (t, τ) hτ hfor hseq
    have hpos : 0 < (Runs.run (exec pq) before start).raised.countP (·.1.seq = t.seq) :=
      List.countP_pos_iff.2 ⟨(t, τ), hraised, by simp⟩
    rw [if_pos hseq, places] at hcount
    omega
  | _ => trivial

/-- **What becomes of timers.**  In every run each started timer is pending, about to be
signalled, signalled exactly once or cancelled, none is signalled before it is due, and
`evaluateTTLs` leaves none pending that is; and no signal is raised for a timer started
before a `cancelTimer` of its order and agent, neither in the run nor by the operations it
leaves queued, iff every `cancelTimer` of the run finds no such operation queued. -/
theorem timers_iff (pq : PriorityQueue Timer Timer.Le) (ops : List TimerOp) :
    (Runs.run (exec pq) ops start).Accounted ∧
      (∀ t ∈ ((Runs.run (exec pq) ops start).evaluateTTLs pq).timerQueue,
        (Runs.run (exec pq) ops start).currentTime < t.fireAtSimTime) ∧
      ((∀ positions : List ℕ, NoLateSignals pq (ops ++ positions.map .signalTimerExpired)) ↔
        Runs.Along (exec pq) InTime start ops) := by
  refine ⟨?_, ?_, along_of_noLateSignals, fun h positions => noLateSignals_of_along ?_⟩
  · exact Runs.run_invariant (C := fun _ _ => True) (fun s op hs _ => hs.exec op) start_accounted
      (Runs.along_of_forall fun _ _ _ => trivial)
  · obtain ⟨_, _, _, _, hrest⟩ := perm_fireTimers pq
      (s := Runs.run (exec pq) ops start) le_rfl
    exact hrest
  · rw [Runs.along_append]
    refine ⟨h, Runs.along_of_forall fun s op hop => ?_⟩
    obtain ⟨k, -, rfl⟩ := List.mem_map.1 hop
    trivial

/-- A bid of ORD-1 expires, the station cancels the timer, and the expiration is signalled
after that. -/
theorem not_noLateSignals : ¬ NoLateSignals (.scan _) [.startTimer "ORD-1" 20000 "station_1",
    .advanceClock 20, .evaluateTTLs, .cancelTimer "ORD-1" "station_1", .signalTimerExpired 0] := by
  intro h
  have hraised := h [.startTimer "ORD-1" 20000 "station_1", .advanceClock 20, .evaluateTTLs]
    "ORD-1" "station_1" [.signalTimerExpired 0] rfl (⟨⟨"ORD-1", 20, "station_1"⟩, 0⟩, 20)
  revert hraised
  decide +kernel

end TimerArtifact

end MatrixFactory
