/-
# Requests that nobody waits for

The registry of next-event requests between the threads that use it: the operations of the timer
artifact and `processOrder`, cut where they take a lock or touch the registry, and the tick thread
with `evaluateTTLs`.  `startTimer` puts its timer into the queue and then submits the request, so
that the tick thread can fire the timer in between, and the request stays.
-/
import MatrixFactory.TickLoop

namespace MatrixFactory

open Runs

/-! ## The threads -/

/-- The operation of the timer artifact that is under way; the artifact executes one at a time. -/
inductive TimerCall
  /-- `startTimer` has read the clock -/
  | read (timer : TimerEntry)
  /-- `startTimer` has put the timer into the queue -/
  | offered (timer : TimerEntry)
  /-- `cancelTimer` has removed the timers -/
  | removed (agentId : String)
  deriving DecidableEq, Repr

/-- Where the tick thread is. -/
inductive TickPhase
  /-- before it computes `computedDt` -/
  | waiting
  /-- in the call of `advanceTime` -/
  | advancing
  /-- before `evaluateTTLs` -/
  | advanced
  /-- at the head of the loop of `evaluateTTLs`, with the lock of the queue -/
  | evaluating
  /-- in the loop, with a timer of the agent polled -/
  | firing (agentId : String)
  /-- after `evaluateTTLs` -/
  | evaluated
  /-- after `updatePositions` -/
  | positioned
  deriving DecidableEq, Repr

/-- The registry, the timers and the clock with the threads around them.  `blocked` holds the calls
of `processOrder` from their `submitNER` to their `removeNER`, by latch and agent; the latches are
numbered. -/
structure RequestSystem where
  ner : NerState
  timerCall : Option TimerCall
  phase : TickPhase
  blocked : List (ℕ × String)
  latches : ℕ

/-- The steps of the threads. -/
inductive RequestOp
  | readClock (orderId : String) (ttlMs : ℤ) (agentId : String)
  | offerTimer
  | submitTimer
  | removeTimers (orderId agentId : String)
  | removeTimerRequest
  | submitOrder (agentId : String) (requestedNextTime : ℚ)
  | wakeOrder (latch : ℕ) (agentId : String) (interrupted : Bool)
  | computeDt
  | advance (targetTime : ℚ)
  | enterTTLs
  | pollTimer
  | expireTimer (throws : Bool)
  | updatePositions (soonestNeed : Option { q : ℚ // 0 < q })
  | grant
  | tickFails

namespace RequestSystem

/-- The agent name under which the fleet submits its requests. -/
def amrFleet : String := "amr_fleet"

/-- At the start. -/
def start : RequestSystem := ⟨⟨0, [], [], [], []⟩, none, .waiting, [], 0⟩

/-- The tick thread holds the lock of the timer queue. -/
def Locked (s : RequestSystem) : Prop :=
  match s.phase with
  | .evaluating | .firing _ => True
  | _ => False

instance (s : RequestSystem) : Decidable s.Locked := by
  unfold Locked
  split <;> infer_instance

/-- The tick thread has evaluated the timers of this tick. -/
def Late (s : RequestSystem) : Prop := s.phase = .evaluated ∨ s.phase = .positioned

/-- The first steps of `startTimer` and `cancelTimer`, where no other operation is under way; a step
that needs the lock waits for it. -/
def timerStep (pq : PriorityQueue TimerEntry TimerEntry.Le) (op : RequestOp) (s : RequestSystem) :
    RequestSystem :=
  match op, s.timerCall with
  | .readClock orderId ttlMs agentId, none =>
    { s with timerCall := some (.read ⟨orderId, s.ner.currentTime + ttlMs / 1000, agentId⟩) }
  | .offerTimer, some (.read t) =>
    if s.Locked then s
    else { s with
      ner := { s.ner with timerQueue := pq.offer t s.ner.timerQueue }
      timerCall := some (.offered t) }
  | .submitTimer, some (.offered t) =>
    { s with ner := s.ner.submitNER t.targetAgentId t.fireAtSimTime none, timerCall := none }
  | .removeTimers orderId agentId, none =>
    if s.Locked then s
    else { s with
      ner := { s.ner with
        timerQueue := s.ner.timerQueue.filter fun e =>
          ¬ (e.orderId = orderId ∧ e.targetAgentId = agentId) }
      timerCall := some (.removed agentId) }
  | .removeTimerRequest, some (.removed agentId) =>
    { s with ner := s.ner.removeNER agentId, timerCall := none }
  | _, _ => s

/-- The steps of the tick thread. -/
def tickStep (pq : PriorityQueue TimerEntry TimerEntry.Le) (op : RequestOp) (s : RequestSystem) :
    RequestSystem :=
  match op, s.phase with
  | .computeDt, .waiting => { s with phase := .advancing }
  | .advance targetTime, .advancing =>
    { s with ner := { s.ner with currentTime := targetTime }, phase := .advanced }
  | .enterTTLs, .advanced => { s with phase := .evaluating }
  | .pollTimer, .evaluating =>
    match pq.poll s.ner.timerQueue with
    | none => { s with phase := .evaluated }
    | some (t, rest) =>
      if t.fireAtSimTime ≤ s.ner.currentTime then
        { s with
          ner := { s.ner with
            timerQueue := rest
            timerExpired := (t.orderId, t.targetAgentId) :: s.ner.timerExpired }
          phase := .firing t.targetAgentId }
      else { s with phase := .evaluated }
  | .expireTimer throws, .firing agentId =>
    { s with ner := if throws then s.ner else s.ner.removeNER agentId, phase := .evaluating }
  | .updatePositions soonestNeed, .evaluated =>
    { s with
      ner := match soonestNeed with
        | some need => s.ner.submitNER amrFleet (s.ner.currentTime + need) none
        | none => s.ner.removeNER amrFleet
      phase := .positioned }
  | .grant, .positioned =>
    { s with ner := s.ner.issueTimeAdvanceGrant s.ner.currentTime, phase := .waiting }
  | .tickFails, .evaluating | .tickFails, .firing _ => s
  | .tickFails, _ => { s with phase := .waiting }
  | _, _ => s

/-- One step. -/
def exec (pq : PriorityQueue TimerEntry TimerEntry.Le) (op : RequestOp) (s : RequestSystem) :
    RequestSystem :=
  match op with
  | .submitOrder agentId requestedNextTime =>
    { s with
      ner := s.ner.submitNER agentId requestedNextTime (some s.latches)
      blocked := (s.latches, agentId) :: s.blocked
      latches := s.latches + 1 }
  | .wakeOrder latch agentId interrupted =>
    if (latch, agentId) ∈ s.blocked ∧ (latch ∈ s.ner.countedDown ∨ interrupted) then
      { s with
        ner := s.ner.removeNER agentId
        blocked := s.blocked.filter (· ≠ (latch, agentId)) }
    else s
  | .readClock .. | .offerTimer | .submitTimer | .removeTimers .. | .removeTimerRequest =>
    s.timerStep pq op
  | _ => s.tickStep pq op

/-! ## What is meant to hold -/

/-- A call of `processOrder` is blocked on the request. -/
def BlockedOn (s : RequestSystem) (e : NEREntry) : Prop :=
  ∃ latch, e.tagLatch = some latch ∧ (latch, e.agentId) ∈ s.blocked

/-- A timer of the agent is in the queue that is due no later than the request. -/
def Timed (s : RequestSystem) (e : NEREntry) : Prop :=
  ∃ t ∈ s.ner.timerQueue, t.targetAgentId = e.agentId ∧ t.fireAtSimTime ≤ e.requestedNextTime

/-- The request is live: that of the fleet, of a timer or of a blocked operation. -/
def LiveRequest (s : RequestSystem) (e : NEREntry) : Prop :=
  e.agentId = amrFleet ∨ s.Timed e ∨ s.BlockedOn e

/-- What holds at the end of a tick and where a tick computes its `dt`. -/
def CleanTick (pq : PriorityQueue TimerEntry TimerEntry.Le) (s : RequestSystem) :
    RequestOp → Prop
  | .grant => s.phase = .positioned → ∀ e ∈ (s.exec pq .grant).ner.nerRegistry,
      e.requestedNextTime ≤ (s.exec pq .grant).ner.currentTime → (s.exec pq .grant).BlockedOn e
  | .computeDt => s.phase = .waiting → computedDt s.ner.currentTime s.ner.nerRegistry = 1 / 100 →
      ∃ e ∈ s.ner.nerRegistry, e.requestedNextTime - s.ner.currentTime ≤ 1 / 100 ∧ s.LiveRequest e
  | _ => True

/-- The condition on a step.  `startTimer` submits its request while a timer of the agent that is
due no later is in the queue, or being fired, and not behind the evaluation of a tick that makes it
due; `signalTimerExpired` is queued without an exception unless the request is live; and no
`cancelTimer` is between its two halves with a request that matters at the end of a tick or where
`dt` is computed. -/
def Timely (s : RequestSystem) : RequestOp → Prop
  | .submitTimer => ∀ t, s.timerCall = some (.offered t) →
      (s.Timed ⟨t.targetAgentId, t.fireAtSimTime, none⟩ ∨ s.phase = .firing t.targetAgentId) ∧
        (s.Late → s.ner.currentTime < t.fireAtSimTime)
  | .expireTimer throws => throws = true → ∀ a, s.phase = .firing a →
      ∀ e ∈ s.ner.nerRegistry, e.agentId = a → s.LiveRequest e
  | .grant => ∀ a, s.timerCall = some (.removed a) →
      ∀ e ∈ s.ner.nerRegistry, e.agentId = a → e.tagLatch = none →
        s.ner.currentTime < e.requestedNextTime
  | .computeDt => ∀ a, s.timerCall = some (.removed a) →
      ∀ e ∈ s.ner.nerRegistry, e.agentId = a →
        1 / 100 < e.requestedNextTime - s.ner.currentTime ∨ s.LiveRequest e
  | _ => True

/-! ## The invariant -/

/-- The request may be one without a timer, because the timer has just been taken from the queue by
the tick thread or by `cancelTimer`, which is about to remove the request as well. -/
def Removing (s : RequestSystem) (agentId : String) : Prop :=
  s.phase = .firing agentId ∨ s.timerCall = some (.removed agentId)

/-- **The invariant.** -/
structure Invariant (s : RequestSystem) : Prop where
  live : ∀ e ∈ s.ner.nerRegistry, s.LiveRequest e ∨ s.Removing e.agentId
  latch : ∀ e ∈ s.ner.nerRegistry, ∀ l, e.tagLatch = some l → (l, e.agentId) ∈ s.blocked
  late : s.Late → ∀ e ∈ s.ner.nerRegistry, e.tagLatch = none →
    s.ner.currentTime < e.requestedNextTime ∨ s.timerCall = some (.removed e.agentId) ∨
      e.agentId = amrFleet ∧ s.phase = .evaluated

theorem invariant_start : start.Invariant where
  live _ he := nomatch he
  latch _ he := nomatch he
  late _ _ he := nomatch he

variable {pq : PriorityQueue TimerEntry TimerEntry.Le} {s : RequestSystem}

theorem mem_submitNER {ner : NerState} {a : String} {t : ℚ} {l : Option ℕ} {e : NEREntry} :
    e ∈ (ner.submitNER a t l).nerRegistry ↔
      e = ⟨a, t, l⟩ ∨ e ∈ ner.nerRegistry ∧ e.agentId ≠ a := by
  simp [NerState.submitNER, List.mem_filter]

theorem mem_removeNER {ner : NerState} {a : String} {e : NEREntry} :
    e ∈ (ner.removeNER a).nerRegistry ↔ e ∈ ner.nerRegistry ∧ e.agentId ≠ a := by
  simp [NerState.removeNER, List.mem_filter]

/-- A request stays live while its timer and its operation stay. -/
theorem LiveRequest.mono {s' : RequestSystem} {e : NEREntry} (h : s.LiveRequest e)
    (hqueue : ∀ t ∈ s.ner.timerQueue, t.targetAgentId = e.agentId → t ∈ s'.ner.timerQueue)
    (hblocked : ∀ l, (l, e.agentId) ∈ s.blocked → (l, e.agentId) ∈ s'.blocked) :
    s'.LiveRequest e := by
  rcases h with hamr | ⟨t, ht, hagent, hdue⟩ | ⟨l, hl, hmem⟩
  · exact .inl hamr
  · exact .inr (.inl ⟨t, hqueue t ht hagent, hagent, hdue⟩)
  · exact .inr (.inr ⟨l, hl, hblocked l hmem⟩)

/-! ## The steps of the timer artifact -/

/-- `startTimer` before its request, with a timer more or not. -/
theorem Invariant.call (h : s.Invariant) (hcall : ∀ a, s.timerCall ≠ some (.removed a))
    {call : Option TimerCall} {queue : List TimerEntry}
    (hqueue : ∀ t ∈ s.ner.timerQueue, t ∈ queue) :
    { s with
      ner := { s.ner with timerQueue := queue }
      timerCall := call : RequestSystem }.Invariant where
  live e he := by
    rcases h.live e he with hlive | hphase | hremoved
    · exact .inl (hlive.mono (fun t ht _ => hqueue t ht) fun _ => id)
    · exact .inr (.inl hphase)
    · exact absurd hremoved (hcall _)
  latch := h.latch
  late hlate e he hl := by
    rcases h.late hlate e he hl with hlt | hremoved | hamr
    · exact .inl hlt
    · exact absurd hremoved (hcall _)
    · exact .inr (.inr hamr)

theorem Invariant.submitTimer (h : s.Invariant) {t : TimerEntry}
    (hcall : s.timerCall = some (.offered t)) (htimely : s.Timely .submitTimer) :
    { s with
      ner := s.ner.submitNER t.targetAgentId t.fireAtSimTime none
      timerCall := none : RequestSystem }.Invariant := by
  obtain ⟨htimed, hlate⟩ := htimely t hcall
  have hnot : ∀ a, s.timerCall ≠ some (.removed a) := by
    intro a ha
    rw [hcall] at ha
    cases ha
  refine ⟨fun e he => ?_, fun e he l hl => ?_, fun hs e he hl => ?_⟩
  · rcases mem_submitNER.mp he with rfl | ⟨he, -⟩
    · exact htimed.imp (fun ht => .inr (.inl ht)) .inl
    · rcases h.live e he with hlive | hphase | hremoved
      · exact .inl hlive
      · exact .inr (.inl hphase)
      · exact absurd hremoved (hnot _)
  · rcases mem_submitNER.mp he with rfl | ⟨he, -⟩
    · cases hl
    · exact h.latch e he l hl
  · rcases mem_submitNER.mp he with rfl | ⟨he, -⟩
    · exact .inl (hlate hs)
    · rcases h.late hs e he hl with hlt | hremoved | hamr
      · exact .inl hlt
      · exact absurd hremoved (hnot _)
      · exact .inr (.inr hamr)

theorem Invariant.removeTimers (h : s.Invariant) (hcall : s.timerCall = none)
    (orderId agentId : String) :
    { s with
      ner := { s.ner with
        timerQueue := s.ner.timerQueue.filter fun e =>
          ¬ (e.orderId = orderId ∧ e.targetAgentId = agentId) }
      timerCall := some (.removed agentId) : RequestSystem }.Invariant where
  live e he := by
    by_cases hagent : e.agentId = agentId
    · exact .inr (.inr (by rw [hagent]))
    · rcases h.live e he with hlive | hphase | hremoved
      · refine .inl (hlive.mono (fun t ht htarget => ?_) fun _ => id)
        have hother : ¬(t.orderId = orderId ∧ t.targetAgentId = agentId) :=
          fun hboth => hagent (htarget.symm.trans hboth.2)
        exact List.mem_filter.mpr ⟨ht, decide_eq_true hother⟩
      · exact .inr (.inl hphase)
      · rw [hcall] at hremoved
        cases hremoved
  latch := h.latch
  late hlate e he hl := by
    rcases h.late hlate e he hl with hlt | hremoved | hamr
    · exact .inl hlt
    · rw [hcall] at hremoved
      cases hremoved
    · exact .inr (.inr hamr)

theorem Invariant.removeTimerRequest (h : s.Invariant) {a : String}
    (hcall : s.timerCall = some (.removed a)) :
    { s with ner := s.ner.removeNER a, timerCall := none : RequestSystem }.Invariant := by
  have hother : ∀ e : NEREntry, e.agentId ≠ a → s.timerCall ≠ some (.removed e.agentId) := by
    intro e hne hremoved
    rw [hcall] at hremoved
    cases hremoved
    exact hne rfl
  refine ⟨fun e he => ?_, fun e he l hl => ?_, fun hs e he hl => ?_⟩
  · obtain ⟨he, hne⟩ := mem_removeNER.mp he
    rcases h.live e he with hlive | hphase | hremoved
    · exact .inl hlive
    · exact .inr (.inl hphase)
    · exact absurd hremoved (hother e hne)
  · exact h.latch e (mem_removeNER.mp he).1 l hl
  · obtain ⟨he, hne⟩ := mem_removeNER.mp he
    rcases h.late hs e he hl with hlt | hremoved | hamr
    · exact .inl hlt
    · exact absurd hremoved (hother e hne)
    · exact .inr (.inr hamr)

/-- The steps of `startTimer` and `cancelTimer` keep the invariant. -/
theorem Invariant.timerStep (h : s.Invariant) {op : RequestOp} (htimely : s.Timely op) :
    (s.timerStep pq op).Invariant := by
  unfold RequestSystem.timerStep
  split
  · rename_i hcall
    exact h.call (by simp [hcall]) fun _ => id
  · rename_i t hcall
    split_ifs
    · exact h
    · exact h.call (by simp [hcall]) fun t' ht' => pq.mem_offer.mpr (.inr ht')
  · rename_i t hcall
    exact h.submitTimer hcall htimely
  · rename_i orderId agentId hcall
    split_ifs
    · exact h
    · exact h.removeTimers hcall orderId agentId
  · rename_i a hcall
    exact h.removeTimerRequest hcall
  · exact h

/-! ## The steps of `processOrder` -/

theorem Invariant.submitOrder (h : s.Invariant) (agentId : String) (t : ℚ) :
    { s with
      ner := s.ner.submitNER agentId t (some s.latches)
      blocked := (s.latches, agentId) :: s.blocked
      latches := s.latches + 1 : RequestSystem }.Invariant := by
  refine ⟨fun e he => ?_, fun e he l hl => ?_, fun hs e he hl => ?_⟩
  · rcases mem_submitNER.mp he with rfl | ⟨he, -⟩
    · exact .inl (.inr (.inr ⟨_, rfl, List.mem_cons_self⟩))
    · exact (h.live e he).imp_left fun hlive =>
        hlive.mono (fun _ ht _ => ht) fun _ hl => List.mem_cons_of_mem _ hl
  · rcases mem_submitNER.mp he with rfl | ⟨he, -⟩
    · cases hl
      exact List.mem_cons_self
    · exact List.mem_cons_of_mem _ (h.latch e he l hl)
  · rcases mem_submitNER.mp he with rfl | ⟨he, -⟩
    · cases hl
    · exact h.late hs e he hl

theorem Invariant.wakeOrder (h : s.Invariant) (latch : ℕ) (agentId : String) :
    { s with
      ner := s.ner.removeNER agentId
      blocked := s.blocked.filter (· ≠ (latch, agentId)) : RequestSystem }.Invariant := by
  have hkeep : ∀ e : NEREntry, e.agentId ≠ agentId → ∀ l, (l, e.agentId) ∈ s.blocked →
      (l, e.agentId) ∈ s.blocked.filter (· ≠ (latch, agentId)) := by
    intro e hne l hl
    have hpair : (l, e.agentId) ≠ (latch, agentId) := fun hp => hne (congrArg Prod.snd hp)
    exact List.mem_filter.mpr ⟨hl, decide_eq_true hpair⟩
  refine ⟨fun e he => ?_, fun e he l hl => ?_, fun hs e he hl => ?_⟩
  · obtain ⟨he, hne⟩ := mem_removeNER.mp he
    exact (h.live e he).imp_left fun hlive => hlive.mono (fun _ ht _ => ht) (hkeep e hne)
  · obtain ⟨he, hne⟩ := mem_removeNER.mp he
    exact hkeep e hne l (h.latch e he l hl)
  · exact h.late hs e (mem_removeNER.mp he).1 hl

/-! ## The steps of the tick thread -/

/-- The tick thread moves on, outside the loop of `evaluateTTLs` and not behind it. -/
theorem Invariant.goPhase (h : s.Invariant) (hphase : ∀ a, s.phase ≠ .firing a) {p : TickPhase}
    (hp : p ≠ .evaluated ∧ p ≠ .positioned) {time : ℚ} {countedDown : List ℕ} :
    { s with
      ner := { s.ner with currentTime := time, countedDown := countedDown }
      phase := p : RequestSystem }.Invariant where
  live e he := by
    rcases h.live e he with hlive | hfiring | hremoved
    · exact .inl hlive
    · exact absurd hfiring (hphase _)
    · exact .inr (.inr hremoved)
  latch := h.latch
  late hlate := by
    rcases hlate with hlate | hlate
    · exact absurd hlate hp.1
    · exact absurd hlate hp.2

/-- A timer is taken from the queue. -/
theorem Invariant.fire (h : s.Invariant) (hphase : s.phase = .evaluating) {t : TimerEntry}
    {rest : List TimerEntry} (hpoll : pq.poll s.ner.timerQueue = some (t, rest))
    {expired : List (String × String)} :
    { s with
      ner := { s.ner with timerQueue := rest, timerExpired := expired }
      phase := .firing t.targetAgentId : RequestSystem }.Invariant where
  live e he := by
    by_cases hagent : e.agentId = t.targetAgentId
    · exact .inr (.inl (by rw [hagent]))
    · rcases h.live e he with hlive | hfiring | hremoved
      · refine .inl (hlive.mono (fun t' ht' htarget => ?_) fun _ => id)
        rcases (pq.mem_of_poll hpoll t').mp ht' with rfl | hrest
        · exact absurd htarget.symm hagent
        · exact hrest
      · rw [hphase] at hfiring
        cases hfiring
      · exact .inr (.inr hremoved)
  latch := h.latch
  late hlate := by
    rcases hlate with hlate | hlate <;> cases hlate

/-- The loop is over when no timer is due, and no request of a timer either. -/
theorem Invariant.endLoop (h : s.Invariant) (hphase : s.phase = .evaluating)
    (hdue : ∀ t ∈ s.ner.timerQueue, s.ner.currentTime < t.fireAtSimTime) :
    { s with phase := .evaluated : RequestSystem }.Invariant where
  live e he := by
    rcases h.live e he with hlive | hfiring | hremoved
    · exact .inl hlive
    · rw [hphase] at hfiring
      cases hfiring
    · exact .inr (.inr hremoved)
  latch := h.latch
  late _ e he hl := by
    rcases h.live e he with (hamr | ⟨t, ht, -, hle⟩ | ⟨l, hl', -⟩) | hfiring | hremoved
    · exact .inr (.inr ⟨hamr, rfl⟩)
    · exact .inl ((hdue t ht).trans_le hle)
    · rw [hl] at hl'
      cases hl'
    · rw [hphase] at hfiring
      cases hfiring
    · exact .inr (.inl hremoved)

theorem Invariant.expireTimer (h : s.Invariant) {a : String} (hphase : s.phase = .firing a)
    {throws : Bool} (htimely : s.Timely (.expireTimer throws)) :
    { s with
      ner := if throws then s.ner else s.ner.removeNER a
      phase := .evaluating : RequestSystem }.Invariant := by
  have hfiring : ∀ {e : NEREntry}, s.phase = .firing e.agentId → e.agentId = a := by
    intro e he
    rw [hphase] at he
    cases he
    rfl
  have hnotLate : ∀ {s' : RequestSystem}, s'.phase = .evaluating → ¬s'.Late := by
    intro s' hs' hlate
    rcases hlate with hlate | hlate <;> cases hs'.symm.trans hlate
  match throws with
  | true =>
    refine ⟨fun e he => ?_, h.latch, fun hs => absurd hs (hnotLate rfl)⟩
    rcases h.live e he with hlive | hphase' | hremoved
    · exact .inl hlive
    · exact .inl (htimely rfl a hphase e he (hfiring hphase'))
    · exact .inr (.inr hremoved)
  | false =>
    refine ⟨fun e he => ?_, fun e he => h.latch e (mem_removeNER.mp he).1,
      fun hs => absurd hs (hnotLate rfl)⟩
    obtain ⟨he, hne⟩ := mem_removeNER.mp he
    rcases h.live e he with hlive | hphase' | hremoved
    · exact .inl hlive
    · exact absurd (hfiring hphase') hne
    · exact .inr (.inr hremoved)

theorem Invariant.updatePositions (h : s.Invariant) (hphase : s.phase = .evaluated)
    (soonestNeed : Option { q : ℚ // 0 < q }) :
    { s with
      ner := match soonestNeed with
        | some need => s.ner.submitNER amrFleet (s.ner.currentTime + need) none
        | none => s.ner.removeNER amrFleet
      phase := .positioned : RequestSystem }.Invariant := by
  have hlive : ∀ e ∈ s.ner.nerRegistry,
      s.LiveRequest e ∨ s.timerCall = some (.removed e.agentId) := by
    intro e he
    rcases h.live e he with hlive | hfiring | hremoved
    · exact .inl hlive
    · rw [hphase] at hfiring
      cases hfiring
    · exact .inr hremoved
  have hlate : ∀ e ∈ s.ner.nerRegistry, e.agentId ≠ amrFleet → e.tagLatch = none →
      s.ner.currentTime < e.requestedNextTime ∨ s.timerCall = some (.removed e.agentId) := by
    intro e he hne hl
    rcases h.late (.inl hphase) e he hl with hlt | hremoved | hamr
    · exact .inl hlt
    · exact .inr hremoved
    · exact absurd hamr.1 hne
  match soonestNeed with
  | none =>
    refine ⟨fun e he => ?_, fun e he => h.latch e (mem_removeNER.mp he).1, fun _ e he hl => ?_⟩
    · exact (hlive e (mem_removeNER.mp he).1).imp_right .inr
    · obtain ⟨he, hne⟩ := mem_removeNER.mp he
      exact (hlate e he hne hl).imp_right .inl
  | some need =>
    refine ⟨fun e he => ?_, fun e he l hl => ?_, fun _ e he hl => ?_⟩
    · rcases mem_submitNER.mp he with rfl | ⟨he, -⟩
      · exact .inl (.inl rfl)
      · exact (hlive e he).imp_right .inr
    · rcases mem_submitNER.mp he with rfl | ⟨he, -⟩
      · cases hl
      · exact h.latch e he l hl
    · rcases mem_submitNER.mp he with rfl | ⟨he, hne⟩
      · exact .inl (lt_add_of_pos_right _ need.2)
      · exact (hlate e he hne hl).imp_right .inl

/-- The steps of the tick thread keep the invariant. -/
theorem Invariant.tickStep (h : s.Invariant) {op : RequestOp} (htimely : s.Timely op) :
    (s.tickStep pq op).Invariant := by
  unfold RequestSystem.tickStep
  split
  · rename_i hphase
    exact h.goPhase (by simp [hphase]) (by simp)
  · rename_i hphase
    exact h.goPhase (by simp [hphase]) (by simp)
  · rename_i hphase
    exact h.goPhase (by simp [hphase]) (by simp)
  · rename_i hphase
    split
    · rename_i hpoll
      refine h.endLoop hphase fun t ht => ?_
      rw [pq.poll_eq_none_iff.mp hpoll] at ht
      cases ht
    · rename_i t rest hpoll
      split_ifs with hdue
      · exact h.fire hphase hpoll
      · refine h.endLoop hphase fun t' ht' => ?_
        exact (not_le.mp hdue).trans_le (pq.poll_least _ _ _ hpoll t' ht')
  · rename_i a hphase
    exact h.expireTimer hphase htimely
  · rename_i hphase
    exact h.updatePositions hphase _
  · rename_i hphase
    exact h.goPhase (by simp [hphase]) (by simp)
  · exact h
  · exact h
  · rename_i hnot
    exact h.goPhase hnot (by simp)
  · exact h

/-- **The step lemma.** -/
theorem Invariant.exec (h : s.Invariant) {op : RequestOp} (htimely : s.Timely op) :
    (s.exec pq op).Invariant := by
  match op with
  | .submitOrder agentId t => exact h.submitOrder agentId t
  | .wakeOrder latch agentId interrupted =>
    rw [RequestSystem.exec]
    split_ifs
    · exact h.wakeOrder latch agentId
    · exact h
  | .readClock .. => exact h.timerStep htimely
  | .offerTimer => exact h.timerStep htimely
  | .submitTimer => exact h.timerStep htimely
  | .removeTimers .. => exact h.timerStep htimely
  | .removeTimerRequest => exact h.timerStep htimely
  | .computeDt => exact h.tickStep htimely
  | .advance _ => exact h.tickStep htimely
  | .enterTTLs => exact h.tickStep htimely
  | .pollTimer => exact h.tickStep htimely
  | .expireTimer _ => exact h.tickStep htimely
  | .updatePositions _ => exact h.tickStep htimely
  | .grant => exact h.tickStep htimely
  | .tickFails => exact h.tickStep htimely

/-! ## Clean ticks -/

/-- `computedDt` is the least one only because of a request that is as near. -/
theorem exists_near_request {currentTime : ℚ} {registry : List NEREntry}
    (h : computedDt currentTime registry = 1 / 100) :
    ∃ e ∈ registry, e.requestedNextTime - currentTime ≤ 1 / 100 := by
  by_contra hfar
  have hfold : ∀ (l : List NEREntry) (dt : ℚ), 1 / 100 < dt →
      (∀ e ∈ l, 1 / 100 < e.requestedNextTime - currentTime) →
      1 / 100 < l.foldl (fun dt e => if e.requestedNextTime - currentTime < dt
        then e.requestedNextTime - currentTime else dt) dt := by
    intro l
    induction l with
    | nil => exact fun dt hdt _ => hdt
    | cons e l ih =>
      intro dt hdt hall
      refine ih _ ?_ fun e' he' => hall e' (List.mem_cons_of_mem _ he')
      beta_reduce
      split_ifs
      · exact hall e List.mem_cons_self
      · exact hdt
  have hlt := hfold registry 1 (by norm_num) fun e he => by
    by_contra hle
    exact hfar ⟨e, he, not_lt.mp hle⟩
  rw [computedDt] at h
  have hmin : 1 / 100 < min 1 (registry.foldl (fun dt e => if e.requestedNextTime - currentTime < dt
      then e.requestedNextTime - currentTime else dt) 1) := lt_min (by norm_num) hlt
  rw [max_eq_right hmin.le] at h
  exact hmin.ne' h

/-- At the end of a tick no request is due but those of blocked operations. -/
theorem Invariant.clean_grant (h : s.Invariant) (htimely : s.Timely .grant) :
    s.CleanTick pq .grant := by
  intro hphase e he hdue
  have hgrant : s.exec pq .grant =
      { s with ner := s.ner.issueTimeAdvanceGrant s.ner.currentTime, phase := .waiting } := by
    show s.tickStep pq .grant = _
    unfold RequestSystem.tickStep
    rw [hphase]
  rw [hgrant] at he hdue ⊢
  cases hl : e.tagLatch with
  | some l => exact ⟨l, hl, h.latch e he l hl⟩
  | none =>
    rcases h.late (.inr hphase) e he hl with hlt | hremoved | ⟨-, hphase'⟩
    · exact absurd hdue (not_le.mpr hlt)
    · exact absurd hdue (not_le.mpr (htimely _ hremoved e he rfl hl))
    · rw [hphase] at hphase'
      cases hphase'

/-- The least `dt` comes from a live request. -/
theorem Invariant.clean_computeDt (h : s.Invariant) (htimely : s.Timely .computeDt) :
    s.CleanTick pq .computeDt := by
  intro hphase hdt
  obtain ⟨e, he, hnear⟩ := exists_near_request hdt
  refine ⟨e, he, hnear, ?_⟩
  rcases h.live e he with hlive | hfiring | hremoved
  · exact hlive
  · rw [hphase] at hfiring
    cases hfiring
  · rcases htimely _ hremoved e he rfl with hfar | hlive
    · exact absurd hnear (not_le.mpr hfar)
    · exact hlive

/-- A timer is started, and fires at the end of the tick after. -/
def timerTick : List RequestOp :=
  [RequestOp.readClock "phase0_poll" 500 "supervisor", .offerTimer, .submitTimer, .computeDt,
    .advance (1 / 2), .enterTTLs, .pollTimer, .expireTimer false, .pollTimer,
    .updatePositions none, .grant]

/-- The same, where the tick thread fires the timer before the request is submitted. -/
def splitTick : List RequestOp :=
  [RequestOp.readClock "phase0_poll" 500 "supervisor", .offerTimer, .computeDt, .advance 1,
    .enterTTLs, .pollTimer, .expireTimer false, .pollTimer, .submitTimer, .updatePositions none]

end RequestSystem

end MatrixFactory
