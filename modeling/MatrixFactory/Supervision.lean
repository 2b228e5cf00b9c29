/-
# The supervisor and its surroundings

The supervisor with its timers, the simulator's transition and what it has sent.  As on the
shop floor an operation is a move of the agent or an event of its surroundings, a timer may
expire at any moment, and its signal is raised later and can no longer be cancelled.  The
holons are part of the surroundings: an acknowledgement or a blocked transport may be
reported at any moment, and the registry and the utilization of the grid are whatever a move
finds.

The fields after `activeTransition` record what has happened, and no guard and no effect of
the code depends on them.
-/
import MatrixFactory.SupervisorAgent
import MatrixFactory.Lib.Agenda
import MatrixFactory.Lib.Runs

namespace MatrixFactory

open AgentSpeak

/-- `OrgSchemaTransition`, with the number of the transition. -/
structure OrgSchemaTransition where
  number : ℕ
  targetSchema : Schema
  newEpoch : ℕ
  committed : Bool := false
  deriving DecidableEq

/-- A timer of the supervisor, with the transition it was started for. -/
structure SupervisorTimer where
  key : PhaseTimer
  k : ℕ
  deriving DecidableEq

/-- The state.  The timers of `signals` have expired, but their signals have not been raised.
`initiated` numbers the transitions, `phase0`, `phase1` and `committed` hold those that have
entered the phases and those that have been committed, `frozen` the holons that were sent
`suspend_intentions` and not since `resume_intention`, and `sent` the suspensions sent for
each transition. -/
structure Supervision where
  agent : Population Unit SupervisorBeliefs SupervisorTrigger SupervisorStmt
  timers : List SupervisorTimer := []
  signals : List SupervisorTimer := []
  schemaEpoch : ℕ := 0
  activeTransition : Option OrgSchemaTransition := none
  initiated : ℕ := 0
  phase0 : List ℕ := []
  phase1 : List ℕ := []
  committed : List ℕ := []
  frozen : List String := []
  sent : List (String × ℕ) := []

/-- The operations: moves of the supervisor, and events of its surroundings. -/
inductive SupervisionOp where
  | select
  | move (i : ℕ) (x : SupervisorInput)
  | expire (j : ℕ)
  | signal (j : ℕ)
  | energyPriceSpike (price : ℚ)
  | energyPriceNormal (price : ℚ)
  | suspendAck (who : String)
  | transportBlocked (o : OrderId) (source : String)
  | clearCommittedTransition

namespace Supervision

/-- `beginTransition`; the next epoch is reserved, and the transition before it is
forgotten. -/
def beginTransition (target : Schema) (k : ℕ) (s : Supervision) : Supervision :=
  { s with
    activeTransition := some ⟨k, target, s.schemaEpoch + 1, false⟩
    initiated := k + 1 }

/-- `commitTransition`; without an active transition that is not committed it is ignored. -/
def commitTransition (s : Supervision) : Supervision :=
  match s.activeTransition with
  | none => s
  | some t =>
    if t.committed then s
    else
      { s with
        schemaEpoch := t.newEpoch
        activeTransition := some { t with committed := true }
        committed := t.number :: s.committed }

/-- An action of the supervisor. -/
def act : SupervisorAction → Supervision → Supervision
  | .initiateTransition target k, s => s.beginTransition target k
  | .commitTransition _, s => s.commitTransition
  | .startTimer key _ k, s => { s with timers := s.timers ++ [⟨key, k⟩] }
  | .cancelTimer key, s => { s with timers := s.timers.filter fun t => t.key ≠ key }
  | .sendSuspend h k, s =>
    { s with frozen := h :: s.frozen, sent := (k.map fun k => (h, k)).toList ++ s.sent }
  | .sendResume h, s => { s with frozen := s.frozen.filter (· ≠ h) }
  | .sendAbort _ _, s => s
  | .recordAborted _, s => s
  | .clearExpiredReservations, s => s

/-- The phase that is entered when a goal is answered. -/
def enter : Option SupervisorTrigger → Supervision → Supervision
  | some (.runPhase0 k), s => { s with phase0 := k :: s.phase0 }
  | some (.runPhase1 k), s => { s with phase1 := k :: s.phase1 }
  | _, s => s

/-- What a move reads from outside. -/
def input (x : SupervisorInput) (s : Supervision) : SupervisorInput :=
  { x with epoch := s.schemaEpoch + 1, number := s.initiated }

/-- A move of intention `i`. -/
def move (r : Roster) (i : ℕ) (x : SupervisorInput) (s : Supervision) : Supervision :=
  match s.agent.intentions[i]? with
  | none => s
  | some θ =>
    let m := (SupervisorAgent.program r).move (s.input x) (s.agent.beliefs ()) θ
    Runs.run act m.actions (enter θ.pending { s with agent := s.agent.apply i m })

/-- One operation. -/
def exec (r : Roster) : SupervisionOp → Supervision → Supervision
  | .select, s => { s with agent := s.agent.select (SupervisorAgent.program r) () }
  | .move i x, s => s.move r i x
  | .expire j, s =>
    match s.timers[j]? with
    | none => s
    | some t => { s with timers := s.timers.eraseIdx j, signals := s.signals ++ [t] }
  | .signal j, s =>
    match s.signals[j]? with
    | none => s
    | some t =>
      { s with
        signals := s.signals.eraseIdx j
        agent := s.agent.post () (.timerExpired t.key t.k) }
  -- the observable property and the signal each raise the event
  | .energyPriceSpike price, s =>
    { s with
      agent := (s.agent.post () (.energyPriceSpike price)).post () (.energyPriceSpike price) }
  | .energyPriceNormal price, s => { s with agent := s.agent.post () (.energyPriceNormal price) }
  | .suspendAck who, s =>
    { s with
      agent := s.agent.believe () fun b => { b with suspendAck := addBelief who b.suspendAck } }
  | .transportBlocked o source, s =>
    let (told, new) := AgentSpeak.tell id ⟨o, source⟩ (s.agent.beliefs ()).transportBlocked
    let agent := s.agent.believe () fun b => { b with transportBlocked := told }
    { s with agent := if new then agent.post () (.transportBlocked ⟨o, source⟩) else agent }
  | .clearCommittedTransition, s =>
    { s with activeTransition := s.activeTransition.filter fun t => ¬ t.committed }

/-- The supervisor is about to pursue its goal `start`. -/
def start (adacorEnabled : Bool) : Supervision where
  agent :=
    { beliefs := fun _ => { adacorEnabled := adacorEnabled }, events := [((), .start)] }

/-- What the supervisor has to do: a goal or a statement. -/
abbrev Item := SupervisorTrigger ⊕ SupervisorStmt

/-- The goals and statements that an intention has before it. -/
abbrev Agenda := List Item

/-! ## What an operation does -/

theorem recover_eq (r : Roster) (t : SupervisorTrigger) :
    (SupervisorAgent.program r).recover t = none := rfl

/-- The goal that an agenda begins with. -/
def goalOf : List Item → Option SupervisorTrigger
  | .inl g :: _ => some g
  | _ => none

@[simp] theorem goalOf_agenda (θ : Intention Unit SupervisorTrigger SupervisorStmt) :
    goalOf θ.agenda = θ.pending := by
  unfold Intention.agenda
  cases θ.pending with
  | some g => rfl
  | none => cases θ.frames.flatMap Frame.body <;> rfl

/-- A move has the effect of the head of its agenda. -/
theorem move_eq {r : Roster} {i : ℕ} {x : SupervisorInput} {s : Supervision}
    {θ : Intention Unit SupervisorTrigger SupervisorStmt} (hi : s.agent.intentions[i]? = some θ)
    (hθ : θ.Settled) :
    s.move r i x = Runs.run act
      ((SupervisorAgent.program r).effect (s.input x) () (s.agent.beliefs ()) θ.agenda).2
      (enter (goalOf θ.agenda) { s with
        agent := s.agent.apply i
          ((SupervisorAgent.program r).move (s.input x) (s.agent.beliefs ()) θ) }) := by
  obtain ⟨-, -, heffect⟩ := (SupervisorAgent.program r).move_agenda (recover_eq r) (s.input x)
    (s.agent.beliefs ()) hθ
  rw [move, hi, goalOf_agenda]
  exact congrArg (fun e : SupervisorBeliefs × List SupervisorAction => Runs.run act e.2 _) heffect

@[simp] theorem act_agent (a : SupervisorAction) (s : Supervision) :
    (act a s).agent = s.agent := by
  cases a with
  | commitTransition k =>
    simp only [act, commitTransition]
    split
    · rfl
    · split <;> rfl
  | _ => rfl

@[simp] theorem enter_agent (g : Option SupervisorTrigger) (s : Supervision) :
    (enter g s).agent = s.agent := by
  unfold enter
  split <;> rfl

theorem run_act_agent (acts : List SupervisorAction) (s : Supervision) :
    (Runs.run act acts s).agent = s.agent := by
  induction acts generalizing s with
  | nil => rfl
  | cons a acts ih => rw [Runs.run_cons, ih, act_agent]

theorem move_agent {r : Roster} {i : ℕ} {x : SupervisorInput} {s : Supervision}
    {θ : Intention Unit SupervisorTrigger SupervisorStmt} (hi : s.agent.intentions[i]? = some θ) :
    (s.move r i x).agent = s.agent.apply i
      ((SupervisorAgent.program r).move (s.input x) (s.agent.beliefs ()) θ) := by
  rw [move, hi]
  dsimp only
  rw [run_act_agent, enter_agent]

/-- The beliefs after a move are those of the head of its agenda. -/
theorem move_beliefs {r : Roster} {i : ℕ} {x : SupervisorInput} {s : Supervision}
    {θ : Intention Unit SupervisorTrigger SupervisorStmt} (hi : s.agent.intentions[i]? = some θ)
    (hθ : θ.Settled) :
    (s.move r i x).agent.beliefs ()
      = ((SupervisorAgent.program r).effect (s.input x) () (s.agent.beliefs ()) θ.agenda).1 := by
  obtain ⟨-, -, heffect⟩ := (SupervisorAgent.program r).move_agenda (recover_eq r) (s.input x)
    (s.agent.beliefs ()) hθ
  rw [move_agent hi, ← heffect]
  simp [Population.apply]

/-- The reports of the supervisor's surroundings. -/
def isReport : SupervisorTrigger → Bool
  | .energyPriceSpike _ | .energyPriceNormal _ | .transportBlocked _ => true
  | _ => false

/-- The events that the supervisor answers. -/
def isEvent : SupervisorTrigger → Bool
  | .start | .timerExpired _ _ => true
  | t => isReport t

/-- An event waits for the supervisor, or a timer whose signal will raise it has been
started. -/
def UnderWay (t : SupervisorTrigger) (s : Supervision) : Prop :=
  ((), t) ∈ s.agent.events ∨ ∃ u ∈ s.timers ++ s.signals, t = .timerExpired u.key u.k

/-- Every event under way satisfies `E`, and every agenda `P`. -/
structure Holds (E : SupervisorTrigger → Prop)
    (P : List Item → Prop) (s : Supervision) : Prop where
  events : ∀ t, s.UnderWay t → E t
  agendas : s.agent.Agendas fun _ => P

variable {r : Roster} {s : Supervision} {E E' : SupervisorTrigger → Prop}
  {P P' : List Item → Prop}

theorem underWay_post {t t' : SupervisorTrigger} {agent : Population Unit SupervisorBeliefs
    SupervisorTrigger SupervisorStmt} (hagent : agent.events = s.agent.events ++ [((), t')])
    (h : UnderWay t { s with agent := agent }) : t = t' ∨ s.UnderWay t := by
  rcases h with h | h
  · rw [hagent] at h
    rcases List.mem_append.mp h with h | h
    · exact Or.inr (Or.inl h)
    · exact Or.inl (Prod.mk.inj (List.mem_singleton.mp h)).2
  · exact Or.inr (Or.inr h)

/-- An operation that is no move adds reports to the events, and an answer to one to the
agendas. -/
theorem Holds.surroundings {op : SupervisionOp} (h : Holds E P s) (hop : ∀ i x, op ≠ .move i x)
    (hreport : ∀ t, isReport t → E t)
    (hselect : op = .select → ∀ t, s.UnderWay t → E t → ∀ body,
      SupervisorAgent.plan r () (s.agent.beliefs ()) t = some body → P (body.map Sum.inr)) :
    Holds E P (s.exec r op) := by
  cases op with
  | select =>
    constructor
    · rintro t (ht | ht)
      · refine h.events t (Or.inl ?_)
        simp only [exec, Population.select] at ht
        split at ht
        · exact ht
        · split at ht <;> exact List.mem_of_mem_eraseP ht
      · refine h.events t (Or.inr ?_)
        exact ht
    · refine h.agendas.select fun e he body hbody => ?_
      have hunder : s.UnderWay e.2 := Or.inl (List.mem_of_find?_eq_some he)
      exact hselect rfl e.2 hunder (h.events _ hunder) body hbody
  | move i x => exact absurd rfl (hop i x)
  | expire j =>
    simp only [exec]
    split
    · exact h
    · next u hu =>
      refine ⟨fun t ht => h.events t ?_, h.agendas⟩
      rcases ht with ht | ⟨u', hu', rfl⟩
      · exact Or.inl ht
      · refine Or.inr ⟨u', ?_, rfl⟩
        simp only [List.mem_append, List.mem_singleton] at hu' ⊢
        rcases hu' with hu' | hu' | rfl
        · exact Or.inl (List.mem_of_mem_eraseIdx hu')
        · exact Or.inr hu'
        · exact Or.inl (List.mem_of_getElem? hu)
  | signal j =>
    simp only [exec]
    split
    · exact h
    · next u hu =>
      refine ⟨fun t ht => h.events t ?_, h.agendas⟩
      rcases ht with ht | ⟨u', hu', rfl⟩
      · rcases List.mem_append.mp ht with ht | ht
        · exact Or.inl ht
        · have hmem := List.mem_append_right s.timers (List.mem_of_getElem? hu)
          exact Or.inr ⟨u, hmem, (Prod.mk.inj (List.mem_singleton.mp ht)).2⟩
      · refine Or.inr ⟨u', ?_, rfl⟩
        rcases List.mem_append.mp hu' with hu' | hu'
        · exact List.mem_append_left _ hu'
        · exact List.mem_append_right _ (List.mem_of_mem_eraseIdx hu')
  | energyPriceSpike price =>
    refine ⟨fun t ht => ?_, h.agendas⟩
    rcases ht with ht | ht
    · rcases List.mem_append.mp ht with ht | ht
      · rcases List.mem_append.mp ht with ht | ht
        · exact h.events t (Or.inl ht)
        · obtain ⟨-, rfl⟩ := Prod.mk.inj (List.mem_singleton.mp ht)
          exact hreport _ rfl
      · obtain ⟨-, rfl⟩ := Prod.mk.inj (List.mem_singleton.mp ht)
        exact hreport _ rfl
    · exact h.events t (Or.inr ht)
  | energyPriceNormal price =>
    refine ⟨fun t ht => ?_, h.agendas⟩
    rcases underWay_post rfl ht with rfl | ht
    · exact hreport _ rfl
    · exact h.events t ht
  | suspendAck who => exact ⟨fun t ht => h.events t ht, h.agendas⟩
  | transportBlocked o source =>
    simp only [exec]
    split
    · refine ⟨fun t ht => ?_, h.agendas⟩
      rcases underWay_post rfl ht with rfl | ht
      · exact hreport _ rfl
      · exact h.events t ht
    · exact ⟨fun t ht => h.events t ht, h.agendas⟩
  | clearCommittedTransition => exact ⟨fun t ht => h.events t ht, h.agendas⟩

theorem enter_timers (g : Option SupervisorTrigger) (s : Supervision) :
    (enter g s).timers = s.timers ∧ (enter g s).signals = s.signals := by
  unfold enter
  split <;> exact ⟨rfl, rfl⟩

/-- A timer after a list of actions was running before, or one of them has started it. -/
theorem mem_timers_run {acts : List SupervisorAction} {u : SupervisorTimer}
    (h : u ∈ (Runs.run act acts s).timers ++ (Runs.run act acts s).signals) :
    u ∈ s.timers ++ s.signals ∨ ∃ ttl, .startTimer u.key ttl u.k ∈ acts := by
  induction acts generalizing s with
  | nil => exact Or.inl h
  | cons a acts ih =>
    rcases ih h with h | ⟨ttl, h⟩
    · cases a with
      | startTimer key ttl k =>
        simp only [act, List.mem_append, List.mem_singleton] at h
        rcases h with (h | rfl) | h
        · exact Or.inl (List.mem_append_left _ h)
        · exact Or.inr ⟨ttl, List.mem_cons_self⟩
        · exact Or.inl (List.mem_append_right _ h)
      | cancelTimer key =>
        rcases List.mem_append.mp h with h | h
        · exact Or.inl (List.mem_append_left _ (List.mem_of_mem_filter h))
        · exact Or.inl (List.mem_append_right _ h)
      | commitTransition k =>
        simp only [act, commitTransition] at h
        split at h
        · exact Or.inl h
        · split at h <;> exact Or.inl h
      | _ => exact Or.inl h
    · exact Or.inr ⟨ttl, List.mem_cons_of_mem _ h⟩

/-- A move advances one agenda and starts timers. -/
theorem Holds.move {i : ℕ} {x : SupervisorInput}
    {θ : Intention Unit SupervisorTrigger SupervisorStmt} (h : Holds E P s)
    (hi : s.agent.intentions[i]? = some θ) (hE : ∀ t, s.UnderWay t → E t → E' t)
    (hothers : ∀ j θ', s.agent.intentions[j]? = some θ' → j ≠ i → P θ'.agenda → P' θ'.agenda)
    (hmove : P θ.agenda → P' ((SupervisorAgent.program r).advance (s.input x) ()
      (s.agent.beliefs ()) θ.agenda))
    (hstart : ∀ key ttl k, .startTimer key ttl k ∈ ((SupervisorAgent.program r).effect (s.input x)
      () (s.agent.beliefs ()) θ.agenda).2 → E' (.timerExpired key k)) :
    Holds E' P' (s.move r i x) := by
  constructor
  · rintro t (ht | ⟨u, hu, rfl⟩)
    · rw [move_agent hi] at ht
      exact hE t (Or.inl ht) (h.events t (Or.inl ht))
    · rw [move_eq hi (h.agendas.settled hi)] at hu
      rcases mem_timers_run hu with hu | ⟨ttl, hu⟩
      · rw [(enter_timers _ _).1, (enter_timers _ _).2] at hu
        exact hE _ (Or.inr ⟨u, hu, rfl⟩) (h.events _ (Or.inr ⟨u, hu, rfl⟩))
      · exact hstart _ _ _ hu
  · rw [move_agent hi]
    exact h.agendas.apply_move (recover_eq r) hi hothers hmove

/-! ## The numbers of transitions -/

end Supervision

/-- The transition that a goal or event belongs to. -/
def SupervisorTrigger.number : SupervisorTrigger → Option ℕ
  | .runPhase0 k | .awaitPhase0Drain k | .runPhase1 k | .awaitPhase1Acks _ k | .doCommit k => some k
  | .sendSuspendToAll _ k => k
  | .timerExpired .gridResumePoll _ => none
  | .timerExpired _ k => some k
  | _ => none

/-- The transition that a statement belongs to. -/
def SupervisorStmt.number : SupervisorStmt → Option ℕ
  | .achieve g => g.number
  | .startTimer .gridResumePoll _ _ => none
  | .startTimer _ _ k | .ifDrained k | .getActiveLocks k | .queryActiveHolons k
  | .waitSuspendAck _ k | .commitTransition k => some k
  | .sendSuspend _ k => k
  | _ => none

namespace Supervision

variable {r : Roster} {s : Supervision}

/-- The transition that an item belongs to. -/
def number : Item → Option ℕ
  | .inl g => g.number
  | .inr stmt => stmt.number

/-- The plan of a goal or event belongs to its transition. -/
theorem plan_number {b : SupervisorBeliefs} {t : SupervisorTrigger} {body : List SupervisorStmt}
    (h : SupervisorAgent.plan r () b t = some body) :
    ∀ stmt ∈ body, ∀ k ∈ stmt.number, t.number = some k := by
  have hnone : ∀ l : List SupervisorStmt, (l.all fun stmt => stmt.number = none) →
      ∀ stmt ∈ l, ∀ k ∈ stmt.number, t.number = some k := by
    intro l hl stmt hstmt k hk
    have hno : stmt.number = none := by simpa using List.all_eq_true.mp hl stmt hstmt
    rw [hno] at hk
    cases hk
  cases t with
  | runPhase0 k =>
    cases h
    simp [SupervisorStmt.number, SupervisorTrigger.number]
  | awaitPhase0Drain k =>
    cases h
    simp [SupervisorStmt.number, SupervisorTrigger.number]
  | runPhase1 k =>
    cases h
    simp [SupervisorStmt.number, SupervisorTrigger.number]
  | sendSuspendToAll holons k =>
    cases holons with
    | nil =>
      cases h
      simp
    | cons holon holons =>
      cases h
      simp [SupervisorStmt.number, SupervisorTrigger.number]
  | awaitPhase1Acks pending k =>
    cases pending <;>
    · cases h
      simp [SupervisorStmt.number, SupervisorTrigger.number]
  | doCommit k =>
    simp only [SupervisorAgent.plan] at h
    split at h <;> cases h
    simp [SupervisorStmt.number, SupervisorTrigger.number]
  | timerExpired key k =>
    cases key <;>
    · cases h
      simp [SupervisorStmt.number, SupervisorTrigger.number]
  | energyPriceSpike price =>
    simp only [SupervisorAgent.plan] at h
    split at h
    · cases h
      exact hnone _ rfl
    · split at h <;> cases h
      exact hnone _ rfl
  | energyPriceNormal price =>
    simp only [SupervisorAgent.plan] at h
    split at h
    · cases h
      exact hnone _ rfl
    · split at h <;> cases h
      exact hnone _ rfl
  | abortAllLocks locks => cases locks <;> cases h <;> exact hnone _ rfl
  | transportBlocked m =>
    simp only [SupervisorAgent.plan] at h
    split at h <;> cases h
    exact hnone _ rfl
  | checkGridResume =>
    simp only [SupervisorAgent.plan] at h
    split at h
    · cases h
      exact hnone _ rfl
    · split at h <;> cases h
      exact hnone _ rfl
  | resumeSuspendedHolons =>
    simp only [SupervisorAgent.plan] at h
    split at h <;> cases h
    apply hnone
    simp [SupervisorStmt.number]
  | _ =>
    cases h
    exact hnone _ rfl

/-- What a statement comes to belongs to its transition; only `initiateTransition` begins
one. -/
theorem exec_number {b b' : SupervisorBeliefs} {stmt : SupervisorStmt} {x : SupervisorInput}
    {code : List SupervisorStmt} {acts : List SupervisorAction}
    (h : SupervisorAgent.exec () b stmt x = .next b' code acts)
    (hstmt : ∀ target, stmt ≠ .initiateTransition target) :
    ∀ stmt' ∈ code, ∀ k ∈ stmt'.number, stmt.number = some k := by
  cases stmt with
  | initiateTransition target => exact absurd rfl (hstmt target)
  | ifDrained k =>
    simp only [SupervisorAgent.exec] at h
    split at h <;>
    · cases h
      simp [SupervisorStmt.number, SupervisorTrigger.number]
  | getActiveLocks k =>
    cases h
    simp [SupervisorStmt.number, SupervisorTrigger.number]
  | queryActiveHolons k =>
    simp only [SupervisorAgent.exec] at h
    split at h <;> cases h
    simp [SupervisorStmt.number, SupervisorTrigger.number]
  | waitSuspendAck pending k =>
    simp only [SupervisorAgent.exec] at h
    split at h <;> cases h
    simp [SupervisorStmt.number, SupervisorTrigger.number]
  | ifPendingRevert =>
    simp only [SupervisorAgent.exec] at h
    split at h <;>
    · cases h
      simp [SupervisorStmt.number, SupervisorTrigger.number]
  | ifSaturated =>
    simp only [SupervisorAgent.exec] at h
    split at h <;> cases h <;> simp [SupervisorStmt.number, SupervisorTrigger.number]
  | findLowPriority =>
    simp only [SupervisorAgent.exec] at h
    split at h <;> cases h
    simp [SupervisorStmt.number, SupervisorTrigger.number]
  | ifNormal =>
    simp only [SupervisorAgent.exec] at h
    split at h <;>
    · cases h
      simp [SupervisorStmt.number, SupervisorTrigger.number]
  | achieve g => cases h
  | dropAwaitPhase1Acks => cases h
  | _ =>
    cases h
    simp

/-- Only the statement that starts a timer does so. -/
theorem exec_started {b b' : SupervisorBeliefs} {stmt : SupervisorStmt} {x : SupervisorInput}
    {code : List SupervisorStmt} {acts : List SupervisorAction} {key : PhaseTimer} {ttl k : ℕ}
    (he : SupervisorAgent.exec () b stmt x = .next b' code acts)
    (h : .startTimer key ttl k ∈ acts) : stmt = .startTimer key ttl k := by
  cases stmt with
  | startTimer key' ttl' k' =>
    cases he
    cases List.mem_singleton.mp h
    rfl
  | achieve g => cases he
  | dropAwaitPhase1Acks => cases he
  | ifDrained k' =>
    simp only [SupervisorAgent.exec] at he
    split at he <;>
    · cases he
      cases h
  | queryActiveHolons k' =>
    simp only [SupervisorAgent.exec] at he
    split at he <;> cases he
    cases h
  | waitSuspendAck pending k' =>
    simp only [SupervisorAgent.exec] at he
    split at he <;> cases he
    cases h
  | ifPendingRevert =>
    simp only [SupervisorAgent.exec] at he
    split at he <;>
    · cases he
      cases h
  | ifSaturated =>
    simp only [SupervisorAgent.exec] at he
    split at he <;>
    · cases he
      cases h
  | findLowPriority =>
    simp only [SupervisorAgent.exec] at he
    split at he <;> cases he
    cases h
  | ifNormal =>
    simp only [SupervisorAgent.exec] at he
    split at he <;>
    · cases he
      cases h
  | _ =>
    cases he
    simp at h

/-- A statement that fails acts on nothing. -/
theorem exec_failed {b : SupervisorBeliefs} {stmt : SupervisorStmt} {x : SupervisorInput}
    {acts : List SupervisorAction} (he : SupervisorAgent.exec () b stmt x = .failed acts) :
    acts = [] := by
  cases stmt with
  | queryActiveHolons k =>
    simp only [SupervisorAgent.exec] at he
    split at he <;> cases he
    rfl
  | findLowPriority =>
    simp only [SupervisorAgent.exec] at he
    split at he <;> cases he
    rfl
  | _ =>
    simp only [SupervisorAgent.exec] at he
    first | cases he | (split at he <;> cases he)

/-- Only `achieve` pursues a goal. -/
theorem exec_subgoal {b : SupervisorBeliefs} {stmt : SupervisorStmt} {x : SupervisorInput}
    {g : SupervisorTrigger} (he : SupervisorAgent.exec () b stmt x = .subgoal g) :
    stmt = .achieve g := by
  cases stmt with
  | achieve g' =>
    cases he
    rfl
  | _ =>
    simp only [SupervisorAgent.exec] at he
    first | cases he | (split at he <;> cases he)

theorem started_eq {b : SupervisorBeliefs} {x : SupervisorInput} {l : List Item}
    {key : PhaseTimer} {ttl k : ℕ}
    (h : .startTimer key ttl k ∈ ((SupervisorAgent.program r).effect x () b l).2) :
    ∃ rest, l = .inr (.startTimer key ttl k) :: rest := by
  cases l with
  | nil => cases h
  | cons y rest =>
    cases y with
    | inl g => cases h
    | inr stmt =>
      simp only [Program.effect, SupervisorAgent.program] at h
      split at h
      · next he => exact ⟨rest, by rw [exec_started he h]⟩
      · next he =>
        rw [exec_failed he] at h
        cases h
      · cases h

/-- The items of an agenda after a move belong to the transitions that they belonged to, or to
the one that is begun. -/
theorem advance_number {Q : ℕ → Prop} {b : SupervisorBeliefs} {x : SupervisorInput}
    {l : List Item} (h : ∀ y ∈ l, ∀ k ∈ number y, Q k)
    (hbegun : ∀ target rest, l = .inr (.initiateTransition target) :: rest → Q x.number) :
    ∀ y ∈ (SupervisorAgent.program r).advance x () b l, ∀ k ∈ number y, Q k := by
  cases l with
  | nil => exact h
  | cons y rest =>
    have hrest : ∀ z ∈ rest, ∀ k ∈ number z, Q k := fun z hz => h z (List.mem_cons_of_mem y hz)
    cases y with
    | inl g =>
      simp only [Program.advance, SupervisorAgent.program]
      split
      · next body hplan =>
        intro z hz k hk
        rcases List.mem_append.mp hz with hz | hz
        · obtain ⟨stmt, hstmt, rfl⟩ := List.mem_map.mp hz
          exact h (.inl g) List.mem_cons_self k (plan_number hplan stmt hstmt k hk)
        · exact hrest z hz k hk
      · simp
    | inr stmt =>
      simp only [Program.advance, SupervisorAgent.program]
      split
      · next b' code acts he =>
        intro z hz k hk
        rcases List.mem_append.mp hz with hz | hz
        · obtain ⟨stmt', hstmt', rfl⟩ := List.mem_map.mp hz
          by_cases hinit : ∃ target, stmt = .initiateTransition target
          · obtain ⟨target, rfl⟩ := hinit
            cases he
            simp only [List.mem_cons, List.not_mem_nil, or_false] at hstmt'
            rcases hstmt' with rfl | rfl
            · cases hk
            · obtain rfl := Option.some_inj.mp hk
              exact hbegun target rest rfl
          · push Not at hinit
            exact h (.inr stmt) List.mem_cons_self k (exec_number he hinit stmt' hstmt' k hk)
        · exact hrest z hz k hk
      · next g he =>
        intro z hz k hk
        rcases List.mem_cons.mp hz with rfl | hz
        · have heq : stmt = .achieve g := by
            cases stmt with
            | achieve g' =>
              cases he
              rfl
            | _ =>
              simp only [SupervisorAgent.exec] at he
              first | cases he | (split at he <;> cases he)
          subst heq
          exact h (.inr (.achieve g)) List.mem_cons_self k hk
        · exact hrest z hz k hk
      · exact hrest
      · exact h
      · simp

/-! ## The transition -/

/-- The transition, and what is recorded of transitions. -/
structure TransitionView where
  activeTransition : Option OrgSchemaTransition
  initiated : ℕ
  committed : List ℕ
  sent : List (String × ℕ)

def view (s : Supervision) : TransitionView :=
  ⟨s.activeTransition, s.initiated, s.committed, s.sent⟩

@[simp] theorem enter_view (g : Option SupervisorTrigger) (s : Supervision) :
    (enter g s).view = s.view := by
  unfold enter
  split <;> rfl

/-- The statements that begin or commit a transition, or suspend a holon. -/
def transits : SupervisorStmt → Bool
  | .initiateTransition _ | .commitTransition _ | .sendSuspend _ _ => true
  | _ => false

/-- Only these statements change the transition. -/
theorem exec_view {b b' : SupervisorBeliefs} {stmt : SupervisorStmt} {x : SupervisorInput}
    {code : List SupervisorStmt} {acts : List SupervisorAction}
    (he : SupervisorAgent.exec () b stmt x = .next b' code acts) (hstmt : ¬ transits stmt)
    (s : Supervision) : (Runs.run act acts s).view = s.view := by
  cases stmt with
  | initiateTransition | commitTransition | sendSuspend => exact absurd rfl hstmt
  | achieve g => cases he
  | dropAwaitPhase1Acks => cases he
  | queryActiveHolons k =>
    simp only [SupervisorAgent.exec] at he
    split at he <;> cases he
    rfl
  | findLowPriority =>
    simp only [SupervisorAgent.exec] at he
    split at he <;> cases he
    rfl
  | waitSuspendAck pending k =>
    simp only [SupervisorAgent.exec] at he
    split at he <;> cases he
    rfl
  | ifDrained | ifPendingRevert | ifSaturated | ifNormal =>
    simp only [SupervisorAgent.exec] at he
    split at he <;>
    · cases he
      rfl
  | _ =>
    cases he
    rfl

/-- A move whose head is not one of these statements leaves the transition. -/
theorem move_view {i : ℕ} {x : SupervisorInput}
    {θ : Intention Unit SupervisorTrigger SupervisorStmt} (hi : s.agent.intentions[i]? = some θ)
    (hθ : θ.Settled) (hhead : ∀ stmt rest, θ.agenda = .inr stmt :: rest → ¬ transits stmt) :
    (s.move r i x).view = s.view := by
  rw [move_eq hi hθ]
  have hbefore : (enter (goalOf θ.agenda) { s with
      agent := s.agent.apply i ((SupervisorAgent.program r).move (s.input x)
        (s.agent.beliefs ()) θ) }).view = s.view := by
    rw [enter_view]
    rfl
  rw [← hbefore]
  cases hagenda : θ.agenda with
  | nil => rfl
  | cons y rest =>
    cases y with
    | inl g => rfl
    | inr stmt =>
      simp only [Program.effect, SupervisorAgent.program]
      split
      · next he => exact exec_view he (hhead stmt rest hagenda) _
      · next he =>
        rw [exec_failed he]
        rfl
      · rfl

/-- What is no move changes the transition only by forgetting one that is committed. -/
theorem exec_view_surroundings {op : SupervisionOp} (hop : ∀ i x, op ≠ .move i x) :
    (s.exec r op).view = s.view ∨ (s.exec r op).view
      = { s.view with activeTransition := s.activeTransition.filter fun t => ¬ t.committed } := by
  cases op with
  | move i x => exact absurd rfl (hop i x)
  | clearCommittedTransition => exact Or.inr rfl
  | expire j =>
    left
    simp only [exec]
    split <;> rfl
  | signal j =>
    left
    simp only [exec]
    split <;> rfl
  | transportBlocked o source =>
    left
    simp only [exec]
    split <;> rfl
  | _ => exact Or.inl rfl

/-- Every transition that was begun is committed or open. -/
def Accounted (v : TransitionView) : Prop :=
  ∀ k < v.initiated, k ∈ v.committed ∨
    ∃ t ∈ v.activeTransition, t.number = k ∧ t.committed = false

theorem accounted_filter {v : TransitionView} (h : Accounted v) :
    Accounted { v with activeTransition := v.activeTransition.filter fun t => ¬ t.committed } := by
  intro k hk
  rcases h k hk with h | ⟨t, ht, hnumber, hopen⟩
  · exact Or.inl h
  · refine Or.inr ⟨t, ?_, hnumber, hopen⟩
    exact Option.mem_filter_iff.mpr ⟨ht, by simp [hopen]⟩

/-- A transition that begins while none is open. -/
theorem accounted_begin (h : Accounted s.view) (hopen : ∀ t ∈ s.activeTransition, t.committed)
    (target : Schema) : Accounted (s.beginTransition target s.initiated).view := by
  intro k hk
  rcases Nat.lt_succ_iff_lt_or_eq.mp hk with hk | rfl
  · rcases h k hk with h | ⟨t, ht, -, hfalse⟩
    · exact Or.inl h
    · have htrue := hopen t ht
      rw [hfalse] at htrue
      cases htrue
  · exact Or.inr ⟨_, rfl, rfl, rfl⟩

/-- After a commit every transition that was begun is committed. -/
theorem committed_of_commit (h : Accounted s.view) :
    ∀ k < s.commitTransition.initiated, k ∈ s.commitTransition.committed := by
  unfold commitTransition
  cases hactive : s.activeTransition with
  | none =>
    intro k hk
    rcases h k hk with h | ⟨t, ht, -, -⟩
    · exact h
    · have ht' : t ∈ s.activeTransition := ht
      rw [hactive] at ht'
      cases ht'
  | some t =>
    dsimp only
    split
    · next hcommitted =>
      intro k hk
      rcases h k hk with h | ⟨t', ht, -, hopen⟩
      · exact h
      · have ht' : t' ∈ s.activeTransition := ht
        rw [hactive] at ht'
        obtain rfl := Option.some_inj.mp ht'
        rw [hcommitted] at hopen
        cases hopen
    · intro k hk
      rcases h k hk with h | ⟨t', ht, hnumber, -⟩
      · exact List.mem_cons_of_mem _ h
      · have ht' : t' ∈ s.activeTransition := ht
        rw [hactive] at ht'
        obtain rfl := Option.some_inj.mp ht'
        rw [hnumber]
        exact List.mem_cons_self

/-! ## A run -/

/-- Two order holons, a station and an AMR. -/
def twoOrders : Roster := ⟨["order_1", "order_2"], ["station_1"], ["amr_1"]⟩

/-- The supervisor starts. -/
def startedRun : List SupervisionOp := .select :: List.replicate 7 (.move 0 {})

/-- The supervisor hears of a blocked transport of `order_i`, in its `i`th intention, while the
grid is saturated and the registry holds `locks`. -/
def saturatedRun (i : ℕ) (locks : List Lock) : List SupervisionOp :=
  .transportBlocked ⟨"order_1", i⟩ "order_1" :: .select ::
    List.replicate 14 (.move i { utilization := 9 / 10, locks := locks })

/-- A spike of the energy price makes the supervisor begin a transition, in its `i`th
intention; no lock is registered, and Phase 1 suspends the holons and waits for them. -/
def transitionRun (i : ℕ) : List SupervisionOp :=
  [SupervisionOp.energyPriceSpike 100, .select] ++ List.replicate 40 (SupervisionOp.move i {}) ++
    [SupervisionOp.select]

/-- The timer of Phase 1 expires, and the supervisor commits the transition of its `i`th
intention. -/
def commitRun (i : ℕ) : List SupervisionOp :=
  [SupervisionOp.expire 0, .signal 0, .select, .move (i + 1) {}] ++
    List.replicate 14 (SupervisionOp.move i {})

end Supervision

end MatrixFactory
