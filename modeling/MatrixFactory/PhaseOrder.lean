/-
# The order of the phases

A transition enters Phase 0, then Phase 1, in which it suspends every holon, and is committed.
The phases follow each other through goals and timers; the timers have the same keys in every
transition, and a signal that has been queued cannot be recalled.

If whenever a transition begins, enters a phase or is committed nothing else is left that
belongs to a transition, then every transition enters each phase once and in this order, and
is committed once and after all its suspensions; and no timer of an earlier transition
advances a later one.
-/
import MatrixFactory.Supervision

namespace MatrixFactory

open AgentSpeak

/-! ## Stages -/

/-- How far a transition has come. -/
inductive Stage where
  | opening
  | phase0
  | phase1
  deriving DecidableEq

/-- The stage of a goal or event, and its transition. -/
def SupervisorTrigger.stage : SupervisorTrigger → Option (Stage × ℕ)
  | .runPhase0 k => some (.opening, k)
  | .awaitPhase0Drain k | .runPhase1 k | .timerExpired .phase0Transition k
  | .timerExpired .phase0Poll k => some (.phase0, k)
  | .awaitPhase1Acks _ k | .doCommit k | .timerExpired .phase1Transition k => some (.phase1, k)
  | .sendSuspendToAll _ k => k.map (.phase1, ·)
  | _ => none

/-- The stage of a statement, and its transition. -/
def SupervisorStmt.stage : SupervisorStmt → Option (Stage × ℕ)
  | .achieve g => g.stage
  | .startTimer key _ k => (SupervisorTrigger.timerExpired key k).stage
  | .ifDrained k | .getActiveLocks k => some (.phase0, k)
  | .queryActiveHolons k | .waitSuspendAck _ k | .commitTransition k => some (.phase1, k)
  | .sendSuspend _ k => k.map (.phase1, ·)
  | _ => none

/-- The stage of the plan for a goal or event. -/
def SupervisorTrigger.enters : SupervisorTrigger → Option (Stage × ℕ)
  | .runPhase0 k => some (.phase0, k)
  | .runPhase1 k => some (.phase1, k)
  | t => t.stage

/-- The transition that a goal or event may commit. -/
def SupervisorTrigger.commits : SupervisorTrigger → Option ℕ
  | .awaitPhase1Acks _ k | .doCommit k | .timerExpired .phase1Transition k => some k
  | _ => none

/-- The transition that a statement may commit. -/
def SupervisorStmt.commits : SupervisorStmt → Option ℕ
  | .achieve g => g.commits
  | .startTimer key _ k => (SupervisorTrigger.timerExpired key k).commits
  | .waitSuspendAck _ k | .commitTransition k => some k
  | _ => none

/-- The holons of a factory. -/
def Roster.holons (r : Roster) : List String :=
  r.orderHolons ++ r.resourceHolons ++ r.transportHolons

namespace Supervision

def stage : Item → Option (Stage × ℕ)
  | .inl g => g.stage
  | .inr stmt => stmt.stage

def commits : Item → Option ℕ
  | .inl g => g.commits
  | .inr stmt => stmt.commits

/-- The suspensions that an item sends for a transition. -/
def suspensions : Item → List (String × ℕ)
  | .inl (.sendSuspendToAll holons (some k))
  | .inr (.achieve (.sendSuspendToAll holons (some k))) => holons.map (·, k)
  | .inr (.sendSuspend h (some k)) => [(h, k)]
  | _ => []

/-! ## The property and the condition -/

/-- Transition `k` is the active one, and not committed. -/
def Open (s : Supervision) (k : ℕ) : Prop :=
  ∃ t ∈ s.activeTransition, t.number = k ∧ t.committed = false

instance (s : Supervision) (k : ℕ) : Decidable (s.Open k) :=
  inferInstanceAs (Decidable (∃ t ∈ s.activeTransition, _))

/-- A transition that enters a phase or is committed is the open one, it enters each phase once
and Phase 1 after Phase 0, and it is committed after it has entered Phase 1 and suspended every
holon. -/
def InOrder (r : Roster) (s : Supervision) : SupervisionOp → Prop
  | .move i _ => ∀ θ ∈ s.agent.intentions[i]?,
    match θ.agenda with
    | .inl (.runPhase0 k) :: _ => s.Open k ∧ k ∉ s.phase0
    | .inl (.runPhase1 k) :: _ => s.Open k ∧ k ∈ s.phase0 ∧ k ∉ s.phase1
    | .inr (.commitTransition k) :: _ =>
      s.Open k ∧ k ∈ s.phase1 ∧ ∀ h ∈ r.holons, (h, k) ∈ s.sent
    | _ => True
  | _ => True

/-- Apart from the head of intention `i` nothing is left that belongs to a transition. -/
def Alone (s : Supervision) (i : ℕ) (rest : List Item) : Prop :=
  (∀ y ∈ rest, stage y = none) ∧
    (∀ j < s.agent.intentions.length, j ≠ i → ∀ θ ∈ s.agent.intentions[j]?,
      ∀ y ∈ θ.agenda, stage y = none) ∧
    (∀ u ∈ s.timers ++ s.signals, (SupervisorTrigger.timerExpired u.key u.k).stage = none) ∧
    ∀ e ∈ s.agent.events, e.2.stage = none

instance (s : Supervision) (i : ℕ) (rest : List Item) : Decidable (s.Alone i rest) :=
  inferInstanceAs (Decidable (_ ∧ _ ∧ _ ∧ _))

/-- The head of an agenda begins a transition, enters a phase or commits. -/
def turns : Item → Bool
  | .inr (.initiateTransition _) | .inl (.runPhase0 _) | .inl (.runPhase1 _)
  | .inr (.commitTransition _) => true
  | _ => false

/-- The condition on an operation: when a transition begins, enters a phase or is committed,
nothing else is left that belongs to a transition. -/
def PhasesApart (s : Supervision) : SupervisionOp → Prop
  | .move i _ => ∀ θ ∈ s.agent.intentions[i]?,
    match θ.agenda with
    | y :: rest => turns y → s.Alone i rest
    | [] => True
  | _ => True

instance (r : Roster) (s : Supervision) (op : SupervisionOp) : Decidable (s.InOrder r op) :=
  match op with
  | .move i _ =>
    have (l : Agenda) : Decidable (match l with
        | .inl (.runPhase0 k) :: _ => s.Open k ∧ k ∉ s.phase0
        | .inl (.runPhase1 k) :: _ => s.Open k ∧ k ∈ s.phase0 ∧ k ∉ s.phase1
        | .inr (.commitTransition k) :: _ =>
          s.Open k ∧ k ∈ s.phase1 ∧ ∀ h ∈ r.holons, (h, k) ∈ s.sent
        | _ => True) := by
      split <;> infer_instance
    inferInstanceAs (Decidable (∀ θ ∈ s.agent.intentions[i]?, _))
  | .select | .expire _ | .signal _ | .energyPriceSpike _ | .energyPriceNormal _ | .suspendAck _
  | .transportBlocked _ _ | .clearCommittedTransition => .isTrue trivial

instance (s : Supervision) (op : SupervisionOp) : Decidable (s.PhasesApart op) :=
  match op with
  | .move i _ =>
    have (l : Agenda) : Decidable (match l with
        | y :: rest => turns y → s.Alone i rest
        | [] => True) := by
      split <;> infer_instance
    inferInstanceAs (Decidable (∀ θ ∈ s.agent.intentions[i]?, _))
  | .select | .expire _ | .signal _ | .energyPriceSpike _ | .energyPriceNormal _ | .suspendAck _
  | .transportBlocked _ _ | .clearCommittedTransition => .isTrue trivial

/-! ## What the plans do to a transition -/

/-- The statement stays at the stage `q`, commits at most transition `k`, and sends no
suspension for a transition. -/
def Stays (q : Option (Stage × ℕ)) (k : Option ℕ) (stmt : SupervisorStmt) : Prop :=
  (stmt.stage = none ∨ stmt.stage = q) ∧ (stmt.commits = none ∨ stmt.commits = k) ∧
    suspensions (.inr stmt) = []

instance (q : Option (Stage × ℕ)) (k : Option ℕ) (stmt : SupervisorStmt) :
    Decidable (Stays q k stmt) :=
  inferInstanceAs (Decidable (_ ∧ _ ∧ _))

section

attribute [local simp] Stays SupervisorStmt.stage SupervisorTrigger.stage SupervisorTrigger.enters
  SupervisorStmt.commits SupervisorTrigger.commits suspensions

/-- The plan for a goal or event other than a broadcast. -/
theorem plan_stays {r : Roster} {b : SupervisorBeliefs} {t : SupervisorTrigger}
    (ht : ∀ holons k, t ≠ .sendSuspendToAll holons k) {body : List SupervisorStmt}
    (h : SupervisorAgent.plan r () b t = some body) :
    ∀ stmt ∈ body, Stays t.enters t.commits stmt := by
  cases t with
  | sendSuspendToAll holons k => exact absurd rfl (ht holons k)
  | energyPriceSpike price =>
    simp only [SupervisorAgent.plan] at h
    split at h
    · cases h
      simp
    · split at h <;> cases h
      simp
  | energyPriceNormal price =>
    simp only [SupervisorAgent.plan] at h
    split at h
    · cases h
      simp
    · split at h <;> cases h
      simp
  | abortAllLocks locks => cases locks <;> cases h <;> simp
  | awaitPhase1Acks pending k => cases pending <;> cases h <;> simp
  | doCommit k =>
    simp only [SupervisorAgent.plan] at h
    split at h <;> cases h
    simp
  | transportBlocked m =>
    simp only [SupervisorAgent.plan] at h
    split at h <;> cases h
    simp
  | checkGridResume =>
    simp only [SupervisorAgent.plan] at h
    split at h
    · cases h
      simp
    · split at h <;> cases h
      simp
  | resumeSuspendedHolons =>
    simp only [SupervisorAgent.plan] at h
    split at h <;> cases h
    intro stmt hstmt
    rcases List.mem_append.mp hstmt with hstmt | hstmt
    · obtain ⟨holon, -, rfl⟩ := List.mem_map.mp hstmt
      simp
    · obtain rfl := List.mem_singleton.mp hstmt
      simp
  | timerExpired key k => cases key <;> cases h <;> simp
  | _ =>
    cases h
    simp

/-- What a statement comes to, unless it begins a transition or its broadcast. -/
theorem exec_stays {b b' : SupervisorBeliefs} {stmt : SupervisorStmt} {x : SupervisorInput}
    {code : List SupervisorStmt} {acts : List SupervisorAction}
    (hinitiate : ∀ target, stmt ≠ .initiateTransition target)
    (hquery : ∀ k, stmt ≠ .queryActiveHolons k)
    (h : SupervisorAgent.exec () b stmt x = .next b' code acts) :
    ∀ stmt' ∈ code, Stays stmt.stage stmt.commits stmt' := by
  cases stmt with
  | initiateTransition target => exact absurd rfl (hinitiate target)
  | queryActiveHolons k => exact absurd rfl (hquery k)
  | achieve g => cases h
  | dropAwaitPhase1Acks => cases h
  | ifDrained k =>
    simp only [SupervisorAgent.exec] at h
    split at h <;>
    · cases h
      simp
  | waitSuspendAck pending k =>
    simp only [SupervisorAgent.exec] at h
    split at h <;> cases h
    simp
  | ifPendingRevert | ifSaturated | ifNormal =>
    simp only [SupervisorAgent.exec] at h
    split at h <;>
    · cases h
      simp
  | findLowPriority =>
    simp only [SupervisorAgent.exec] at h
    split at h <;> cases h
    simp
  | _ =>
    cases h
    simp

end

/-! ## The holons that the supervisor knows -/

/-- The supervisor knows no holons but those of the factory. -/
def Knows (r : Roster) (b : SupervisorBeliefs) : Prop :=
  (∀ l ∈ b.activeOrderHolons, l = r.orderHolons) ∧
    (∀ l ∈ b.activeResourceHolons, l = r.resourceHolons) ∧
    ∀ l ∈ b.activeTransportHolons, l = r.transportHolons

/-- The statement adds no holons but those of the factory. -/
def Registers (r : Roster) : SupervisorStmt → Prop
  | .addActiveOrderHolons l => l = r.orderHolons
  | .addActiveResourceHolons l => l = r.resourceHolons
  | .addActiveTransportHolons l => l = r.transportHolons
  | _ => True

theorem mem_addBelief {α : Type} [DecidableEq α] {a b : α} {l : List α}
    (h : a ∈ addBelief b l) : a = b ∨ a ∈ l := by
  unfold addBelief at h
  split at h
  · exact Or.inr h
  · exact List.mem_cons.mp h

section

attribute [local simp] Registers

theorem plan_registers {r : Roster} {b : SupervisorBeliefs} {t : SupervisorTrigger}
    {body : List SupervisorStmt} (h : SupervisorAgent.plan r () b t = some body) :
    ∀ stmt ∈ body, Registers r stmt := by
  cases t with
  | energyPriceSpike price | energyPriceNormal price | checkGridResume =>
    simp only [SupervisorAgent.plan] at h
    split at h
    · cases h
      simp
    · split at h <;> cases h
      simp
  | abortAllLocks locks => cases locks <;> cases h <;> simp
  | sendSuspendToAll holons k => cases holons <;> cases h <;> simp
  | awaitPhase1Acks pending k => cases pending <;> cases h <;> simp
  | doCommit k | transportBlocked m =>
    simp only [SupervisorAgent.plan] at h
    split at h <;> cases h
    simp
  | resumeSuspendedHolons =>
    simp only [SupervisorAgent.plan] at h
    split at h <;> cases h
    intro stmt hstmt
    rcases List.mem_append.mp hstmt with hstmt | hstmt
    · obtain ⟨holon, -, rfl⟩ := List.mem_map.mp hstmt
      simp
    · obtain rfl := List.mem_singleton.mp hstmt
      simp
  | timerExpired key k => cases key <;> cases h <;> simp
  | _ =>
    cases h
    simp

theorem exec_registers {r : Roster} {b b' : SupervisorBeliefs} {stmt : SupervisorStmt}
    {x : SupervisorInput} {code : List SupervisorStmt} {acts : List SupervisorAction}
    (h : SupervisorAgent.exec () b stmt x = .next b' code acts) :
    ∀ stmt' ∈ code, Registers r stmt' := by
  cases stmt with
  | achieve g => cases h
  | dropAwaitPhase1Acks => cases h
  | ifDrained | ifPendingRevert | ifSaturated | ifNormal =>
    simp only [SupervisorAgent.exec] at h
    split at h <;>
    · cases h
      simp
  | waitSuspendAck | queryActiveHolons | findLowPriority =>
    simp only [SupervisorAgent.exec] at h
    split at h <;> cases h
    simp
  | _ =>
    cases h
    simp

end

theorem exec_knows {r : Roster} {b b' : SupervisorBeliefs} {stmt : SupervisorStmt}
    {x : SupervisorInput} {code : List SupervisorStmt} {acts : List SupervisorAction}
    (h : SupervisorAgent.exec () b stmt x = .next b' code acts) (hstmt : Registers r stmt)
    (hb : Knows r b) : Knows r b' := by
  cases stmt with
  | addActiveOrderHolons l =>
    cases h
    refine ⟨fun l' hl' => ?_, hb.2⟩
    rcases mem_addBelief hl' with rfl | hl'
    · exact hstmt
    · exact hb.1 l' hl'
  | addActiveResourceHolons l =>
    cases h
    refine ⟨hb.1, fun l' hl' => ?_, hb.2.2⟩
    rcases mem_addBelief hl' with rfl | hl'
    · exact hstmt
    · exact hb.2.1 l' hl'
  | addActiveTransportHolons l =>
    cases h
    refine ⟨hb.1, hb.2.1, fun l' hl' => ?_⟩
    rcases mem_addBelief hl' with rfl | hl'
    · exact hstmt
    · exact hb.2.2 l' hl'
  | achieve g => cases h
  | dropAwaitPhase1Acks => cases h
  | ifDrained | ifPendingRevert | ifSaturated | ifNormal =>
    simp only [SupervisorAgent.exec] at h
    split at h <;>
    · cases h
      exact hb
  | waitSuspendAck | queryActiveHolons | findLowPriority =>
    simp only [SupervisorAgent.exec] at h
    split at h <;> cases h
    exact hb
  | _ =>
    cases h
    exact hb

/-- The holons that Phase 1 suspends. -/
theorem exec_query {r : Roster} {b b' : SupervisorBeliefs} {k : ℕ} {x : SupervisorInput}
    {code : List SupervisorStmt} {acts : List SupervisorAction}
    (h : SupervisorAgent.exec () b (.queryActiveHolons k) x = .next b' code acts)
    (hb : Knows r b) :
    code = [.setSuspendedHolons r.holons, .achieve (.sendSuspendToAll r.holons (some k)),
      .startTimer .phase1Transition 10000 k, .achieve (.awaitPhase1Acks r.holons k)] := by
  simp only [SupervisorAgent.exec] at h
  split at h
  · next orders _ stations _ amrs _ horders hstations hamrs =>
    cases h
    rw [hb.1 orders (by rw [horders]; exact List.mem_cons_self),
      hb.2.1 stations (by rw [hstations]; exact List.mem_cons_self),
      hb.2.2 amrs (by rw [hamrs]; exact List.mem_cons_self)]
    rfl
  · cases h

/-! ## Commits that follow the suspensions -/

/-- What may commit a transition comes after a suspension of every holon for it; those of
`done` have been sent. -/
def Covered (r : Roster) : List (String × ℕ) → List Item → Prop
  | _, [] => True
  | done, y :: rest =>
    (∀ k ∈ commits y, ∀ h ∈ r.holons, (h, k) ∈ done) ∧ Covered r (suspensions y ++ done) rest

theorem Covered.mono {r : Roster} {l : List Item} {done done' : List (String × ℕ)}
    (h : Covered r done l) (hsub : ∀ p ∈ done, p ∈ done') : Covered r done' l := by
  induction l generalizing done done' with
  | nil => trivial
  | cons y rest ih =>
    refine ⟨fun k hk holon hholon => hsub _ (h.1 k hk holon hholon), ih h.2 fun p hp => ?_⟩
    rcases List.mem_append.mp hp with hp | hp
    · exact List.mem_append_left _ hp
    · exact List.mem_append_right _ (hsub p hp)

theorem Covered.append {r : Roster} {code rest : List Item} {done : List (String × ℕ)}
    (hcode : Covered r done code) (hrest : ∀ done', (∀ p ∈ done, p ∈ done') →
      (∀ y ∈ code, ∀ p ∈ suspensions y, p ∈ done') → Covered r done' rest) :
    Covered r done (code ++ rest) := by
  induction code generalizing done with
  | nil => exact hrest done (fun _ hp => hp) fun y hy => absurd hy (List.not_mem_nil)
  | cons y code ih =>
    refine ⟨hcode.1, ih hcode.2 fun done' hdone hcover => hrest done' ?_ ?_⟩
    · exact fun p hp => hdone p (List.mem_append_right _ hp)
    · intro z hz p hp
      rcases List.mem_cons.mp hz with rfl | hz
      · exact hdone p (List.mem_append_left _ hp)
      · exact hcover z hz p hp

/-- Items that commit nothing, or what may be committed already. -/
theorem covered_of_forall {r : Roster} {l : List Item} {done : List (String × ℕ)}
    (h : ∀ y ∈ l, ∀ k ∈ commits y, ∀ holon ∈ r.holons, (holon, k) ∈ done) : Covered r done l := by
  induction l generalizing done with
  | nil => trivial
  | cons y l ih =>
    refine ⟨h y List.mem_cons_self, ih fun z hz k hk holon hholon => ?_⟩
    exact List.mem_append_right _ (h z (List.mem_cons_of_mem y hz) k hk holon hholon)

/-! ## The invariant -/

/-- The transition, and which transitions have entered the phases. -/
structure PhaseView where
  transition : TransitionView
  phase0 : List ℕ
  phase1 : List ℕ

def phases (s : Supervision) : PhaseView := ⟨s.view, s.phase0, s.phase1⟩

/-- Transition `k` is open, and has come as far as the stage says. -/
def Fits (v : PhaseView) (q : Stage × ℕ) : Prop :=
  (∃ t ∈ v.transition.activeTransition, t.number = q.2 ∧ t.committed = false) ∧
    match q.1 with
    | .opening => q.2 ∉ v.phase0 ∧ q.2 ∉ v.phase1
    | .phase0 => q.2 ∈ v.phase0 ∧ q.2 ∉ v.phase1
    | .phase1 => q.2 ∈ v.phase1

/-- The numbers of transitions. -/
def Begun (v : PhaseView) : Prop :=
  (∀ k, (k ∈ v.phase0 ∨ k ∈ v.phase1) → k < v.transition.initiated) ∧
    ∀ t ∈ v.transition.activeTransition, t.number < v.transition.initiated

/-- What holds of an event under way. -/
def PhaseEvent (r : Roster) (v : PhaseView) (t : SupervisorTrigger) : Prop :=
  isEvent t ∧ (∀ q ∈ t.stage, Fits v q) ∧
    ∀ k ∈ t.commits, ∀ h ∈ r.holons, (h, k) ∈ v.transition.sent

/-- The item fits the stage of its transition, and adds no holons but those of the factory. -/
def PhaseItem (r : Roster) (v : PhaseView) (y : Item) : Prop :=
  (∀ q ∈ stage y, Fits v q) ∧ ∀ stmt, y = .inr stmt → Registers r stmt

/-- What holds of an agenda. -/
def PhaseAgenda (r : Roster) (v : PhaseView) (l : List Item) : Prop :=
  (∀ y ∈ l, PhaseItem r v y) ∧ Covered r v.transition.sent l

/-- The invariant. -/
structure PhaseInvariant (r : Roster) (s : Supervision) : Prop where
  begun : Begun s.phases
  knows : Knows r (s.agent.beliefs ())
  holds : s.Holds (PhaseEvent r s.phases) (PhaseAgenda r s.phases)

variable {r : Roster} {s : Supervision} {i : ℕ} {x : SupervisorInput} {v : PhaseView}
  {θ : Intention Unit SupervisorTrigger SupervisorStmt}

/-- A commit is of the transition of its stage. -/
theorem stage_of_commits {y : Item} {k : ℕ} (h : k ∈ commits y) : stage y = some (.phase1, k) := by
  cases y with
  | inl g =>
    cases g with
    | timerExpired key k' =>
      cases key <;> first | (cases h; rfl) | cases h
    | awaitPhase1Acks | doCommit =>
      cases h
      rfl
    | _ => cases h
  | inr stmt =>
    cases stmt with
    | achieve g =>
      cases g with
      | timerExpired key k' => cases key <;> first | (cases h; rfl) | cases h
      | awaitPhase1Acks | doCommit =>
        cases h
        rfl
      | _ => cases h
    | startTimer key ttl k' => cases key <;> first | (cases h; rfl) | cases h
    | waitSuspendAck | commitTransition =>
      cases h
      rfl
    | _ => cases h

theorem commits_none {y : Item} (h : stage y = none) : commits y = none := by
  cases hk : commits y with
  | none => rfl
  | some k =>
    rw [stage_of_commits hk] at h
    cases h

/-- An agenda that belongs to no transition. -/
theorem phaseAgenda_idle {l : List Item} (h : ∀ y ∈ l, stage y = none)
    (hregisters : ∀ y ∈ l, ∀ stmt, y = .inr stmt → Registers r stmt) : PhaseAgenda r v l := by
  refine ⟨fun y hy => ⟨fun q hq => ?_, hregisters y hy⟩, covered_of_forall fun y hy k hk => ?_⟩
  · rw [h y hy] at hq
    cases hq
  · rw [commits_none (h y hy)] at hk
    cases hk

/-! ## What follows from the head of an agenda -/

/-- The plan for a goal that fits. -/
theorem plan_fits {b : SupervisorBeliefs} {t : SupervisorTrigger} {body : List SupervisorStmt}
    (h : SupervisorAgent.plan r () b t = some body) (ht : ∀ q ∈ t.enters, Fits v q) :
    ∀ y ∈ body.map Sum.inr, PhaseItem r v y := by
  intro y hy
  obtain ⟨stmt, hstmt, rfl⟩ := List.mem_map.mp hy
  refine ⟨fun q hq => ?_, fun stmt' heq => ?_⟩
  · by_cases hall : ∃ holons k, t = .sendSuspendToAll holons k
    · -- the broadcast goes on for the same transition
      obtain ⟨holons, k, rfl⟩ := hall
      apply ht
      cases holons with
      | nil =>
        cases h
        cases hstmt
      | cons holon holons =>
        cases h
        rcases List.mem_cons.mp hstmt with rfl | hstmt
        · exact hq
        · obtain rfl := List.mem_singleton.mp hstmt
          exact hq
    · push Not at hall
      rcases (plan_stays hall h stmt hstmt).1 with hstage | hstage
      · rw [show stage (.inr stmt) = none from hstage] at hq
        cases hq
      · rw [show stage (.inr stmt) = t.enters from hstage] at hq
        exact ht q hq
  · cases heq
    exact plan_registers h stmt hstmt

/-- The plan for a goal, and what comes after it. -/
theorem plan_covered {b : SupervisorBeliefs} {t : SupervisorTrigger} {body : List SupervisorStmt}
    {done : List (String × ℕ)} {rest : List Item}
    (h : SupervisorAgent.plan r () b t = some body) (ht : Covered r done (.inl t :: rest)) :
    Covered r done (body.map Sum.inr ++ rest) := by
  by_cases hall : ∃ holons k, t = .sendSuspendToAll holons k
  · obtain ⟨holons, k, rfl⟩ := hall
    have hnone : ∀ done : List (String × ℕ), ∀ k ∈ (none : Option ℕ), ∀ holon ∈ r.holons,
        (holon, k) ∈ done := fun done k hk => nomatch hk
    cases holons with
    | nil =>
      cases h
      refine ht.2.mono fun p hp => ?_
      cases k <;> exact hp
    | cons holon holons =>
      cases h
      refine ⟨hnone _, hnone _, ht.2.mono fun p hp => ?_⟩
      cases k with
      | none => exact hp
      | some k =>
        simp only [suspensions, List.map_cons, List.cons_append, List.mem_cons,
          List.mem_append, List.not_mem_nil, false_or] at hp ⊢
        rcases hp with hp | hp | hp
        · exact Or.inr (Or.inl hp)
        · exact Or.inl hp
        · exact Or.inr (Or.inr hp)
  · push Not at hall
    have hstays := plan_stays hall h
    refine Covered.append (covered_of_forall fun y hy k hk => ?_) fun done' hdone _ => ?_
    · obtain ⟨stmt, hstmt, rfl⟩ := List.mem_map.mp hy
      rcases (hstays stmt hstmt).2.1 with hcommits | hcommits
      · rw [show commits (.inr stmt) = none from hcommits] at hk
        cases hk
      · refine ht.1 k ?_
        rw [show commits (.inl t) = t.commits from rfl, ← hcommits]
        exact hk
    · refine ht.2.mono fun p hp => ?_
      have hnil : suspensions (.inl t) = [] := by
        cases t with
        | sendSuspendToAll holons k => exact absurd rfl (hall holons k)
        | _ => rfl
      rw [hnil] at hp
      exact hdone p hp

theorem suspensions_achieve (g : SupervisorTrigger) :
    suspensions (.inr (.achieve g)) = suspensions (.inl g) := by
  cases g with
  | sendSuspendToAll holons k => cases k <;> rfl
  | _ => rfl

/-- What a statement that fits comes to, unless it begins a transition. -/
theorem exec_fits {b b' : SupervisorBeliefs} {stmt : SupervisorStmt} {x : SupervisorInput}
    {code : List SupervisorStmt} {acts : List SupervisorAction} (hb : Knows r b)
    (h : SupervisorAgent.exec () b stmt x = .next b' code acts)
    (hinitiate : ∀ target, stmt ≠ .initiateTransition target)
    (hstmt : ∀ q ∈ stmt.stage, Fits v q) : ∀ y ∈ code.map Sum.inr, PhaseItem r v y := by
  intro y hy
  obtain ⟨stmt', hstmt', rfl⟩ := List.mem_map.mp hy
  refine ⟨fun q hq => ?_, fun stmt'' heq => ?_⟩
  · by_cases hquery : ∃ k, stmt = .queryActiveHolons k
    · obtain ⟨k, rfl⟩ := hquery
      obtain rfl := exec_query h hb
      have hk := hstmt _ rfl
      simp only [List.mem_cons, List.not_mem_nil, or_false] at hstmt'
      rcases hstmt' with rfl | rfl | rfl | rfl
      · cases hq
      all_goals
        cases hq
        exact hk
    · push Not at hquery
      rcases (exec_stays hinitiate hquery h stmt' hstmt').1 with hstage | hstage
      · rw [show stage (.inr stmt') = none from hstage] at hq
        cases hq
      · rw [show stage (.inr stmt') = stmt.stage from hstage] at hq
        exact hstmt q hq
  · cases heq
    exact exec_registers h stmt' hstmt'

/-- What a statement comes to, and what comes after it. -/
theorem exec_covered {b b' : SupervisorBeliefs} {stmt : SupervisorStmt} {x : SupervisorInput}
    {code : List SupervisorStmt} {acts : List SupervisorAction} {done : List (String × ℕ)}
    {rest : List Item} (hb : Knows r b)
    (h : SupervisorAgent.exec () b stmt x = .next b' code acts)
    (hinitiate : ∀ target, stmt ≠ .initiateTransition target)
    (hsend : ∀ holon k, stmt ≠ .sendSuspend holon k)
    (hstmt : Covered r done (.inr stmt :: rest)) :
    Covered r done (code.map Sum.inr ++ rest) := by
  have hnil : suspensions (.inr stmt) = [] := by
    cases stmt with
    | sendSuspend holon k => exact absurd rfl (hsend holon k)
    | achieve g => cases h
    | _ => rfl
  have hrest : ∀ done' : List (String × ℕ), (∀ p ∈ done, p ∈ done') → Covered r done' rest := by
    refine fun done' hdone => hstmt.2.mono fun p hp => ?_
    rw [hnil] at hp
    exact hdone p hp
  by_cases hquery : ∃ k, stmt = .queryActiveHolons k
  · obtain ⟨k, rfl⟩ := hquery
    obtain rfl := exec_query h hb
    have hsent : ∀ holon ∈ r.holons, (holon, k) ∈ r.holons.map (·, k) ++ done :=
      fun holon hholon => List.mem_append_left _ (List.mem_map.mpr ⟨holon, hholon, rfl⟩)
    refine ⟨fun k' hk' => (nomatch hk'), fun k' hk' => (nomatch hk'), ?_, ?_, ?_⟩
    · intro k' hk' holon hholon
      cases hk'
      exact hsent holon hholon
    · intro k' hk' holon hholon
      cases hk'
      exact hsent holon hholon
    · refine hrest _ fun p hp => ?_
      have hp' := List.mem_append_right (r.holons.map (·, k)) hp
      exact hp'
  · push Not at hquery
    have hstays := exec_stays hinitiate hquery h
    refine Covered.append (covered_of_forall fun y hy k hk => ?_) fun done' hdone _ =>
      hrest done' hdone
    obtain ⟨stmt', hstmt', rfl⟩ := List.mem_map.mp hy
    rcases (hstays stmt' hstmt').2.1 with hcommits | hcommits
    · rw [show commits (.inr stmt') = none from hcommits] at hk
      cases hk
    · refine hstmt.1 k ?_
      rw [show commits (.inr stmt) = stmt.commits from rfl, ← hcommits]
      exact hk

/-- An agenda fits after a move that begins no transition, enters no phase and sends no
suspension. -/
theorem PhaseAgenda.advance {b : SupervisorBeliefs} {l : List Item} (h : PhaseAgenda r v l)
    (hb : Knows r b) (hturns : ∀ y rest, l = y :: rest → ¬ turns y)
    (hsend : ∀ holon k rest, l ≠ .inr (.sendSuspend holon k) :: rest) :
    PhaseAgenda r v ((SupervisorAgent.program r).advance x () b l) := by
  cases l with
  | nil => exact h
  | cons y rest =>
    have hrest : ∀ z ∈ rest, PhaseItem r v z := fun z hz => h.1 z (List.mem_cons_of_mem y hz)
    have hempty : PhaseAgenda r v [] := ⟨fun z hz => absurd hz List.not_mem_nil, trivial⟩
    have hhead := (h.1 y List.mem_cons_self).1
    cases y with
    | inl g =>
      have henters : g.enters = g.stage := by
        cases g with
        | runPhase0 k | runPhase1 k => exact absurd rfl (hturns _ rest rfl)
        | _ => rfl
      simp only [Program.advance, SupervisorAgent.program]
      split
      · next body hplan =>
        refine ⟨fun z hz => ?_, plan_covered hplan h.2⟩
        rcases List.mem_append.mp hz with hz | hz
        · refine plan_fits hplan ?_ z hz
          rw [henters]
          exact hhead
        · exact hrest z hz
      · exact hempty
    | inr stmt =>
      have hinitiate : ∀ target, stmt ≠ .initiateTransition target := by
        rintro target rfl
        exact hturns _ rest rfl rfl
      have hsend' : ∀ holon k, stmt ≠ .sendSuspend holon k := by
        rintro holon k rfl
        exact hsend holon k rest rfl
      simp only [Program.advance, SupervisorAgent.program]
      split
      · next he =>
        refine ⟨fun z hz => ?_, exec_covered hb he hinitiate hsend' h.2⟩
        rcases List.mem_append.mp hz with hz | hz
        · exact exec_fits hb he hinitiate hhead z hz
        · exact hrest z hz
      · next g he =>
        obtain rfl := exec_subgoal he
        refine ⟨fun z hz => ?_, ?_⟩
        · rcases List.mem_cons.mp hz with rfl | hz
          · exact ⟨hhead, fun stmt heq => by cases heq⟩
          · exact hrest z hz
        · refine ⟨h.2.1, ?_⟩
          rw [← suspensions_achieve]
          exact h.2.2
      · next goals he =>
        refine ⟨hrest, ?_⟩
        have := h.2.2
        cases stmt with
        | dropAwaitPhase1Acks => exact this
        | _ =>
          simp only [SupervisorAgent.exec] at he
          first | cases he | (split at he <;> cases he)
      · exact h
      · exact hempty

theorem effect_knows {b : SupervisorBeliefs} {l : List Item} (h : ∀ y ∈ l, PhaseItem r v y)
    (hb : Knows r b) : Knows r ((SupervisorAgent.program r).effect x () b l).1 := by
  cases l with
  | nil => exact hb
  | cons y rest =>
    cases y with
    | inl g => exact hb
    | inr stmt =>
      simp only [Program.effect, SupervisorAgent.program]
      split
      · next he => exact exec_knows he ((h _ List.mem_cons_self).2 stmt rfl) hb
      · exact hb
      · exact hb

/-! ## One operation -/

/-- A move after which the transition is `v`. -/
theorem PhaseInvariant.of_move (h : PhaseInvariant r s) (hi : s.agent.intentions[i]? = some θ)
    (hphases : (s.move r i x).phases = v) (hbegun : Begun v)
    (hE : ∀ t, s.UnderWay t → PhaseEvent r s.phases t → PhaseEvent r v t)
    (hothers : ∀ j θ', s.agent.intentions[j]? = some θ' → j ≠ i →
      PhaseAgenda r s.phases θ'.agenda → PhaseAgenda r v θ'.agenda)
    (hmove : PhaseAgenda r v
      ((SupervisorAgent.program r).advance (s.input x) () (s.agent.beliefs ()) θ.agenda))
    (hstart : ∀ key ttl k rest, θ.agenda = .inr (.startTimer key ttl k) :: rest →
      PhaseEvent r v (.timerExpired key k)) : PhaseInvariant r (s.move r i x) := by
  refine ⟨?_, ?_, ?_⟩
  · rw [hphases]
    exact hbegun
  · rw [move_beliefs hi (h.holds.agendas.settled hi)]
    exact effect_knows (h.holds.agendas.get hi).1 h.knows
  · rw [hphases]
    refine h.holds.move hi hE hothers (fun _ => hmove) fun key ttl k hk => ?_
    obtain ⟨rest, hagenda⟩ := started_eq hk
    exact hstart key ttl k rest hagenda

/-- A report belongs to no transition. -/
theorem phaseEvent_report {t : SupervisorTrigger} (ht : isReport t) : PhaseEvent r v t := by
  cases t with
  | energyPriceSpike | energyPriceNormal | transportBlocked =>
    refine ⟨rfl, fun q hq => ?_, fun k hk => ?_⟩
    · cases hq
    · cases hk
  | _ => cases ht

/-- A timer that is started. -/
theorem phaseEvent_started {key : PhaseTimer} {ttl k : ℕ} {rest : List Item}
    (h : PhaseAgenda r v (.inr (.startTimer key ttl k) :: rest)) :
    PhaseEvent r v (.timerExpired key k) :=
  ⟨rfl, (h.1 _ List.mem_cons_self).1, h.2.1⟩

theorem run_act_phase0 (acts : List SupervisorAction) (s : Supervision) :
    (Runs.run act acts s).phase0 = s.phase0 ∧ (Runs.run act acts s).phase1 = s.phase1 := by
  induction acts generalizing s with
  | nil => exact ⟨rfl, rfl⟩
  | cons a acts ih =>
    have hact : (act a s).phase0 = s.phase0 ∧ (act a s).phase1 = s.phase1 := by
      cases a with
      | commitTransition k =>
        simp only [act, commitTransition]
        split
        · exact ⟨rfl, rfl⟩
        · split <;> exact ⟨rfl, rfl⟩
      | _ => exact ⟨rfl, rfl⟩
    rw [Runs.run_cons, (ih _).1, (ih _).2]
    exact hact

/-- A move that begins and commits no transition, enters no phase and suspends no holon. -/
theorem phaseInvariant_same (h : PhaseInvariant r s) (hi : s.agent.intentions[i]? = some θ)
    (hturns : ∀ y rest, θ.agenda = y :: rest → ¬ turns y)
    (hsend : ∀ holon k rest, θ.agenda ≠ .inr (.sendSuspend holon k) :: rest) :
    PhaseInvariant r (s.move r i x) := by
  have hsettled := h.holds.agendas.settled hi
  have hA := h.holds.agendas.get hi
  have hphases : (s.move r i x).phases = s.phases := by
    have hview : (s.move r i x).view = s.view := by
      refine move_view hi hsettled fun stmt rest hagenda htransits => ?_
      cases stmt with
      | initiateTransition target => exact hturns _ rest hagenda rfl
      | commitTransition k => exact hturns _ rest hagenda rfl
      | sendSuspend holon k => exact hsend holon k rest hagenda
      | _ => cases htransits
    have hmove := move_eq (r := r) (x := x) hi hsettled
    rw [phases, phases, hview, hmove, (run_act_phase0 _ _).1, (run_act_phase0 _ _).2]
    cases hagenda : θ.agenda with
    | nil => rfl
    | cons y rest =>
      cases y with
      | inl g =>
        cases g with
        | runPhase0 k | runPhase1 k => exact absurd rfl (hturns _ rest hagenda)
        | _ => rfl
      | inr stmt => rfl
  refine h.of_move hi hphases h.begun (fun _ _ h => h) (fun _ _ _ _ h => h)
    (hA.advance h.knows hturns hsend) fun key ttl k rest hagenda => ?_
  rw [hagenda] at hA
  exact phaseEvent_started hA

/-- A suspension is sent. -/
theorem phaseInvariant_suspend (h : PhaseInvariant r s) (hi : s.agent.intentions[i]? = some θ)
    {holon : String} {k : Option ℕ} {rest : List Item}
    (hagenda : θ.agenda = .inr (.sendSuspend holon k) :: rest) :
    PhaseInvariant r (s.move r i x) := by
  have hphases : (s.move r i x).phases = { s.phases with
      transition := { s.view with sent := (k.map fun k => (holon, k)).toList ++ s.sent } } := by
    rw [move_eq hi (h.holds.agendas.settled hi), hagenda]
    rfl
  have hA := h.holds.agendas.get hi
  have hsent : ∀ p ∈ s.sent, p ∈ (k.map fun k => (holon, k)).toList ++ s.sent :=
    fun p hp => List.mem_append_right _ hp
  refine h.of_move hi hphases h.begun ?_ ?_ ⟨?_, ?_⟩ ?_
  · exact fun t _ ht => ⟨ht.1, ht.2.1, fun k hk holon hholon => hsent _ (ht.2.2 k hk holon hholon)⟩
  · exact fun j θ' _ _ hl => ⟨hl.1, hl.2.mono hsent⟩
  · rw [hagenda] at hA ⊢
    exact fun z hz => hA.1 z (List.mem_cons_of_mem _ hz)
  · rw [hagenda] at hA ⊢
    have hcover := hA.2.2
    cases k <;> exact hcover
  · intro key ttl k' rest' hagenda'
    rw [hagenda] at hagenda'
    cases (List.cons.inj hagenda').1

/-- The agenda after a transition has begun, entered a phase or been committed. -/
theorem phaseAgenda_turned {v₀ : PhaseView} {code rest : List Item}
    (hcode : ∀ y ∈ code, PhaseItem r v y ∧ commits y = none)
    (hidle : ∀ y ∈ rest, stage y = none) (hrest : ∀ y ∈ rest, PhaseItem r v₀ y) :
    PhaseAgenda r v (code ++ rest) := by
  constructor
  · intro y hy
    rcases List.mem_append.mp hy with hy | hy
    · exact (hcode y hy).1
    · refine ⟨fun q hq => ?_, (hrest y hy).2⟩
      rw [hidle y hy] at hq
      cases hq
  · refine covered_of_forall fun y hy k hk => ?_
    have hnone : commits y = none := by
      rcases List.mem_append.mp hy with hy | hy
      · exact (hcode y hy).2
      · exact commits_none (hidle y hy)
    rw [hnone] at hk
    cases hk

/-- A transition begins, enters a phase or is committed while nothing else belongs to one. -/
theorem phaseInvariant_turn (h : PhaseInvariant r s) (hi : s.agent.intentions[i]? = some θ)
    {y : Item} {rest : List Item} (hagenda : θ.agenda = y :: rest) (hturns : turns y)
    (halone : s.Alone i rest) (hphases : (s.move r i x).phases = v) (hbegun : Begun v)
    (hmove : PhaseAgenda r v
      ((SupervisorAgent.program r).advance (s.input x) () (s.agent.beliefs ()) (y :: rest))) :
    PhaseInvariant r (s.move r i x) := by
  obtain ⟨-, hothers, htimers, hevents⟩ := halone
  rw [← hagenda] at hmove
  refine h.of_move hi hphases hbegun ?_ ?_ hmove ?_
  · intro t ht hE
    have hnone : t.stage = none := by
      rcases ht with ht | ⟨u, hu, rfl⟩
      · exact hevents _ ht
      · exact htimers u hu
    refine ⟨hE.1, fun q hq => ?_, fun k hk => ?_⟩
    · rw [hnone] at hq
      cases hq
    · have hcommits : commits (.inl t) = none := commits_none hnone
      rw [show t.commits = none from hcommits] at hk
      cases hk
  · intro j θ' hj hne hl
    obtain ⟨hlt, -⟩ := List.getElem?_eq_some_iff.mp hj
    exact phaseAgenda_idle (hothers j hlt hne θ' hj) fun y hy => (hl.1 y hy).2
  · intro key ttl k rest' hagenda'
    rw [hagenda] at hagenda'
    cases hagenda'
    cases hturns

theorem alone_of_turn {y : Item} {rest : List Item} (hC : s.PhasesApart (.move i x))
    (hi : s.agent.intentions[i]? = some θ) (hagenda : θ.agenda = y :: rest) (hturns : turns y) :
    s.Alone i rest := by
  have hC' := hC θ hi
  rw [hagenda] at hC'
  exact hC' hturns

/-- A transition begins. -/
theorem phaseInvariant_initiate (h : PhaseInvariant r s) (hi : s.agent.intentions[i]? = some θ)
    {target : Schema} {rest : List Item}
    (hagenda : θ.agenda = .inr (.initiateTransition target) :: rest)
    (halone : s.Alone i rest) : PhaseInvariant r (s.move r i x) := by
  have hphases : (s.move r i x).phases = (s.beginTransition target s.initiated).phases := by
    rw [move_eq hi (h.holds.agendas.settled hi), hagenda]
    rfl
  have hA := h.holds.agendas.get hi
  rw [hagenda] at hA
  refine phaseInvariant_turn h hi hagenda rfl halone hphases ⟨fun k hk => ?_, fun t ht => ?_⟩ ?_
  · exact Nat.lt_succ_of_lt (h.begun.1 k hk)
  · obtain rfl := Option.some_inj.mp ht
    exact Nat.lt_succ_self _
  · -- no transition of this number has entered a phase
    have hfits : Fits (s.beginTransition target s.initiated).phases (.opening, s.initiated) := by
      refine ⟨⟨_, rfl, rfl, rfl⟩, fun hk => ?_, fun hk => ?_⟩
      · exact lt_irrefl _ (h.begun.1 _ (Or.inl hk))
      · exact lt_irrefl _ (h.begun.1 _ (Or.inr hk))
    show PhaseAgenda r _ ([.inr (.addPendingTransition target (s.schemaEpoch + 1)),
      .inr (.achieve (.runPhase0 s.initiated))] ++ rest)
    refine phaseAgenda_turned (fun y hy => ?_) halone.1
      fun y hy => hA.1 y (List.mem_cons_of_mem _ hy)
    simp only [List.mem_cons, List.not_mem_nil, or_false] at hy
    rcases hy with rfl | rfl
    · refine ⟨⟨fun q hq => ?_, fun stmt heq => ?_⟩, rfl⟩
      · cases hq
      · cases heq
        trivial
    · refine ⟨⟨fun q hq => ?_, fun stmt heq => ?_⟩, rfl⟩
      · cases hq
        exact hfits
      · cases heq
        trivial

/-- A transition enters a phase. -/
theorem phaseAgenda_entered {g : SupervisorTrigger} {rest : List Item} {v₀ : PhaseView}
    (hfits : ∀ q ∈ g.enters, Fits v q)
    (hcommits : ∀ body, SupervisorAgent.plan r () (s.agent.beliefs ()) g = some body →
      ∀ stmt ∈ body, stmt.commits = none)
    (hidle : ∀ y ∈ rest, stage y = none) (hrest : ∀ y ∈ rest, PhaseItem r v₀ y) :
    PhaseAgenda r v ((SupervisorAgent.program r).advance x () (s.agent.beliefs ())
      (.inl g :: rest)) := by
  simp only [Program.advance, SupervisorAgent.program]
  split
  · next body hplan =>
    refine phaseAgenda_turned (fun y hy => ⟨plan_fits hplan hfits y hy, ?_⟩) hidle hrest
    obtain ⟨stmt, hstmt, rfl⟩ := List.mem_map.mp hy
    exact hcommits body hplan stmt hstmt
  · exact ⟨fun y hy => absurd hy List.not_mem_nil, trivial⟩

/-- A transition enters Phase 0. -/
theorem phaseInvariant_phase0 (h : PhaseInvariant r s) (hi : s.agent.intentions[i]? = some θ)
    {k : ℕ} {rest : List Item} (hagenda : θ.agenda = .inl (.runPhase0 k) :: rest)
    (halone : s.Alone i rest) : PhaseInvariant r (s.move r i x) := by
  have hphases : (s.move r i x).phases = { s.phases with phase0 := k :: s.phase0 } := by
    rw [move_eq hi (h.holds.agendas.settled hi), hagenda]
    rfl
  have hA := h.holds.agendas.get hi
  rw [hagenda] at hA
  obtain ⟨hopen, -, hphase1⟩ := (hA.1 _ List.mem_cons_self).1 _ rfl
  refine phaseInvariant_turn h hi hagenda rfl halone hphases ⟨fun k' hk' => ?_, h.begun.2⟩ ?_
  · rcases hk' with hk' | hk'
    · rcases List.mem_cons.mp hk' with rfl | hk'
      · obtain ⟨t, ht, rfl, -⟩ := hopen
        exact h.begun.2 t ht
      · exact h.begun.1 k' (Or.inl hk')
    · exact h.begun.1 k' (Or.inr hk')
  · refine phaseAgenda_entered (fun q hq => ?_) (fun body hplan stmt hstmt => ?_) halone.1
      fun y hy => hA.1 y (List.mem_cons_of_mem _ hy)
    · cases hq
      exact ⟨hopen, List.mem_cons_self, hphase1⟩
    · cases hplan
      simp only [List.mem_cons, List.not_mem_nil, or_false] at hstmt
      rcases hstmt with rfl | rfl <;> rfl

/-- A transition enters Phase 1. -/
theorem phaseInvariant_phase1 (h : PhaseInvariant r s) (hi : s.agent.intentions[i]? = some θ)
    {k : ℕ} {rest : List Item} (hagenda : θ.agenda = .inl (.runPhase1 k) :: rest)
    (halone : s.Alone i rest) : PhaseInvariant r (s.move r i x) := by
  have hphases : (s.move r i x).phases = { s.phases with phase1 := k :: s.phase1 } := by
    rw [move_eq hi (h.holds.agendas.settled hi), hagenda]
    rfl
  have hA := h.holds.agendas.get hi
  rw [hagenda] at hA
  obtain ⟨hopen, hphase0, -⟩ := (hA.1 _ List.mem_cons_self).1 _ rfl
  refine phaseInvariant_turn h hi hagenda rfl halone hphases ⟨fun k' hk' => ?_, h.begun.2⟩ ?_
  · rcases hk' with hk' | hk'
    · exact h.begun.1 k' (Or.inl hk')
    · rcases List.mem_cons.mp hk' with rfl | hk'
      · exact h.begun.1 _ (Or.inl hphase0)
      · exact h.begun.1 k' (Or.inr hk')
  · refine phaseAgenda_entered (fun q hq => ?_) (fun body hplan stmt hstmt => ?_) halone.1
      fun y hy => hA.1 y (List.mem_cons_of_mem _ hy)
    · cases hq
      exact ⟨hopen, List.mem_cons_self⟩
    · cases hplan
      obtain rfl := List.mem_singleton.mp hstmt
      rfl

theorem phases_commit_agent (agent : Population Unit SupervisorBeliefs SupervisorTrigger
    SupervisorStmt) : (commitTransition { s with agent := agent }).phases
      = s.commitTransition.phases := by
  simp only [commitTransition]
  split
  · rfl
  · split <;> rfl

/-- A transition is committed. -/
theorem phaseInvariant_commit (h : PhaseInvariant r s) (hi : s.agent.intentions[i]? = some θ)
    {k : ℕ} {rest : List Item} (hagenda : θ.agenda = .inr (.commitTransition k) :: rest)
    (halone : s.Alone i rest) : PhaseInvariant r (s.move r i x) := by
  have hphases : (s.move r i x).phases = s.commitTransition.phases := by
    rw [move_eq hi (h.holds.agendas.settled hi), hagenda]
    exact phases_commit_agent _
  have hA := h.holds.agendas.get hi
  rw [hagenda] at hA
  have hbegun : Begun s.commitTransition.phases := by
    simp only [commitTransition]
    split
    · exact h.begun
    · next t hactive =>
      split
      · exact h.begun
      · refine ⟨h.begun.1, fun t' ht' => ?_⟩
        obtain rfl := Option.some_inj.mp ht'
        exact h.begun.2 t hactive
  refine phaseInvariant_turn h hi hagenda rfl halone hphases hbegun ?_
  show PhaseAgenda r _ ([] ++ rest)
  exact phaseAgenda_turned (fun y hy => absurd hy List.not_mem_nil) halone.1
    fun y hy => hA.1 y (List.mem_cons_of_mem _ hy)

/-- A move. -/
theorem phaseInvariant_move (h : PhaseInvariant r s) (hC : s.PhasesApart (.move i x)) :
    PhaseInvariant r (s.move r i x) := by
  cases hi : s.agent.intentions[i]? with
  | none =>
    rw [move, hi]
    exact h
  | some θ =>
    by_cases hturns : ∀ y rest, θ.agenda = y :: rest → ¬ turns y
    · by_cases hsend : ∀ holon k rest, θ.agenda ≠ .inr (.sendSuspend holon k) :: rest
      · exact phaseInvariant_same h hi hturns hsend
      · push Not at hsend
        obtain ⟨holon, k, rest, hagenda⟩ := hsend
        exact phaseInvariant_suspend h hi hagenda
    · push Not at hturns
      obtain ⟨y, rest, hagenda, hy⟩ := hturns
      have halone := alone_of_turn hC hi hagenda hy
      cases y with
      | inl g =>
        cases g with
        | runPhase0 k => exact phaseInvariant_phase0 h hi hagenda halone
        | runPhase1 k => exact phaseInvariant_phase1 h hi hagenda halone
        | _ => cases hy
      | inr stmt =>
        cases stmt with
        | initiateTransition target => exact phaseInvariant_initiate h hi hagenda halone
        | commitTransition k => exact phaseInvariant_commit h hi hagenda halone
        | _ => cases hy

/-- The surroundings change no belief about the holons of the factory. -/
theorem knows_surroundings {op : SupervisionOp} (h : Knows r (s.agent.beliefs ()))
    (hop : ∀ i x, op ≠ .move i x) : Knows r ((s.exec r op).agent.beliefs ()) := by
  cases op with
  | move i x => exact absurd rfl (hop i x)
  | select =>
    simp only [exec, Population.select]
    split
    · exact h
    · split <;> exact h
  | expire j | signal j =>
    simp only [exec]
    split <;> exact h
  | suspendAck who =>
    simp only [exec, Population.believe, Function.update_self]
    exact h
  | transportBlocked o source =>
    simp only [exec]
    split <;>
    · simp only [Population.post, Population.believe, Function.update_self]
      exact h
  | _ => exact h

theorem phases_surroundings {op : SupervisionOp} (hop : ∀ i x, op ≠ .move i x) :
    (s.exec r op).phase0 = s.phase0 ∧ (s.exec r op).phase1 = s.phase1 := by
  cases op with
  | move i x => exact absurd rfl (hop i x)
  | expire j | signal j =>
    simp only [exec]
    split <;> exact ⟨rfl, rfl⟩
  | _ => exact ⟨rfl, rfl⟩

theorem fits_filter {q : Stage × ℕ} (h : Fits v q) :
    Fits { v with transition := { v.transition with
      activeTransition := v.transition.activeTransition.filter fun t => ¬ t.committed } } q := by
  obtain ⟨⟨t, ht, hnumber, hopen⟩, hstage⟩ := h
  exact ⟨⟨t, Option.mem_filter_iff.mpr ⟨ht, by simp [hopen]⟩, hnumber, hopen⟩, hstage⟩

/-- A transition that is forgotten was committed. -/
theorem holds_surroundings {op : SupervisionOp} (h : PhaseInvariant r s)
    (hop : ∀ i x, op ≠ .move i x) :
    Begun (s.exec r op).phases ∧
      s.Holds (PhaseEvent r (s.exec r op).phases) (PhaseAgenda r (s.exec r op).phases) := by
  obtain ⟨hphase0, hphase1⟩ := phases_surroundings (r := r) (s := s) hop
  rcases exec_view_surroundings (r := r) (s := s) hop with hview | hview <;>
    rw [phases, hphase0, hphase1, hview]
  · exact ⟨h.begun, h.holds⟩
  · refine ⟨⟨h.begun.1, fun t ht => ?_⟩, fun t ht => ?_, h.holds.agendas.imp fun _ l hl => ?_⟩
    · exact h.begun.2 t (Option.mem_filter_iff.mp ht).1
    · have hE := h.holds.events t ht
      exact ⟨hE.1, fun q hq => fits_filter (hE.2.1 q hq), hE.2.2⟩
    · exact ⟨fun y hy => ⟨fun q hq => fits_filter ((hl.1 y hy).1 q hq), (hl.1 y hy).2⟩, hl.2⟩

/-- **One operation.** -/
theorem phaseInvariant_exec {op : SupervisionOp} (h : PhaseInvariant r s) (hC : s.PhasesApart op) :
    PhaseInvariant r (s.exec r op) := by
  by_cases hop : ∀ i x, op ≠ .move i x
  · obtain ⟨hbegun, hholds⟩ := holds_surroundings h hop
    refine ⟨hbegun, knows_surroundings h.knows hop, ?_⟩
    refine hholds.surroundings hop (fun t ht => phaseEvent_report ht) fun _ t _ ht body hbody => ?_
    have henters : t.enters = t.stage := by
      cases t with
      | runPhase0 | runPhase1 => cases ht.1
      | _ => rfl
    refine ⟨plan_fits hbody (by rw [henters]; exact ht.2.1), ?_⟩
    have hcovered : Covered r (s.exec r op).phases.transition.sent [.inl t] := ⟨ht.2.2, trivial⟩
    simpa using plan_covered hbody hcovered
  · push Not at hop
    obtain ⟨i, x, rfl⟩ := hop
    exact phaseInvariant_move h hC

/-- What is next is in order. -/
theorem inOrder_of_invariant (h : PhaseInvariant r s) (op : SupervisionOp) : s.InOrder r op := by
  cases op with
  | move i x =>
    intro θ hθ
    have hA := h.holds.agendas.get hθ
    split
    · next k rest hagenda =>
      rw [hagenda] at hA
      obtain ⟨hopen, hphase0, -⟩ := (hA.1 _ List.mem_cons_self).1 _ rfl
      exact ⟨hopen, hphase0⟩
    · next k rest hagenda =>
      rw [hagenda] at hA
      exact (hA.1 _ List.mem_cons_self).1 _ rfl
    · next k rest hagenda =>
      rw [hagenda] at hA
      obtain ⟨hopen, hphase1⟩ := (hA.1 _ List.mem_cons_self).1 _ rfl
      exact ⟨hopen, hphase1, hA.2.1 k rfl⟩
    · trivial
  | _ => trivial

/-! ## Runs -/

/-- **The phases follow each other.**  In every run in which nothing else is left that belongs
to a transition whenever one begins, enters a phase or is committed, every transition is open
when it enters a phase or is committed, enters each phase at most once and Phase 1 after
Phase 0, and is committed after Phase 1 has suspended every holon. -/
theorem inOrder_along (r : Roster) (adacorEnabled : Bool) {ops : List SupervisionOp}
    (hops : Runs.Along (exec r) PhasesApart (start adacorEnabled) ops) :
    Runs.Along (exec r) (InOrder r) (start adacorEnabled) ops := by
  have hstart : PhaseInvariant r (start adacorEnabled) := by
    refine ⟨⟨fun k hk => ?_, fun t ht => ?_⟩, ⟨?_, ?_, ?_⟩, fun t ht => ?_, fun θ hθ => ?_⟩
    · rcases hk with hk | hk <;> cases hk
    · cases ht
    · exact fun l hl => nomatch hl
    · exact fun l hl => nomatch hl
    · exact fun l hl => nomatch hl
    · rcases ht with ht | ⟨u, hu, -⟩
      · cases List.mem_singleton.mp ht
        refine ⟨rfl, fun q hq => ?_, fun k hk => ?_⟩
        · cases hq
        · cases hk
      · cases hu
    · cases hθ
  have hrun := Runs.Along.and_invariant (I := PhaseInvariant r)
    (fun _ _ h hC => phaseInvariant_exec h hC) hstart hops
  exact hrun.imp fun _ op h => inOrder_of_invariant h.1 op

theorem inOrder_transition :
    (Runs.run (exec twoOrders) (startedRun ++ transitionRun 1 ++ commitRun 1)
        (start true)).committed = [0] ∧
      Runs.Along (exec twoOrders) (InOrder twoOrders) (start true)
        (startedRun ++ transitionRun 1 ++ commitRun 1) :=
  ⟨by decide +kernel, inOrder_along twoOrders true (by decide)⟩

/-- In Phase 0 a lock is left and the poll is armed.  The signal of the poll is queued when the
timer of Phase 0 aborts the order and the transition enters Phase 1; it then finds the registry
empty. -/
def stalePollRun : List SupervisionOp :=
  startedRun ++ [SupervisionOp.energyPriceSpike 100, .select] ++
    List.replicate 10
      (SupervisionOp.move 1 { locks := [⟨⟨"order_1", 1⟩, "station_1", "order_1"⟩] }) ++
    [SupervisionOp.select, .expire 1, .expire 0, .signal 1, .select] ++
    List.replicate 8 (SupervisionOp.move 2 {}) ++ [SupervisionOp.signal 0, .select] ++
    List.replicate 6 (SupervisionOp.move 3 {})

/-- A poll of Phase 0 that can no longer be cancelled enters Phase 1 a second time. -/
theorem not_inOrder :
    (Runs.run (exec twoOrders) stalePollRun (start true)).phase1 = [0, 0] ∧
      ¬ ∀ (r : Roster) (adacorEnabled : Bool) (ops : List SupervisionOp),
        Runs.Along (exec r) (InOrder r) (start adacorEnabled) ops := by
  constructor
  · decide
  · intro h
    have := h twoOrders true stalePollRun
    exact absurd this (by decide)

end Supervision

end MatrixFactory