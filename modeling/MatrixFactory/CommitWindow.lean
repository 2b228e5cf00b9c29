/-
# Resumptions and the commit of a transition

Phase 1 of a transition suspends every holon; they are to be resumed after its commit.  A
saturated grid suspends order holons as well, in the same belief, and polls the grid to resume
them.

No resumption comes between a suspension of Phase 1 and the commit, if no poll is armed and no
resumption is under way when Phase 1 suspends, no grid suspension begins before the commit, and
transitions do not overlap.
-/
import MatrixFactory.Supervision

namespace MatrixFactory

open AgentSpeak

/-- The goals and events that lead to a resumption. -/
def SupervisorTrigger.resumes : SupervisorTrigger → Bool
  | .checkGridResume | .resumeSuspendedHolons | .timerExpired .gridResumePoll _ => true
  | _ => false

/-- The statements that lead to a resumption. -/
def SupervisorStmt.resumes : SupervisorStmt → Bool
  | .achieve g => g.resumes
  | .startTimer .gridResumePoll _ _ | .findLowPriority | .ifNormal | .ifPendingRevert
  | .sendResume _ => true
  | _ => false

namespace Supervision

/-- What leads to a resumption comes after a commit. -/
def guarded : List Item → Bool
  | [] => true
  | .inl g :: rest => !g.resumes && guarded rest
  | .inr (.commitTransition _) :: _ => true
  | .inr stmt :: rest => !stmt.resumes && guarded rest

/-- A holon was suspended for a transition that is not committed. -/
def Window (v : TransitionView) : Prop := ∃ p ∈ v.sent, p.2 ∉ v.committed

/-- The operation resumes no holon that was suspended for a transition that is not
committed. -/
def ResumesCommitted (s : Supervision) : SupervisionOp → Prop
  | .move i _ => ∀ θ ∈ s.agent.intentions[i]?,
    match θ.agenda with
    | .inr (.sendResume h) :: _ => ∀ p ∈ s.sent, p.1 = h → p.2 ∈ s.committed
    | _ => True
  | _ => True

/-- The condition on an operation: a transition begins while none is open; a suspension of
Phase 1 is sent while no poll of the grid is armed and nothing but a commit leads to a
resumption; and no suspension because of a saturated grid begins before the commit. -/
def WindowsApart (s : Supervision) : SupervisionOp → Prop
  | .move i _ => ∀ θ ∈ s.agent.intentions[i]?,
    match θ.agenda with
    | .inr (.initiateTransition _) :: _ => ∀ t ∈ s.activeTransition, t.committed
    | .inr (.sendSuspend _ (some _)) :: _ => (∀ θ' ∈ s.agent.intentions, guarded θ'.agenda) ∧
      (∀ u ∈ s.timers ++ s.signals, u.key ≠ .gridResumePoll) ∧
      ∀ e ∈ s.agent.events, ¬ e.2.resumes
    | .inl .suspendLowPriorityHolons :: _ => ∀ p ∈ s.sent, p.2 ∈ s.committed
    | _ => True
  | _ => True

instance (s : Supervision) (op : SupervisionOp) : Decidable (s.ResumesCommitted op) :=
  match op with
  | .move i _ =>
    have (l : Agenda) : Decidable (match l with
        | .inr (.sendResume h) :: _ => ∀ p ∈ s.sent, p.1 = h → p.2 ∈ s.committed
        | _ => True) := by
      split <;> infer_instance
    inferInstanceAs (Decidable (∀ θ ∈ s.agent.intentions[i]?, _))
  | .select | .expire _ | .signal _ | .energyPriceSpike _ | .energyPriceNormal _ | .suspendAck _
  | .transportBlocked _ _ | .clearCommittedTransition => .isTrue trivial

instance (s : Supervision) (op : SupervisionOp) : Decidable (s.WindowsApart op) :=
  match op with
  | .move i _ =>
    have (l : Agenda) : Decidable (match l with
        | .inr (.initiateTransition _) :: _ => ∀ t ∈ s.activeTransition, t.committed
        | .inr (.sendSuspend _ (some _)) :: _ => (∀ θ' ∈ s.agent.intentions, guarded θ'.agenda) ∧
          (∀ u ∈ s.timers ++ s.signals, u.key ≠ .gridResumePoll) ∧
          ∀ e ∈ s.agent.events, ¬ e.2.resumes
        | .inl .suspendLowPriorityHolons :: _ => ∀ p ∈ s.sent, p.2 ∈ s.committed
        | _ => True) := by
      split <;> infer_instance
    inferInstanceAs (Decidable (∀ θ ∈ s.agent.intentions[i]?, _))
  | .select | .expire _ | .signal _ | .energyPriceSpike _ | .energyPriceNormal _ | .suspendAck _
  | .transportBlocked _ _ | .clearCommittedTransition => .isTrue trivial

/-! ## What leads to a resumption -/

theorem guarded_append {code rest : List Item} (hcode : guarded code) (hrest : guarded rest) :
    guarded (code ++ rest) := by
  induction code with
  | nil => exact hrest
  | cons y code ih =>
    cases y with
    | inl g =>
      simp only [guarded, Bool.and_eq_true] at hcode
      simp only [List.cons_append, guarded, Bool.and_eq_true]
      exact ⟨hcode.1, ih hcode.2⟩
    | inr stmt =>
      by_cases hcommit : ∃ k, stmt = .commitTransition k
      · obtain ⟨k, rfl⟩ := hcommit
        rfl
      · have hunfold : ∀ l : List Item,
            guarded (.inr stmt :: l) = (!stmt.resumes && guarded l) := by
          intro l
          cases stmt <;> first | rfl | exact absurd ⟨_, rfl⟩ hcommit
        rw [hunfold, Bool.and_eq_true] at hcode
        rw [List.cons_append, hunfold, Bool.and_eq_true]
        exact ⟨hcode.1, ih hcode.2⟩

/-- The head of a guarded agenda. -/
theorem guarded_cons {stmt : SupervisorStmt} {rest : List Item}
    (h : guarded (.inr stmt :: rest)) (hcommit : ∀ k, stmt ≠ .commitTransition k) :
    ¬ stmt.resumes ∧ guarded rest := by
  have hunfold : guarded (.inr stmt :: rest) = (!stmt.resumes && guarded rest) := by
    cases stmt <;> first | rfl | exact absurd rfl (hcommit _)
  rw [hunfold, Bool.and_eq_true] at h
  exact ⟨by simpa using h.1, h.2⟩

/-- The plan of what leads to no resumption is guarded, apart from a suspension because of a
saturated grid. -/
theorem plan_guarded {r : Roster} {b : SupervisorBeliefs} {t : SupervisorTrigger}
    (ht : ¬ t.resumes) (hlow : t ≠ .suspendLowPriorityHolons) {body : List SupervisorStmt}
    (h : SupervisorAgent.plan r () b t = some body) : guarded (body.map Sum.inr) := by
  cases t with
  | checkGridResume | resumeSuspendedHolons => exact absurd rfl ht
  | suspendLowPriorityHolons => exact absurd rfl hlow
  | energyPriceSpike price =>
    simp only [SupervisorAgent.plan] at h
    split at h
    · cases h
      rfl
    · split at h <;> cases h
      rfl
  | energyPriceNormal price =>
    simp only [SupervisorAgent.plan] at h
    split at h
    · cases h
      rfl
    · split at h <;> cases h
      rfl
  | abortAllLocks locks => cases locks <;> cases h <;> rfl
  | sendSuspendToAll holons k => cases holons <;> cases h <;> rfl
  | awaitPhase1Acks pending k => cases pending <;> cases h <;> rfl
  | doCommit k =>
    -- what follows the commit resumes
    simp only [SupervisorAgent.plan] at h
    split at h <;> cases h
    rfl
  | transportBlocked m =>
    simp only [SupervisorAgent.plan] at h
    split at h <;> cases h
    rfl
  | timerExpired key k =>
    cases key with
    | gridResumePoll => exact absurd rfl ht
    | _ =>
      cases h
      rfl
  | _ =>
    cases h
    rfl

/-- What a statement that leads to no resumption comes to is guarded. -/
theorem exec_guarded {b b' : SupervisorBeliefs} {stmt : SupervisorStmt} {x : SupervisorInput}
    {code : List SupervisorStmt} {acts : List SupervisorAction} (hstmt : ¬ stmt.resumes)
    (he : SupervisorAgent.exec () b stmt x = .next b' code acts) : guarded (code.map Sum.inr) := by
  cases stmt with
  | findLowPriority | ifNormal | ifPendingRevert | sendResume => exact absurd rfl hstmt
  | achieve g => cases he
  | dropAwaitPhase1Acks => cases he
  | ifDrained k =>
    simp only [SupervisorAgent.exec] at he
    split at he <;>
    · cases he
      rfl
  | queryActiveHolons k =>
    simp only [SupervisorAgent.exec] at he
    split at he <;> cases he
    rfl
  | waitSuspendAck pending k =>
    simp only [SupervisorAgent.exec] at he
    split at he <;> cases he
    rfl
  | ifSaturated =>
    simp only [SupervisorAgent.exec] at he
    split at he <;>
    · cases he
      rfl
  | _ =>
    cases he
    rfl

/-- A guarded agenda stays guarded until a commit. -/
theorem advance_guarded {r : Roster} {b : SupervisorBeliefs} {x : SupervisorInput} {l : List Item}
    (h : guarded l) (hlow : ∀ rest, l ≠ .inl .suspendLowPriorityHolons :: rest)
    (hcommit : ∀ k rest, l ≠ .inr (.commitTransition k) :: rest) :
    guarded ((SupervisorAgent.program r).advance x () b l) := by
  cases l with
  | nil => rfl
  | cons y rest =>
    cases y with
    | inl g =>
      simp only [guarded, Bool.and_eq_true, Bool.not_eq_true'] at h
      simp only [Program.advance, SupervisorAgent.program]
      split
      · next body hplan =>
        refine guarded_append (plan_guarded (by rw [h.1]; exact Bool.false_ne_true) ?_ hplan) h.2
        rintro rfl
        exact hlow rest rfl
      · rfl
    | inr stmt =>
      obtain ⟨hstmt, hrest⟩ := guarded_cons h fun k hk => hcommit k rest (by rw [hk])
      simp only [Program.advance, SupervisorAgent.program]
      split
      · next he => exact guarded_append (exec_guarded hstmt he) hrest
      · next g he =>
        rw [exec_subgoal he] at hstmt
        simp only [guarded, Bool.and_eq_true, Bool.not_eq_true']
        exact ⟨by simpa [SupervisorStmt.resumes] using hstmt, hrest⟩
      · exact hrest
      · exact h
      · rfl

/-! ## One operation -/

/-- What holds of an event under way: its transition was begun, and before a commit it leads
to no resumption. -/
def WindowEvent (v : TransitionView) (t : SupervisorTrigger) : Prop :=
  isEvent t ∧ (∀ k ∈ t.number, k < v.initiated) ∧ (Window v → ¬ t.resumes)

/-- What holds of an agenda. -/
def WindowAgenda (v : TransitionView) (l : List Item) : Prop :=
  (∀ y ∈ l, ∀ k ∈ number y, k < v.initiated) ∧ (Window v → guarded l)

/-- The invariant. -/
structure WindowInvariant (s : Supervision) : Prop where
  accounted : Accounted s.view
  sent : ∀ p ∈ s.sent, p.2 < s.initiated
  holds : s.Holds (WindowEvent s.view) (WindowAgenda s.view)

variable {r : Roster} {s : Supervision} {i : ℕ} {x : SupervisorInput}
  {θ : Intention Unit SupervisorTrigger SupervisorStmt}

/-- A move after which the transition is `v`. -/
theorem WindowInvariant.of_move {v : TransitionView} (h : WindowInvariant s)
    (hi : s.agent.intentions[i]? = some θ) (hview : (s.move r i x).view = v)
    (haccounted : Accounted v) (hsent : ∀ p ∈ v.sent, p.2 < v.initiated)
    (hE : ∀ t, s.UnderWay t → WindowEvent s.view t → WindowEvent v t)
    (hothers : ∀ θ' ∈ s.agent.intentions, WindowAgenda s.view θ'.agenda → WindowAgenda v θ'.agenda)
    (hmove : WindowAgenda v
      ((SupervisorAgent.program r).advance (s.input x) () (s.agent.beliefs ()) θ.agenda))
    (hstart : ∀ key ttl k rest, θ.agenda = .inr (.startTimer key ttl k) :: rest →
      WindowEvent v (.timerExpired key k)) : WindowInvariant (s.move r i x) := by
  refine ⟨by rw [hview]; exact haccounted, ?_, ?_⟩
  · have hsent' : ∀ p ∈ (s.move r i x).view.sent, p.2 < (s.move r i x).view.initiated := by
      rw [hview]
      exact hsent
    exact hsent'
  · rw [hview]
    refine h.holds.move hi hE (fun j θ' hj _ => hothers θ' (List.mem_of_getElem? hj))
      (fun _ => hmove) fun key ttl k hk => ?_
    obtain ⟨rest, hagenda⟩ := started_eq hk
    exact hstart key ttl k rest hagenda

/-- A report is of no transition and leads to no resumption. -/
theorem windowEvent_report {v : TransitionView} {t : SupervisorTrigger} (ht : isReport t) :
    WindowEvent v t := by
  cases t with
  | energyPriceSpike | energyPriceNormal | transportBlocked =>
    refine ⟨rfl, fun k hk => ?_, fun _ => Bool.false_ne_true⟩
    cases hk
  | _ => cases ht

/-- A timer that is started. -/
theorem windowEvent_started {v : TransitionView} {key : PhaseTimer} {ttl k : ℕ} {rest : List Item}
    (h : WindowAgenda v (.inr (.startTimer key ttl k) :: rest)) :
    WindowEvent v (.timerExpired key k) := by
  have hnumber := h.1 _ List.mem_cons_self
  refine ⟨rfl, fun k' hk' => ?_, fun hwindow hresumes => ?_⟩
  · cases key <;> exact hnumber k' hk'
  · obtain ⟨hno, -⟩ := guarded_cons (h.2 hwindow) (by simp)
    cases key <;> first | exact hno rfl | cases hresumes

/-- A move that leaves the transition. -/
theorem windowInvariant_same (h : WindowInvariant s) (hi : s.agent.intentions[i]? = some θ)
    (hhead : ∀ stmt rest, θ.agenda = .inr stmt :: rest → ¬ transits stmt)
    (hC : s.WindowsApart (.move i x)) : WindowInvariant (s.move r i x) := by
  have hA := h.holds.agendas.get hi
  refine h.of_move hi (move_view hi (h.holds.agendas.settled hi) hhead) h.accounted h.sent
    (fun _ _ h => h) (fun _ _ h => h) ⟨?_, fun hwindow => ?_⟩ ?_
  · apply advance_number hA.1
    intro target rest hagenda
    exact absurd rfl (hhead _ rest hagenda)
  · apply advance_guarded (hA.2 hwindow)
    · intro rest hagenda
      obtain ⟨p, hp, hopen⟩ := hwindow
      have hC' := hC θ hi
      rw [hagenda] at hC'
      exact hopen (hC' p hp)
    · intro k rest hagenda
      exact absurd rfl (hhead _ rest hagenda)
  · intro key ttl k rest hagenda
    rw [hagenda] at hA
    exact windowEvent_started hA

/-- A transition begins. -/
theorem windowInvariant_initiate (h : WindowInvariant s) (hi : s.agent.intentions[i]? = some θ)
    {target : Schema} {rest : List Item}
    (hagenda : θ.agenda = .inr (.initiateTransition target) :: rest)
    (hC : s.WindowsApart (.move i x)) : WindowInvariant (s.move r i x) := by
  have hopen : ∀ t ∈ s.activeTransition, t.committed := by
    have hC' := hC θ hi
    rw [hagenda] at hC'
    exact hC'
  have hview : (s.move r i x).view = (s.beginTransition target s.initiated).view := by
    rw [move_eq hi (h.holds.agendas.settled hi), hagenda]
    rfl
  have hmore : ∀ k, k < s.initiated → k < s.initiated + 1 := fun k hk => by omega
  have hA := h.holds.agendas.get hi
  refine h.of_move hi hview (accounted_begin h.accounted hopen target)
    (fun p hp => hmore _ (h.sent p hp))
    (fun t _ ht => ⟨ht.1, fun k hk => hmore k (ht.2.1 k hk), ht.2.2⟩)
    (fun θ' _ hl => ⟨fun y hy k hk => hmore k (hl.1 y hy k hk), hl.2⟩) ⟨?_, fun hwindow => ?_⟩ ?_
  · apply advance_number (fun y hy k hk => hmore k (hA.1 y hy k hk))
    exact fun _ _ _ => Nat.lt_succ_self _
  · apply advance_guarded (hA.2 hwindow) <;> simp [hagenda]
  · intro key ttl k rest' hagenda'
    rw [hagenda] at hagenda'
    cases (List.cons.inj hagenda').1

theorem view_commit_agent (agent : Population Unit SupervisorBeliefs SupervisorTrigger
    SupervisorStmt) : (commitTransition { s with agent := agent }).view
      = s.commitTransition.view := by
  simp only [commitTransition]
  split
  · rfl
  · split <;> rfl

theorem commit_initiated : s.commitTransition.initiated = s.initiated := by
  simp only [commitTransition]
  split
  · rfl
  · split <;> rfl

theorem commit_sent : s.commitTransition.sent = s.sent := by
  simp only [commitTransition]
  split
  · rfl
  · split <;> rfl

/-- A transition is committed: no holon is suspended for one that is not. -/
theorem windowInvariant_commit (h : WindowInvariant s) (hi : s.agent.intentions[i]? = some θ)
    {k : ℕ} {rest : List Item} (hagenda : θ.agenda = .inr (.commitTransition k) :: rest) :
    WindowInvariant (s.move r i x) := by
  have hview : (s.move r i x).view = s.commitTransition.view := by
    rw [move_eq hi (h.holds.agendas.settled hi), hagenda]
    exact view_commit_agent _
  have hall : ∀ k < s.initiated, k ∈ s.commitTransition.committed := by
    have := committed_of_commit h.accounted
    rw [commit_initiated] at this
    exact this
  have hclosed : ¬ Window s.commitTransition.view := by
    rintro ⟨p, hp, hopen⟩
    have hp' : p ∈ s.commitTransition.sent := hp
    rw [commit_sent] at hp'
    exact hopen (hall p.2 (h.sent p hp'))
  have hinitiated : s.commitTransition.view.initiated = s.initiated := commit_initiated
  have hA := h.holds.agendas.get hi
  refine h.of_move hi hview ?_ ?_ ?_ ?_ ⟨?_, fun hwindow => absurd hwindow hclosed⟩ ?_
  · intro k' hk'
    rw [hinitiated] at hk'
    exact Or.inl (hall k' hk')
  · intro p hp
    have hp' : p ∈ s.commitTransition.sent := hp
    rw [commit_sent] at hp'
    rw [hinitiated]
    exact h.sent p hp'
  · intro t _ ht
    refine ⟨ht.1, ?_, fun hwindow => absurd hwindow hclosed⟩
    rw [hinitiated]
    exact ht.2.1
  · intro θ' _ hl
    rw [WindowAgenda, hinitiated]
    exact ⟨hl.1, fun hwindow => absurd hwindow hclosed⟩
  · rw [hinitiated]
    apply advance_number hA.1
    intro target rest' hagenda'
    rw [hagenda] at hagenda'
    cases (List.cons.inj hagenda').1
  · intro key ttl k' rest' hagenda'
    rw [hagenda] at hagenda'
    cases (List.cons.inj hagenda').1

/-- A suspension is sent. -/
theorem windowInvariant_suspend (h : WindowInvariant s) (hi : s.agent.intentions[i]? = some θ)
    {holon : String} {k : Option ℕ} {rest : List Item}
    (hagenda : θ.agenda = .inr (.sendSuspend holon k) :: rest)
    (hC : s.WindowsApart (.move i x)) : WindowInvariant (s.move r i x) := by
  have hview : (s.move r i x).view
      = { s.view with sent := (k.map fun k => (holon, k)).toList ++ s.sent } := by
    rw [move_eq hi (h.holds.agendas.settled hi), hagenda]
    rfl
  have hA := h.holds.agendas.get hi
  cases k with
  | none =>
    have hsame : (s.move r i x).view = s.view := hview
    refine h.of_move hi hsame h.accounted h.sent (fun _ _ h => h) (fun _ _ h => h) ⟨?_, ?_⟩ ?_
    · apply advance_number hA.1
      intro target rest' hagenda'
      rw [hagenda] at hagenda'
      cases (List.cons.inj hagenda').1
    · intro hwindow
      apply advance_guarded (hA.2 hwindow) <;> simp [hagenda]
    · intro key ttl k' rest' hagenda'
      rw [hagenda] at hagenda'
      cases (List.cons.inj hagenda').1
  | some k =>
    obtain ⟨hguarded, htimers, hevents⟩ : (∀ θ' ∈ s.agent.intentions, guarded θ'.agenda) ∧
        (∀ u ∈ s.timers ++ s.signals, u.key ≠ .gridResumePoll) ∧
        ∀ e ∈ s.agent.events, ¬ e.2.resumes := by
      have hC' := hC θ hi
      rw [hagenda] at hC'
      exact hC'
    have hk : k < s.initiated := by
      apply hA.1 (.inr (.sendSuspend holon (some k)))
      · rw [hagenda]
        exact List.mem_cons_self
      · rfl
    refine h.of_move hi hview h.accounted ?_ ?_ ?_ ⟨?_, fun _ => ?_⟩ ?_
    · intro p hp
      rcases List.mem_cons.mp hp with rfl | hp
      · exact hk
      · exact h.sent p hp
    · rintro t ht hE
      refine ⟨hE.1, hE.2.1, fun _ => ?_⟩
      rcases ht with ht | ⟨u, hu, rfl⟩
      · exact hevents _ ht
      · have hkey := htimers u hu
        intro hresumes
        cases hu' : u.key with
        | gridResumePoll => exact hkey hu'
        | _ =>
          rw [hu'] at hresumes
          cases hresumes
    · exact fun θ' hθ' hl => ⟨hl.1, fun _ => hguarded θ' hθ'⟩
    · apply advance_number hA.1
      intro target rest' hagenda'
      rw [hagenda] at hagenda'
      cases (List.cons.inj hagenda').1
    · apply advance_guarded (hguarded θ (List.mem_of_getElem? hi)) <;> simp [hagenda]
    · intro key ttl k' rest' hagenda'
      rw [hagenda] at hagenda'
      cases (List.cons.inj hagenda').1

/-- A move. -/
theorem windowInvariant_move (h : WindowInvariant s) (hC : s.WindowsApart (.move i x)) :
    WindowInvariant (s.move r i x) := by
  cases hi : s.agent.intentions[i]? with
  | none =>
    rw [move, hi]
    exact h
  | some θ =>
    by_cases hhead : ∀ stmt rest, θ.agenda = .inr stmt :: rest → ¬ transits stmt
    · exact windowInvariant_same h hi hhead hC
    · push Not at hhead
      obtain ⟨stmt, rest, hagenda, htransits⟩ := hhead
      cases stmt with
      | initiateTransition target => exact windowInvariant_initiate h hi hagenda hC
      | commitTransition k => exact windowInvariant_commit h hi hagenda
      | sendSuspend holon k => exact windowInvariant_suspend h hi hagenda hC
      | _ => cases htransits

/-- **One operation.** -/
theorem windowInvariant_exec {op : SupervisionOp} (h : WindowInvariant s) (hC : s.WindowsApart op) :
    WindowInvariant (s.exec r op) := by
  by_cases hop : ∀ i x, op ≠ .move i x
  · -- a committed transition may be forgotten
    have hsame : WindowEvent (s.exec r op).view = WindowEvent s.view ∧
        WindowAgenda (s.exec r op).view = WindowAgenda s.view ∧ Accounted (s.exec r op).view ∧
        (s.exec r op).view.sent = s.sent ∧ (s.exec r op).view.initiated = s.initiated := by
      rcases exec_view_surroundings (r := r) (s := s) hop with hview | hview <;> rw [hview]
      · exact ⟨rfl, rfl, h.accounted, rfl, rfl⟩
      · exact ⟨rfl, rfl, accounted_filter h.accounted, rfl, rfl⟩
    obtain ⟨hE, hP, haccounted, hsent, hinitiated⟩ := hsame
    refine ⟨haccounted, ?_, ?_⟩
    · have hbound : ∀ p ∈ (s.exec r op).view.sent, p.2 < (s.exec r op).view.initiated := by
        rw [hsent, hinitiated]
        exact h.sent
      exact hbound
    · rw [hE, hP]
      refine h.holds.surroundings hop (fun t ht => ?_) fun _ t hunder ht body hbody => ⟨?_, ?_⟩
      · exact windowEvent_report ht
      · intro y hy k hk
        obtain ⟨stmt, hstmt, rfl⟩ := List.mem_map.mp hy
        exact ht.2.1 k (plan_number hbody stmt hstmt k hk)
      · intro hwindow
        refine plan_guarded (ht.2.2 hwindow) ?_ hbody
        rintro rfl
        cases ht.1
  · push Not at hop
    obtain ⟨i, x, rfl⟩ := hop
    exact windowInvariant_move h hC

/-- Before a commit no agenda begins with a resumption. -/
theorem resumesCommitted_of_invariant (h : WindowInvariant s) (op : SupervisionOp) :
    s.ResumesCommitted op := by
  cases op with
  | move i x =>
    intro θ hθ
    split
    · next holon rest hagenda =>
      intro p hp _
      by_contra hopen
      have hA := (h.holds.agendas.get hθ).2 ⟨p, hp, hopen⟩
      rw [hagenda] at hA
      cases hA
    · trivial
  | _ => trivial

/-! ## Runs -/

/-- **No holon is resumed before the commit.**  In every run in which a transition begins
while none is open, Phase 1 suspends holons while no poll of the grid is armed and nothing but
a commit leads to a resumption, and no suspension because of a saturated grid begins before
the commit, no holon is sent `resume_intention` between its suspension by a transition and the
commit of that transition. -/
theorem resumesCommitted_along (r : Roster) (adacorEnabled : Bool) {ops : List SupervisionOp}
    (hops : Runs.Along (exec r) WindowsApart (start adacorEnabled) ops) :
    Runs.Along (exec r) ResumesCommitted (start adacorEnabled) ops := by
  have hstart : WindowInvariant (start adacorEnabled) := by
    refine ⟨fun k hk => ?_, fun p hp => ?_, fun t ht => ?_, fun θ hθ => ?_⟩
    · cases hk
    · cases hp
    · rcases ht with ht | ⟨u, hu, -⟩
      · cases List.mem_singleton.mp ht
        refine ⟨rfl, fun k hk => ?_, fun _ => Bool.false_ne_true⟩
        cases hk
      · cases hu
    · cases hθ
  have hrun := Runs.Along.and_invariant (I := WindowInvariant)
    (fun _ _ h hC => windowInvariant_exec h hC) hstart hops
  exact hrun.imp fun _ op h => resumesCommitted_of_invariant h.1 op

theorem resumesCommitted_transition :
    (Runs.run (exec twoOrders) (startedRun ++ transitionRun 1 ++ commitRun 1)
        (start true)).committed = [0] ∧
      Runs.Along (exec twoOrders) ResumesCommitted (start true)
        (startedRun ++ transitionRun 1 ++ commitRun 1) :=
  ⟨by decide +kernel, resumesCommitted_along twoOrders true (by decide)⟩

/-- The grid is saturated, and its poll is armed when a transition begins.  After Phase 1 has
suspended the holons the poll finds the grid free and resumes them all. -/
theorem not_resumesCommitted :
    ¬ ∀ (r : Roster) (adacorEnabled : Bool) (ops : List SupervisionOp),
      Runs.Along (exec r) ResumesCommitted (start adacorEnabled) ops := by
  intro h
  have := h twoOrders true (startedRun ++ saturatedRun 1 [] ++ transitionRun 2 ++
    [.expire 0, .signal 0, .select] ++ List.replicate 6 (.move 3 {}))
  exact absurd this (by decide +kernel)

end Supervision

end MatrixFactory
