/-
# The list of suspended holons

The supervisor keeps the holons that it has suspended in one belief, `suspended_holons`.
Phase 1 and the reaction to a saturated grid overwrite it before they send
`suspend_intentions`; a resumption sends `resume_intention` to its elements and empties it at
the end.  So the list should hold every holon that was sent `suspend_intentions` and not since
`resume_intention`.

It does if a suspension keeps the elements of the list, and suspensions and resumptions do not
overlap.
-/
import MatrixFactory.Supervision

namespace MatrixFactory

open AgentSpeak

/-- The newest value of `suspended_holons`. -/
def SupervisorBeliefs.suspended (b : SupervisorBeliefs) : List String :=
  b.suspendedHolons.head?.getD []

namespace Supervision

/-! ## Suspensions and resumptions -/

/-- A statement or goal that sends suspensions. -/
def isSend : Item → Bool
  | .inl (.sendSuspendToAll _ _) | .inr (.achieve (.sendSuspendToAll _ _))
  | .inr (.sendSuspend _ _) => true
  | _ => false

/-- The holons to which it sends them. -/
def targets : Item → List String
  | .inl (.sendSuspendToAll holons _) | .inr (.achieve (.sendSuspendToAll holons _)) => holons
  | .inr (.sendSuspend h _) => [h]
  | _ => []

/-- What remains when a suspension that has not begun is left out. -/
def begun : List Item → List Item
  | .inr (.setSuspendedHolons _) :: _ :: rest => rest
  | l => l

/-- The condition on an operation: the belief is initialised before the first suspension; a
suspension begins with a list that contains the suspended holons, and while no resumption is
under way; and a resumption begins while no suspensions are being sent. -/
def SuspensionsApart (s : Supervision) : SupervisionOp → Prop
  | .move i _ => ∀ θ ∈ s.agent.intentions[i]?,
    match θ.agenda with
    | .inr (.addSuspendedHolons _) :: _ => (s.agent.beliefs ()).suspendedHolons = []
    | .inr (.setSuspendedHolons holons) :: _ => (∀ h ∈ (s.agent.beliefs ()).suspended, h ∈ holons) ∧
      ∀ θ' ∈ s.agent.intentions, ∀ y ∈ θ'.agenda, y ≠ .inr .clearSuspendedHolons
    | .inl .resumeSuspendedHolons :: _ =>
      ∀ θ' ∈ s.agent.intentions, ¬ (begun θ'.agenda).any isSend
    | _ => True
  | _ => True

instance (s : Supervision) (op : SupervisionOp) : Decidable (s.SuspensionsApart op) :=
  match op with
  | .move i _ =>
    have (l : Agenda) : Decidable (match l with
        | .inr (.addSuspendedHolons _) :: _ => (s.agent.beliefs ()).suspendedHolons = []
        | .inr (.setSuspendedHolons holons) :: _ =>
          (∀ h ∈ (s.agent.beliefs ()).suspended, h ∈ holons) ∧
          ∀ θ' ∈ s.agent.intentions, ∀ y ∈ θ'.agenda, y ≠ .inr .clearSuspendedHolons
        | .inl .resumeSuspendedHolons :: _ =>
          ∀ θ' ∈ s.agent.intentions, ¬ (begun θ'.agenda).any isSend
        | _ => True) := by
      split <;> infer_instance
    inferInstanceAs (Decidable (∀ θ ∈ s.agent.intentions[i]?, _))
  | .select | .expire _ | .signal _ | .energyPriceSpike _ | .energyPriceNormal _ | .suspendAck _
  | .transportBlocked _ _ | .clearCommittedTransition => .isTrue trivial

/-! ## Agendas -/

/-- A goal or statement that neither suspends, nor announces suspensions, nor empties the
list. -/
def plain : Item → Bool
  | .inr (.setSuspendedHolons _) | .inr .clearSuspendedHolons => false
  | y => !isSend y

/-- What holds of an agenda: a list is announced just before the suspensions are sent to it;
the suspensions that are being sent go to holons of the list; a resumption goes through all
frozen holons before it empties the list; and only one of the two is under way. -/
structure SuspensionAgenda (resuming : Bool) (suspended frozen : List String) (l : List Item) :
    Prop where
  targets : ∀ y ∈ begun l, targets y ⊆ suspended
  announced : ∀ holons y rest, l = .inr (.setSuspendedHolons holons) :: y :: rest →
    Supervision.targets y ⊆ holons
  tail : ∀ holons, .inr (.setSuspendedHolons holons) ∉ l.tail
  sending : (begun l).any isSend → resuming = false
  clearing : .inr .clearSuspendedHolons ∈ l → resuming = true ∧ ∃ (holons : List String) (rest : _),
    l = holons.map (fun h => .inr (.sendResume h)) ++ .inr .clearSuspendedHolons :: rest ∧
      frozen ⊆ holons ∧ .inr .clearSuspendedHolons ∉ rest

section

variable {resuming resuming' : Bool} {suspended suspended' frozen frozen' : List String}
  {l rest code : List Item} {y : Item}

theorem targets_of_not_send (h : ¬ isSend y) : targets y = [] := by
  unfold isSend at h
  unfold targets
  split at h <;> first | rfl | exact absurd rfl h

theorem targets_of_plain (h : plain y) : targets y = [] ∧ isSend y = false := by
  have hsend : isSend y = false := by
    unfold plain at h
    split at h
    · cases h
    · cases h
    · simpa using h
  exact ⟨targets_of_not_send (by rw [hsend]; exact Bool.false_ne_true), hsend⟩

theorem begun_of_head (h : ∀ holons, l.head? ≠ some (.inr (.setSuspendedHolons holons))) :
    begun l = l := by
  unfold begun
  split
  · exact absurd rfl (h _)
  · rfl

theorem begun_of_tail (h : ∀ holons, .inr (.setSuspendedHolons holons) ∉ l) : begun l = l := by
  apply begun_of_head
  intro holons hl
  exact h holons (List.mem_of_mem_head? hl)

/-- Only a resumption has the list emptied ahead. -/
theorem SuspensionAgenda.not_clearing
    (h : SuspensionAgenda resuming suspended frozen (y :: rest))
    (hy : ∀ h, y ≠ .inr (.sendResume h)) (hclear : y ≠ .inr .clearSuspendedHolons) :
    .inr .clearSuspendedHolons ∉ y :: rest := by
  intro hmem
  obtain ⟨-, holons, rest', heq, -⟩ := h.clearing hmem
  cases holons with
  | nil =>
    rw [List.map_nil, List.nil_append] at heq
    exact hclear (List.cons.inj heq).1
  | cons h' holons =>
    rw [List.map_cons, List.cons_append] at heq
    exact hy h' (List.cons.inj heq).1

/-- An item that may take the place of `y`: it neither announces suspensions nor empties the
list, and it suspends holons of the list, if `y` does. -/
def Follows (suspended : List String) (y z : Item) : Prop :=
  (∀ holons, z ≠ .inr (.setSuspendedHolons holons)) ∧ z ≠ .inr .clearSuspendedHolons ∧
    Supervision.targets z ⊆ suspended ∧ (isSend z → isSend y)

theorem follows_of_plain {z : Item} (h : plain z) : Follows suspended y z := by
  obtain ⟨htargets, hsend⟩ := targets_of_plain h
  refine ⟨?_, ?_, ?_, ?_⟩
  · rintro holons rfl
    cases h
  · rintro rfl
    cases h
  · rw [htargets]
    exact List.nil_subset _
  · rw [hsend]
    intro h
    cases h

/-- The head of an agenda gives way to items that follow it. -/
theorem SuspensionAgenda.replace (code : List Item)
    (h : SuspensionAgenda resuming suspended frozen (y :: rest))
    (hset : ∀ holons, y ≠ .inr (.setSuspendedHolons holons))
    (hclear : .inr .clearSuspendedHolons ∉ rest) (hcode : ∀ z ∈ code, Follows suspended y z) :
    SuspensionAgenda resuming suspended frozen' (code ++ rest) := by
  have hno : ∀ holons, .inr (.setSuspendedHolons holons) ∉ code ++ rest := by
    intro holons hmem
    rcases List.mem_append.mp hmem with hmem | hmem
    · exact (hcode _ hmem).1 holons rfl
    · exact h.tail holons hmem
  have hbegun : begun (y :: rest) = y :: rest := by
    apply begun_of_head
    intro holons hl
    exact hset holons (Option.some_inj.mp hl)
  have htargets := h.targets
  have hsending := h.sending
  rw [hbegun] at htargets hsending
  constructor
  · rw [begun_of_tail hno]
    intro z hz
    rcases List.mem_append.mp hz with hz | hz
    · exact (hcode z hz).2.2.1
    · exact htargets z (List.mem_cons_of_mem y hz)
  · intro holons z rest' heq
    exact absurd (heq ▸ List.mem_cons_self) (hno holons)
  · exact fun holons hmem => hno holons (List.mem_of_mem_tail hmem)
  · rw [begun_of_tail hno, List.any_append, Bool.or_eq_true]
    rintro (hany | hany)
    · obtain ⟨z, hz, hsend⟩ := List.any_eq_true.mp hany
      apply hsending
      rw [List.any_cons, (hcode z hz).2.2.2 hsend, Bool.true_or]
    · apply hsending
      rw [List.any_cons, hany, Bool.or_true]
  · intro hmem
    rcases List.mem_append.mp hmem with hmem | hmem
    · exact absurd rfl (hcode _ hmem).2.1
    · exact absurd hmem hclear

/-- A suspension is announced. -/
theorem SuspensionAgenda.announce (h : SuspensionAgenda resuming suspended frozen (y :: rest))
    (hset : ∀ holons, y ≠ .inr (.setSuspendedHolons holons))
    (hclear : .inr .clearSuspendedHolons ∉ rest) (hcode : ∀ z ∈ code, plain z)
    (holons : List String) (k : Option ℕ) :
    SuspensionAgenda resuming suspended frozen (.inr (.setSuspendedHolons holons) ::
      .inr (.achieve (.sendSuspendToAll holons k)) :: (code ++ rest)) := by
  have hafter : SuspensionAgenda resuming suspended frozen (code ++ rest) :=
    h.replace code hset hclear fun z hz => follows_of_plain (hcode z hz)
  have hno : ∀ l, .inr (.setSuspendedHolons l) ∉ code ++ rest := by
    intro l hmem
    rcases List.mem_append.mp hmem with hmem | hmem
    · cases hcode _ hmem
    · exact h.tail l hmem
  have htargets := hafter.targets
  have hsending := hafter.sending
  rw [begun_of_tail hno] at htargets hsending
  constructor
  · exact htargets
  · intro l z rest' heq
    obtain ⟨hl, hz⟩ := List.cons.inj heq
    cases hl
    rw [← (List.cons.inj hz).1]
    exact List.Subset.refl _
  · intro l hmem
    rcases List.mem_cons.mp hmem with hmem | hmem
    · cases hmem
    · exact hno l hmem
  · exact hsending
  · intro hmem
    have hmem' : .inr .clearSuspendedHolons ∈ code ++ rest := by simpa using hmem
    rcases List.mem_append.mp hmem' with hmem' | hmem'
    · cases hcode _ hmem'
    · exact absurd hmem' hclear

/-- A resumption begins with a list of all frozen holons, while nothing is sent. -/
theorem SuspensionAgenda.resume
    (h : SuspensionAgenda resuming suspended frozen (.inl .resumeSuspendedHolons :: rest))
    (hquiet : ¬ (begun (.inl .resumeSuspendedHolons :: rest)).any isSend)
    {holons : List String} (hfrozen : frozen ⊆ holons) :
    SuspensionAgenda true suspended frozen
      (holons.map (fun h => .inr (.sendResume h)) ++ .inr .clearSuspendedHolons :: rest) := by
  have hno : ∀ l, Sum.inr (SupervisorStmt.setSuspendedHolons l)
      ∉ holons.map (fun h => (Sum.inr (.sendResume h) : Item))
        ++ .inr .clearSuspendedHolons :: rest := by
    intro l hmem
    rcases List.mem_append.mp hmem with hmem | hmem
    · obtain ⟨h', -, heq⟩ := List.mem_map.mp hmem
      cases heq
    · rcases List.mem_cons.mp hmem with heq | hmem
      · cases heq
      · exact h.tail l hmem
  rw [begun_of_head (by simp), List.any_cons, Bool.or_eq_true, not_or, Bool.not_eq_true,
    Bool.not_eq_true] at hquiet
  have hsend : ((holons.map (fun h => (Sum.inr (.sendResume h) : Item))
      ++ .inr .clearSuspendedHolons :: rest).any isSend) = false := by
    rw [List.any_append, List.any_cons, hquiet.2, List.any_map]
    simp [isSend]
  constructor
  · rw [begun_of_tail hno]
    intro y hy
    rw [targets_of_not_send (List.any_eq_false.mp hsend y hy)]
    exact List.nil_subset _
  · intro l y rest' heq
    exact absurd (heq ▸ List.mem_cons_self) (hno l)
  · exact fun l hmem => hno l (List.mem_of_mem_tail hmem)
  · rw [begun_of_tail hno, hsend]
    intro h
    cases h
  · intro _
    refine ⟨rfl, holons, rest, rfl, hfrozen, fun hmem => ?_⟩
    exact h.not_clearing (by simp) (by simp) (List.mem_cons_of_mem _ hmem)

/-- The agendas of the others, when the list changes and no suspension or resumption
begins. -/
theorem SuspensionAgenda.imp (h : SuspensionAgenda resuming suspended frozen l)
    (hsuspended : ∀ y ∈ begun l, Supervision.targets y ⊆ suspended')
    (hsending : (begun l).any isSend → resuming' = false)
    (hclearing : .inr .clearSuspendedHolons ∈ l → resuming' = true ∧ frozen' ⊆ frozen) :
    SuspensionAgenda resuming' suspended' frozen' l where
  targets := hsuspended
  announced := h.announced
  tail := h.tail
  sending := hsending
  clearing hmem := by
    obtain ⟨-, holons, rest, heq, hfrozen, hrest⟩ := h.clearing hmem
    obtain ⟨hresuming, hless⟩ := hclearing hmem
    exact ⟨hresuming, holons, rest, heq, fun _ hx => hfrozen (hless hx), hrest⟩

end

/-- The plan for an event, and for most goals, is plain. -/
theorem plan_plain {r : Roster} {b : SupervisorBeliefs} {t : SupervisorTrigger}
    (hsend : ∀ holons k, t ≠ .sendSuspendToAll holons k) (hresume : t ≠ .resumeSuspendedHolons)
    {body : List SupervisorStmt} (h : SupervisorAgent.plan r () b t = some body) :
    ∀ y ∈ body.map Sum.inr, plain y := by
  have hcons : ∀ l : List SupervisorStmt, (l.all fun stmt => plain (.inr stmt)) →
      ∀ y ∈ l.map Sum.inr, plain y := by
    intro l hl y hy
    obtain ⟨stmt, hstmt, rfl⟩ := List.mem_map.mp hy
    exact List.all_eq_true.mp hl stmt hstmt
  apply hcons
  cases t with
  | sendSuspendToAll holons k => exact absurd rfl (hsend holons k)
  | resumeSuspendedHolons => exact absurd rfl hresume
  | energyPriceSpike price =>
    simp only [SupervisorAgent.plan] at h
    split at h
    · cases h
      rfl
    · split at h <;> cases h
      rfl
  | energyPriceNormal price =>
    simp only [SupervisorAgent.plan] at h
    split at h
    · cases h
      rfl
    · split at h <;> cases h
      rfl
  | abortAllLocks locks =>
    cases locks <;> cases h <;> rfl
  | awaitPhase1Acks pending k =>
    cases pending <;> cases h <;> rfl
  | doCommit k =>
    simp only [SupervisorAgent.plan] at h
    split at h <;> cases h
    rfl
  | transportBlocked m =>
    simp only [SupervisorAgent.plan] at h
    split at h <;> cases h
    rfl
  | checkGridResume =>
    simp only [SupervisorAgent.plan] at h
    split at h
    · cases h
      rfl
    · split at h <;> cases h
      rfl
  | timerExpired key k => cases key <;> cases h <;> rfl
  | _ =>
    cases h
    rfl

/-- The statements that neither pursue a goal, nor change the list, nor suspend or resume. -/
def ordinary : SupervisorStmt → Bool
  | .achieve _ | .addSuspendedHolons _ | .setSuspendedHolons _ | .clearSuspendedHolons
  | .queryActiveHolons _ | .findLowPriority | .sendSuspend _ _ | .sendResume _ => false
  | _ => true

/-- What an ordinary statement comes to: the list stays, nothing is suspended or resumed, and
the statements that follow are plain. -/
def OrdinaryOutcome (b : SupervisorBeliefs) :
    Outcome SupervisorBeliefs SupervisorTrigger SupervisorStmt SupervisorAction → Prop
  | .next b' code acts => b'.suspendedHolons = b.suspendedHolons ∧
    (∀ y ∈ code, plain (.inr y)) ∧ ∀ s : Supervision, (Runs.run act acts s).frozen = s.frozen
  | .subgoal _ => False
  | .drop _ => True
  | .blocked => True
  | .failed acts => acts = []

theorem exec_ordinary {b : SupervisorBeliefs} {stmt : SupervisorStmt} (h : ordinary stmt)
    (x : SupervisorInput) : OrdinaryOutcome b (SupervisorAgent.exec () b stmt x) := by
  cases stmt with
  | achieve | addSuspendedHolons | setSuspendedHolons | clearSuspendedHolons | queryActiveHolons
  | findLowPriority | sendSuspend | sendResume => cases h
  | ifDrained k =>
    simp only [SupervisorAgent.exec]
    split <;> exact ⟨rfl, by simp [plain, isSend], fun _ => rfl⟩
  | waitSuspendAck pending k =>
    simp only [SupervisorAgent.exec]
    split
    · exact ⟨rfl, by simp [plain, isSend], fun _ => rfl⟩
    · trivial
  | ifPendingRevert =>
    simp only [SupervisorAgent.exec]
    split <;> exact ⟨rfl, by simp [plain, isSend], fun _ => rfl⟩
  | ifSaturated =>
    simp only [SupervisorAgent.exec]
    split <;> exact ⟨rfl, by simp [plain, isSend], fun _ => rfl⟩
  | ifNormal =>
    simp only [SupervisorAgent.exec]
    split <;> exact ⟨rfl, by simp [plain, isSend], fun _ => rfl⟩
  | commitTransition k =>
    refine ⟨rfl, by simp, fun s => ?_⟩
    simp only [Runs.run_cons, Runs.run_nil, act, commitTransition]
    split
    · rfl
    · split <;> rfl
  | dropAwaitPhase1Acks => trivial
  | _ => exact ⟨rfl, by simp [plain, isSend], fun _ => rfl⟩

/-! ## One operation -/

/-- Every frozen holon is in the list. -/
structure FrozenKnown (s : Supervision) : Prop where
  known : s.frozen ⊆ (s.agent.beliefs ()).suspended
  one : (s.agent.beliefs ()).suspendedHolons.length ≤ 1
  agendas : ∃ resuming, s.Holds (fun t => isEvent t)
    (SuspensionAgenda resuming (s.agent.beliefs ()).suspended s.frozen)

theorem suspended_replace {b : SupervisorBeliefs} (hone : b.suspendedHolons.length ≤ 1)
    (holons : List String) : replaceBelief holons b.suspendedHolons = [holons] := by
  have htail : b.suspendedHolons.tail = [] := by
    apply List.eq_nil_of_length_eq_zero
    rw [List.length_tail]
    omega
  rw [replaceBelief, htail]
  rfl

@[simp] theorem enter_frozen (g : Option SupervisorTrigger) (s : Supervision) :
    (enter g s).frozen = s.frozen := by
  unfold enter
  split <;> rfl

variable {r : Roster} {s : Supervision} {i : ℕ} {x : SupervisorInput}
  {θ : Intention Unit SupervisorTrigger SupervisorStmt} {resuming : Bool}

/-- A move of intention `i` after which the list is `l` and the frozen holons are
`frozen`. -/
theorem FrozenKnown.of_move (resuming' : Bool) (l : List (List String)) (frozen : List String)
    (h : s.Holds (fun t => isEvent t)
      (SuspensionAgenda resuming (s.agent.beliefs ()).suspended s.frozen))
    (hi : s.agent.intentions[i]? = some θ)
    (hlist : ((SupervisorAgent.program r).effect (s.input x) () (s.agent.beliefs ())
      θ.agenda).1.suspendedHolons = l)
    (hfrozen : (Runs.run act ((SupervisorAgent.program r).effect (s.input x) ()
      (s.agent.beliefs ()) θ.agenda).2 (enter (goalOf θ.agenda) { s with
        agent := s.agent.apply i ((SupervisorAgent.program r).move (s.input x)
          (s.agent.beliefs ()) θ) })).frozen = frozen)
    (hknown : frozen ⊆ l.head?.getD []) (hone : l.length ≤ 1)
    (hothers : ∀ θ' ∈ s.agent.intentions,
      SuspensionAgenda resuming (s.agent.beliefs ()).suspended s.frozen θ'.agenda →
      SuspensionAgenda resuming' (l.head?.getD []) frozen θ'.agenda)
    (hmove : SuspensionAgenda resuming' (l.head?.getD []) frozen
      ((SupervisorAgent.program r).advance (s.input x) () (s.agent.beliefs ()) θ.agenda)) :
    FrozenKnown (s.move r i x) := by
  have hsettled := h.agendas.settled hi
  have hl : ((s.move r i x).agent.beliefs ()).suspendedHolons = l := by
    rw [move_beliefs hi hsettled, hlist]
  have hf : (s.move r i x).frozen = frozen := by
    rw [move_eq hi hsettled, hfrozen]
  have hsuspended : ((s.move r i x).agent.beliefs ()).suspended = l.head?.getD [] := by
    rw [SupervisorBeliefs.suspended, hl]
  refine ⟨?_, by rw [hl]; exact hone, resuming', ?_⟩
  · rw [hf, hsuspended]
    exact hknown
  · rw [hsuspended, hf]
    exact h.move hi (fun _ _ h => h)
      (fun j θ' hj _ => hothers θ' (List.mem_of_getElem? hj)) (fun _ => hmove)
      (fun _ _ _ _ => rfl)

theorem suspensionAgenda_nil {suspended frozen : List String} :
    SuspensionAgenda resuming suspended frozen [] := by
  constructor <;> simp [begun]

/-- A move that leaves the list and the frozen holons. -/
theorem FrozenKnown.of_same (h : FrozenKnown s) (hi : s.agent.intentions[i]? = some θ)
    (hlist : ((SupervisorAgent.program r).effect (s.input x) () (s.agent.beliefs ())
      θ.agenda).1.suspendedHolons = (s.agent.beliefs ()).suspendedHolons)
    (hfrozen : ∀ s' : Supervision, (Runs.run act ((SupervisorAgent.program r).effect (s.input x)
      () (s.agent.beliefs ()) θ.agenda).2 s').frozen = s'.frozen)
    (hmove : ∀ resuming, SuspensionAgenda resuming (s.agent.beliefs ()).suspended s.frozen
        θ.agenda →
      SuspensionAgenda resuming (s.agent.beliefs ()).suspended s.frozen
        ((SupervisorAgent.program r).advance (s.input x) () (s.agent.beliefs ()) θ.agenda)) :
    FrozenKnown (s.move r i x) := by
  obtain ⟨hknown, hone, resuming, hall⟩ := h
  refine .of_move resuming _ _ hall hi hlist ?_ hknown hone (fun _ _ h => h) ?_
  · rw [hfrozen, enter_frozen]
  · exact hmove resuming (hall.agendas.get hi)

/-- The plan of a goal other than a resumption follows it. -/
theorem goal_follows {g : SupervisorTrigger} {suspended frozen : List String} {rest : List Item}
    (hA : SuspensionAgenda resuming suspended frozen (.inl g :: rest))
    (hresume : g ≠ .resumeSuspendedHolons) {b : SupervisorBeliefs} {body : List SupervisorStmt}
    (hplan : SupervisorAgent.plan r () b g = some body) :
    ∀ z ∈ body.map Sum.inr, Follows suspended (.inl g) z := by
  by_cases hsend : ∃ holons k, g = .sendSuspendToAll holons k
  · obtain ⟨holons, k, rfl⟩ := hsend
    have htargets : holons ⊆ suspended := hA.targets (.inl (.sendSuspendToAll holons k)) (by
      rw [begun_of_head (by simp)]
      exact List.mem_cons_self)
    cases holons with
    | nil =>
      cases hplan
      simp
    | cons h holons =>
      cases hplan
      obtain ⟨hhead, htail⟩ := List.cons_subset.mp htargets
      intro z hz
      simp only [List.map_cons, List.map_nil, List.mem_cons, List.not_mem_nil, or_false] at hz
      rcases hz with rfl | rfl
      · exact ⟨by simp, by simp, by simpa [targets] using hhead, fun _ => rfl⟩
      · exact ⟨by simp, by simp, htail, fun _ => rfl⟩
  · intro z hz
    exact follows_of_plain (plan_plain (fun l k heq => hsend ⟨l, k, heq⟩) hresume hplan z hz)

/-- The answer to a goal. -/
theorem frozenKnown_goal (h : FrozenKnown s) (hi : s.agent.intentions[i]? = some θ)
    {g : SupervisorTrigger} {rest : List Item} (hagenda : θ.agenda = .inl g :: rest)
    (hC : s.SuspensionsApart (.move i x)) : FrozenKnown (s.move r i x) := by
  by_cases hresume : g = .resumeSuspendedHolons ∧ (s.agent.beliefs ()).suspendedHolons ≠ []
  · obtain ⟨rfl, hne⟩ := hresume
    obtain ⟨holons, older, hlist⟩ := List.exists_cons_of_ne_nil hne
    obtain ⟨hknown, hone, resuming, hall⟩ := h
    have hquiet : ∀ θ' ∈ s.agent.intentions, ¬ (begun θ'.agenda).any isSend := by
      have hC' := hC θ hi
      rw [hagenda] at hC'
      exact hC'
    refine .of_move true _ _ hall hi ?_ ?_ hknown hone ?_ ?_
    · rw [hagenda]
      rfl
    · rw [hagenda]
      exact enter_frozen _ _
    · intro θ' hθ' hA'
      exact hA'.imp hA'.targets (fun hany => absurd hany (hquiet θ' hθ'))
        fun _ => ⟨rfl, fun _ h => h⟩
    · have hA := hall.agendas.get hi
      have hself := hquiet θ (List.mem_of_getElem? hi)
      rw [hagenda] at hA hself ⊢
      have hadvance : (SupervisorAgent.program r).advance (s.input x) () (s.agent.beliefs ())
          (.inl .resumeSuspendedHolons :: rest) = holons.map (fun h => Sum.inr (.sendResume h))
            ++ .inr .clearSuspendedHolons :: rest := by
        simp [Program.advance, SupervisorAgent.program, SupervisorAgent.plan, hlist]
      rw [hadvance]
      refine hA.resume hself ?_
      simpa [SupervisorBeliefs.suspended, hlist] using hknown
  · apply h.of_same hi
    · rw [hagenda]
      rfl
    · rw [hagenda]
      exact fun _ => rfl
    · rw [hagenda]
      intro resuming hA
      cases hplan : SupervisorAgent.plan r () (s.agent.beliefs ()) g with
      | none =>
        have hadvance : (SupervisorAgent.program r).advance (s.input x) () (s.agent.beliefs ())
            (.inl g :: rest) = [] := by
          simp [Program.advance, SupervisorAgent.program, hplan]
        rw [hadvance]
        exact suspensionAgenda_nil
      | some body =>
        have hadvance : (SupervisorAgent.program r).advance (s.input x) () (s.agent.beliefs ())
            (.inl g :: rest) = body.map Sum.inr ++ rest := by
          simp [Program.advance, SupervisorAgent.program, hplan]
        have hother : g ≠ .resumeSuspendedHolons := by
          rintro rfl
          apply hresume
          refine ⟨rfl, fun hnil => ?_⟩
          rw [SupervisorAgent.plan, hnil] at hplan
          cases hplan
        rw [hadvance]
        refine hA.replace _ (by simp) (fun hmem => ?_) (goal_follows hA hother hplan)
        exact hA.not_clearing (by simp) (by simp) (List.mem_cons_of_mem _ hmem)

/-- An ordinary statement. -/
theorem frozenKnown_ordinary (h : FrozenKnown s) (hi : s.agent.intentions[i]? = some θ)
    {stmt : SupervisorStmt} {rest : List Item} (hagenda : θ.agenda = .inr stmt :: rest)
    (hstmt : ordinary stmt) : FrozenKnown (s.move r i x) := by
  have hexec := exec_ordinary (b := s.agent.beliefs ()) hstmt (s.input x)
  have hset : ∀ holons, (.inr stmt : Item) ≠ .inr (.setSuspendedHolons holons) := by
    rintro holons heq
    cases heq
    cases hstmt
  have hclear : ∀ {resuming}, SuspensionAgenda resuming (s.agent.beliefs ()).suspended s.frozen
      (.inr stmt :: rest) → .inr .clearSuspendedHolons ∉ rest := by
    intro resuming hA hmem
    refine hA.not_clearing ?_ ?_ (List.mem_cons_of_mem _ hmem)
    · rintro h heq
      cases heq
      cases hstmt
    · rintro heq
      cases heq
      cases hstmt
  apply h.of_same hi <;> rw [hagenda]
  · simp only [Program.effect, SupervisorAgent.program]
    cases hout : SupervisorAgent.exec () (s.agent.beliefs ()) stmt (s.input x) with
    | next b' code acts =>
      rw [hout] at hexec
      exact hexec.1
    | _ => rfl
  · intro s'
    simp only [Program.effect, SupervisorAgent.program]
    cases hout : SupervisorAgent.exec () (s.agent.beliefs ()) stmt (s.input x) with
    | next b' code acts =>
      rw [hout] at hexec
      exact hexec.2.2 s'
    | failed acts =>
      rw [hout] at hexec
      rw [hexec]
      rfl
    | _ => rfl
  · intro resuming hA
    simp only [Program.advance, SupervisorAgent.program]
    cases hout : SupervisorAgent.exec () (s.agent.beliefs ()) stmt (s.input x) with
    | next b' code acts =>
      rw [hout] at hexec
      refine hA.replace _ hset (hclear hA) fun z hz => ?_
      obtain ⟨stmt', hstmt', rfl⟩ := List.mem_map.mp hz
      exact follows_of_plain (hexec.2.1 stmt' hstmt')
    | subgoal g =>
      rw [hout] at hexec
      cases hexec
    | drop goals => exact hA.replace [] hset (hclear hA) (by simp)
    | blocked => exact hA
    | failed acts => exact suspensionAgenda_nil

/-- A goal is pursued. -/
theorem frozenKnown_achieve (h : FrozenKnown s) (hi : s.agent.intentions[i]? = some θ)
    {g : SupervisorTrigger} {rest : List Item} (hagenda : θ.agenda = .inr (.achieve g) :: rest) :
    FrozenKnown (s.move r i x) := by
  apply h.of_same hi <;> rw [hagenda]
  · rfl
  · exact fun _ => rfl
  · intro resuming hA
    refine hA.replace [.inl g] (by simp) (fun hmem => ?_) fun z hz => ?_
    · exact hA.not_clearing (by simp) (by simp) (List.mem_cons_of_mem _ hmem)
    · obtain rfl := List.mem_singleton.mp hz
      have htargets := hA.targets (.inr (.achieve g)) (by
        rw [begun_of_head (by simp)]
        exact List.mem_cons_self)
      refine ⟨by simp, by simp, ?_, fun hsend => ?_⟩
      · cases g <;> exact htargets
      · cases g <;> exact hsend

/-- The statements that prepare a suspension, for Phase 1 or because the grid is
saturated. -/
def announces : SupervisorStmt → Bool
  | .queryActiveHolons _ | .findLowPriority => true
  | _ => false

theorem exec_announces {b : SupervisorBeliefs} {stmt : SupervisorStmt} (h : announces stmt)
    (x : SupervisorInput) :
    SupervisorAgent.exec () b stmt x = .failed [] ∨ ∃ holons k code,
      SupervisorAgent.exec () b stmt x = .next b (.setSuspendedHolons holons ::
        .achieve (.sendSuspendToAll holons k) :: code) [] ∧
      ∀ z ∈ code.map (Sum.inr : SupervisorStmt → Item), plain z := by
  cases stmt with
  | queryActiveHolons k =>
    simp only [SupervisorAgent.exec]
    split
    · exact Or.inr ⟨_, _, _, rfl, by simp [plain, isSend]⟩
    · exact Or.inl rfl
  | findLowPriority =>
    simp only [SupervisorAgent.exec]
    split
    · exact Or.inl rfl
    · exact Or.inr ⟨_, _, _, rfl, by simp [plain, isSend]⟩
  | _ => cases h

/-- A suspension is prepared. -/
theorem frozenKnown_announce (h : FrozenKnown s) (hi : s.agent.intentions[i]? = some θ)
    {stmt : SupervisorStmt} {rest : List Item} (hagenda : θ.agenda = .inr stmt :: rest)
    (hstmt : announces stmt) : FrozenKnown (s.move r i x) := by
  apply h.of_same hi <;> rw [hagenda]
  · rcases exec_announces (b := s.agent.beliefs ()) hstmt (s.input x) with he | ⟨_, _, _, he, -⟩ <;>
      simp [Program.effect, SupervisorAgent.program, he]
  · intro s'
    rcases exec_announces (b := s.agent.beliefs ()) hstmt (s.input x) with he | ⟨_, _, _, he, -⟩ <;>
      simp [Program.effect, SupervisorAgent.program, he]
  · intro resuming hA
    rcases exec_announces (b := s.agent.beliefs ()) hstmt (s.input x)
      with he | ⟨holons, k, code, he, hcode⟩
    · have hadvance : (SupervisorAgent.program r).advance (s.input x) () (s.agent.beliefs ())
          (.inr stmt :: rest) = [] := by
        simp [Program.advance, SupervisorAgent.program, he]
      rw [hadvance]
      exact suspensionAgenda_nil
    · have hadvance : (SupervisorAgent.program r).advance (s.input x) () (s.agent.beliefs ())
          (.inr stmt :: rest) = .inr (.setSuspendedHolons holons) ::
            .inr (.achieve (.sendSuspendToAll holons k)) :: (code.map Sum.inr ++ rest) := by
        simp [Program.advance, SupervisorAgent.program, he]
      have hset : ∀ holons, (.inr stmt : Item) ≠ .inr (.setSuspendedHolons holons) := by
        rintro holons heq
        cases heq
        cases hstmt
      rw [hadvance]
      refine hA.announce hset (fun hmem => ?_) hcode holons k
      refine hA.not_clearing ?_ ?_ (List.mem_cons_of_mem _ hmem)
      · rintro h heq
        cases heq
        cases hstmt
      · rintro heq
        cases heq
        cases hstmt

/-- The belief is initialised. -/
theorem frozenKnown_add (h : FrozenKnown s) (hi : s.agent.intentions[i]? = some θ)
    {holons : List String} {rest : List Item}
    (hagenda : θ.agenda = .inr (.addSuspendedHolons holons) :: rest)
    (hC : s.SuspensionsApart (.move i x)) : FrozenKnown (s.move r i x) := by
  obtain ⟨hknown, hone, resuming, hall⟩ := h
  have hnil : (s.agent.beliefs ()).suspendedHolons = [] := by
    have hC' := hC θ hi
    rw [hagenda] at hC'
    exact hC'
  have hempty : (s.agent.beliefs ()).suspended = [] := by
    rw [SupervisorBeliefs.suspended, hnil]
    rfl
  rw [hempty] at hknown
  have hA := hall.agendas.get hi
  refine .of_move resuming [holons] s.frozen hall hi ?_ ?_ ?_ le_rfl ?_ ?_
  · rw [hagenda]
    simp [Program.effect, SupervisorAgent.program, SupervisorAgent.exec, hnil, addBelief]
  · rw [hagenda]
    rfl
  · exact fun _ h => absurd (hknown h) List.not_mem_nil
  · intro θ' _ hA'
    refine hA'.imp (fun y hy => ?_) hA'.sending
      fun hmem => ⟨(hA'.clearing hmem).1, fun _ h => h⟩
    have htargets := hA'.targets y hy
    rw [hempty] at htargets
    exact fun _ h => absurd (htargets h) List.not_mem_nil
  · rw [hagenda] at hA ⊢
    have hrest :
        SuspensionAgenda resuming (s.agent.beliefs ()).suspended s.frozen ([] ++ rest) := by
      refine hA.replace [] (by simp) (fun hmem => ?_) (by simp)
      exact hA.not_clearing (by simp) (by simp) (List.mem_cons_of_mem _ hmem)
    refine hrest.imp (fun y hy => ?_) hrest.sending
      fun hmem => ⟨(hrest.clearing hmem).1, fun _ h => h⟩
    have htargets := hrest.targets y hy
    rw [hempty] at htargets
    exact fun _ h => absurd (htargets h) List.not_mem_nil

/-- A suspension begins: the list is overwritten. -/
theorem frozenKnown_set (h : FrozenKnown s) (hi : s.agent.intentions[i]? = some θ)
    {holons : List String} {rest : List Item}
    (hagenda : θ.agenda = .inr (.setSuspendedHolons holons) :: rest)
    (hC : s.SuspensionsApart (.move i x)) : FrozenKnown (s.move r i x) := by
  obtain ⟨hknown, hone, resuming, hall⟩ := h
  obtain ⟨hsubset, hno⟩ : (∀ h ∈ (s.agent.beliefs ()).suspended, h ∈ holons) ∧
      ∀ θ' ∈ s.agent.intentions, ∀ y ∈ θ'.agenda, y ≠ .inr .clearSuspendedHolons := by
    have hC' := hC θ hi
    rw [hagenda] at hC'
    exact hC'
  have hA := hall.agendas.get hi
  have hself := hno θ (List.mem_of_getElem? hi)
  refine .of_move false [holons] s.frozen hall hi ?_ ?_ ?_ le_rfl ?_ ?_
  · rw [hagenda]
    exact suspended_replace hone holons
  · rw [hagenda]
    rfl
  · exact fun h hmem => hsubset h (hknown hmem)
  · intro θ' hθ' hA'
    exact hA'.imp (fun y hy h hmem => hsubset h (hA'.targets y hy hmem)) (fun _ => rfl)
      fun hmem => absurd rfl (hno θ' hθ' _ hmem)
  · rw [hagenda] at hA hself ⊢
    show SuspensionAgenda false holons s.frozen rest
    have htail : ∀ l, .inr (.setSuspendedHolons l) ∉ rest := hA.tail
    constructor
    · rw [begun_of_tail htail]
      intro y hy
      cases rest with
      | nil => cases hy
      | cons z rest =>
        rcases List.mem_cons.mp hy with rfl | hy
        · exact hA.announced holons y rest rfl
        · exact fun h hmem => hsubset h (hA.targets y hy hmem)
    · intro l y rest' heq
      exact absurd (heq ▸ List.mem_cons_self) (htail l)
    · exact fun l hmem => htail l (List.mem_of_mem_tail hmem)
    · exact fun _ => rfl
    · exact fun hmem => absurd rfl (hself _ (List.mem_cons_of_mem _ hmem))

/-- A suspension is sent. -/
theorem frozenKnown_suspend (h : FrozenKnown s) (hi : s.agent.intentions[i]? = some θ)
    {holon : String} {k : Option ℕ} {rest : List Item}
    (hagenda : θ.agenda = .inr (.sendSuspend holon k) :: rest) : FrozenKnown (s.move r i x) := by
  obtain ⟨hknown, hone, resuming, hall⟩ := h
  have hA := hall.agendas.get hi
  rw [hagenda] at hA
  have hbegun : begun (.inr (.sendSuspend holon k) :: rest) = .inr (.sendSuspend holon k) :: rest :=
    begun_of_head (by simp)
  have hresuming : resuming = false := by
    apply hA.sending
    rw [hbegun]
    rfl
  have hmem : holon ∈ (s.agent.beliefs ()).suspended := by
    have htargets := hA.targets (.inr (.sendSuspend holon k)) (by
      rw [hbegun]
      exact List.mem_cons_self)
    exact htargets List.mem_cons_self
  -- no list is being emptied
  have hno : ∀ {l : List Item},
      SuspensionAgenda resuming (s.agent.beliefs ()).suspended s.frozen l →
      .inr .clearSuspendedHolons ∉ l := by
    intro l hl hclear
    have := (hl.clearing hclear).1
    rw [hresuming] at this
    cases this
  refine .of_move resuming _ (holon :: s.frozen) hall hi ?_ ?_ ?_ hone ?_ ?_
  · rw [hagenda]
    rfl
  · rw [hagenda]
    rfl
  · exact List.cons_subset.mpr ⟨hmem, hknown⟩
  · intro θ' _ hA'
    exact hA'.imp hA'.targets hA'.sending fun hclear => absurd hclear (hno hA')
  · rw [hagenda]
    exact hA.replace [] (by simp)
      (fun hclear => hno hA (List.mem_cons_of_mem _ hclear)) (by simp)

/-- A resumption is sent. -/
theorem frozenKnown_resume (h : FrozenKnown s) (hi : s.agent.intentions[i]? = some θ)
    {holon : String} {rest : List Item}
    (hagenda : θ.agenda = .inr (.sendResume holon) :: rest) : FrozenKnown (s.move r i x) := by
  obtain ⟨hknown, hone, resuming, hall⟩ := h
  have hA := hall.agendas.get hi
  refine .of_move resuming _ (s.frozen.filter (· ≠ holon)) hall hi ?_ ?_ ?_ hone ?_ ?_
  · rw [hagenda]
    rfl
  · rw [hagenda]
    rfl
  · exact fun h hmem => hknown (List.mem_of_mem_filter hmem)
  · intro θ' _ hA'
    exact hA'.imp hA'.targets hA'.sending fun hclear =>
      ⟨(hA'.clearing hclear).1, fun _ h => List.mem_of_mem_filter h⟩
  · rw [hagenda] at hA ⊢
    show SuspensionAgenda resuming (s.agent.beliefs ()).suspended _ rest
    by_cases hclear : .inr .clearSuspendedHolons ∈ rest
    · have hbegun : begun (.inr (.sendResume holon) :: rest) = .inr (.sendResume holon) :: rest :=
        begun_of_head (by simp)
      have htargets := hA.targets
      have hsending := hA.sending
      rw [hbegun] at htargets hsending
      obtain ⟨hresuming, holons, rest', heq, hfrozen, hrest⟩ :=
        hA.clearing (List.mem_cons_of_mem _ hclear)
      cases holons with
      | nil =>
        rw [List.map_nil, List.nil_append] at heq
        cases (List.cons.inj heq).1
      | cons h' holons =>
        rw [List.map_cons, List.cons_append] at heq
        obtain ⟨hhead, rfl⟩ := List.cons.inj heq
        cases hhead
        have htail := hA.tail
        rw [List.tail_cons] at htail
        constructor
        · rw [begun_of_tail htail]
          exact fun y hy => htargets y (List.mem_cons_of_mem _ hy)
        · intro l y rest'' heq'
          exact absurd (heq' ▸ List.mem_cons_self) (htail l)
        · exact fun l hmem => htail l (List.mem_of_mem_tail hmem)
        · rw [begun_of_tail htail]
          intro hany
          apply hsending
          rw [List.any_cons, hany, Bool.or_true]
        · refine fun _ => ⟨hresuming, holons, rest', rfl, fun h hmem => ?_, hrest⟩
          obtain ⟨hmem, hne⟩ := List.mem_filter.mp hmem
          exact (List.mem_cons.mp (hfrozen hmem)).resolve_left (by simpa using hne)
    · exact hA.replace [] (by simp) hclear (by simp)

/-- A resumption empties the list. -/
theorem frozenKnown_clear (h : FrozenKnown s) (hi : s.agent.intentions[i]? = some θ)
    {rest : List Item} (hagenda : θ.agenda = .inr .clearSuspendedHolons :: rest) :
    FrozenKnown (s.move r i x) := by
  obtain ⟨hknown, hone, resuming, hall⟩ := h
  have hA := hall.agendas.get hi
  rw [hagenda] at hA
  obtain ⟨hresuming, holons, rest', heq, hfrozen, hrest⟩ := hA.clearing List.mem_cons_self
  have hnil : holons = [] := by
    cases holons with
    | nil => rfl
    | cons h' holons =>
      rw [List.map_cons, List.cons_append] at heq
      cases (List.cons.inj heq).1
  subst hnil
  rw [List.map_nil, List.nil_append] at heq
  obtain rfl := (List.cons.inj heq).2
  -- nothing is being sent
  have hquiet : ∀ {l : List Item},
      SuspensionAgenda resuming (s.agent.beliefs ()).suspended s.frozen l →
      ∀ y ∈ begun l, targets y ⊆ [] := by
    intro l hl y hy
    have hnot : ¬ isSend y := by
      intro hsend
      have := hl.sending (List.any_eq_true.mpr ⟨y, hy, hsend⟩)
      rw [hresuming] at this
      cases this
    rw [targets_of_not_send hnot]
    exact List.Subset.refl _
  refine .of_move resuming [[]] s.frozen hall hi ?_ ?_ hfrozen le_rfl ?_ ?_
  · rw [hagenda]
    exact suspended_replace hone []
  · rw [hagenda]
    rfl
  · intro θ' _ hA'
    exact hA'.imp (hquiet hA') hA'.sending fun hclear => ⟨hresuming, fun _ h => h⟩
  · rw [hagenda]
    have hafter : SuspensionAgenda resuming (s.agent.beliefs ()).suspended s.frozen ([] ++ rest) :=
      hA.replace [] (by simp) hrest (by simp)
    exact hafter.imp (hquiet hafter) hafter.sending fun hclear => ⟨hresuming, fun _ h => h⟩

/-- A move. -/
theorem frozenKnown_move (h : FrozenKnown s) (hC : s.SuspensionsApart (.move i x)) :
    FrozenKnown (s.move r i x) := by
  cases hi : s.agent.intentions[i]? with
  | none =>
    rw [move, hi]
    exact h
  | some θ =>
    cases hagenda : θ.agenda with
    | nil =>
      apply h.of_same hi <;> rw [hagenda]
      · rfl
      · exact fun _ => rfl
      · exact fun _ _ => suspensionAgenda_nil
    | cons y rest =>
      cases y with
      | inl g => exact frozenKnown_goal h hi hagenda hC
      | inr stmt =>
        cases stmt with
        | achieve g => exact frozenKnown_achieve h hi hagenda
        | addSuspendedHolons holons => exact frozenKnown_add h hi hagenda hC
        | setSuspendedHolons holons => exact frozenKnown_set h hi hagenda hC
        | clearSuspendedHolons => exact frozenKnown_clear h hi hagenda
        | queryActiveHolons k => exact frozenKnown_announce h hi hagenda rfl
        | findLowPriority => exact frozenKnown_announce h hi hagenda rfl
        | sendSuspend holon k => exact frozenKnown_suspend h hi hagenda
        | sendResume holon => exact frozenKnown_resume h hi hagenda
        | _ => exact frozenKnown_ordinary h hi hagenda rfl

theorem suspensionAgenda_plain {suspended frozen : List String} {l : List Item}
    (h : ∀ z ∈ l, plain z) : SuspensionAgenda resuming suspended frozen l := by
  have hno : ∀ holons, .inr (.setSuspendedHolons holons) ∉ l := by
    intro holons hmem
    cases h _ hmem
  constructor
  · rw [begun_of_tail hno]
    intro y hy
    rw [(targets_of_plain (h y hy)).1]
    exact List.nil_subset _
  · intro holons y rest heq
    exact absurd (heq ▸ List.mem_cons_self) (hno holons)
  · exact fun holons hmem => hno holons (List.mem_of_mem_tail hmem)
  · rw [begun_of_tail hno]
    intro hany
    obtain ⟨y, hy, hsend⟩ := List.any_eq_true.mp hany
    rw [(targets_of_plain (h y hy)).2] at hsend
    cases hsend
  · intro hmem
    cases h _ hmem

/-- What is no move changes neither the list nor the frozen holons. -/
theorem exec_same {op : SupervisionOp} (hop : ∀ i x, op ≠ .move i x) :
    (s.exec r op).frozen = s.frozen ∧ ((s.exec r op).agent.beliefs ()).suspendedHolons
      = (s.agent.beliefs ()).suspendedHolons := by
  cases op with
  | move i x => exact absurd rfl (hop i x)
  | select =>
    refine ⟨rfl, ?_⟩
    simp only [exec, Population.select]
    split
    · rfl
    · split <;> rfl
  | expire j =>
    simp only [exec]
    split <;> exact ⟨rfl, rfl⟩
  | signal j =>
    simp only [exec]
    split <;> exact ⟨rfl, rfl⟩
  | suspendAck who =>
    refine ⟨rfl, ?_⟩
    simp [exec, Population.believe]
  | transportBlocked o source =>
    simp only [exec]
    split <;> simp [Population.believe, Population.post]
  | _ => exact ⟨rfl, rfl⟩

/-- **One operation.** -/
theorem frozenKnown_exec {op : SupervisionOp} (h : FrozenKnown s) (hC : s.SuspensionsApart op) :
    FrozenKnown (s.exec r op) := by
  by_cases hop : ∀ i x, op ≠ .move i x
  · obtain ⟨hfrozen, hlist⟩ := exec_same (r := r) (s := s) hop
    have hsuspended : ((s.exec r op).agent.beliefs ()).suspended
        = (s.agent.beliefs ()).suspended := by
      rw [SupervisorBeliefs.suspended, hlist, SupervisorBeliefs.suspended]
    obtain ⟨hknown, hone, resuming, hall⟩ := h
    refine ⟨?_, ?_, resuming, ?_⟩
    · rw [hfrozen, hsuspended]
      exact hknown
    · rw [hlist]
      exact hone
    · rw [hfrozen, hsuspended]
      refine hall.surroundings hop (fun t ht => ?_) fun _ t _ ht body hbody => ?_
      · cases t <;> first | exact ht | cases ht
      · apply suspensionAgenda_plain
        refine plan_plain ?_ ?_ hbody
        · rintro holons k rfl
          cases ht
        · rintro rfl
          cases ht
  · push Not at hop
    obtain ⟨i, x, rfl⟩ := hop
    exact frozenKnown_move h hC

/-! ## Runs -/

/-- **Every suspended holon is in the list.**  In every run in which the list is initialised
before the first suspension, a suspension keeps the elements of the list and begins while no
resumption is under way, and a resumption begins while no suspensions are being sent, every
holon that was sent `suspend_intentions` and not since `resume_intention` is an element of
`suspended_holons`. -/
theorem frozen_known (r : Roster) (adacorEnabled : Bool) {ops : List SupervisionOp}
    (hops : Runs.Along (exec r) SuspensionsApart (start adacorEnabled) ops) :
    let s := Runs.run (exec r) ops (start adacorEnabled)
    ∀ h ∈ s.frozen, h ∈ (s.agent.beliefs ()).suspended := by
  have hstart : FrozenKnown (start adacorEnabled) := by
    refine ⟨fun h hmem => ?_, Nat.zero_le _, false, fun t ht => ?_, fun θ hθ => ?_⟩
    · cases hmem
    · rcases ht with ht | ⟨u, hu, -⟩
      · cases List.mem_singleton.mp ht
        rfl
      · cases hu
    · cases hθ
  have hrun := Runs.run_invariant (fun _ _ h hC => frozenKnown_exec h hC) hstart hops
  exact fun h hmem => hrun.known hmem

theorem frozen_known_saturated :
    let s := Runs.run (exec twoOrders) (startedRun ++ saturatedRun 1 []) (start true)
    s.frozen = ["order_2", "order_1"] ∧ ∀ h ∈ s.frozen, h ∈ (s.agent.beliefs ()).suspended :=
  ⟨by decide +kernel, frozen_known twoOrders true (by decide +kernel)⟩

/-- Both order holons are suspended when the grid is saturated.  A station then accepts an
order of the first, and at the next report only the second is put on the list. -/
theorem not_frozen_known :
    ¬ ∀ (r : Roster) (adacorEnabled : Bool) (ops : List SupervisionOp),
      let s := Runs.run (exec r) ops (start adacorEnabled)
      ∀ h ∈ s.frozen, h ∈ (s.agent.beliefs ()).suspended := by
  intro h
  have := h twoOrders true (startedRun ++ saturatedRun 1 [] ++
    saturatedRun 2 [⟨⟨"order_1", 0⟩, "station_1", "order_1"⟩])
  exact absurd this (by decide +kernel)

end Supervision

end MatrixFactory
