/-
# What an order holon has still to do

The plans and statements of an order holon pursue goals only, never an event; so an event is
answered by an intention of its own, and what its plan does happens once for each time that it
is selected.
-/
import MatrixFactory.ShopRules
import MatrixFactory.Lib.Agenda

namespace MatrixFactory

open AgentSpeak

/-- What an order holon has to do: a goal or a statement. -/
abbrev OrderItem := OrderTrigger ⊕ OrderStmt

/-- The goals; a resumption pursues `start`. -/
def OrderTrigger.isGoal : OrderTrigger → Bool
  | .timerExpired _ _ | .told _ _ | .schemaEpoch _ => false
  | _ => true

/-- The statement records nothing, drops nothing, and pursues no event and no change of the
schema. -/
def OrderStmt.plain : OrderStmt → Bool
  | .achieve .reinitializeSchema | .dropIntention _ | .recordEvent _ _ | .ifRemaining _ _ _ => false
  | .achieve g => g.isGoal
  | _ => true

/-- The statement pursues no event. -/
def OrderStmt.pursuesGoal : OrderStmt → Bool
  | .achieve g => g.isGoal
  | _ => true

theorem OrderStmt.pursuesGoal_of_plain {stmt : OrderStmt} (h : stmt.plain) : stmt.pursuesGoal := by
  cases stmt with
  | achieve g =>
    cases g with
    | reinitializeSchema => rfl
    | _ => exact h
  | _ => rfl

namespace Shop

/-! ## Statements -/

section

variable {n : String} {b b' : OrderBeliefs} {stmt : OrderStmt} {x : OrderInput}
  {code : List OrderStmt} {acts : List OrderAction}

/-- Only a query fails, and it acts on nothing. -/
theorem exec_failed (he : OrderHolon.exec n b stmt x = .failed acts) :
    acts = [] ∧ ((∃ o winner k, stmt = .queryCurrentLocation o winner k) ∨
      (∃ o k, stmt = .queryDispatchedAmr o k) ∨ ∃ o k, stmt = .queryCnpWinner o k) := by
  cases stmt with
  | queryCurrentLocation | queryDispatchedAmr | queryCnpWinner =>
    simp only [OrderHolon.exec] at he
    split at he <;> cases he
    simp
  | ifRemaining o step remaining => cases remaining <;> cases he
  | waitAbortAck | waitStationStart | ifSlowAccept | ifStarted =>
    simp only [OrderHolon.exec] at he
    split at he <;> cases he
  | _ => cases he

/-- Only a wait blocks. -/
theorem exec_blocked (he : OrderHolon.exec n b stmt x = .blocked) :
    (∃ o station, stmt = .waitAbortAck o station) ∨
      ∃ o station step k, stmt = .waitStationStart o station step k := by
  cases stmt with
  | waitAbortAck | waitStationStart => simp
  | queryCurrentLocation | queryDispatchedAmr | queryCnpWinner | ifSlowAccept | ifStarted =>
    simp only [OrderHolon.exec] at he
    split at he <;> cases he
  | ifRemaining o step remaining => cases remaining <;> cases he
  | _ => cases he

/-- Only `achieve` pursues a goal. -/
theorem exec_subgoal {g : OrderTrigger} (he : OrderHolon.exec n b stmt x = .subgoal g) :
    stmt = .achieve g := by
  cases stmt with
  | achieve g' =>
    cases he
    rfl
  | queryCurrentLocation | queryDispatchedAmr | queryCnpWinner | waitAbortAck | waitStationStart
  | ifSlowAccept | ifStarted =>
    simp only [OrderHolon.exec] at he
    split at he <;> cases he
  | ifRemaining o step remaining => cases remaining <;> cases he
  | _ => cases he

/-- Only `dropIntention` drops intentions. -/
theorem exec_drop {goals : OrderTrigger → Bool}
    (he : OrderHolon.exec n b stmt x = .drop goals) :
    ∃ pattern, stmt = .dropIntention pattern := by
  cases stmt with
  | dropIntention pattern => exact ⟨pattern, rfl⟩
  | queryCurrentLocation | queryDispatchedAmr | queryCnpWinner | waitAbortAck | waitStationStart
  | ifSlowAccept | ifStarted =>
    simp only [OrderHolon.exec] at he
    split at he <;> cases he
  | ifRemaining o step remaining => cases remaining <;> cases he
  | _ => cases he

/-- What a statement comes to is plain, but for the records of an order. -/
theorem exec_plain (he : OrderHolon.exec n b stmt x = .next b' code acts) :
    ∀ stmt' ∈ code, stmt'.plain ∨
      (stmt = .random ∧ stmt' = .recordEvent ⟨n, x.random⟩ .submitted) ∨
        ∃ o step, stmt = .ifRemaining o step [] ∧ stmt' = .recordEvent o .completed := by
  cases stmt with
  | achieve g | dropIntention goals => cases he
  | findStaleWatchdogs =>
    cases he
    intro stmt' hstmt'
    obtain ⟨w, -, hw⟩ := List.mem_flatMap.mp hstmt'
    simp only [List.mem_cons, List.not_mem_nil, or_false] at hw
    rcases hw with rfl | rfl <;> exact Or.inl rfl
  | rejectLosers winner o =>
    cases he
    intro stmt' hstmt'
    obtain ⟨loser, -, rfl⟩ := List.mem_map.mp hstmt'
    exact Or.inl rfl
  | queryCurrentLocation | queryDispatchedAmr | queryCnpWinner | waitAbortAck
  | waitStationStart =>
    simp only [OrderHolon.exec] at he
    split at he <;> cases he
    simp [OrderStmt.plain, OrderTrigger.isGoal]
  | ifRemaining o step remaining =>
    cases remaining <;>
    · cases he
      simp [OrderStmt.plain, OrderTrigger.isGoal]
  | ifSlowAccept | ifStarted =>
    simp only [OrderHolon.exec] at he
    split at he <;>
    · cases he
      simp [OrderHolon.abortAndRetry, OrderStmt.plain, OrderTrigger.isGoal]
  | _ =>
    cases he
    simp [OrderStmt.plain, OrderTrigger.isGoal]

end

/-! ## Plans -/

section

attribute [local simp] OrderStmt.plain OrderTrigger.isGoal

/-- The statements of a plan that are not plain. -/
theorem plan_plain {n : String} {b : OrderBeliefs} {t : OrderTrigger} {body : List OrderStmt}
    (h : OrderHolon.plan n b t = some body) :
    ∀ stmt ∈ body, stmt.plain ∨
      (∃ pattern, stmt = .dropIntention pattern ∧ (pattern = .all → t = .reinitializeSchema)) ∨
      (stmt = .achieve .reinitializeSchema ∧ ∃ epoch, t = .schemaEpoch epoch) ∨
      ∃ o step remaining station k, stmt = .ifRemaining o step remaining ∧
        t = .told ⟨.stepComplete o step, station⟩ k := by
  cases t with
  | selectProposal step stations o =>
    simp only [OrderHolon.plan] at h
    split at h
    · cases h
      simp
    · split at h <;> cases h <;> simp
  | requestNextBatch | callForProposals step stations o | schemaEpoch epoch =>
    simp only [OrderHolon.plan] at h
    split at h <;> cases h
    simp
  | timerExpired key k =>
    cases key with
    | batchWait =>
      simp only [OrderHolon.plan] at h
      split at h
      · split at h <;> cases h <;> simp
      · cases h
    | stepwatch o =>
      simp only [OrderHolon.plan] at h
      split at h
      · split at h <;> cases h <;> simp [OrderHolon.abortAndRetry]
      · cases h
    | order o =>
      simp only [OrderHolon.plan] at h
      split at h
      · cases h
        simp
      · split at h <;> cases h
        simp
      · cases h
    | await o =>
      cases h
      simp
  | told m k =>
    obtain ⟨c, source⟩ := m
    cases c with
    | stepComplete o step =>
      simp only [OrderHolon.plan] at h
      split at h
      · split at h <;> cases h <;> simp
      · cases h
        simp
    | stepFailed o step reason =>
      simp only [OrderHolon.plan] at h
      split at h <;> cases h <;> simp
    | abortCurrentOperation o =>
      simp only [OrderHolon.plan] at h
      split at h <;> cases h <;> simp
    | suspendIntentions | resumeIntention =>
      simp only [OrderHolon.plan] at h
      split at h <;> cases h
      simp
    | transportDone o =>
      cases h
      simp
    | _ => cases h
  | _ =>
    cases h
    simp

end

/-! ## Goals -/

/-- The agenda has no event to pursue. -/
def GoalsOnly (l : List OrderItem) : Prop :=
  ∀ y ∈ l, ∀ g, y = .inl g ∨ y = .inr (.achieve g) → g.isGoal

theorem plan_pursuesGoal {n : String} {b : OrderBeliefs} {t : OrderTrigger}
    {body : List OrderStmt} (h : OrderHolon.plan n b t = some body) :
    ∀ stmt ∈ body, stmt.pursuesGoal := by
  intro stmt hstmt
  rcases plan_plain h stmt hstmt with hplain | ⟨_, rfl, -⟩ | ⟨rfl, -⟩ | ⟨_, _, _, _, _, rfl, -⟩
  · exact OrderStmt.pursuesGoal_of_plain hplain
  all_goals rfl

theorem exec_pursuesGoal {n : String} {b b' : OrderBeliefs} {stmt : OrderStmt} {x : OrderInput}
    {code : List OrderStmt} {acts : List OrderAction}
    (he : OrderHolon.exec n b stmt x = .next b' code acts) : ∀ stmt' ∈ code, stmt'.pursuesGoal := by
  intro stmt' hstmt'
  rcases exec_plain he stmt' hstmt' with hplain | ⟨-, rfl⟩ | ⟨_, _, -, rfl⟩
  · exact OrderStmt.pursuesGoal_of_plain hplain
  all_goals rfl

theorem goalsOnly_append {code : List OrderStmt} {rest : List OrderItem}
    (hcode : ∀ stmt ∈ code, stmt.pursuesGoal) (hrest : GoalsOnly rest) :
    GoalsOnly (code.map Sum.inr ++ rest) := by
  intro y hy g hg
  rcases List.mem_append.mp hy with hy | hy
  · obtain ⟨stmt, hstmt, rfl⟩ := List.mem_map.mp hy
    rcases hg with hg | hg
    · cases hg
    · cases hg
      exact hcode _ hstmt
  · exact hrest y hy g hg

theorem goalsOnly_advance {n : String} {b : OrderBeliefs} {x : OrderInput} {l : List OrderItem}
    (h : GoalsOnly l) : GoalsOnly (OrderHolon.program.advance x n b l) := by
  have hempty : GoalsOnly [] := fun y hy => nomatch hy
  cases l with
  | nil => exact h
  | cons y rest =>
    have hrest : GoalsOnly rest := fun z hz => h z (List.mem_cons_of_mem _ hz)
    cases y with
    | inl g =>
      simp only [Program.advance, OrderHolon.program]
      split
      · next hplan => exact goalsOnly_append (plan_pursuesGoal hplan) hrest
      · exact hempty
    | inr stmt =>
      simp only [Program.advance, OrderHolon.program]
      split
      · next he => exact goalsOnly_append (exec_pursuesGoal he) hrest
      · next g he =>
        obtain rfl := exec_subgoal he
        intro z hz g' hg'
        rcases List.mem_cons.mp hz with rfl | hz
        · rcases hg' with hg' | hg'
          · cases hg'
            exact h _ List.mem_cons_self g (Or.inr rfl)
          · cases hg'
        · exact hrest z hz g' hg'
      · exact hrest
      · exact h
      · exact hempty

/-- No agenda of an order holon pursues an event, and no goal is raised as an event but
`start`. -/
structure GoalsApart (p : Population String OrderBeliefs OrderTrigger OrderStmt) : Prop where
  agendas : p.Agendas fun _ => GoalsOnly
  events : ∀ e ∈ p.events, e.2.isGoal → e.2 = .start

/-- **One operation.** -/
theorem goalsApart_exec {s : Shop} {op : ShopOp} (h : GoalsApart s.orders) :
    GoalsApart (s.exec op).orders := by
  apply orders_rule (Q := GoalsApart) h
  · exact fun p n f _ hp => ⟨hp.agendas, hp.events⟩
  · rintro p e he hp
    refine ⟨hp.agendas, fun e' he' => ?_⟩
    rcases List.mem_append.mp he' with he' | he'
    · exact hp.events e' he'
    · obtain rfl := List.mem_singleton.mp he'
      intro hgoal
      cases op with
      | deliver j =>
        obtain ⟨m, _, hm⟩ := Option.bind_eq_some_iff.mp he
        split at hm <;> cases hm
        cases hgoal
      | orderSignal j =>
        obtain ⟨t, _, rfl⟩ := Option.map_eq_some_iff.mp he
        cases hgoal
      | orderEpoch n epoch =>
        cases he
        cases hgoal
      | _ => cases he
  · rintro n rfl
    constructor
    · refine h.agendas.select fun e _ body hbody => ?_
      have hnil : GoalsOnly [] := fun y hy => nomatch hy
      simpa using goalsOnly_append (plan_pursuesGoal (n := n) hbody) hnil
    · intro e he
      refine h.events e ?_
      simp only [Population.select] at he
      split at he
      · exact he
      · split at he <;> exact List.mem_of_mem_eraseP he
  · rintro i input θ - hi
    refine ⟨?_, h.events⟩
    exact h.agendas.apply_move (fun _ => rfl) hi (fun _ _ _ _ h => h) goalsOnly_advance

theorem goalsApart_start (c : ShopConfig) : GoalsApart (Shop.start c).orders := by
  constructor
  · intro θ hθ
    cases hθ
  · intro e he _
    obtain ⟨n, -, rfl⟩ := List.mem_map.mp he
    rfl

end Shop

end MatrixFactory
