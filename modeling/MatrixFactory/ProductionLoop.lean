/-
# The production loop of an order holon

An order holon asks for a batch, starts the batch timer, submits an order when it expires and
asks for the next batch when the order is complete.  The loop is begun anew by the goal
`start`, which a resumption pursues as well, by the abort of an order and by a change of the
schema.

If the loop is begun anew only when nothing of it is left, then a holon has at most one order
in flight and one batch timer.
-/
import MatrixFactory.OrderAgenda

namespace MatrixFactory

open AgentSpeak

/-! ## Requests for a batch -/

/-- The goal or event requests a batch. -/
def OrderTrigger.requests : OrderTrigger → ℕ
  | .requestNextBatch | .timerExpired .batchWait _ => 1
  | _ => 0

/-- The statement requests a batch, or submits the order. -/
def OrderStmt.requests : OrderStmt → ℕ
  | .achieve g => g.requests
  | .startTimer .batchWait _ _ | .random | .recordEvent _ .submitted => 1
  | _ => 0

/-- The order that the statement completes or abandons. -/
def OrderStmt.ends : OrderStmt → Option OrderId
  | .recordEvent o .completed | .dropIntention (.requestTransport (some o)) => some o
  | _ => none

/-- The orders in flight after a statement: an order is submitted, completed, abandoned after
an abort, or with all others after a suspension or a change of the schema. -/
def OrderStmt.flight (stmt : OrderStmt) (orders : List OrderId) : List OrderId :=
  match stmt with
  | .recordEvent o .submitted => o :: orders
  | .recordEvent o .completed | .dropIntention (.requestTransport (some o)) =>
    orders.filter (· ≠ o)
  | .dropIntention .all | .sendSuspendAck => []
  | _ => orders

/-- The batches that an agenda requests.  A request after the end of an order takes the place
of that order, and a change of the schema drops what is under way. -/
def requested : List OrderItem → ℕ
  | [] => 0
  | .inl g :: rest => g.requests + requested rest
  | .inr stmt :: rest =>
    if stmt.ends.isSome then requested rest - 1
    else if stmt = .dropIntention .all then 0
    else stmt.requests + requested rest

/-- The timer is a batch timer of holon `n`. -/
def OrderTimer.isBatch (n : String) (t : OrderTimer) : Bool := t.holon = n ∧ t.key = .batchWait

namespace Shop

/-- The requests among the events of holon `n`. -/
def eventRequests (n : String) (p : Population String OrderBeliefs OrderTrigger OrderStmt) : ℕ :=
  (p.events.map fun e => if e.1 = n then e.2.requests else 0).sum

/-- The requests among the intentions of holon `n`. -/
def agendaRequests (n : String) (p : Population String OrderBeliefs OrderTrigger OrderStmt) : ℕ :=
  (p.intentions.map fun θ => if θ.owner = n then requested θ.agenda else 0).sum

/-- The batches that holon `n` has requested and that have not been submitted. -/
def requestedBy (n : String) (s : Shop) : ℕ :=
  s.orderTimers.countP (·.isBatch n) + s.orderSignals.countP (·.isBatch n)
    + eventRequests n s.orders + agendaRequests n s.orders

/-! ## The property and the condition -/

/-- The orders in flight after an operation. -/
def flightAfter (s : Shop) (flight : String → List OrderId) : ShopOp → String → List OrderId
  | .orderMove i _ =>
    match s.orders.intentions[i]? with
    | none => flight
    | some θ =>
      match θ.agenda with
      | .inr stmt :: _ => Function.update flight θ.owner (stmt.flight (flight θ.owner))
      | _ => flight
  | _ => flight

/-- One operation, with the orders in flight. -/
def productionStep (op : ShopOp) (x : Shop × (String → List OrderId)) :
    Shop × (String → List OrderId) :=
  (x.1.exec op, x.1.flightAfter x.2 op)

/-- Every order holon has at most one order in flight and at most one batch timer. -/
def OneOrder (x : Shop × (String → List OrderId)) : Prop :=
  ∀ n, (x.2 n).length ≤ 1 ∧ x.1.orderTimers.countP (·.isBatch n) ≤ 1

/-- Holon `n` has no order in flight and requests none. -/
def Unoccupied (x : Shop × (String → List OrderId)) (n : String) : Prop :=
  x.2 n = [] ∧ x.1.requestedBy n = 0

/-- The condition on an operation: the loop is begun by `start` while the holon is unoccupied; an
order that is completed or aborted is in flight, unless the holon is unoccupied; and a change of the
schema drops the intentions while the batch timer is neither running nor unanswered. -/
def LoopsOnce (x : Shop × (String → List OrderId)) : ShopOp → Prop
  | .orderSelect n =>
    ∀ e ∈ x.1.orders.events.find? (·.1 = n), e.2 = .start → Unoccupied x n
  | .orderMove i _ => ∀ θ ∈ x.1.orders.intentions[i]?,
    match θ.agenda with
    | .inl g :: _ => g = .start → Unoccupied x θ.owner
    | .inr stmt :: _ =>
      (∀ o ∈ stmt.ends, o ∈ x.2 θ.owner ∨ Unoccupied x θ.owner) ∧
        (stmt = .dropIntention .all →
          (∀ t ∈ x.1.orderTimers ++ x.1.orderSignals, ¬ t.isBatch θ.owner) ∧
            eventRequests θ.owner x.1.orders = 0)
    | [] => True
  | _ => True

instance (x : Shop × (String → List OrderId)) (n : String) : Decidable (Unoccupied x n) :=
  inferInstanceAs (Decidable (_ ∧ _))

instance (x : Shop × (String → List OrderId)) (op : ShopOp) : Decidable (LoopsOnce x op) :=
  match op with
  | .orderSelect n => inferInstanceAs
      (Decidable (∀ e ∈ x.1.orders.events.find? (·.1 = n), e.2 = .start → Unoccupied x n))
  | .orderMove i _ =>
    have (n : String) (l : List OrderItem) : Decidable (match l with
        | .inl g :: _ => g = .start → Unoccupied x n
        | .inr stmt :: _ =>
          (∀ o ∈ stmt.ends, o ∈ x.2 n ∨ Unoccupied x n) ∧
            (stmt = .dropIntention .all →
              (∀ t ∈ x.1.orderTimers ++ x.1.orderSignals, ¬ t.isBatch n) ∧
                eventRequests n x.1.orders = 0)
        | [] => True) := by
      split <;> infer_instance
    inferInstanceAs (Decidable (∀ θ ∈ x.1.orders.intentions[i]?, _))
  | .stationSelect _ | .stationMove _ | .amrSelect _ | .amrMove _ _ | .deliver _
  | .supervisor _ _ | .orderTimer _ | .orderSignal _ | .stationTimer _ | .stationSignal _
  | .arrive _ | .transportBlocked _ _ | .finish _ _ _ | .orderEpoch _ _ | .stationEpoch _ _
  | .amrEpoch _ _ => .isTrue trivial

/-! ## What plans and statements request -/

/-- Statements that neither end an order nor drop everything. -/
def Carries (stmt : OrderStmt) : Prop := stmt.ends = none ∧ stmt ≠ .dropIntention .all

theorem requested_cons {stmt : OrderStmt} (h : Carries stmt) (rest : List OrderItem) :
    requested (.inr stmt :: rest) = stmt.requests + requested rest := by
  rw [requested, h.1, if_neg h.2]
  rfl

/-- What follows the head requests at most one batch more than the agenda. -/
theorem requested_tail {y : OrderItem} {rest : List OrderItem}
    (h : y ≠ .inr (.dropIntention .all)) : requested rest ≤ requested (y :: rest) + 1 := by
  cases y with
  | inl g =>
    simp only [requested]
    omega
  | inr stmt =>
    have hstmt : stmt ≠ .dropIntention .all := fun heq => h (by rw [heq])
    simp only [requested, if_neg hstmt]
    split <;> omega

section

attribute [local simp] requested OrderStmt.ends OrderStmt.requests OrderTrigger.requests

/-- A plan requests no more than the goal or event it is for, apart from the goal `start`. -/
theorem plan_requested {n : String} {b : OrderBeliefs} {t : OrderTrigger} {body : List OrderStmt}
    (h : OrderHolon.plan n b t = some body) (rest : List OrderItem) :
    requested (body.map Sum.inr ++ rest)
      ≤ t.requests + requested rest + if t = .start then 1 else 0 := by
  cases t with
  | start =>
    cases h
    simp
    omega
  | selectProposal step stations o =>
    simp only [OrderHolon.plan] at h
    split at h
    · cases h
      simp
    · split at h <;> cases h <;> simp
  | requestNextBatch | callForProposals step stations o | schemaEpoch epoch =>
    simp only [OrderHolon.plan] at h
    split at h <;> cases h
    simp
  | timerExpired key k =>
    cases key with
    | batchWait =>
      simp only [OrderHolon.plan] at h
      split at h
      · split at h <;> cases h <;> simp
      · cases h
    | stepwatch o =>
      simp only [OrderHolon.plan] at h
      split at h
      · split at h <;> cases h <;> simp [OrderHolon.abortAndRetry]
      · cases h
    | order o =>
      simp only [OrderHolon.plan] at h
      split at h
      · cases h
        simp
      · split at h <;> cases h
        simp
      · cases h
    | await o =>
      cases h
      simp
  | told m k =>
    obtain ⟨c, source⟩ := m
    cases c with
    | stepComplete o step =>
      simp only [OrderHolon.plan] at h
      split at h
      · split at h <;> cases h <;> simp
      · cases h
        simp
    | stepFailed o step reason =>
      simp only [OrderHolon.plan] at h
      split at h <;> cases h <;> simp
    | abortCurrentOperation o =>
      -- the request takes the place of the order
      simp only [OrderHolon.plan] at h
      split at h <;> cases h <;> simp
    | suspendIntentions | resumeIntention =>
      simp only [OrderHolon.plan] at h
      split at h <;> cases h
      simp
    | transportDone o =>
      cases h
      simp
    | _ => cases h
  | _ =>
    cases h
    simp

end

/-- Code that requests nothing. -/
theorem requested_append {code : List OrderStmt}
    (h : ∀ stmt ∈ code, Carries stmt ∧ stmt.requests = 0)
    (rest : List OrderItem) : requested (code.map Sum.inr ++ rest) = requested rest := by
  induction code with
  | nil => rfl
  | cons stmt code ih =>
    obtain ⟨hcarries, hnone⟩ := h stmt List.mem_cons_self
    rw [List.map_cons, List.cons_append, requested_cons hcarries, hnone, Nat.zero_add]
    exact ih fun stmt' hstmt' => h stmt' (List.mem_cons_of_mem _ hstmt')

theorem length_flight_end {o : OrderId} {flight : List OrderId} (h : o ∈ flight) :
    (flight.filter (· ≠ o)).length + 1 ≤ flight.length := by
  have hlt : (flight.filter (· ≠ o)).length < flight.length :=
    List.length_filter_lt_length_iff_exists.mpr ⟨o, h, by simp⟩
  omega

end Shop

/-- The action starts a batch timer. -/
def OrderAction.startsBatch : OrderAction → Bool
  | .startTimer .batchWait _ _ => true
  | _ => false

namespace Shop

section

attribute [local simp] requested OrderStmt.ends OrderStmt.requests OrderTrigger.requests
  OrderStmt.flight OrderAction.startsBatch

/-- A statement keeps the number of orders in flight and requested, if an order that it ends
is in flight. -/
theorem exec_requested {n : String} {b b' : OrderBeliefs} {stmt : OrderStmt} {x : OrderInput}
    {code : List OrderStmt} {acts : List OrderAction} {flight : List OrderId}
    (he : OrderHolon.exec n b stmt x = .next b' code acts) (hends : ∀ o ∈ stmt.ends, o ∈ flight)
    (rest : List OrderItem) :
    (stmt.flight flight).length + requested (code.map Sum.inr ++ rest)
        + acts.countP (·.startsBatch)
      ≤ flight.length + requested (.inr stmt :: rest) := by
  cases stmt with
  | achieve g | dropIntention goals => cases he
  | recordEvent o e =>
    cases he
    cases e with
    | submitted =>
      simp
      omega
    | completed =>
      have hle := length_flight_end (hends o rfl)
      show (flight.filter (· ≠ o)).length + requested rest + 0 ≤
        flight.length + (requested rest - 1)
      omega
  | startTimer key ttl k =>
    cases he
    cases key with
    | batchWait =>
      show flight.length + requested rest + 1 ≤ flight.length + (1 + requested rest)
      omega
    | _ => simp
  | findStaleWatchdogs =>
    cases he
    have hnone : ∀ stmt ∈ b.stepWatchdog.flatMap fun w =>
        [OrderStmt.cancelTimer (.stepwatch w.1), .delStepWatchdog w],
        Carries stmt ∧ stmt.requests = 0 := by
      intro stmt hstmt
      obtain ⟨w, -, hw⟩ := List.mem_flatMap.mp hstmt
      simp only [List.mem_cons, List.not_mem_nil, or_false] at hw
      rcases hw with rfl | rfl <;> exact ⟨⟨rfl, by simp⟩, rfl⟩
    rw [requested_append hnone]
    simp
  | rejectLosers winner o =>
    cases he
    rw [requested_append]
    · simp
    · intro stmt hstmt
      obtain ⟨loser, -, rfl⟩ := List.mem_map.mp hstmt
      exact ⟨⟨rfl, by simp⟩, rfl⟩
  | queryCurrentLocation | queryDispatchedAmr | queryCnpWinner | waitAbortAck
  | waitStationStart =>
    simp only [OrderHolon.exec] at he
    split at he <;> cases he
    simp
  | ifRemaining o step remaining =>
    cases remaining <;>
    · cases he
      simp
  | ifSlowAccept | ifStarted =>
    simp only [OrderHolon.exec] at he
    split at he <;>
    · cases he
      simp [OrderHolon.abortAndRetry]
  | sendCallForProposal stations step o =>
    cases he
    simp [List.countP_map, Function.comp_def]
  | sendSuspendAck =>
    cases he
    simp
  | _ =>
    cases he
    simp

end

theorem flight_drop {pattern : OrderDrop} (h : pattern ≠ .all) {flight : List OrderId}
    (hends : ∀ o ∈ (OrderStmt.dropIntention pattern).ends, o ∈ flight) (rest : List OrderItem) :
    ((OrderStmt.dropIntention pattern).flight flight).length + requested rest
      ≤ flight.length + requested (.inr (.dropIntention pattern) :: rest) := by
  cases pattern with
  | all => exact absurd rfl h
  | requestTransport order =>
    cases order with
    | none => simp [requested, OrderStmt.flight, OrderStmt.ends, OrderStmt.requests]
    | some o =>
      have hle := length_flight_end (hends o rfl)
      show (flight.filter (· ≠ o)).length + requested rest ≤
        flight.length + (requested rest - 1)
      omega
  | _ => simp [requested, OrderStmt.flight, OrderStmt.ends, OrderStmt.requests]

/-- The orders in flight after the head of an agenda. -/
def flightHead (flight : List OrderId) : List OrderItem → List OrderId
  | .inr stmt :: _ => stmt.flight flight
  | _ => flight

/-- **A move** keeps the number of orders in flight and requested, if it does not begin the
loop, drops not everything, and ends only orders in flight. -/
theorem advance_requested {n : String} {b : OrderBeliefs} {x : OrderInput} {l : List OrderItem}
    {flight : List OrderId} (hstart : ∀ rest, l ≠ .inl .start :: rest)
    (hall : ∀ rest, l ≠ .inr (.dropIntention .all) :: rest)
    (hends : ∀ stmt rest, l = .inr stmt :: rest → ∀ o ∈ stmt.ends, o ∈ flight) :
    (flightHead flight l).length + requested (OrderHolon.program.advance x n b l)
        + (OrderHolon.program.effect x n b l).2.countP (·.startsBatch)
      ≤ flight.length + requested l := by
  cases l with
  | nil => simp [flightHead, Program.advance, Program.effect]
  | cons y rest =>
    cases y with
    | inl g =>
      simp only [flightHead, Program.advance, Program.effect, OrderHolon.program, List.countP_nil]
      split
      · next body hplan =>
        have hle := plan_requested hplan rest
        rw [if_neg fun h => hstart rest (by rw [h])] at hle
        simp only [requested] at hle ⊢
        omega
      · simp [requested]
    | inr stmt =>
      have hends' := hends stmt rest rfl
      simp only [flightHead, Program.advance, Program.effect, OrderHolon.program]
      cases he : OrderHolon.exec n b stmt x with
      | next b' code acts => exact exec_requested he hends' rest
      | subgoal g =>
        obtain rfl := exec_subgoal he
        simp [requested, OrderStmt.flight, OrderStmt.ends, OrderStmt.requests]
      | drop goals =>
        obtain ⟨pattern, rfl⟩ := exec_drop he
        have hpattern : pattern ≠ .all := by
          rintro rfl
          exact hall rest rfl
        simpa using flight_drop hpattern hends' rest
      | blocked =>
        rcases exec_blocked he with ⟨o, station, rfl⟩ | ⟨o, station, step, k, rfl⟩ <;>
          simp [OrderStmt.flight]
      | failed acts =>
        obtain ⟨rfl, ⟨o, winner, k, rfl⟩ | ⟨o, k, rfl⟩ | ⟨o, k, rfl⟩⟩ := exec_failed he <;>
          simp [requested, OrderStmt.flight]

/-! ## A change of the schema -/

/-- A change of the schema is the last that an agenda requests a batch for. -/
def Resetting : List OrderItem → Prop
  | [] => True
  | y :: rest =>
    (y = .inl .reinitializeSchema ∨ y = .inr (.achieve .reinitializeSchema) →
        requested rest = 0) ∧
      (y = .inr (.dropIntention .all) → requested rest ≤ 1) ∧ Resetting rest

theorem Resetting.append {code : List OrderStmt} {rest : List OrderItem} (h : Resetting rest)
    (hcode : ∀ stmt ∈ code, stmt ≠ .dropIntention .all ∧ stmt ≠ .achieve .reinitializeSchema) :
    Resetting (code.map Sum.inr ++ rest) := by
  induction code with
  | nil => exact h
  | cons stmt code ih =>
    obtain ⟨hall, hgoal⟩ := hcode stmt List.mem_cons_self
    refine ⟨fun hy => ?_, fun hy => ?_, ih fun stmt' h => hcode stmt' (List.mem_cons_of_mem _ h)⟩
    · rcases hy with hy | hy
      · cases hy
      · exact absurd (Sum.inr.inj hy) hgoal
    · exact absurd (Sum.inr.inj hy) hall

/-- A plan other than for a change of the schema does not drop everything. -/
theorem plan_keeps {n : String} {b : OrderBeliefs} {t : OrderTrigger} {body : List OrderStmt}
    (h : OrderHolon.plan n b t = some body) (hreset : t ≠ .reinitializeSchema)
    (hepoch : ∀ epoch, t ≠ .schemaEpoch epoch) :
    ∀ stmt ∈ body, stmt ≠ .dropIntention .all ∧ stmt ≠ .achieve .reinitializeSchema := by
  intro stmt hstmt
  rcases plan_plain h stmt hstmt with hplain | ⟨pattern, rfl, hall⟩ | ⟨-, epoch, rfl⟩ |
    ⟨_, _, _, _, _, rfl, -⟩
  · constructor <;>
    · rintro rfl
      cases hplain
  · constructor
    · intro heq
      exact hreset (hall (OrderStmt.dropIntention.inj heq))
    · simp
  · exact absurd rfl (hepoch epoch)
  · simp

/-- No statement comes to a change of the schema. -/
theorem exec_keeps {n : String} {b b' : OrderBeliefs} {stmt : OrderStmt} {x : OrderInput}
    {code : List OrderStmt} {acts : List OrderAction}
    (he : OrderHolon.exec n b stmt x = .next b' code acts) :
    ∀ stmt' ∈ code, stmt' ≠ .dropIntention .all ∧ stmt' ≠ .achieve .reinitializeSchema := by
  intro stmt' hstmt'
  rcases exec_plain he stmt' hstmt' with hplain | ⟨-, rfl⟩ | ⟨_, _, -, rfl⟩
  · constructor <;>
    · rintro rfl
      cases hplain
  all_goals simp

theorem resetting_advance {n : String} {b : OrderBeliefs} {x : OrderInput} {l : List OrderItem}
    (h : Resetting l) (hgoals : GoalsOnly l) :
    Resetting (OrderHolon.program.advance x n b l) := by
  cases l with
  | nil => trivial
  | cons y rest =>
    have hreset := h.1
    have hrest := h.2.2
    cases y with
    | inl g =>
      have hgoal := hgoals _ List.mem_cons_self g (Or.inl rfl)
      simp only [Program.advance, OrderHolon.program]
      split
      · next body hplan =>
        by_cases hg : g = .reinitializeSchema
        · -- the request that follows the drop is the only one
          subst hg
          cases hplan
          have htail : Resetting ([OrderStmt.achieve .requestNextBatch].map Sum.inr ++ rest) :=
            hrest.append (by simp)
          refine ⟨fun hy => ?_, fun _ => ?_, htail⟩
          · rcases hy with hy | hy <;> cases hy
          · show 1 + requested rest ≤ 1
            rw [hreset (Or.inl rfl)]
        · refine hrest.append (plan_keeps hplan hg ?_)
          rintro epoch rfl
          cases hgoal
      · trivial
    | inr stmt =>
      simp only [Program.advance, OrderHolon.program]
      split
      · next he => exact hrest.append (exec_keeps he)
      · next g he =>
        obtain rfl := exec_subgoal he
        refine ⟨fun hy => hreset ?_, (fun h => by cases h), hrest⟩
        rcases hy with hy | hy
        · rw [Sum.inl.inj hy]
          exact Or.inr rfl
        · cases hy
      · exact hrest
      · exact h
      · trivial

/-- The answer to an event. -/
theorem resetting_plan {n : String} {b : OrderBeliefs} {t : OrderTrigger} {body : List OrderStmt}
    (h : OrderHolon.plan n b t = some body) (ht : t ≠ .reinitializeSchema) :
    Resetting (body.map Sum.inr) := by
  by_cases hepoch : ∃ epoch, t = .schemaEpoch epoch
  · obtain ⟨epoch, rfl⟩ := hepoch
    simp only [OrderHolon.plan] at h
    split at h <;> cases h
    have hlast : Resetting [.inr (.achieve .reinitializeSchema)] :=
      ⟨fun _ => rfl, (fun h => by cases h), trivial⟩
    show Resetting ([OrderStmt.delCurrentEpoch _, .addCurrentEpoch _].map Sum.inr ++ _)
    exact hlast.append (by simp)
  · push Not at hepoch
    have hnil : Resetting [] := trivial
    simpa using hnil.append (plan_keeps h ht hepoch)

/-! ## One operation -/

/-- The order holons with their timers. -/
structure OrderView where
  orders : Population String OrderBeliefs OrderTrigger OrderStmt
  timers : List OrderTimer
  signals : List OrderTimer

def orderView (s : Shop) : OrderView := ⟨s.orders, s.orderTimers, s.orderSignals⟩

@[simp] theorem stationAct_orderView (me : String) (a : StationAction) (s : Shop) :
    (stationAct me a s).orderView = s.orderView := by
  cases a <;> rfl

@[simp] theorem amrAct_orderView (me : String) (a : AmrAction) (s : Shop) :
    (amrAct me a s).orderView = s.orderView := by
  cases a <;> rfl

theorem requestedBy_of_view {s s' : Shop} (h : s'.orderView = s.orderView) (n : String) :
    s'.requestedBy n = s.requestedBy n := by
  have h' := OrderView.mk.inj h
  rw [requestedBy, requestedBy, h'.1, h'.2.1, h'.2.2]

theorem eventRequests_post (n m : String) (t : OrderTrigger)
    (p : Population String OrderBeliefs OrderTrigger OrderStmt) :
    eventRequests n (p.post m t) = eventRequests n p + if m = n then t.requests else 0 := by
  simp [eventRequests, Population.post]

theorem agendaRequests_post (n m : String) (t : OrderTrigger)
    (p : Population String OrderBeliefs OrderTrigger OrderStmt) :
    agendaRequests n (p.post m t) = agendaRequests n p := rfl

theorem countP_eraseIdx {α : Type} (q : α → Bool) {l : List α} {j : ℕ} {a : α}
    (hj : l[j]? = some a) : (l.eraseIdx j).countP q + (if q a then 1 else 0) = l.countP q := by
  obtain ⟨hlt, rfl⟩ := List.getElem?_eq_some_iff.mp hj
  rw [← (List.getElem_cons_eraseIdx_perm hlt).countP_eq, List.countP_cons]

/-- What happens in the surroundings of the order holons requests no batch. -/
theorem requestedBy_surroundings {s : Shop} {op : ShopOp} (hselect : ∀ n, op ≠ .orderSelect n)
    (hmove : ∀ i x, op ≠ .orderMove i x) (n : String) :
    (s.exec op).requestedBy n ≤ s.requestedBy n := by
  cases op with
  | orderSelect m => exact absurd rfl (hselect m)
  | orderMove i x => exact absurd rfl (hmove i x)
  | stationMove i =>
    refine le_of_eq (requestedBy_of_view ?_ n)
    simp only [exec, stationMove]
    split
    · rfl
    · rw [run_proj (g := orderView) (by simp)]
      rfl
  | amrMove i u =>
    refine le_of_eq (requestedBy_of_view ?_ n)
    simp only [exec, amrMove]
    split
    · rfl
    · rw [run_proj (g := orderView) (by simp)]
      rfl
  | deliver j =>
    simp only [exec, deliver]
    split
    · exact le_rfl
    · split
      · exact le_rfl
      · simp only [receive]
        split
        · next c hc =>
          split
          · simp only [requestedBy, eventRequests_post, agendaRequests_post,
              OrderTrigger.requests, ite_self]
            exact le_rfl
          · exact le_rfl
        all_goals exact le_rfl
  | orderTimer j =>
    simp only [exec]
    split
    · exact le_rfl
    · next t ht =>
      have hcount := countP_eraseIdx (·.isBatch n) ht
      simp only [requestedBy, List.countP_append, List.countP_singleton]
      omega
  | orderSignal j =>
    simp only [exec]
    split
    · exact le_rfl
    · next t ht =>
      -- the signal of a batch timer becomes its event
      have hcount := countP_eraseIdx (·.isBatch n) ht
      have hle : (if t.holon = n then (OrderTrigger.timerExpired t.key t.attempt).requests else 0)
          ≤ if t.isBatch n then 1 else 0 := by
        by_cases hn : t.holon = n
        · cases hkey : t.key <;> simp [OrderTimer.isBatch, hn, hkey, OrderTrigger.requests]
        · simp [hn]
      simp only [requestedBy, eventRequests_post, agendaRequests_post]
      omega
  | orderEpoch m epoch =>
    simp only [exec, requestedBy, eventRequests_post, agendaRequests_post, OrderTrigger.requests,
      ite_self]
    exact le_rfl
  | arrive j =>
    simp only [exec, arrive]
    split <;> exact le_rfl
  | finish j code summary =>
    simp only [exec, finish]
    split <;> exact le_rfl
  | _ => first | exact le_rfl | (simp only [exec]; split <;> exact le_rfl)

/-- The answer to an event requests no batch, apart from that to `start`. -/
theorem requestedBy_select {s : Shop} {m n : String} :
    (s.exec (.orderSelect m)).requestedBy n ≤ s.requestedBy n + if m = n ∧
      (s.orders.events.find? (·.1 = m)).any (·.2 = .start) then 1 else 0 := by
  simp only [exec, Population.select]
  split
  · exact Nat.le_add_right _ _
  · next e he =>
    have howner : e.1 = m := by simpa using List.find?_some he
    have hsum := Weight.sum_eraseP
      (fun e : String × OrderTrigger => if e.1 = n then e.2.requests else 0) _ he
    simp only [requestedBy, eventRequests, agendaRequests]
    split
    · dsimp only
      omega
    · next body hbody =>
      have hle := plan_requested (n := m) hbody []
      have hagenda : (⟨m, none, Program.settle [⟨e.2, body⟩]⟩ :
          Intention String OrderTrigger OrderStmt).agenda = body.map Sum.inr := by
        simp [Intention.agenda, Program.settle_body]
      simp only [List.map_append, List.sum_append, List.map_cons, List.map_nil, List.sum_cons,
        List.sum_nil, hagenda, he, Option.any_some, decide_eq_true_eq]
      simp only [List.append_nil, requested] at hle
      rw [howner] at hsum
      by_cases hn : m = n
      · simp only [hn, if_true, true_and] at hsum ⊢
        omega
      · simp only [hn, if_false, false_and] at hsum ⊢
        omega

/-- The actions of a holon start batch timers of its own only. -/
theorem countP_run (me n : String) (acts : List OrderAction) (s : Shop) :
    (Runs.run (orderAct me) acts s).orderTimers.countP (·.isBatch n)
        ≤ s.orderTimers.countP (·.isBatch n) + (if me = n then acts.countP (·.startsBatch) else 0) ∧
      (Runs.run (orderAct me) acts s).orderSignals = s.orderSignals := by
  induction acts generalizing s with
  | nil => simp
  | cons a acts ih =>
    obtain ⟨htimers, hsignals⟩ := ih (orderAct me a s)
    have ha : (orderAct me a s).orderTimers.countP (·.isBatch n)
          ≤ s.orderTimers.countP (·.isBatch n) + (if me = n ∧ a.startsBatch then 1 else 0) ∧
        (orderAct me a s).orderSignals = s.orderSignals := by
      cases a with
      | startTimer key ttl k =>
        refine ⟨?_, rfl⟩
        simp only [orderAct, List.countP_append, List.countP_singleton]
        cases key <;> simp [OrderTimer.isBatch, OrderAction.startsBatch]
      | cancelTimer key =>
        refine ⟨?_, rfl⟩
        exact (List.Sublist.countP_le List.filter_sublist).trans (Nat.le_add_right _ _)
      | _ => exact ⟨Nat.le_add_right _ _, rfl⟩
    rw [Runs.run_cons]
    refine ⟨?_, hsignals.trans ha.2⟩
    rw [List.countP_cons]
    by_cases hn : me = n
    · simp only [hn, if_true, true_and] at htimers ha ⊢
      omega
    · simp only [hn, if_false, false_and] at htimers ha ⊢
      omega

/-- A move changes the requests of its holon, and starts batch timers. -/
theorem requestedBy_move {s : Shop} {i : ℕ} {x : OrderInput} {n : String}
    {θ : Intention String OrderTrigger OrderStmt} (hi : s.orders.intentions[i]? = some θ)
    (hθ : θ.Settled) {agenda : List OrderItem}
    (hagenda : agenda = OrderHolon.program.advance (s.orderInput θ x) θ.owner
      (s.orders.beliefs θ.owner) θ.agenda) :
    (s.orderMove i x).requestedBy n + (if θ.owner = n then requested θ.agenda else 0)
      ≤ s.requestedBy n + if θ.owner = n then requested agenda
        + (OrderHolon.program.effect (s.orderInput θ x) θ.owner (s.orders.beliefs θ.owner)
          θ.agenda).2.countP (·.startsBatch) else 0 := by
  obtain ⟨-, hadvance, heffect⟩ := OrderHolon.program.move_agenda (fun _ => rfl)
    (s.orderInput θ x) (s.orders.beliefs θ.owner) hθ
  have hactions := congrArg Prod.snd heffect
  dsimp only at hactions
  have hsum := Weight.sum_apply_le (fun θ => if θ.owner = n then requested θ.agenda else 0) hi
    (OrderHolon.program.move (s.orderInput θ x) (s.orders.beliefs θ.owner) θ)
  simp only [Program.move_owner, hadvance, ← hagenda] at hsum
  rw [orderMove, hi]
  dsimp only
  rw [hactions]
  have hrun := countP_run θ.owner n (OrderHolon.program.effect (s.orderInput θ x) θ.owner
    (s.orders.beliefs θ.owner) θ.agenda).2
    { s with
      orders := s.orders.apply i
        (OrderHolon.program.move (s.orderInput θ x) (s.orders.beliefs θ.owner) θ) }
  obtain ⟨htimers, hsignals⟩ := hrun
  simp only [requestedBy, hsignals]
  rw [run_proj (g := Shop.orders) (by simp)]
  have hevents : eventRequests n (s.orders.apply i
      (OrderHolon.program.move (s.orderInput θ x) (s.orders.beliefs θ.owner) θ))
      = eventRequests n s.orders := rfl
  rw [hevents]
  simp only [agendaRequests]
  by_cases hn : θ.owner = n
  · simp only [hn, if_true] at hsum htimers ⊢
    omega
  · simp only [hn, if_false] at hsum htimers ⊢
    omega

/-- The invariant: a holon has one order in flight, or requests one, or neither. -/
structure OneRequest (x : Shop × (String → List OrderId)) : Prop where
  goals : GoalsApart x.1.orders
  agendas : x.1.orders.Agendas fun _ => Resetting
  one : ∀ n, (x.2 n).length + x.1.requestedBy n ≤ 1

variable {x : Shop × (String → List OrderId)} {op : ShopOp}

theorem agendas_step (h : OneRequest x) :
    (x.1.exec op).orders.Agendas fun _ => Resetting := by
  apply orders_rule (Q := fun p => p.Agendas fun _ => Resetting) h.agendas
  · exact fun p n f _ hp => hp
  · exact fun p e _ hp => hp
  · rintro n rfl
    refine h.agendas.select fun e he body hbody => resetting_plan (n := n) hbody ?_
    intro heq
    have hstart := h.goals.events e (List.mem_of_find?_eq_some he) (by rw [heq]; rfl)
    rw [heq] at hstart
    cases hstart
  · rintro i input θ - hi
    refine h.agendas.apply_move (fun _ => rfl) hi (fun _ _ _ _ h => h) fun hθ => ?_
    exact resetting_advance hθ (h.goals.agendas.get hi)

/-- A change of the schema drops every intention of its holon. -/
theorem agendaRequests_reset {s : Shop} {i : ℕ} {y : OrderInput}
    {θ : Intention String OrderTrigger OrderStmt} (hi : s.orders.intentions[i]? = some θ)
    (hθ : θ.Settled) {rest : List OrderItem}
    (hagenda : θ.agenda = .inr (.dropIntention .all) :: rest) :
    agendaRequests θ.owner (s.orderMove i y).orders = requested rest := by
  obtain ⟨-, hadvance, -⟩ := OrderHolon.program.move_agenda (fun _ => rfl)
    (s.orderInput θ y) (s.orders.beliefs θ.owner) hθ
  have hdrops : ∀ t, (OrderHolon.program.move (s.orderInput θ y)
      (s.orders.beliefs θ.owner) θ).drops t := by
    have hhead := Program.head_of_agenda hθ hagenda
    rw [OrderHolon.program.drops_of_head hhead rfl]
    exact fun t => rfl
  -- of the other intentions of the holon nothing is left to do
  have hothers : ∀ l : List (Intention String OrderTrigger OrderStmt),
      ((l.filter (Population.keeps (OrderHolon.program.move (s.orderInput θ y)
        (s.orders.beliefs θ.owner) θ))).map fun θ' =>
          if θ'.owner = θ.owner then requested θ'.agenda else 0).sum = 0 := by
    intro l
    refine List.sum_eq_zero fun k hk => ?_
    obtain ⟨θ', hθ', rfl⟩ := List.mem_map.mp hk
    split
    · next howner =>
      rw [Program.agenda_of_keeps hdrops (by rw [howner, Program.move_owner])
        (List.mem_filter.mp hθ').2]
      rfl
    · rfl
  rw [orderMove, hi]
  dsimp only
  rw [run_proj (g := Shop.orders) (by simp)]
  simp only [agendaRequests, Population.apply, List.map_append, List.sum_append, List.map_cons,
    List.sum_cons, hothers, Program.move_owner, if_true, hadvance, hagenda]
  simp [Program.advance, OrderHolon.program, OrderHolon.exec]

theorem requestedBy_reset {s : Shop} {i : ℕ} {y : OrderInput}
    {θ : Intention String OrderTrigger OrderStmt} (hi : s.orders.intentions[i]? = some θ)
    (hθ : θ.Settled) {rest : List OrderItem}
    (hagenda : θ.agenda = .inr (.dropIntention .all) :: rest) :
    (s.orderMove i y).requestedBy θ.owner
      = s.orderTimers.countP (·.isBatch θ.owner) + s.orderSignals.countP (·.isBatch θ.owner)
        + eventRequests θ.owner s.orders + requested rest := by
  obtain ⟨-, -, heffect⟩ := OrderHolon.program.move_agenda (fun _ => rfl)
    (s.orderInput θ y) (s.orders.beliefs θ.owner) hθ
  have hactions : (OrderHolon.program.move (s.orderInput θ y)
      (s.orders.beliefs θ.owner) θ).actions = [] := by
    have hsnd := congrArg Prod.snd heffect
    rw [hagenda] at hsnd
    exact hsnd
  rw [requestedBy, agendaRequests_reset hi hθ hagenda, orderMove, hi]
  dsimp only
  rw [hactions]
  rfl

/-- A statement that ends an order does nothing else to the requests. -/
theorem advance_ends {n : String} {b : OrderBeliefs} {y : OrderInput} {stmt : OrderStmt}
    {o : OrderId} (h : stmt.ends = some o) (rest : List OrderItem) :
    OrderHolon.program.advance y n b (.inr stmt :: rest) = rest ∧
      (OrderHolon.program.effect y n b (.inr stmt :: rest)).2.countP (·.startsBatch) = 0 ∧
      stmt.flight [] = [] := by
  cases stmt with
  | recordEvent o' e =>
    cases e with
    | submitted => cases h
    | completed => exact ⟨rfl, rfl, rfl⟩
  | dropIntention pattern =>
    cases pattern with
    | requestTransport order =>
      cases order with
      | none => cases h
      | some o' => exact ⟨rfl, rfl, rfl⟩
    | _ => cases h
  | _ => cases h

/-- A move of an intention of the holon. -/
theorem one_move_own {i : ℕ} {y : OrderInput} {θ : Intention String OrderTrigger OrderStmt}
    (h : OneRequest x) (hi : x.1.orders.intentions[i]? = some θ)
    (hmove : (x.1.orderMove i y).requestedBy θ.owner + requested θ.agenda
      ≤ x.1.requestedBy θ.owner + (requested (OrderHolon.program.advance (x.1.orderInput θ y)
          θ.owner (x.1.orders.beliefs θ.owner) θ.agenda)
        + (OrderHolon.program.effect (x.1.orderInput θ y) θ.owner (x.1.orders.beliefs θ.owner)
          θ.agenda).2.countP (·.startsBatch)))
    (hC : match θ.agenda with
      | .inl g :: _ => g = .start → Unoccupied x θ.owner
      | .inr stmt :: _ =>
        (∀ o ∈ stmt.ends, o ∈ x.2 θ.owner ∨ Unoccupied x θ.owner) ∧
          (stmt = .dropIntention .all →
            (∀ t ∈ x.1.orderTimers ++ x.1.orderSignals, ¬ t.isBatch θ.owner) ∧
              eventRequests θ.owner x.1.orders = 0)
      | [] => True) :
    (flightHead (x.2 θ.owner) θ.agenda).length + (x.1.orderMove i y).requestedBy θ.owner ≤ 1 := by
  have hone := h.one θ.owner
  have hsettled := h.agendas.settled hi
  have hresetting := h.agendas.get hi
  by_cases hstart : ∃ rest, θ.agenda = .inl .start :: rest
  · obtain ⟨rest, hagenda⟩ := hstart
    rw [hagenda] at hC hmove ⊢
    obtain ⟨hflight, hnone⟩ := hC rfl
    have hplan : requested (OrderHolon.program.advance (x.1.orderInput θ y) θ.owner
        (x.1.orders.beliefs θ.owner) (.inl .start :: rest))
        ≤ requested (.inl .start :: rest) + 1 :=
      plan_requested (n := θ.owner) (b := x.1.orders.beliefs θ.owner) (t := .start) rfl rest
    have hstarts : (OrderHolon.program.effect (x.1.orderInput θ y) θ.owner
        (x.1.orders.beliefs θ.owner) (.inl .start :: rest)).2.countP (·.startsBatch) = 0 := rfl
    simp only [flightHead, hflight, List.length_nil]
    omega
  · by_cases hall : ∃ rest, θ.agenda = .inr (.dropIntention .all) :: rest
    · obtain ⟨rest, hagenda⟩ := hall
      rw [hagenda] at hC hresetting
      obtain ⟨htimers, hevents⟩ := hC.2 rfl
      have hrest := hresetting.2.1 rfl
      have hcount : (x.1.orderTimers ++ x.1.orderSignals).countP (·.isBatch θ.owner) = 0 :=
        List.countP_eq_zero.mpr htimers
      rw [List.countP_append] at hcount
      rw [requestedBy_reset hi hsettled hagenda, hevents, hagenda]
      simp only [flightHead, OrderStmt.flight, List.length_nil]
      omega
    · push Not at hstart hall
      by_cases hends : ∀ stmt rest, θ.agenda = .inr stmt :: rest → ∀ o ∈ stmt.ends, o ∈ x.2 θ.owner
      · have hadvance := advance_requested (n := θ.owner) (b := x.1.orders.beliefs θ.owner)
          (x := x.1.orderInput θ y) hstart hall hends
        omega
      · -- an order ends that is not in flight
        push Not at hends
        obtain ⟨stmt, rest, hagenda, o, ho, hnot⟩ := hends
        rw [hagenda] at hC hmove ⊢
        obtain ⟨hflight, hnone⟩ := (hC.1 o ho).resolve_left hnot
        obtain ⟨hadvance, hstarts, hempty⟩ := advance_ends (n := θ.owner)
          (b := x.1.orders.beliefs θ.owner) (y := x.1.orderInput θ y) ho rest
        rw [hadvance, hstarts] at hmove
        have htail : requested rest ≤ requested (.inr stmt :: rest) + 1 :=
          requested_tail fun heq => hall rest (by rw [hagenda, heq])
        simp only [flightHead, hflight, hempty, List.length_nil]
        omega

/-- A move. -/
theorem one_move {i : ℕ} {y : OrderInput} (h : OneRequest x) (hC : LoopsOnce x (.orderMove i y))
    (n : String) :
    (x.1.flightAfter x.2 (.orderMove i y) n).length + (x.1.orderMove i y).requestedBy n ≤ 1 := by
  have hone := h.one n
  cases hi : x.1.orders.intentions[i]? with
  | none =>
    rw [orderMove, flightAfter, hi]
    exact hone
  | some θ =>
    have hsettled := h.agendas.settled hi
    have hflight : x.1.flightAfter x.2 (.orderMove i y)
        = Function.update x.2 θ.owner (flightHead (x.2 θ.owner) θ.agenda) := by
      simp only [flightAfter, hi]
      cases θ.agenda with
      | nil => simp [flightHead]
      | cons z rest => cases z <;> simp [flightHead]
    have hmove := requestedBy_move (x := y) (n := n) hi hsettled rfl
    rw [hflight]
    by_cases hn : θ.owner = n
    · subst hn
      simp only [Function.update_self, if_true] at hmove ⊢
      exact one_move_own h hi hmove (hC θ hi)
    · rw [Function.update_of_ne (Ne.symm hn)]
      simp only [hn, if_false] at hmove
      omega

theorem flightAfter_surroundings {s : Shop} {flight : String → List OrderId}
    (hmove : ∀ i y, op ≠ .orderMove i y) : s.flightAfter flight op = flight := by
  cases op with
  | orderMove i y => exact absurd rfl (hmove i y)
  | _ => rfl

/-- **One operation.** -/
theorem oneRequest_step (h : OneRequest x) (hC : LoopsOnce x op) :
    OneRequest (productionStep op x) := by
  refine ⟨goalsApart_exec h.goals, agendas_step h, fun n => ?_⟩
  show (x.1.flightAfter x.2 op n).length + (x.1.exec op).requestedBy n ≤ 1
  have hone := h.one n
  by_cases hmove : ∀ i y, op ≠ .orderMove i y
  · rw [flightAfter_surroundings hmove]
    by_cases hselect : ∀ m, op ≠ .orderSelect m
    · have hle := requestedBy_surroundings (s := x.1) hselect hmove n
      omega
    · push Not at hselect
      obtain ⟨m, rfl⟩ := hselect
      have hle := requestedBy_select (s := x.1) (m := m) (n := n)
      by_cases hstart : m = n ∧ (x.1.orders.events.find? (·.1 = m)).any (·.2 = .start)
      · obtain ⟨rfl, hany⟩ := hstart
        obtain ⟨e, he, hestart⟩ := (Option.any_eq_true _ _).mp hany
        obtain ⟨hflight, hnone⟩ := hC e he (by simpa using hestart)
        simp only [hflight, hnone, List.length_nil] at hle ⊢
        split at hle <;> omega
      · rw [if_neg hstart] at hle
        omega
  · push Not at hmove
    obtain ⟨i, y, rfl⟩ := hmove
    exact one_move h hC n

/-! ## Runs -/

/-- **One order in flight.**  In every run in which an order holon begins its loop by `start`
only while it has no order in flight and requests none, completes and aborts only an order in
flight, unless it has none and requests none, and drops its intentions for a change of the
schema only while its batch timer is neither running nor unanswered, every order holon has at
most one order in flight and at most one batch timer in every state reached. -/
theorem oneOrder_run (c : ShopConfig) {ops : List ShopOp}
    (hops : Runs.Along productionStep LoopsOnce (Shop.start c, fun _ => []) ops) :
    OneOrder (Runs.run productionStep ops (Shop.start c, fun _ => [])) := by
  have hstart : OneRequest (Shop.start c, fun _ => []) := by
    refine ⟨goalsApart_start c, fun θ hθ => ?_, fun n => ?_⟩
    · cases hθ
    · simp [requestedBy, eventRequests, agendaRequests, Shop.start, Function.comp_def,
        OrderTrigger.requests]
  have hrun : OneRequest (Runs.run productionStep ops (Shop.start c, fun _ => [])) :=
    Runs.run_invariant (fun _ _ h hC => oneRequest_step h hC) hstart hops
  intro n
  have hone := hrun.one n
  rw [requestedBy] at hone
  omega

/-- An order holon submits an order; it is suspended, resumed, and submits another. -/
def loopRun : List ShopOp :=
  ShopOp.orderSelect "order_1" :: orderMoves 7 0 ++
    [ShopOp.orderTimer 0, .orderSignal 0, .orderSelect "order_1"] ++ orderMoves 10 1 ++
    [ShopOp.supervisor "order_1" .suspendOrder, .deliver 5, .orderSelect "order_1"] ++
    orderMoves 7 2 ++
    [ShopOp.supervisor "order_1" .resumeOrder, .deliver 5, .orderSelect "order_1"] ++
    orderMoves 9 3 ++ [ShopOp.orderTimer 1, .orderSignal 0, .orderSelect "order_1"] ++
    List.replicate 5 (ShopOp.orderMove 4 { random := 1 })

theorem oneOrder_loopRun :
    (Runs.run productionStep loopRun (Shop.start oneStation, fun _ => [])).2 "order_1"
        = [⟨"order_1", 1⟩] ∧
      OneOrder (Runs.run productionStep loopRun (Shop.start oneStation, fun _ => [])) :=
  ⟨by decide +kernel, oneOrder_run oneStation (by decide)⟩

/-- The schema changes while the batch timer is running; the holon starts a second timer, and
each of them submits an order. -/
def epochRun : List ShopOp :=
  ShopOp.orderSelect "order_1" :: orderMoves 7 0 ++
    [ShopOp.orderEpoch "order_1" 1, .orderSelect "order_1"] ++ orderMoves 8 1 ++
    [ShopOp.orderTimer 0, .orderTimer 0, .orderSignal 0, .orderSignal 0, .orderSelect "order_1",
      .orderSelect "order_1"] ++ orderMoves 5 2 ++
    List.replicate 5 (ShopOp.orderMove 3 { random := 1 })

theorem not_oneOrder :
    (Runs.run productionStep epochRun (Shop.start oneStation, fun _ => [])).2 "order_1"
        = [⟨"order_1", 1⟩, ⟨"order_1", 0⟩] ∧
      ¬ ∀ (c : ShopConfig) (ops : List ShopOp),
        OneOrder (Runs.run productionStep ops (Shop.start c, fun _ => [])) := by
  constructor
  · decide
  · intro h
    have := (h oneStation epochRun "order_1").1
    exact absurd this (by decide)

end Shop

end MatrixFactory
