/-
# A suspended order holon

An order holon that is told to suspend drops the intentions in which it negotiates, cancels
its batch timer and acknowledges.  It is to be quiescent until it is resumed: no call for
proposals, no acceptance of a proposal and no reservation of a transport.

The plans for the batch timer and the watchdog check the belief `is_suspended`, and so does
the choice of a proposal when there is none.  Not guarded are the choice among proposals that
are held, the retry of a failed step and the call for the next step; and an intention that
pursues none of the dropped goals survives the suspension.
-/
import MatrixFactory.ShopRules

namespace MatrixFactory

open AgentSpeak

/-! ## Negotiation -/

/-- The actions by which an order holon negotiates. -/
def OrderAction.negotiates : OrderAction → Bool
  | .achieveCallForProposal _ _ _ _ _ | .reserveTransport _ _ _ _ _ => true
  | .tellStation _ (.acceptProposal _) _ => true
  | _ => false

/-- The goals that a suspended holon may pursue; `selectProposal` is one of them as long as
no proposal is held. -/
def OrderTrigger.quiescent : OrderTrigger → Bool
  | .requestNextBatch | .selectProposal _ _ _ | .reinitializeSchema => true
  | _ => false

/-- The statements that a suspended holon may execute. -/
def OrderStmt.quiescent : OrderStmt → Bool
  | .achieve goal => goal.quiescent
  | .delIsSuspended | .random | .sendCallForProposal _ _ _ | .reserveTransport _ _ _ _
  | .sendAcceptProposal _ _ _ | .setCnpWinner _ _ _ | .queryCurrentLocation _ _ _
  | .ifSlowAccept _ _ _ | .waitStationStart _ _ _ _ | .ifStarted _ _ _ _ => false
  | .ifRemaining _ _ remaining => remaining.isEmpty
  | _ => true

/-- The events to which the holon with these beliefs answers by a negotiation, suspended or
not. -/
def OrderTrigger.renews (b : OrderBeliefs) : OrderTrigger → Bool
  | .start => true
  | .timerExpired (.order o) _ =>
    (valueFor o b.cnpState).isNone ∧ (valueFor o b.pendingAcceptStep).isSome
  | .told ⟨.stepComplete o step, station⟩ _ =>
    (o, step, station) ∈ b.stepWatchdog ∧
      (valueFor o b.recipeRemaining).any fun remaining => !remaining.isEmpty
  | .told ⟨.stepFailed _ _ _, _⟩ _ => true
  | _ => false

/-- The goals for which the holon chooses a proposal. -/
def OrderTrigger.chooses : OrderTrigger → Bool
  | .selectProposal _ _ _ => true
  | _ => false

/-- The event that ends a suspension. -/
def OrderTrigger.resumes : OrderTrigger → Bool
  | .told ⟨.resumeIntention, source⟩ _ => source = "supervisor"
  | _ => false

/-- The events that an order holon answers; the others are goals. -/
def OrderTrigger.isEvent : OrderTrigger → Bool
  | .start | .timerExpired _ _ | .told _ _ | .schemaEpoch _ => true
  | _ => false

/-- No goal and no statement of the intention leads to a negotiation. -/
def AtRest (θ : Intention String OrderTrigger OrderStmt) : Prop :=
  (∀ g ∈ θ.pending, g.quiescent) ∧ (∀ f ∈ θ.frames.dropLast, f.trigger.quiescent) ∧
    ∀ f ∈ θ.frames, ∀ stmt ∈ f.body, stmt.quiescent

instance (θ : Intention String OrderTrigger OrderStmt) : Decidable (AtRest θ) :=
  inferInstanceAs (Decidable (_ ∧ _))

namespace Shop

/-- The suspended holons, after an operation: a holon is suspended when it has carried out
the plan for `suspend_intentions`, until it answers `resume_intention`. -/
def suspendedAfter (s : Shop) (suspended : List String) : ShopOp → List String
  | .orderSelect n =>
    if (s.orders.events.find? (·.1 = n)).any (·.2.resumes) then suspended.filter (· ≠ n)
    else suspended
  | .orderMove i _ =>
    match s.orders.intentions[i]? with
    | none => suspended
    | some θ => if θ.head = some .sendSuspendAck then θ.owner :: suspended else suspended
  | _ => suspended

/-- One operation, with the suspended holons. -/
def suspensionStep (op : ShopOp) (x : Shop × List String) : Shop × List String :=
  (x.1.exec op, x.1.suspendedAfter x.2 op)

/-- The operation is no negotiation of a suspended holon. -/
def Quiescent (x : Shop × List String) : ShopOp → Prop
  | .orderMove i input =>
    ∀ θ ∈ x.1.orders.intentions[i]?, θ.owner ∈ x.2 →
      ∀ a ∈ (OrderHolon.program.move (x.1.orderInput θ input)
        (x.1.orders.beliefs θ.owner) θ).actions, ¬ a.negotiates
  | _ => True

/-- The condition on an operation: a holon that acknowledges its suspension believes in it and
has no intention left that negotiates; a suspended holon answers no event by a negotiation,
and has no proposal when it answers `selectProposal`. -/
def SuspendedInTime (x : Shop × List String) : ShopOp → Prop
  | .orderSelect n =>
    n ∈ x.2 → ∀ e ∈ x.1.orders.events.find? (·.1 = n), ¬ e.2.renews (x.1.orders.beliefs n)
  | .orderMove i _ =>
    ∀ θ ∈ x.1.orders.intentions[i]?,
      (θ.head = some .sendSuspendAck → (x.1.orders.beliefs θ.owner).isSuspended ∧
        ∀ θ' ∈ x.1.orders.intentions, θ'.owner = θ.owner → AtRest θ') ∧
      (θ.owner ∈ x.2 → θ.pending.any (·.chooses) →
        OrderHolon.proposals (x.1.orders.beliefs θ.owner) = [])
  | _ => True

instance (x : Shop × List String) (op : ShopOp) : Decidable (Quiescent x op) :=
  match op with
  | .orderMove i _ => inferInstanceAs (Decidable (∀ θ ∈ x.1.orders.intentions[i]?, _))
  | .orderSelect _ | .stationSelect _ | .stationMove _ | .amrSelect _ | .amrMove _ _ | .deliver _
  | .supervisor _ _ | .orderTimer _ | .orderSignal _ | .stationTimer _ | .stationSignal _
  | .arrive _ | .transportBlocked _ _ | .finish _ _ _ | .orderEpoch _ _ | .stationEpoch _ _
  | .amrEpoch _ _ => .isTrue trivial

instance (x : Shop × List String) (op : ShopOp) : Decidable (SuspendedInTime x op) :=
  match op with
  | .orderSelect _ => inferInstanceAs (Decidable (_ → _))
  | .orderMove i _ => inferInstanceAs (Decidable (∀ θ ∈ x.1.orders.intentions[i]?, _))
  | .stationSelect _ | .stationMove _ | .amrSelect _ | .amrMove _ _ | .deliver _
  | .supervisor _ _ | .orderTimer _ | .orderSignal _ | .stationTimer _ | .stationSignal _
  | .arrive _ | .transportBlocked _ _ | .finish _ _ _ | .orderEpoch _ _ | .stationEpoch _ _
  | .amrEpoch _ _ => .isTrue trivial

/-! ## What the plans of a suspended holon do -/

/-- The suspended holons believe in their suspension, and no goal and no statement of theirs
leads to a negotiation. -/
def restProperty (suspended : List String) :
    Property String OrderBeliefs OrderTrigger OrderStmt where
  beliefs n b := n ∈ suspended → b.isSuspended
  event _ t := t.isEvent
  goal n t := n ∈ suspended → t.quiescent
  outer _ _ := True
  stmt n _ s := n ∈ suspended → s.quiescent

variable {suspended : List String} {n : String} {b : OrderBeliefs}

/-- The holon stays suspended, and what follows negotiates nothing. -/
def QuiescentOutcome : Outcome OrderBeliefs OrderTrigger OrderStmt OrderAction → Prop
  | .next b code acts =>
    b.isSuspended ∧ (∀ s ∈ code, s.quiescent) ∧ ∀ a ∈ acts, ¬ a.negotiates
  | .subgoal g => g.quiescent
  | .drop _ => True
  | .blocked => True
  | .failed acts => ∀ a ∈ acts, ¬ a.negotiates

section

attribute [local simp] OrderStmt.quiescent OrderTrigger.quiescent OrderTrigger.renews
  OrderTrigger.isEvent

/-- The plan for an event is quiescent, unless it renews a negotiation or ends the
suspension. -/
theorem plan_event (hb : b.isSuspended) {t : OrderTrigger} (ht : t.isEvent)
    (hrenews : ¬ t.renews b) (hresumes : ¬ t.resumes) {body : List OrderStmt}
    (hplan : OrderHolon.plan n b t = some body) : ∀ s ∈ body, s.quiescent := by
  cases t with
  | start => exact absurd rfl hrenews
  | timerExpired key k =>
    cases key with
    | batchWait =>
      simp only [OrderHolon.plan, hb, if_true] at hplan
      split at hplan
      · cases hplan
        simp
      · cases hplan
    | order o =>
      simp only [OrderHolon.plan] at hplan
      split at hplan
      · cases hplan
        simp
      · next hstate =>
        -- the proposal that has been chosen already
        split at hplan
        · next hstep =>
          exact absurd (by simp [hstate, hstep]) hrenews
        · cases hplan
      · cases hplan
    | await o =>
      cases hplan
      simp
    | stepwatch o =>
      simp only [OrderHolon.plan, hb, if_true] at hplan
      split at hplan
      · cases hplan
        simp
      · cases hplan
  | told m k =>
    obtain ⟨c, source⟩ := m
    cases c with
    | stepComplete o step =>
      simp only [OrderHolon.plan] at hplan
      split at hplan
      · next remaining hremaining =>
        split at hplan
        · next hwatchdog =>
          cases hplan
          have hempty : remaining = [] := by
            by_contra hne
            exact hrenews (by simp [hwatchdog, hremaining, hne])
          simp [hempty]
        · cases hplan
          simp
      · cases hplan
        simp
    | stepFailed o step reason => exact absurd rfl hrenews
    | abortCurrentOperation o =>
      simp only [OrderHolon.plan] at hplan
      split at hplan <;>
      · cases hplan
        simp
    | suspendIntentions =>
      simp only [OrderHolon.plan] at hplan
      split at hplan
      · cases hplan
        simp
      · cases hplan
    | resumeIntention =>
      simp only [OrderHolon.plan] at hplan
      split at hplan
      · next hsource => exact absurd (by simpa [OrderTrigger.resumes] using hsource) hresumes
      · cases hplan
    | transportDone o =>
      cases hplan
      simp
    | _ => cases hplan
  | schemaEpoch epoch =>
    simp only [OrderHolon.plan] at hplan
    split at hplan
    · cases hplan
      simp
    · cases hplan
  | _ => cases ht

/-- The plan for a goal of a suspended holon is quiescent, if there is no proposal to
choose. -/
theorem plan_goal_quiescent (hb : b.isSuspended) {t : OrderTrigger} (ht : t.quiescent)
    (hnone : t.chooses → OrderHolon.proposals b = [])
    {body : List OrderStmt} (hplan : OrderHolon.plan n b t = some body) :
    ∀ s ∈ body, s.quiescent := by
  cases t with
  | requestNextBatch =>
    simp only [OrderHolon.plan] at hplan
    split at hplan
    · cases hplan
      simp
    · cases hplan
  | selectProposal step stations o =>
    rw [OrderHolon.plan, hnone rfl] at hplan
    simp only [OrderHolon.cheapest, hb, if_true] at hplan
    cases hplan
    simp
  | reinitializeSchema =>
    cases hplan
    simp
  | _ => cases ht

/-- A quiescent statement comes to quiescent ones, and its actions are no negotiation. -/
theorem exec_quiescent {s : OrderStmt} (hb : b.isSuspended) (hs : s.quiescent) (x : OrderInput) :
    QuiescentOutcome (OrderHolon.exec n b s x) := by
  cases s with
  | achieve goal => exact hs
  | findStaleWatchdogs =>
    refine ⟨hb, fun s hs => ?_, by simp⟩
    obtain ⟨w, -, hw⟩ := List.mem_flatMap.mp hs
    simp only [List.mem_cons, List.not_mem_nil, or_false] at hw
    rcases hw with rfl | rfl <;> rfl
  | ifRemaining o step remaining =>
    obtain rfl : remaining = [] := by simpa using hs
    exact ⟨hb, by simp, by simp [OrderAction.negotiates]⟩
  | queryDispatchedAmr o k =>
    simp only [OrderHolon.exec]
    split
    · exact ⟨hb, by simp, by simp⟩
    · simp [QuiescentOutcome]
  | queryCnpWinner o k =>
    simp only [OrderHolon.exec]
    split
    · exact ⟨hb, by simp, by simp⟩
    · simp [QuiescentOutcome]
  | waitAbortAck o station =>
    simp only [OrderHolon.exec]
    split
    · exact ⟨hb, by simp, by simp⟩
    · trivial
  | rejectLosers winner o =>
    refine ⟨hb, fun s hs => ?_, by simp⟩
    obtain ⟨loser, -, rfl⟩ := List.mem_map.mp hs
    rfl
  | delIsSuspended | random | sendCallForProposal | reserveTransport | sendAcceptProposal
  | setCnpWinner | queryCurrentLocation | ifSlowAccept | waitStationStart | ifStarted => cases hs
  | dropIntention goals => trivial
  | addIsSuspended => exact ⟨rfl, by simp, by simp⟩
  | _ => exact ⟨hb, by simp, by simp [OrderAction.negotiates]⟩

end

theorem recovered_rest (t : OrderTrigger) :
    (restProperty suspended).Recovered OrderHolon.program n b t := by
  intro t' body h
  cases h

/-- What a statement comes to has the property, and negotiates nothing for a suspended
holon. -/
theorem exec_rest {t : OrderTrigger} {s : OrderStmt} {x : OrderInput}
    (hb : (restProperty suspended).beliefs n b) (hs : (restProperty suspended).stmt n t s) :
    (restProperty suspended).Outcome OrderHolon.program
      (fun a => n ∈ suspended → ¬ a.negotiates) n b t (OrderHolon.exec n b s x) := by
  have h := fun hn => exec_quiescent (n := n) (hb hn) (hs hn) x
  cases he : OrderHolon.exec n b s x with
  | next b' code acts =>
    rw [he] at h
    exact ⟨fun hn => (h hn).1, fun s hs hn => (h hn).2.1 s hs, fun a ha hn => (h hn).2.2 a ha⟩
  | subgoal g =>
    rw [he] at h
    exact ⟨h, trivial⟩
  | drop goals => trivial
  | blocked => trivial
  | failed acts =>
    rw [he] at h
    exact ⟨recovered_rest t, fun a ha hn => h hn a ha⟩

/-- An intention at rest. -/
theorem rest_of_atRest {θ : Intention String OrderTrigger OrderStmt}
    (hθ : (restProperty suspended).Intention θ) (hrest : AtRest θ) (more : List String) :
    (restProperty more).Intention θ := by
  obtain ⟨hpending, hgoals, hstmts⟩ := hrest
  constructor
  · have hstack : ∀ frames : List (Frame OrderTrigger OrderStmt),
        (∀ f ∈ frames.dropLast, f.trigger.quiescent) →
        (∀ f ∈ frames, ∀ s ∈ f.body, s.quiescent) →
        (restProperty more).Stack θ.owner frames := by
      intro frames
      induction frames with
      | nil => intros; trivial
      | cons f frames ih =>
        intro hg hs
        have hhead : ∀ s ∈ f.body, θ.owner ∈ more → s.quiescent :=
          fun s h _ => hs f List.mem_cons_self s h
        cases frames with
        | nil => exact hhead
        | cons f' frames =>
          rw [List.dropLast_cons_cons] at hg
          refine ⟨fun _ => hg f List.mem_cons_self, hhead, trivial, ih ?_ ?_⟩
          · exact fun f'' h => hg f'' (List.mem_cons_of_mem f h)
          · exact fun f'' h => hs f'' (List.mem_cons_of_mem f h)
    exact hstack θ.frames hgoals hstmts
  · intro g hg
    obtain ⟨-, f, hf, -⟩ := hθ.pending g hg
    exact ⟨fun _ => hpending g hg, f, hf, trivial⟩

/-- Every suspended holon is at rest. -/
def AllAtRest (x : Shop × List String) : Prop :=
  (restProperty x.2).All x.1.orders

theorem suspendedAfter_all {x : Shop × List String} {op : ShopOp} (hx : AllAtRest x)
    (hC : SuspendedInTime x op) :
    (restProperty (x.1.suspendedAfter x.2 op)).All x.1.orders := by
  -- fewer suspended holons
  have hfewer : ∀ l ⊆ x.2, (restProperty l).All x.1.orders := fun l hl =>
    hx.imp (fun _ h hn => h (hl hn)) (fun _ _ h => h) fun θ _ h =>
      h.imp (fun _ h hn => h (hl hn)) (fun _ h => h) fun _ _ _ _ h hn => h (hl hn)
  cases op with
  | orderSelect n =>
    simp only [suspendedAfter]
    split
    · exact hfewer _ fun _ h => List.mem_of_mem_filter h
    · exact hx
  | orderMove i input =>
    simp only [suspendedAfter]
    split
    · exact hx
    · next θ hθ =>
      split
      · next hack =>
        obtain ⟨hsuspended, hrest⟩ := (hC θ hθ).1 hack
        refine hx.imp (fun n hn hmem => ?_) (fun _ _ h => h) fun θ' hθ' h => ?_
        · rcases List.mem_cons.mp hmem with rfl | hmem
          · exact hsuspended
          · exact hn hmem
        · by_cases howner : θ'.owner = θ.owner
          · exact rest_of_atRest h (hrest θ' hθ' howner) _
          · have hmem : θ'.owner ∈ θ.owner :: x.2 → θ'.owner ∈ x.2 := fun hmem =>
              (List.mem_cons.mp hmem).resolve_left howner
            exact h.imp (fun _ h hn => h (hmem hn)) (fun _ h => h) fun _ _ _ _ h hn =>
              h (hmem hn)
      · exact hx
  | _ => exact hx

theorem orderEvent_isEvent {s : Shop} {op : ShopOp} {e : String × OrderTrigger}
    (he : s.orderEvent op = some e) : e.2.isEvent := by
  cases op with
  | deliver j =>
    obtain ⟨m, _, hm⟩ := Option.bind_eq_some_iff.mp he
    split at hm
    · cases hm
      rfl
    · cases hm
  | orderSignal j =>
    obtain ⟨t, _, rfl⟩ := Option.map_eq_some_iff.mp he
    rfl
  | orderEpoch n epoch =>
    cases he
    rfl
  | _ => cases he

/-- **One operation** leaves every suspended holon at rest, and is no negotiation of one. -/
theorem suspensionStep_rest {x : Shop × List String} {op : ShopOp} (hx : AllAtRest x)
    (hC : SuspendedInTime x op) : AllAtRest (suspensionStep op x) ∧ Quiescent x op := by
  have hL := suspendedAfter_all hx hC
  -- a move leaves the suspended holons at rest, and its actions are no negotiation of one
  have hmove : ∀ i input θ, op = .orderMove i input → x.1.orders.intentions[i]? = some θ →
      (restProperty (x.1.suspendedAfter x.2 op)).All (x.1.orders.apply i
        (OrderHolon.program.move (x.1.orderInput θ input) (x.1.orders.beliefs θ.owner) θ)) ∧
      ∀ a ∈ (OrderHolon.program.move (x.1.orderInput θ input)
        (x.1.orders.beliefs θ.owner) θ).actions,
        θ.owner ∈ x.1.suspendedAfter x.2 op → ¬ a.negotiates := by
    rintro i input θ rfl hθ
    have hb := hL.beliefs θ.owner
    have hbefore : θ.pending.any (·.chooses) →
        θ.owner ∈ x.1.suspendedAfter x.2 (.orderMove i input) → θ.owner ∈ x.2 := by
      intro hchooses hmem
      have hack : θ.head ≠ some .sendSuspendAck := by
        intro hhead
        obtain ⟨g, hg, -⟩ := (Option.any_eq_true _ _).mp hchooses
        rw [Intention.head, hg] at hhead
        cases hhead
      simpa [suspendedAfter, hθ, hack] using hmem
    apply Property.apply_move_of hL hθ
    · intro g hg body hgoal hbody s hs hn
      refine plan_goal_quiescent (n := θ.owner) (hb hn) (hgoal hn) (fun hchooses => ?_) hbody s hs
      have hany : θ.pending.any (·.chooses) := by rw [hg]; exact hchooses
      exact (hC θ hθ).2 (hbefore hany hn) hany
    · exact fun t _ => recovered_rest t
    · exact fun t _ => recovered_rest t
    · exact fun t s _ hs => exec_rest hb hs
  constructor
  · apply orders_rule (Q := (restProperty (x.1.suspendedAfter x.2 op)).All) hL
    · intro p n f hf hp
      refine hp.believe fun hn => ?_
      obtain ⟨told, heq⟩ := hf (p.beliefs n)
      rw [heq]
      exact hp.beliefs n hn
    · exact fun p e he hp => hp.post (orderEvent_isEvent he)
    · rintro n rfl
      refine hL.select fun e he body hbody s hs hn => ?_
      have hevent := hL.events e (List.mem_of_find?_eq_some he)
      simp only [suspendedAfter] at hn
      split at hn
      · -- a holon that is resumed is no longer suspended
        exact absurd hn (by simp)
      · next hresumes =>
        have hsuspended := hx.beliefs n hn
        refine plan_event (n := n) hsuspended hevent (hC hn e he) ?_ hbody s hs
        rw [Option.mem_def.mp he] at hresumes
        exact hresumes
    · exact fun i input θ hop hθ => (hmove i input θ hop hθ).1
  · cases op with
    | orderMove i input =>
      intro θ hθ hmem a ha
      refine (hmove i input θ rfl hθ).2 a ha ?_
      simp only [suspendedAfter, Option.mem_def.mp hθ]
      split
      · exact List.mem_cons_of_mem _ hmem
      · exact hmem
    | _ => trivial

/-! ## Runs -/

/-- **A suspended holon is quiescent.**  In every run in which a holon acknowledges its
suspension only when it believes in it and has no intention left that negotiates, and in which
a suspended holon answers no event by a negotiation and finds no proposal to choose, a holon
makes no call for proposals, accepts no proposal and reserves no transport from its
acknowledgement until it answers `resume_intention`. -/
theorem quiescent_along (c : ShopConfig) {ops : List ShopOp}
    (hops : Runs.Along suspensionStep SuspendedInTime (Shop.start c, []) ops) :
    Runs.Along suspensionStep Quiescent (Shop.start c, []) ops := by
  have hstart : AllAtRest (Shop.start c, []) := by
    refine ⟨fun n hn => ?_, fun e he => ?_, fun θ hθ => ?_⟩
    · cases hn
    · obtain ⟨n, -, rfl⟩ := List.mem_map.mp he
      rfl
    · cases hθ
  have hrun := Runs.Along.and_invariant (I := AllAtRest)
    (fun _ _ hx hC => (suspensionStep_rest hx hC).1) hstart hops
  exact hrun.imp fun _ _ h => (suspensionStep_rest h.1 h.2).2

/-- The order holon is suspended when its batch timer has expired but is not signalled; the
signal reaches it, and a change of the schema makes it start the timer anew, which expires as
well. -/
def suspendedRun : List ShopOp :=
  ShopOp.orderSelect "order_1" :: orderMoves 7 0 ++
    [ShopOp.orderTimer 0, .supervisor "order_1" .suspendOrder, .deliver 0,
      .orderSelect "order_1"] ++ orderMoves 7 1 ++
    [ShopOp.orderSignal 0, .orderSelect "order_1", .orderEpoch "order_1" 1,
      .orderSelect "order_1"] ++ orderMoves 4 2

theorem quiescent_suspendedRun :
    (Runs.run suspensionStep suspendedRun (Shop.start oneStation, [])).2 = ["order_1"] ∧
      Runs.Along suspensionStep Quiescent (Shop.start oneStation, []) suspendedRun :=
  ⟨by decide, quiescent_along oneStation (by decide)⟩

/-- The holon is suspended while it collects proposals and holds one; the window ends, and it
accepts the proposal. -/
theorem not_quiescent :
    ¬ ∀ (c : ShopConfig) (ops : List ShopOp),
      Runs.Along suspensionStep Quiescent (Shop.start c, []) ops := by
  intro h
  have := h oneStation (ShopOp.stationSelect "station_1" :: stationMoves 5 0 ++
    ShopOp.orderSelect "order_1" :: orderMoves 7 0 ++
    [ShopOp.orderTimer 0, .orderSignal 0, .orderSelect "order_1"] ++ orderMoves 10 1 ++
    [ShopOp.deliver 0, .stationSelect "station_1"] ++ stationMoves 6 1 ++
    [ShopOp.deliver 4, .supervisor "order_1" .suspendOrder, .deliver 4, .orderSelect "order_1",
      .orderSelect "order_1"] ++ orderMoves 7 2 ++
    [ShopOp.orderTimer 0, .orderSignal 0, .orderSelect "order_1"] ++ orderMoves 8 3)
  exact absurd this (by decide)

end Shop

end MatrixFactory
