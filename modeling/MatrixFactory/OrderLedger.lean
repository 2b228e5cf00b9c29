/-
# The ledger of the orders

An order holon records SUBMITTED when it spawns an order and COMPLETED when it takes the last
step as complete; the supervisor records ABORTED for every lock that is left when Phase 0 times
out.  The two do not know of each other.

If every number drawn is new, and the last step of an order is taken as complete, and the lock
of an order is read for its abort, only when the order has been submitted and neither has ended
nor is about to, then the ledger holds one SUBMITTED for each order and at most one end after
it.
-/
import MatrixFactory.Factory
import MatrixFactory.Reservations

namespace MatrixFactory

open AgentSpeak

/-- The item records the submission of `o`. -/
def submits (o : OrderId) : OrderItem → Bool
  | .inr (.recordEvent o' .submitted) => o' = o
  | _ => false

/-- The item leads to the record of the completion of `o`. -/
def completes (o : OrderId) : OrderItem → Bool
  | .inr (.ifRemaining o' _ []) | .inr (.recordEvent o' .completed) => o' = o
  | _ => false

/-- The order that the event completes, for a holon with these beliefs. -/
def OrderTrigger.lastStep (b : OrderBeliefs) : OrderTrigger → Option OrderId
  | .told ⟨.stepComplete o step, station⟩ _ =>
    if valueFor o b.recipeRemaining = some [] ∧ (o, step, station) ∈ b.stepWatchdog then some o
    else none
  | _ => none

/-- The items ahead, in all intentions of the order holons. -/
def Shop.ahead (q : OrderItem → Bool) (s : Shop) : ℕ :=
  (s.orders.intentions.map fun θ => θ.agenda.countP q).sum

/-- A goal leads to the records of the aborts of `o`. -/
def SupervisorTrigger.aborts (o : OrderId) : SupervisorTrigger → ℕ
  | .abortAllLocks locks => locks.countP (·.o = o)
  | _ => 0

/-- A statement leads to the records of the aborts of `o`. -/
def SupervisorStmt.aborts (o : OrderId) : SupervisorStmt → ℕ
  | .achieve g => g.aborts o
  | .recordAborted o' => if o' = o then 1 else 0
  | _ => 0

/-- Phase 0 has timed out, and the locks are read for their aborts. -/
def SupervisorStmt.readsLocks : SupervisorStmt → Bool
  | .getActiveLocks _ => true
  | _ => false

/-- The records of the aborts of `o` that are ahead. -/
def aborting (o : OrderId) : Weight Unit SupervisorTrigger SupervisorStmt where
  trigger _ := SupervisorTrigger.aborts o
  stmt _ := SupervisorStmt.aborts o

namespace Factory

/-! ## The property and the condition -/

/-- The events of an order, oldest first. -/
def history (o : OrderId) (ledger : List (OrderId × LedgerEvent)) : List LedgerEvent :=
  ((ledger.filter (·.1 = o)).map (·.2)).reverse

/-- The events of every order begin with its only SUBMITTED, and at most one COMPLETED or
ABORTED follows. -/
def WellRecorded (ledger : List (OrderId × LedgerEvent)) : Prop :=
  ∀ o, history o ledger = [] ∨ history o ledger = [.submitted] ∨
    history o ledger = [.submitted, .completed] ∨ history o ledger = [.submitted, .aborted]

/-- The order has been submitted; it has not ended, and neither its completion nor its abort is
under way. -/
def Unended (s : Factory) (o : OrderId) : Prop :=
  history o s.ledger = [.submitted] ∧ s.shop.ahead (completes o) = 0 ∧
    (aborting o).total s.supervision.agent = 0

/-- The number drawn for the order is new. -/
def Fresh (s : Factory) (o : OrderId) : Prop :=
  history o s.ledger = [] ∧ s.shop.ahead (submits o) = 0

/-- The condition on an operation: a number that is drawn is new; the last step of an order is
answered only if the order has not ended; and when Phase 0 has timed out, every lock that is
read is that of an order that has not ended. -/
def RecordsOnce (s : Factory) : FactoryOp → Prop
  | .shop (.orderSelect n) => ∀ e ∈ s.shop.orders.events.find? (·.1 = n),
    ∀ o ∈ e.2.lastStep (s.shop.orders.beliefs n), s.Unended o
  | .shop (.orderMove i x) => ∀ θ ∈ s.shop.orders.intentions[i]?,
    θ.head = some .random → s.Fresh ⟨θ.owner, x.random⟩
  | .supervise (.move i _) => ∀ θ ∈ s.supervision.agent.intentions[i]?,
    θ.head.any (·.readsLocks) → ∀ p ∈ s.shop.registry, s.Unended p.1
  | _ => True

instance (s : Factory) (o : OrderId) : Decidable (s.Unended o) :=
  inferInstanceAs (Decidable (_ ∧ _))

instance (s : Factory) (o : OrderId) : Decidable (s.Fresh o) :=
  inferInstanceAs (Decidable (_ ∧ _))

instance (s : Factory) (op : FactoryOp) : Decidable (s.RecordsOnce op) :=
  match op with
  | .shop op =>
    match op with
    | .orderSelect n => (inferInstance : Decidable (∀ e ∈ s.shop.orders.events.find? (·.1 = n),
        ∀ o ∈ e.2.lastStep (s.shop.orders.beliefs n), s.Unended o))
    | .orderMove i x => (inferInstance : Decidable (∀ θ ∈ s.shop.orders.intentions[i]?,
        θ.head = some .random → s.Fresh ⟨θ.owner, x.random⟩))
    | .stationSelect _ | .stationMove _ | .amrSelect _ | .amrMove _ _ | .deliver _
    | .supervisor _ _ | .orderTimer _ | .orderSignal _ | .stationTimer _ | .stationSignal _
    | .arrive _ | .transportBlocked _ _ | .finish _ _ _ | .orderEpoch _ _ | .stationEpoch _ _
    | .amrEpoch _ _ => .isTrue trivial
  | .supervise op =>
    match op with
    | .move i _ => (inferInstance : Decidable (∀ θ ∈ s.supervision.agent.intentions[i]?,
        θ.head.any (·.readsLocks) → ∀ p ∈ s.shop.registry, s.Unended p.1))
    | .select | .expire _ | .signal _ | .energyPriceSpike _ | .energyPriceNormal _
    | .suspendAck _ | .transportBlocked _ _ | .clearCommittedTransition => .isTrue trivial
  | .ack _ => .isTrue trivial

/-! ## What an order holon records -/

section

variable {n : String} {b : OrderBeliefs} {x : OrderInput} {o : OrderId}

theorem plain_idle {stmt : OrderStmt} (h : stmt.plain) :
    submits o (.inr stmt) = false ∧ completes o (.inr stmt) = false := by
  cases stmt with
  | recordEvent o' e => cases h
  | ifRemaining o' step remaining => cases h
  | _ => exact ⟨rfl, rfl⟩

/-- A plan records nothing, and only that for `step_complete` leads to the record of a
completion. -/
theorem plan_submits {t : OrderTrigger} {body : List OrderStmt}
    (h : OrderHolon.plan n b t = some body) : (body.map Sum.inr).countP (submits o) = 0 := by
  refine List.countP_eq_zero.mpr fun y hy => ?_
  obtain ⟨stmt, hstmt, rfl⟩ := List.mem_map.mp hy
  rcases Shop.plan_plain h stmt hstmt with hplain | ⟨_, rfl, -⟩ | ⟨rfl, -⟩ |
    ⟨_, _, _, _, _, rfl, -⟩
  · simp [plain_idle hplain]
  all_goals simp [submits]

theorem plan_completes {t : OrderTrigger} {body : List OrderStmt}
    (h : OrderHolon.plan n b t = some body) :
    (body.map Sum.inr).countP (completes o) ≤ if t.lastStep b = some o then 1 else 0 := by
  by_cases ht : ∃ o' step station k, t = .told ⟨.stepComplete o' step, station⟩ k
  · obtain ⟨o', step, station, k, rfl⟩ := ht
    simp only [OrderHolon.plan] at h
    split at h
    · next remaining hremaining =>
      split at h <;> cases h
      · next hwatchdog =>
        cases remaining with
        | nil => simp [completes, OrderTrigger.lastStep, hremaining, hwatchdog, List.countP_cons]
        | cons next rest => simp [completes]
      · simp
    · cases h
      simp
  · have hnone : (body.map Sum.inr).countP (completes o) = 0 := by
      refine List.countP_eq_zero.mpr fun y hy => ?_
      obtain ⟨stmt, hstmt, rfl⟩ := List.mem_map.mp hy
      rcases Shop.plan_plain h stmt hstmt with hplain | ⟨_, rfl, -⟩ | ⟨rfl, -⟩ |
        ⟨o', step, _, station, k, rfl, heq⟩
      · simp [plain_idle hplain]
      · simp [completes]
      · simp [completes]
      · exact absurd ⟨o', step, station, k, heq⟩ ht
    omega

/-- A statement records a submission if it spawns the order. -/
theorem exec_submits {b' : OrderBeliefs} {stmt : OrderStmt} {code : List OrderStmt}
    {acts : List OrderAction} (he : OrderHolon.exec n b stmt x = .next b' code acts) :
    (code.map Sum.inr).countP (submits o)
      ≤ if stmt = .random ∧ o = ⟨n, x.random⟩ then 1 else 0 := by
  by_cases hrandom : stmt = .random
  · subst hrandom
    cases he
    by_cases ho : o = ⟨n, x.random⟩
    · simp [submits, ho]
    · simp [submits, Ne.symm ho]
  · have hnone : (code.map Sum.inr).countP (submits o) = 0 := by
      refine List.countP_eq_zero.mpr fun y hy => ?_
      obtain ⟨stmt', hstmt', rfl⟩ := List.mem_map.mp hy
      rcases Shop.exec_plain he stmt' hstmt' with hplain | ⟨heq, -⟩ | ⟨_, _, -, rfl⟩
      · simp [plain_idle hplain]
      · exact absurd heq hrandom
      · simp [submits]
    omega

/-- A statement leads to the record of a completion if it did so before. -/
theorem exec_completes {b' : OrderBeliefs} {stmt : OrderStmt} {code : List OrderStmt}
    {acts : List OrderAction} (he : OrderHolon.exec n b stmt x = .next b' code acts) :
    (code.map Sum.inr).countP (completes o) ≤ [Sum.inr stmt].countP (completes o) := by
  by_cases hlast : ∃ o' step, stmt = .ifRemaining o' step []
  · obtain ⟨o', step, rfl⟩ := hlast
    cases he
    simp [completes, List.countP_cons]
  · have hnone : (code.map Sum.inr).countP (completes o) = 0 := by
      refine List.countP_eq_zero.mpr fun y hy => ?_
      obtain ⟨stmt', hstmt', rfl⟩ := List.mem_map.mp hy
      rcases Shop.exec_plain he stmt' hstmt' with hplain | ⟨-, rfl⟩ | ⟨o', step, heq, -⟩
      · simp [plain_idle hplain]
      · simp [completes]
      · exact absurd ⟨o', step, heq⟩ hlast
    omega

/-- What is recorded of an agenda, and what follows its head. -/
theorem advance_records {l : List OrderItem} (h : Shop.GoalsOnly l) :
    (OrderHolon.program.advance x n b l).countP (submits o) ≤ l.countP (submits o)
        + (if l.head? = some (.inr .random) ∧ o = ⟨n, x.random⟩ then 1 else 0) ∧
      (OrderHolon.program.advance x n b l).countP (completes o) ≤ l.countP (completes o) := by
  cases l with
  | nil => simp [Program.advance]
  | cons y rest =>
    have hsubmits := List.countP_cons (p := submits o) (a := y) (l := rest)
    have hcompletes := List.countP_cons (p := completes o) (a := y) (l := rest)
    cases y with
    | inl g =>
      have hgoal := h _ List.mem_cons_self g (Or.inl rfl)
      simp only [Program.advance, OrderHolon.program]
      split
      · next body hplan =>
        have hno : g.lastStep b = none := by
          cases g with
          | told m k => cases hgoal
          | _ => rfl
        have hs := plan_submits (o := o) hplan
        have hc := plan_completes (o := o) hplan
        rw [hno] at hc
        simp only [reduceCtorEq, if_false] at hc
        rw [List.countP_append, List.countP_append]
        omega
      · simp
    | inr stmt =>
      simp only [Program.advance, OrderHolon.program]
      split
      · next he =>
        have hs := exec_submits (o := o) he
        have hc := exec_completes (o := o) he
        rw [List.countP_append, List.countP_append]
        simp only [List.countP_singleton] at hc
        have hhead : (Sum.inr stmt :: rest : List OrderItem).head? = some (.inr .random) ↔
            stmt = .random := by simp
        simp only [hhead]
        omega
      · next g he =>
        obtain rfl := Shop.exec_subgoal he
        have hs : (Sum.inl g :: rest : List OrderItem).countP (submits o)
            = rest.countP (submits o) := List.countP_cons_of_neg (by simp [submits])
        have hc : (Sum.inl g :: rest : List OrderItem).countP (completes o)
            = rest.countP (completes o) := List.countP_cons_of_neg (by simp [completes])
        omega
      · omega
      · exact ⟨Nat.le_add_right _ _, le_rfl⟩
      · simp

end

/-! ## What is ahead -/

/-- Answering an event. -/
theorem ahead_select {s : Shop} {m : String} (q : OrderItem → Bool) :
    (s.exec (.orderSelect m)).ahead q ≤ s.ahead q +
      (((s.orders.events.find? (·.1 = m)).bind fun e =>
        OrderHolon.plan m (s.orders.beliefs m) e.2).elim 0 fun body =>
          (body.map Sum.inr).countP q) := by
  simp only [Shop.exec, Population.select, Shop.ahead]
  split
  · exact Nat.le_add_right _ _
  · next e he =>
    rw [he, Option.bind_some]
    split
    · exact Nat.le_add_right _ _
    · next body hbody =>
      have hplan : OrderHolon.plan m (s.orders.beliefs m) e.2 = some body := hbody
      have hagenda : (⟨m, none, Program.settle [⟨e.2, body⟩]⟩ :
          Intention String OrderTrigger OrderStmt).agenda = body.map Sum.inr := by
        simp [Intention.agenda, Program.settle_body]
      simp only [hplan, List.map_append, List.sum_append, List.map_cons, List.map_nil,
        List.sum_cons, List.sum_nil, hagenda, Option.elim_some]
      omega

/-- A move. -/
theorem ahead_move {s : Shop} {i : ℕ} {x : OrderInput} (q : OrderItem → Bool)
    {θ : Intention String OrderTrigger OrderStmt} (hi : s.orders.intentions[i]? = some θ)
    (hθ : θ.Settled) :
    (s.exec (.orderMove i x)).ahead q + θ.agenda.countP q ≤ s.ahead q
      + (OrderHolon.program.advance (s.orderInput θ x) θ.owner (s.orders.beliefs θ.owner)
          θ.agenda).countP q := by
  obtain ⟨-, hadvance, -⟩ := OrderHolon.program.move_agenda (fun _ => rfl)
    (s.orderInput θ x) (s.orders.beliefs θ.owner) hθ
  have hsum := Weight.sum_apply_le (fun θ => θ.agenda.countP q) hi
    (OrderHolon.program.move (s.orderInput θ x) (s.orders.beliefs θ.owner) θ)
  rw [hadvance] at hsum
  simp only [Shop.exec, Shop.orderMove, hi, Shop.ahead]
  rw [run_proj (g := Shop.orders) (by simp)]
  exact hsum

/-- Other operations leave the intentions of the order holons. -/
theorem ahead_others {s : Shop} {op : ShopOp} (hselect : ∀ n, op ≠ .orderSelect n)
    (hmove : ∀ i x, op ≠ .orderMove i x) (q : OrderItem → Bool) :
    (s.exec op).ahead q = s.ahead q := by
  have hsame : (s.exec op).orders.intentions = s.orders.intentions := by
    apply Shop.orders_rule (Q := fun p => p.intentions = s.orders.intentions) rfl
    · exact fun p n f _ hp => hp
    · exact fun p e _ hp => hp
    · exact fun n hop => absurd hop (hselect n)
    · exact fun i x _ hop => absurd hop (hmove i x)
  rw [Shop.ahead, Shop.ahead, hsame]

/-! ## What the supervisor records -/

section

variable {r : Roster} {b : SupervisorBeliefs} {o : OrderId}

theorem aborting_plan {t : SupervisorTrigger} {body : List SupervisorStmt}
    (h : SupervisorAgent.plan r () b t = some body) :
    (aborting o).body () body ≤ t.aborts o := by
  by_cases hlocks : ∃ lock rest, t = .abortAllLocks (lock :: rest)
  · obtain ⟨⟨o', station, orderHolon⟩, rest, rfl⟩ := hlocks
    cases h
    show 0 + (0 + ((if o' = o then 1 else 0) + (rest.countP (·.o = o) + 0)))
      ≤ (⟨o', station, orderHolon⟩ :: rest : List Lock).countP (·.o = o)
    rw [List.countP_cons]
    simp only [decide_eq_true_eq]
    omega
  · have hnone : ∀ stmt ∈ body, stmt.aborts o = 0 := by
      cases t with
      | abortAllLocks locks =>
        cases locks with
        | nil =>
          cases h
          simp
        | cons lock rest => exact absurd ⟨lock, rest, rfl⟩ hlocks
      | resumeSuspendedHolons =>
        simp only [SupervisorAgent.plan] at h
        split at h <;> cases h
        intro stmt hstmt
        rcases List.mem_append.mp hstmt with hstmt | hstmt
        · obtain ⟨holon, -, rfl⟩ := List.mem_map.mp hstmt
          rfl
        · obtain rfl := List.mem_singleton.mp hstmt
          rfl
      | sendSuspendToAll holons k | awaitPhase1Acks holons k =>
        cases holons <;> cases h <;> simp [SupervisorStmt.aborts, SupervisorTrigger.aborts]
      | timerExpired key k =>
        cases key <;> cases h <;> simp [SupervisorStmt.aborts, SupervisorTrigger.aborts]
      | energyPriceSpike | energyPriceNormal | doCommit | transportBlocked | checkGridResume =>
        simp only [SupervisorAgent.plan] at h
        repeat' split at h
        all_goals cases h
        all_goals simp [SupervisorStmt.aborts, SupervisorTrigger.aborts]
      | _ =>
        cases h
        simp [SupervisorStmt.aborts, SupervisorTrigger.aborts]
    have hzero : (aborting o).body () body = 0 :=
      List.sum_eq_zero fun k hk => by
        obtain ⟨stmt, hstmt, rfl⟩ := List.mem_map.mp hk
        exact hnone stmt hstmt
    omega

/-- The records of aborts among actions. -/
def recorded (o : OrderId) : SupervisorAction → ℕ
  | .recordAborted o' => if o' = o then 1 else 0
  | _ => 0

/-- Only reading the locks leads to records that were not ahead. -/
theorem aborting_exec (stmt : SupervisorStmt) (x : SupervisorInput) :
    (aborting o).Outcome (recorded o) () (stmt.aborts o
        + if stmt.readsLocks then x.locks.countP (·.o = o) else 0)
      (SupervisorAgent.exec () b stmt x) := by
  cases stmt with
  | achieve g => simp [SupervisorAgent.exec, Weight.Outcome, aborting, SupervisorStmt.aborts]
  | getActiveLocks k =>
    simp [SupervisorAgent.exec, Weight.Outcome, aborting, SupervisorStmt.aborts,
      SupervisorTrigger.aborts, SupervisorStmt.readsLocks]
  | ifDrained | ifPendingRevert | ifSaturated | ifNormal | waitSuspendAck | queryActiveHolons
  | findLowPriority =>
    simp only [SupervisorAgent.exec, SupervisorStmt.readsLocks, Bool.false_eq_true, if_false]
    split <;> simp [Weight.Outcome, aborting, SupervisorStmt.aborts, SupervisorTrigger.aborts]
  | _ =>
    simp [SupervisorAgent.exec, Weight.Outcome, aborting, SupervisorStmt.aborts,
      SupervisorTrigger.aborts, recorded]

end

/-! ## One operation -/

/-- The events of an order, and the records of it that are ahead. -/
def OrderOk (events : List LedgerEvent) (submissions completions aborts : ℕ) : Prop :=
  (events = [] ∧ submissions ≤ 1 ∧ completions + aborts = 0) ∨
    (events = [.submitted] ∧ submissions = 0 ∧ completions + aborts ≤ 1) ∨
    ((events = [.submitted, .completed] ∨ events = [.submitted, .aborted]) ∧ submissions = 0 ∧
      completions + aborts = 0)

theorem OrderOk.mono {events : List LedgerEvent} {a a' b b' c c' : ℕ} (h : OrderOk events a b c)
    (ha : a' ≤ a) (hb : b' ≤ b) (hc : c' ≤ c) : OrderOk events a' b' c' := by
  rcases h with ⟨h, ha', hb'⟩ | ⟨h, ha', hb'⟩ | ⟨h, ha', hb'⟩
  · exact Or.inl ⟨h, by omega, by omega⟩
  · exact Or.inr (Or.inl ⟨h, by omega, by omega⟩)
  · exact Or.inr (Or.inr ⟨h, by omega, by omega⟩)

/-- An order that has not ended may be about to. -/
theorem OrderOk.begin_end {events : List LedgerEvent} {a b c b' c' : ℕ} (h : OrderOk events a b c)
    (hevents : events = [.submitted]) (hend : b' + c' ≤ 1) : OrderOk events a b' c' := by
  rcases h with ⟨hnone, -⟩ | ⟨-, ha, -⟩ | ⟨hended, -⟩
  · rw [hnone] at hevents
    cases hevents
  · exact Or.inr (Or.inl ⟨hevents, ha, hend⟩)
  · rcases hended with hended | hended <;>
    · rw [hended] at hevents
      cases hevents

/-- Aborts that were ahead are recorded. -/
theorem OrderOk.abort {events : List LedgerEvent} {a b c c' d : ℕ} (h : OrderOk events a b c)
    (hd : c' + d ≤ c) : OrderOk (events ++ List.replicate d .aborted) a b c' := by
  cases d with
  | zero =>
    rw [List.replicate_zero, List.append_nil]
    exact h.mono le_rfl le_rfl (by omega)
  | succ d =>
    rcases h with ⟨-, -, hnone⟩ | ⟨hevents, ha, hone⟩ | ⟨-, -, hnone⟩
    · omega
    · obtain rfl : d = 0 := by omega
      rw [hevents]
      exact Or.inr (Or.inr ⟨Or.inr rfl, ha, by omega⟩)
    · omega

/-- The records of an order, those that are ahead included. -/
def RecordsOk (s : Factory) (o : OrderId) : Prop :=
  OrderOk (history o s.ledger) (s.shop.ahead (submits o)) (s.shop.ahead (completes o))
    ((aborting o).total s.supervision.agent)

/-- The invariant. -/
structure LedgerInvariant (s : Factory) : Prop where
  goals : Shop.GoalsApart s.shop.orders
  keys : (s.shop.registry.map (·.1)).Nodup
  records : ∀ o, s.RecordsOk o

theorem history_cons (o o' : OrderId) (e : LedgerEvent) (ledger : List (OrderId × LedgerEvent)) :
    history o ((o', e) :: ledger)
      = if o' = o then history o ledger ++ [e] else history o ledger := by
  unfold history
  by_cases ho : o' = o
  · rw [if_pos ho, List.filter_cons_of_pos (by simpa using ho), List.map_cons, List.reverse_cons]
  · rw [if_neg ho, List.filter_cons_of_neg (by simpa using ho)]

variable {s : Factory}

/-- An operation of the shop floor that is no answer and no move of an order holon. -/
theorem ledgerInvariant_others {op : ShopOp} (h : LedgerInvariant s)
    (hselect : ∀ n, op ≠ .orderSelect n) (hmove : ∀ i x, op ≠ .orderMove i x)
    {acks : List String} :
    LedgerInvariant { s with shop := s.shop.exec op, acks := acks } := by
  refine ⟨Shop.goalsApart_exec h.goals, Shop.keys_exec h.keys, fun o => ?_⟩
  simp only [RecordsOk, ahead_others hselect hmove]
  exact h.records o

/-- An answer of an order holon. -/
theorem ledgerInvariant_select {n : String} (h : LedgerInvariant s)
    (hC : s.RecordsOnce (.shop (.orderSelect n))) {acks : List String} :
    LedgerInvariant { s with shop := s.shop.exec (.orderSelect n), acks := acks } := by
  refine ⟨Shop.goalsApart_exec h.goals, Shop.keys_exec h.keys, fun o => ?_⟩
  show OrderOk (history o s.ledger) ((s.shop.exec (.orderSelect n)).ahead (submits o))
    ((s.shop.exec (.orderSelect n)).ahead (completes o))
    ((aborting o).total s.supervision.agent)
  have hs := ahead_select (s := s.shop) (m := n) (submits o)
  have hc := ahead_select (s := s.shop) (m := n) (completes o)
  cases he : s.shop.orders.events.find? (·.1 = n) with
  | none =>
    rw [he] at hs hc
    exact (h.records o).mono hs hc le_rfl
  | some e =>
    rw [he, Option.bind_some] at hs hc
    cases hplan : OrderHolon.plan n (s.shop.orders.beliefs n) e.2 with
    | none =>
      rw [hplan] at hs hc
      exact (h.records o).mono hs hc le_rfl
    | some body =>
      rw [hplan, Option.elim_some] at hs hc
      rw [plan_submits hplan] at hs
      have hle := plan_completes (o := o) hplan
      by_cases hlast : e.2.lastStep (s.shop.orders.beliefs n) = some o
      · obtain ⟨hhistory, hcompletes, haborts⟩ := hC e he o hlast
        rw [if_pos hlast] at hle
        exact ((h.records o).mono hs le_rfl le_rfl).begin_end hhistory (by omega)
      · rw [if_neg hlast] at hle
        exact (h.records o).mono hs (by omega) le_rfl

/-- A record of an order holon takes the place of what was ahead. -/
theorem advance_recorded (n : String) (b : OrderBeliefs) (x : OrderInput) (o o' : OrderId)
    (e : OrderEvent) (rest : List OrderItem) :
    OrderHolon.program.advance x n b (.inr (.recordEvent o' e) :: rest) = rest ∧
      (.inr (.recordEvent o' e) :: rest : List OrderItem).countP (submits o)
        = rest.countP (submits o) + (if e = .submitted ∧ o' = o then 1 else 0) ∧
      (.inr (.recordEvent o' e) :: rest : List OrderItem).countP (completes o)
        = rest.countP (completes o) + if e = .completed ∧ o' = o then 1 else 0 := by
  refine ⟨rfl, ?_, ?_⟩ <;> rw [List.countP_cons] <;> cases e <;> simp [submits, completes]

/-- A move of an order holon. -/
theorem ledgerInvariant_move {i : ℕ} {x : OrderInput} (h : LedgerInvariant s)
    (hC : s.RecordsOnce (.shop (.orderMove i x))) {acks : List String} :
    LedgerInvariant { s with
      shop := s.shop.exec (.orderMove i x)
      acks := acks
      ledger := ((s.shop.recorded (.orderMove i x)).map fun p => (p.1, p.2.ledger)).toList
        ++ s.ledger } := by
  refine ⟨Shop.goalsApart_exec h.goals, Shop.keys_exec h.keys, fun o => ?_⟩
  show OrderOk (history o (((s.shop.recorded (.orderMove i x)).map
      fun p => (p.1, p.2.ledger)).toList ++ s.ledger))
    ((s.shop.exec (.orderMove i x)).ahead (submits o))
    ((s.shop.exec (.orderMove i x)).ahead (completes o))
    ((aborting o).total s.supervision.agent)
  have hok := h.records o
  cases hi : s.shop.orders.intentions[i]? with
  | none =>
    have hsame : s.shop.exec (.orderMove i x) = s.shop := by simp [Shop.exec, Shop.orderMove, hi]
    rw [hsame, Shop.recorded, hi]
    exact hok
  | some θ =>
    have hsettled := h.goals.agendas.settled hi
    have hs := ahead_move (x := x) (submits o) hi hsettled
    have hc := ahead_move (x := x) (completes o) hi hsettled
    by_cases hrecord : ∃ o' e, θ.head = some (.recordEvent o' e)
    · obtain ⟨o', e, hhead⟩ := hrecord
      obtain ⟨rest, hagenda⟩ := Program.agenda_of_head hhead
      obtain ⟨hadvance, hsubmits, hcompletes⟩ := advance_recorded θ.owner
        (s.shop.orders.beliefs θ.owner) (s.shop.orderInput θ x) o o' e rest
      rw [hagenda, hadvance] at hs hc
      rw [hsubmits] at hs
      rw [hcompletes] at hc
      have hrecorded : s.shop.recorded (.orderMove i x) = some (o', e) := by
        simp only [Shop.recorded, hi, Option.bind_some, hhead]
      rw [hrecorded, Option.map_some, Option.toList_some, List.singleton_append, history_cons]
      by_cases ho : o' = o
      · simp only [ho, and_true, if_true] at hs hc ⊢
        cases e with
        | submitted =>
          simp only [if_true, reduceCtorEq, if_false] at hs hc
          rcases hok with ⟨hhistory, ha, hb⟩ | ⟨-, ha, -⟩ | ⟨-, ha, -⟩
          · rw [hhistory]
            exact Or.inr (Or.inl ⟨rfl, by omega, by omega⟩)
          · omega
          · omega
        | completed =>
          simp only [if_true, reduceCtorEq, if_false] at hs hc
          rcases hok with ⟨-, -, hb⟩ | ⟨hhistory, ha, hb⟩ | ⟨-, -, hb⟩
          · omega
          · rw [hhistory]
            exact Or.inr (Or.inr ⟨Or.inl rfl, by omega, by omega⟩)
          · omega
      · simp only [ho, and_false, if_false] at hs hc ⊢
        exact hok.mono (by omega) (by omega) le_rfl
    · have hrecorded : s.shop.recorded (.orderMove i x) = none := by
        simp only [Shop.recorded, hi, Option.bind_some]
        split
        · next o' e hhead => exact absurd ⟨o', e, hhead⟩ hrecord
        · rfl
      rw [hrecorded]
      obtain ⟨hsubmits, hcompletes⟩ := advance_records (n := θ.owner)
        (b := s.shop.orders.beliefs θ.owner) (x := s.shop.orderInput θ x) (o := o)
        (h.goals.agendas.get hi)
      rw [show (s.shop.orderInput θ x).random = x.random from rfl] at hsubmits
      by_cases hrandom : θ.agenda.head? = some (.inr .random) ∧ o = ⟨θ.owner, x.random⟩
      · -- the number drawn is new
        obtain ⟨hhead, rfl⟩ := hrandom
        obtain ⟨rest, hagenda⟩ := List.head?_eq_some_iff.mp hhead
        obtain ⟨hhistory, hnone⟩ := hC θ hi (Program.head_of_agenda hsettled hagenda)
        rw [RecordsOk, hhistory] at hok
        rcases hok with ⟨-, ha, hb⟩ | ⟨hsome, -⟩ | ⟨hsome, -⟩
        · refine Or.inl ⟨hhistory, ?_, by omega⟩
          split at hsubmits <;> omega
        · cases hsome
        · rcases hsome with hsome | hsome <;> cases hsome
      · rw [if_neg hrandom] at hsubmits
        exact hok.mono (by omega) (by omega) le_rfl

/-- Messages of the supervisor leave the holons and the registry as they are. -/
theorem act_orders (r : Roster) (a : SupervisorAction) (s : Factory) :
    ((act r a s).shop.orders, (act r a s).shop.registry, (act r a s).supervision)
      = (s.shop.orders, s.shop.registry, s.supervision) := by
  cases a <;> rfl

/-- The events of an order after actions of the supervisor. -/
theorem history_run_act (r : Roster) (o : OrderId) (acts : List SupervisorAction) (s : Factory) :
    history o (Runs.run (act r) acts s).ledger
      = history o s.ledger ++ List.replicate (acts.map (recorded o)).sum .aborted := by
  induction acts generalizing s with
  | nil => simp
  | cons a acts ih =>
    rw [Runs.run_cons, ih, List.map_cons, List.sum_cons, List.replicate_add, ← List.append_assoc]
    congr 1
    cases a with
    | recordAborted o' =>
      simp only [act, history_cons, recorded]
      split <;> simp
    | _ => simp [act, tell, recorded]

/-- The locks that a move reads are those of the registry. -/
theorem countP_locks (o : OrderId) (x : SupervisorInput) (s : Factory) :
    (s.supervision.input (s.input x)).locks.countP (·.o = o)
      = (s.shop.registry.map (·.1)).count o := by
  rw [List.count_eq_countP, List.countP_map]
  show (s.shop.registry.map fun p => (⟨p.1, p.2.1, p.2.2⟩ : Lock)).countP _ = _
  rw [List.countP_map]
  refine List.countP_congr fun p _ => ?_
  simp

/-- What a move of the supervisor records, and what it is about to record. -/
theorem aborting_move {r : Roster} {i : ℕ} {x : SupervisorInput}
    {θ : Intention Unit SupervisorTrigger SupervisorStmt}
    (hi : s.supervision.agent.intentions[i]? = some θ) (o : OrderId) :
    (aborting o).total (s.supervision.exec r (.move i (s.input x))).agent
        + (((SupervisorAgent.program r).move (s.supervision.input (s.input x))
          (s.supervision.agent.beliefs ()) θ).actions.map (recorded o)).sum
      ≤ (aborting o).total s.supervision.agent
        + if θ.head.any (·.readsLocks) then (s.shop.registry.map (·.1)).count o else 0 := by
  have hplan : (aborting o).Plans (SupervisorAgent.program r) θ.owner
      (s.supervision.agent.beliefs ()) :=
    ⟨fun _ _ hbody => aborting_plan hbody, fun _ _ _ h => nomatch h⟩
  have hmove := Weight.move (x := s.supervision.input (s.input x)) (θ := θ) (recorded o)
    (if θ.head.any (·.readsLocks) then (s.shop.registry.map (·.1)).count o else 0) hplan
    (fun stmt hhead => by
      have hexec := aborting_exec (b := s.supervision.agent.beliefs ()) (o := o) stmt
        (s.supervision.input (s.input x))
      rw [countP_locks] at hexec
      rw [hhead]
      exact hexec)
  have happly := Weight.apply (w := aborting o) hi
    ((SupervisorAgent.program r).move (s.supervision.input (s.input x))
      (s.supervision.agent.beliefs ()) θ)
  rw [← Supervision.move_agent hi] at happly
  simp only [Supervision.exec]
  omega

/-- A move of the supervisor. -/
theorem ledgerInvariant_supervise {r : Roster} {i : ℕ} {x : SupervisorInput}
    (h : LedgerInvariant s) (hC : s.RecordsOnce (.supervise (.move i x))) :
    LedgerInvariant (s.superviseMove r i x) := by
  unfold superviseMove
  split
  · exact h
  · next θ hi =>
    dsimp only
    have hsame := run_proj
      (g := fun s : Factory => (s.shop.orders, s.shop.registry, s.supervision)) (act_orders r)
      ((SupervisorAgent.program r).move (s.supervision.input (s.input x))
        (s.supervision.agent.beliefs ()) θ).actions
      { s with supervision := s.supervision.exec r (.move i (s.input x)) }
    obtain ⟨horders, hrest⟩ := Prod.mk.inj hsame
    obtain ⟨hregistry, hsupervision⟩ := Prod.mk.inj hrest
    refine ⟨by rw [horders]; exact h.goals, by rw [hregistry]; exact h.keys, fun o => ?_⟩
    rw [RecordsOk, Shop.ahead, Shop.ahead, horders, hsupervision, history_run_act]
    show OrderOk (history o s.ledger ++ _) (s.shop.ahead (submits o)) (s.shop.ahead (completes o))
      ((aborting o).total (s.supervision.exec r (.move i (s.input x))).agent)
    have hmove := aborting_move (r := r) (x := x) hi o
    have hok := h.records o
    by_cases hread : θ.head.any (·.readsLocks) ∧ o ∈ s.shop.registry.map (·.1)
    · -- the lock of an order that has not ended is read
      obtain ⟨hreads, hmem⟩ := hread
      obtain ⟨p, hp, rfl⟩ := List.mem_map.mp hmem
      obtain ⟨hhistory, hcompletes, haborts⟩ := hC θ hi hreads p hp
      rw [if_pos hreads, haborts] at hmove
      have hcount := List.nodup_iff_count_le_one.mp h.keys p.1
      have hone : OrderOk (history p.1 s.ledger) (s.shop.ahead (submits p.1))
          (s.shop.ahead (completes p.1)) 1 := hok.begin_end hhistory (by omega)
      exact hone.abort (by omega)
    · have hcount : (if θ.head.any (·.readsLocks) then
          (s.shop.registry.map (·.1)).count o else 0) = 0 := by
        split
        · next hreads => exact List.count_eq_zero.mpr fun hmem => hread ⟨hreads, hmem⟩
        · rfl
      exact OrderOk.abort hok (by omega)

/-- What surrounds the supervisor leads to no record. -/
theorem aborting_surroundings {r : Roster} {op : SupervisionOp} (hop : ∀ i x, op ≠ .move i x)
    (o : OrderId) (v : Supervision) :
    (aborting o).total (v.exec r op).agent ≤ (aborting o).total v.agent := by
  cases op with
  | move i x => exact absurd rfl (hop i x)
  | select => exact Weight.select ⟨fun _ _ hbody => aborting_plan hbody, fun _ _ _ h => nomatch h⟩
  | expire j =>
    simp only [Supervision.exec]
    split <;> exact le_rfl
  | signal j =>
    simp only [Supervision.exec]
    split
    · exact le_rfl
    · exact (Weight.total_post _ _ _).le
  | transportBlocked o' source =>
    simp only [Supervision.exec]
    split
    · exact (Weight.total_post _ _ _).le
    · exact le_rfl
  | energyPriceSpike price =>
    show (aborting o).total ((v.agent.post () _).post () _) ≤ _
    rw [Weight.total_post, Weight.total_post]
    exact le_rfl
  | energyPriceNormal price => exact (Weight.total_post _ _ _).le
  | _ => exact le_rfl

/-- **One operation.** -/
theorem ledgerInvariant_exec {r : Roster} {op : FactoryOp} (h : LedgerInvariant s)
    (hC : s.RecordsOnce op) : LedgerInvariant (s.exec r op) := by
  cases op with
  | shop op =>
    cases op with
    | supervisor n m => exact h
    | orderSelect n => exact ledgerInvariant_select h hC
    | orderMove i x => exact ledgerInvariant_move h hC
    | _ => exact ledgerInvariant_others h (by simp) (by simp)
  | supervise op =>
    cases op with
    | move i x => exact ledgerInvariant_supervise h hC
    | suspendAck who => exact h
    | _ =>
      refine ⟨h.goals, h.keys, fun o => (h.records o).mono le_rfl le_rfl ?_⟩
      exact aborting_surroundings (by simp) o s.supervision
  | ack j =>
    simp only [exec]
    split
    · exact h
    · exact ⟨h.goals, h.keys, h.records⟩

/-! ## Runs -/

/-- The events of one kind, counted for an order. -/
theorem history_countP (o : OrderId) (p : LedgerEvent → Bool)
    (ledger : List (OrderId × LedgerEvent)) :
    (history o ledger).countP p = ((ledger.filter fun q => p q.2).map (·.1)).count o := by
  rw [history, List.countP_reverse, List.countP_map, List.countP_filter, List.count_eq_countP,
    List.countP_map, List.countP_filter]
  refine List.countP_congr fun q _ => ?_
  simp [and_comm]

/-- No more orders have ended than have been submitted. -/
theorem WellRecorded.ended_le {ledger : List (OrderId × LedgerEvent)} (h : WellRecorded ledger) :
    ledger.countP (·.2 ≠ .submitted) ≤ ledger.countP (·.2 = .submitted) := by
  have hsubperm : ((ledger.filter (·.2 ≠ .submitted)).map (·.1)).Subperm
      ((ledger.filter (·.2 = .submitted)).map (·.1)) := by
    refine List.subperm_ext_iff.mpr fun o _ => ?_
    have hended := history_countP o (fun e => e ≠ .submitted) ledger
    have hsubmitted := history_countP o (fun e => e = .submitted) ledger
    rw [← hended, ← hsubmitted]
    rcases h o with ho | ho | ho | ho <;> rw [ho] <;> decide
  have hlength := hsubperm.length_le
  rwa [List.length_map, List.length_map, ← List.countP_eq_length_filter,
    ← List.countP_eq_length_filter] at hlength

theorem wellRecorded_of_invariant (h : LedgerInvariant s) : WellRecorded s.ledger := by
  intro o
  rcases h.records o with ⟨hnone, -⟩ | ⟨hsubmitted, -⟩ | ⟨hended | hended, -⟩
  · exact Or.inl hnone
  · exact Or.inr (Or.inl hsubmitted)
  · exact Or.inr (Or.inr (Or.inl hended))
  · exact Or.inr (Or.inr (Or.inr hended))

/-- A station has registered the lock of an order, the supervisor has started, and the price
rises. -/
def lockedRun : List FactoryOp :=
  (acceptedRun ++ stationMoves 3 2).map FactoryOp.shop ++
    FactoryOp.supervise .select :: List.replicate 7 (FactoryOp.supervise (.move 0 {})) ++
    [FactoryOp.supervise (.energyPriceSpike 100)]

/-- A transition begins, Phase 0 times out, and the order is recorded as aborted. -/
def abortedRun : List FactoryOp :=
  FactoryOp.supervise .select :: List.replicate 10 (FactoryOp.supervise (.move 1 {})) ++
    [FactoryOp.supervise (.expire 0), .supervise (.signal 0), .supervise .select,
      .supervise .select] ++ List.replicate 8 (FactoryOp.supervise (.move 2 {}))

/-- Both events of the price are selected before a transition is pending, and Phase 0 of each
of the two transitions times out. -/
def twiceAbortedRun : List FactoryOp :=
  [FactoryOp.supervise .select, .supervise .select] ++
    List.replicate 10 (FactoryOp.supervise (.move 1 {})) ++
    List.replicate 10 (FactoryOp.supervise (.move 2 {})) ++
    [FactoryOp.supervise (.expire 0), .supervise (.expire 1), .supervise (.signal 0),
      .supervise (.signal 0), .supervise .select, .supervise .select] ++
    List.replicate 8 (FactoryOp.supervise (.move 3 {})) ++
    List.replicate 8 (FactoryOp.supervise (.move 4 {}))

end Factory

end MatrixFactory
