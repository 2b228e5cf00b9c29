/-
# Weights on the shop floor

A quantity spread over everything that is under way (events and statements of the three
kinds of agents, messages, timers of order holons, jobs, runs and results) and over what has
been done for it.
`ShopWeight.exec_le` bounds what one operation adds to it from facts about single
statements, plans and messages.
-/
import MatrixFactory.ShopRules

namespace MatrixFactory

open AgentSpeak

/-- A weight of everything that is under way, of the jobs committed and the transports
notified so far, and what an order holon's statement may add to it. -/
structure ShopWeight where
  order : Weight String OrderTrigger OrderStmt
  station : Weight String StationTrigger StationStmt
  amr : Weight String AmrTrigger AmrStmt
  mail : Message → ℕ
  timer : OrderTimer → ℕ
  job : CommittedJob → ℕ
  run : StationRun → ℕ
  result : RunResult → ℕ
  committed : CommittedJob → ℕ
  notified : Attempt → ℕ
  orderGain : String → OrderBeliefs → OrderStmt → OrderInput → ℕ

namespace ShopWeight

variable (W : ShopWeight)

/-- The weight of the shop floor. -/
def total (s : Shop) : ℕ :=
  W.order.total s.orders + W.station.total s.stations + W.amr.total s.amrs
    + (s.mail.map W.mail).sum + (s.orderTimers.map W.timer).sum
    + (s.orderSignals.map W.timer).sum + (s.jobs.map W.job).sum + (s.runs.map W.run).sum
    + (s.results.map W.result).sum + (s.committed.map W.committed).sum
    + (s.notified.map fun p => W.notified p.1).sum

/-- What an action of an order holon puts under way or on record. -/
def orderCost (me : String) : OrderAction → ℕ
  | .startTimer key _ k => W.timer ⟨me, key, k⟩
  | .reserveTransport amr fromStation toStation o k =>
    W.job ⟨amr, fromStation, toStation, o, k⟩ + W.committed ⟨amr, fromStation, toStation, o, k⟩
  | .achieveTransport amr o fromStation toStation =>
    W.mail ⟨me, amr, .transport o fromStation toStation, none⟩
  | .achieveCallForProposal station step stations o k =>
    W.mail ⟨me, station, .callForProposal step stations o, some k⟩
  | .tellStation station m k => W.mail ⟨me, station, .station m, k⟩
  | .tellAmr amr m k => W.mail ⟨me, amr, .amr m, some k⟩
  | _ => 0

/-- What an action of a resource holon puts under way. -/
def stationCost (me : String) : StationAction → ℕ
  | .tellOrder holon m k => W.mail ⟨me, holon, .order m, k⟩
  | .startRun run o => W.run ⟨run, me, o⟩
  | _ => 0

/-- What an action of an AMR agent puts under way or on record. -/
def amrCost (me : String) : AmrAction → ℕ
  | .tellOrder holon m k => W.mail ⟨me, holon, .order m, some k⟩ + W.notified k
  | _ => 0

/-- The weight of the event that a message raises. -/
def received (m : Message) : ℕ :=
  match m.content with
  | .order c => W.order.trigger m.receiver (.told ⟨c, m.sender⟩ m.attempt)
  | .station c => W.station.trigger m.receiver (.told ⟨c, m.sender⟩ m.attempt)
  | .amr c => W.amr.trigger m.receiver (.told ⟨c, m.sender⟩ m.attempt)
  | .callForProposal step stations o =>
    W.station.trigger m.receiver (.callForProposal step stations o m.sender m.attempt)
  | .transport o fromStation toStation =>
    W.amr.trigger m.receiver (.transport o fromStation toStation m.sender)

/-- The weight passes along the plans, the statements and the messages; only a statement
with a gain adds to it.  For the statement that reads a result see `Reads`. -/
structure Lawful : Prop where
  orderPlans : ∀ n b, W.order.Plans OrderHolon.program n b
  stationPlans : ∀ n b, W.station.Plans ResourceHolon.program n b
  amrPlans : ∀ n b, W.amr.Plans AmrAgent.program n b
  orderExec : ∀ n b s x, W.order.Outcome (W.orderCost n) n
    (W.order.stmt n s + W.orderGain n b s x) (OrderHolon.exec n b s x)
  stationExec : ∀ n b s x, (∀ run o holon step, s ≠ .awaitResult run o holon step) →
    W.station.Outcome (W.stationCost n) n (W.station.stmt n s) (ResourceHolon.exec n b s x)
  amrExec : ∀ n b s x, W.amr.Outcome (W.amrCost n) n (W.amr.stmt n s) (AmrAgent.exec n b s x)
  received : ∀ m, W.received m ≤ W.mail m
  supervisor : ∀ r m, W.mail ⟨"supervisor", r, SupervisorMsg.content m, none⟩ = 0
  timers : ∀ t : OrderTimer, W.order.trigger t.holon (.timerExpired t.key t.attempt) ≤ W.timer t
  orderEvents : ∀ n e, W.order.trigger n (.schemaEpoch e) = 0
  stationEvents : ∀ n o e, W.station.trigger n (.timerExpired o) = 0 ∧
    W.station.trigger n (.schemaEpoch e) = 0
  amrEvents : ∀ n o e, W.amr.trigger n (.amrTransportBlocked o) = 0 ∧
    W.amr.trigger n (.schemaEpoch e) = 0

/-- What follows the reading of a result weighs no more than the result. -/
def Reads (s : Shop) : Prop :=
  ∀ (i : ℕ) θ r run o holon step, s.stations.intentions[i]? = some θ →
    θ.head = some (.awaitResult run o holon step) → s.resultFor θ = some r →
    W.station.Outcome (W.stationCost θ.owner) θ.owner
      (W.station.stmt θ.owner (.awaitResult run o holon step) + W.result r)
      (ResourceHolon.exec θ.owner (s.stations.beliefs θ.owner) (.awaitResult run o holon step)
        (s.stationInput θ))

/-- What the statement of an order holon that is executed next may add. -/
def headGain (s : Shop) (i : ℕ) (x : OrderInput) : ℕ :=
  match s.orders.intentions[i]? with
  | none => 0
  | some θ =>
    (θ.head.map fun st =>
      W.orderGain θ.owner (s.orders.beliefs θ.owner) st (s.orderInput θ x)).getD 0

/-- What an operation may add. -/
def gain (s : Shop) : ShopOp → ℕ
  | .orderMove i x => W.headGain s i x
  | .arrive j => (s.jobs[j]?.map fun job =>
      W.amr.trigger job.amr (.amrArrived job.o job.attempt) - W.job job).getD 0
  | .finish j code _ => (s.runs[j]?.map fun r =>
      W.result ⟨r.run, r.station, r.o, code⟩ - W.run r).getD 0
  | _ => 0

variable {W}

/-! ## Parts -/

theorem mail_le_total {m : Message} {s : Shop} (hm : m ∈ s.mail) : W.mail m ≤ W.total s := by
  have := List.single_le_sum (fun _ _ => Nat.zero_le _) _ (List.mem_map_of_mem (f := W.mail) hm)
  rw [total]
  omega

/-- The statement that an order holon executes next weighs no more than the shop floor. -/
theorem orderHead_le_total {s : Shop} {i : ℕ} {θ : Intention String OrderTrigger OrderStmt}
    {st : OrderStmt} (hθ : s.orders.intentions[i]? = some θ) (hhead : θ.head = some st) :
    W.order.stmt θ.owner st ≤ W.total s := by
  have hstmt := Weight.stmt_le_intention (w := W.order) hhead
  have htotal := Weight.intention_le_total (w := W.order) hθ
  rw [total]
  omega

/-! ## Actions -/

theorem total_send (sender receiver : String) (c : Content) (k : Option Attempt) (s : Shop) :
    W.total (s.send sender receiver c k) = W.total s + W.mail ⟨sender, receiver, c, k⟩ := by
  simp only [total, Shop.send, List.map_append, List.sum_append, List.map_cons, List.map_nil,
    List.sum_cons, List.sum_nil]
  omega

theorem total_orderAct_le (me : String) (a : OrderAction) (s : Shop) :
    W.total (s.orderAct me a) ≤ W.total s + W.orderCost me a := by
  cases a with
  | startTimer key ttl k =>
    simp only [total, Shop.orderAct, orderCost, List.map_append, List.sum_append, List.map_cons,
      List.map_nil, List.sum_cons, List.sum_nil]
    omega
  | cancelTimer key =>
    have hle := Weight.sum_filter_le W.timer (fun t => ¬ (t.holon = me ∧ t.key = key))
      s.orderTimers
    simp only [total, Shop.orderAct, orderCost]
    omega
  | reserveTransport amr fromStation toStation o k =>
    simp only [total, Shop.orderAct, orderCost, List.map_append, List.sum_append, List.map_cons,
      List.map_nil, List.sum_cons, List.sum_nil]
    omega
  | achieveTransport | achieveCallForProposal | tellStation => exact (total_send _ _ _ _ _).le
  | tellAmr amr m k =>
    exact (total_send me amr (.amr m) (some k) { s with aborted := k :: s.aborted }).le
  | _ => exact le_rfl

theorem total_stationAct_le (me : String) (a : StationAction) (s : Shop) :
    W.total (s.stationAct me a) ≤ W.total s + W.stationCost me a := by
  cases a with
  | startRun run o =>
    simp only [total, Shop.stationAct, stationCost, List.map_append, List.sum_append,
      List.map_cons, List.map_nil, List.sum_cons, List.sum_nil]
    omega
  | readResult run =>
    have hle : ((s.results.eraseP fun r => r.run = run ∧ r.station = me).map W.result).sum
        ≤ (s.results.map W.result).sum :=
      (List.eraseP_sublist.map _).sum_le_sum fun _ _ => Nat.zero_le _
    simp only [total, Shop.stationAct, stationCost]
    omega
  | tellOrder => exact (total_send _ _ _ _ _).le
  | _ => exact le_rfl

theorem total_amrAct_le (me : String) (a : AmrAction) (s : Shop) :
    W.total (s.amrAct me a) ≤ W.total s + W.amrCost me a := by
  cases a with
  | cancelTransport o k =>
    have hle := Weight.sum_filter_le W.job (fun j => ¬ (j.amr = me ∧ j.o = o)) s.jobs
    simp only [total, Shop.amrAct, amrCost]
    omega
  | tellOrder holon m k =>
    simp only [total, Shop.amrAct, Shop.send, amrCost, List.map_append, List.sum_append,
      List.map_cons, List.map_nil, List.sum_cons, List.sum_nil]
    omega
  | tellSupervisor => exact le_rfl

/-- Actions add at most what they put under way. -/
theorem total_run_le {A : Type} {act : A → Shop → Shop} {cost : A → ℕ}
    (hact : ∀ a s, W.total (act a s) ≤ W.total s + cost a) (acts : List A) (s : Shop) :
    W.total (Runs.run act acts s) ≤ W.total s + (acts.map cost).sum := by
  induction acts generalizing s with
  | nil => exact le_rfl
  | cons a acts ih =>
    have hstep := hact a s
    have hrest := ih (act a s)
    rw [Runs.run_cons, List.map_cons, List.sum_cons]
    omega

/-! ## Operations -/

variable (hW : W.Lawful)
include hW

theorem total_orderMove_le (i : ℕ) (x : OrderInput) (s : Shop) :
    W.total (s.orderMove i x) ≤ W.total s + W.headGain s i x := by
  unfold Shop.orderMove headGain
  rcases hi : s.orders.intentions[i]? with _ | θ
  · exact le_rfl
  · dsimp only
    have hmove := Weight.move (w := W.order) (x := s.orderInput θ x)
      (b := s.orders.beliefs θ.owner) (θ := θ) (W.orderCost θ.owner)
      ((θ.head.map fun st =>
        W.orderGain θ.owner (s.orders.beliefs θ.owner) st (s.orderInput θ x)).getD 0)
      (hW.orderPlans _ _) fun st hst => by
        rw [hst]
        exact hW.orderExec _ _ st _
    generalize OrderHolon.program.move (s.orderInput θ x) (s.orders.beliefs θ.owner) θ = m at hmove
    have happly := Weight.apply (w := W.order) hi m
    have hacts := total_run_le (W := W) (total_orderAct_le θ.owner) m.actions
      { s with orders := s.orders.apply i m }
    simp only [total] at hacts ⊢
    omega

theorem total_amrMove_le (i : ℕ) (utilization : ℚ) (s : Shop) :
    W.total (s.amrMove i utilization) ≤ W.total s := by
  unfold Shop.amrMove
  rcases hi : s.amrs.intentions[i]? with _ | θ
  · exact le_rfl
  · dsimp only
    have hmove := Weight.move (w := W.amr) (x := utilization) (b := s.amrs.beliefs θ.owner)
      (θ := θ) (W.amrCost θ.owner) 0 (hW.amrPlans _ _) fun st _ => hW.amrExec _ _ st _
    generalize AmrAgent.program.move utilization (s.amrs.beliefs θ.owner) θ = m at hmove
    have happly := Weight.apply (w := W.amr) hi m
    have hacts := total_run_le (W := W) (total_amrAct_le θ.owner) m.actions
      { s with amrs := s.amrs.apply i m }
    simp only [total] at hacts ⊢
    omega

/-- Reading a result takes the place of the result. -/
theorem total_stationMove_le (i : ℕ) (s : Shop)
    (hread : W.Reads s) : W.total (s.stationMove i) ≤ W.total s := by
  unfold Shop.stationMove
  rcases hi : s.stations.intentions[i]? with _ | θ
  · exact le_rfl
  · dsimp only
    by_cases hres : ∃ r, s.resultFor θ = some r
    · obtain ⟨r, hr⟩ := hres
      obtain ⟨run, o, holon, step, hhead⟩ : ∃ run o holon step,
          θ.head = some (.awaitResult run o holon step) := by
        unfold Shop.resultFor at hr
        split at hr
        · next run o holon step hhead => exact ⟨run, o, holon, step, hhead⟩
        · simp at hr
      have hmove := Weight.move (w := W.station) (x := s.stationInput θ)
        (b := s.stations.beliefs θ.owner) (θ := θ) (W.stationCost θ.owner) (W.result r)
        (hW.stationPlans _ _) fun st hst => by
          obtain rfl := Option.some_inj.mp (hhead.symm.trans hst)
          exact hread i θ r run o holon step hi hhead hr
      -- the statement's only action removes the result
      have hact : (ResourceHolon.program.move (s.stationInput θ) (s.stations.beliefs θ.owner)
          θ).actions = [.readResult run] := by
        have hin : (s.stationInput θ).result = some r.code := by
          rw [Shop.stationInput, hr]
          rfl
        obtain ⟨code, hnext⟩ : ∃ code, ResourceHolon.exec θ.owner (s.stations.beliefs θ.owner)
            (.awaitResult run o holon step) (s.stationInput θ)
            = .next (s.stations.beliefs θ.owner) code [.readResult run] := by
          rcases hc : r.code <;> simp [ResourceHolon.exec, hin, hc]
        exact (Program.move_of_next _ hhead hnext).2
      have hfind : s.results.find? (fun r => r.run = run ∧ r.station = θ.owner) = some r := by
        rw [← hr, Shop.resultFor, hhead]
      have hsum := Weight.sum_eraseP W.result _ hfind
      rw [hact] at hmove ⊢
      generalize ResourceHolon.program.move (s.stationInput θ) (s.stations.beliefs θ.owner) θ = m
        at hmove
      have happly := Weight.apply (w := W.station) hi m
      simp only [List.map_cons, List.map_nil, List.sum_cons, List.sum_nil, stationCost] at hmove
      simp only [Runs.run_cons, Runs.run_nil, total, Shop.stationAct]
      omega
    · have hmove := Weight.move (w := W.station) (x := s.stationInput θ)
        (b := s.stations.beliefs θ.owner) (θ := θ) (W.stationCost θ.owner) 0
        (hW.stationPlans _ _) fun st hst => by
          by_cases hawait : ∃ run o holon step, st = .awaitResult run o holon step
          · obtain ⟨run, o, holon, step, rfl⟩ := hawait
            have hin : (s.stationInput θ).result = none := by
              rw [Shop.stationInput, Option.map_eq_none_iff, Option.eq_none_iff_forall_ne_some]
              exact fun r hr => hres ⟨r, hr⟩
            simp [ResourceHolon.program, ResourceHolon.exec, hin, Weight.Outcome]
          · exact hW.stationExec _ _ st _ fun run o holon step h =>
              hawait ⟨run, o, holon, step, h⟩
      generalize ResourceHolon.program.move (s.stationInput θ) (s.stations.beliefs θ.owner) θ = m
        at hmove
      have happly := Weight.apply (w := W.station) hi m
      have hacts := total_run_le (W := W) (total_stationAct_le θ.owner) m.actions
        { s with stations := s.stations.apply i m }
      simp only [total] at hacts ⊢
      omega

theorem total_receive_le (m : Message) (s : Shop) :
    W.total (s.receive m) ≤ W.total s + W.mail m := by
  have hrec := hW.received m
  unfold received at hrec
  unfold Shop.receive
  split
  · next c hc =>
    rw [hc] at hrec
    dsimp only at hrec ⊢
    split <;> simp only [total, Weight.total_post, Weight.total_believe] <;> omega
  · next c hc =>
    rw [hc] at hrec
    dsimp only at hrec ⊢
    split <;> simp only [total, Weight.total_post, Weight.total_believe] <;> omega
  · next c hc =>
    rw [hc] at hrec
    dsimp only at hrec ⊢
    split <;> simp only [total, Weight.total_post, Weight.total_believe] <;> omega
  · next hc =>
    rw [hc] at hrec
    dsimp only at hrec
    simp only [total, Weight.total_post]
    omega
  · next hc =>
    rw [hc] at hrec
    dsimp only at hrec
    simp only [total, Weight.total_post]
    omega

omit hW in
theorem sum_eraseIdx {α : Type} (f : α → ℕ) {l : List α} {j : ℕ} {a : α} (hj : l[j]? = some a) :
    ((l.eraseIdx j).map f).sum + f a = (l.map f).sum := by
  induction l generalizing j with
  | nil => simp at hj
  | cons b l ih =>
    cases j with
    | zero =>
      obtain rfl : b = a := by simpa using hj
      simp only [List.eraseIdx_zero, List.tail_cons, List.map_cons, List.sum_cons]
      omega
    | succ j =>
      have := ih (by simpa using hj)
      simp only [List.eraseIdx_cons_succ, List.map_cons, List.sum_cons]
      omega

/-- **What one operation adds.** -/
theorem exec_le (op : ShopOp) (s : Shop) (hread : W.Reads s) :
    W.total (s.exec op) ≤ W.total s + W.gain s op := by
  cases op with
  | orderSelect n =>
    have := Weight.select (hW.orderPlans n (s.orders.beliefs n))
    simp only [Shop.exec, total, gain]
    omega
  | orderMove i x => exact total_orderMove_le hW i x s
  | stationSelect n =>
    have := Weight.select (hW.stationPlans n (s.stations.beliefs n))
    simp only [Shop.exec, total, gain]
    omega
  | stationMove i => exact total_stationMove_le hW i s hread
  | amrSelect n =>
    have := Weight.select (hW.amrPlans n (s.amrs.beliefs n))
    simp only [Shop.exec, total, gain]
    omega
  | amrMove i utilization => exact total_amrMove_le hW i utilization s
  | deliver j =>
    simp only [Shop.exec, Shop.deliver, gain]
    rcases hj : s.mail[j]? with _ | m
    · exact le_rfl
    · dsimp only
      split
      · exact le_rfl
      · have hrec := total_receive_le hW m { s with mail := s.mail.eraseIdx j }
        have hsum := sum_eraseIdx W.mail hj
        simp only [total] at hrec ⊢
        omega
  | supervisor receiver m =>
    simp only [Shop.exec, gain, total_send, hW.supervisor, le_refl]
  | orderTimer j =>
    simp only [Shop.exec, gain]
    split
    · exact le_rfl
    · next t hj =>
      have hsum := sum_eraseIdx W.timer hj
      simp only [total, List.map_append, List.sum_append, List.map_cons, List.map_nil,
        List.sum_cons, List.sum_nil]
      omega
  | stationTimer j =>
    simp only [Shop.exec, gain]
    split <;> exact le_rfl
  | orderSignal j =>
    simp only [Shop.exec, gain]
    split
    · exact le_rfl
    · next t hj =>
      have hsum := sum_eraseIdx W.timer hj
      have hle := hW.timers t
      simp only [total, Weight.total_post]
      omega
  | stationSignal j =>
    simp only [Shop.exec, gain]
    split
    · exact le_rfl
    · next t hj =>
      simp only [total, Weight.total_post, (hW.stationEvents t.1 t.2 0).1]
      omega
  | arrive j =>
    simp only [Shop.exec, Shop.arrive, gain]
    rcases hj : s.jobs[j]? with _ | job
    · exact le_rfl
    · have hsum := sum_eraseIdx W.job hj
      simp only [total, Weight.total_post, Option.map_some, Option.getD_some]
      omega
  | transportBlocked amr o =>
    simp only [Shop.exec, gain, total, Weight.total_post, (hW.amrEvents amr o 0).1]
    omega
  | finish j code summary =>
    simp only [Shop.exec, Shop.finish, gain]
    rcases hj : s.runs[j]? with _ | r
    · exact le_rfl
    · have hsum := sum_eraseIdx W.run hj
      simp only [total, Weight.total_believe, Option.map_some, Option.getD_some, List.map_cons,
        List.sum_cons]
      omega
  | orderEpoch n epoch =>
    simp only [Shop.exec, gain, total, Weight.total_post, hW.orderEvents n epoch]
    omega
  | stationEpoch n epoch =>
    simp only [Shop.exec, gain, total, Weight.total_post, (hW.stationEvents n ⟨"", 0⟩ epoch).2]
    omega
  | amrEpoch n epoch =>
    simp only [Shop.exec, gain, total, Weight.total_post, (hW.amrEvents n ⟨"", 0⟩ epoch).2]
    omega

end ShopWeight

end MatrixFactory
