/-
# What may end a wait

An order holon that waits for its winner to start goes on when it holds `inform_start` or
`reject_proposal` of the station or `sim_timeout` of the order.  What may lead to one of
these is spread over the shop floor: the acceptance on its way to the station and its
answer, the transport of the item, the arrival that is passed on to the station, and the
timer.  It is weighed together with the waits themselves and with what retracts these
beliefs.
-/
import MatrixFactory.TransportJobs

namespace MatrixFactory

open AgentSpeak

/-- The weights of a wait of a holon for a station in an order; of what retracts the answer
of a station, or the timeout of an order; and, by the attempt they are for, of what may
become an answer of a station to a holon, a timeout of an order, or the arrival of its
item. -/
structure WaitCosts where
  wait : String → OrderId → String → Attempt → ℕ
  retractAnswer : String → String → ℕ
  retractTimeout : String → OrderId → ℕ
  answer : String → String → Option Attempt → ℕ
  timer : String → OrderId → Option Attempt → ℕ
  transport : OrderId → Option Attempt → ℕ

/-- A wait weighs no less than what retracts its end. -/
structure WaitCosts.Ordered (C : WaitCosts) : Prop where
  answer : ∀ n o w k, C.retractAnswer n w ≤ C.wait n o w k
  timeout : ∀ n o w k, C.retractTimeout n o ≤ C.wait n o w k

section

variable (C : WaitCosts)

/-- The weight of an event or goal of an order holon. -/
def WaitCosts.orderTrigger (n : String) : OrderTrigger → ℕ
  | .awaitStationStart o w _ k => C.wait n o w k + C.timer n o (some k)
  | .timerExpired (.await o) k => C.timer n o k
  | .requestTransport o _ _ k => C.transport o (some k)
  | .told ⟨.transportDone o, _⟩ k => C.transport o k
  | _ => 0

/-- The weight of a statement of an order holon. -/
def WaitCosts.orderStmt (n : String) : OrderStmt → ℕ
  | .achieve goal => C.orderTrigger n goal
  | .startTimer (.await o) _ k => C.timer n o k
  | .waitStationStart o w _ k | .ifStarted o w _ k => C.wait n o w k
  | .addSimTimeout o k => C.timer n o k
  | .delSimTimeout o => C.retractTimeout n o
  | .retract ⟨.informStart w, source⟩ | .retract ⟨.rejectProposal w _, source⟩ =>
    if source = w then C.retractAnswer n w else 0
  | .retractReject w => C.retractAnswer n w
  | .sendAcceptProposal w _ k => C.answer n w (some k)
  | .sendItemArrived w _ k => C.answer n w k
  | .queryCurrentLocation o _ k | .reserveTransport _ _ o k => C.transport o (some k)
  | .queryCnpWinner o k => C.transport o k
  | _ => 0

/-- The weight of an event or goal of a resource holon. -/
def WaitCosts.stationTrigger (n : String) : StationTrigger → ℕ
  | .told ⟨.acceptProposal _, holon⟩ k | .told ⟨.itemArrived _, holon⟩ k => C.answer holon n k
  | _ => 0

/-- The weight of a statement of a resource holon. -/
def WaitCosts.stationStmt (n : String) : StationStmt → ℕ
  | .achieve goal => C.stationTrigger n goal
  | .sendInformStart holon k | .sendRejectProposal holon k => C.answer holon n k
  | _ => 0

/-- The weight of an event or goal of an AMR agent. -/
def WaitCosts.amrTrigger : AmrTrigger → ℕ
  | .amrArrived o k => C.transport o (some k)
  | _ => 0

/-- The weight of a statement of an AMR agent. -/
def WaitCosts.amrStmt : AmrStmt → ℕ
  | .achieve goal => C.amrTrigger goal
  | .sendTransportDone _ o k => C.transport o (some k)
  | _ => 0

/-- The weight of a message. -/
def WaitCosts.mail (m : Message) : ℕ :=
  match m.content with
  | .station (.acceptProposal _) | .station (.itemArrived _) =>
    C.answer m.sender m.receiver m.attempt
  | .order (.informStart _) | .order (.rejectProposal _ _) =>
    C.answer m.receiver m.sender m.attempt
  | .order (.transportDone o) => C.transport o m.attempt
  | _ => 0

/-- The weight of a timer. -/
def WaitCosts.timerCost (t : OrderTimer) : ℕ :=
  match t.key with
  | .await o => C.timer t.holon o t.attempt
  | _ => 0

/-- What a statement may add: the choice of a winner begins an attempt, and the arrival of an
item may be passed on to a station that the order holon did not have in mind. -/
def WaitCosts.gain (n : String) (b : OrderBeliefs) (s : OrderStmt) (x : OrderInput) : ℕ :=
  match s with
  | .setCnpWinner o w _ =>
    C.answer n w (some x.attempt) + C.transport o (some x.attempt) +
      (C.wait n o w x.attempt + C.timer n o (some x.attempt))
  | .queryCnpWinner o k =>
    match valueFor o b.cnpWinner with
    | some w => C.answer n w k - C.transport o k
    | none => 0
  | _ => 0

/-- The weight of the waits and of what may end them. -/
def waitWeight : ShopWeight where
  order := { trigger := C.orderTrigger, stmt := C.orderStmt }
  station := { trigger := C.stationTrigger, stmt := C.stationStmt }
  amr := { trigger := fun _ => C.amrTrigger, stmt := fun _ => C.amrStmt }
  mail := C.mail
  timer := C.timerCost
  job j := C.transport j.o (some j.attempt)
  run _ := 0
  result _ := 0
  committed _ := 0
  notified _ := 0
  orderGain := C.gain

end

namespace ShopWeight

variable {C : WaitCosts}

section

attribute [local simp] Weight.Outcome Weight.body waitWeight WaitCosts.orderTrigger
  WaitCosts.orderStmt WaitCosts.stationTrigger WaitCosts.stationStmt WaitCosts.amrTrigger
  WaitCosts.amrStmt WaitCosts.mail WaitCosts.timerCost WaitCosts.gain orderCost stationCost
  amrCost OrderHolon.abortAndRetry

theorem wait_orderPlans (n : String) (b : OrderBeliefs) :
    (waitWeight C).order.Plans OrderHolon.program n b := by
  refine ⟨fun t body h => ?_, fun t t' body h => by cases h⟩
  suffices hbody : (waitWeight C).order.body n body = (waitWeight C).order.trigger n t from hbody.le
  cases t with
  | timerExpired key k =>
    cases key <;> simp only [OrderHolon.program, OrderHolon.plan] at h <;>
      (repeat' split at h) <;> cases h <;> simp
  | told m k =>
    obtain ⟨m, source⟩ := m
    cases m <;> simp only [OrderHolon.program, OrderHolon.plan] at h <;>
      (repeat' split at h) <;> cases h <;> simp
  | awaitStationStart o w step k =>
    cases h
    simp [Nat.add_comm]
  | _ =>
    simp only [OrderHolon.program, OrderHolon.plan] at h
    (repeat' split at h) <;> cases h <;> simp

theorem wait_stationPlans (n : String) (b : StationBeliefs) :
    (waitWeight C).station.Plans ResourceHolon.program n b := by
  constructor
  · intro t body h
    cases t with
    | told m k =>
      obtain ⟨m, source⟩ := m
      cases m <;> simp only [ResourceHolon.program, ResourceHolon.plan] at h <;>
        (repeat' split at h) <;> cases h <;> simp
    | executePhysicalOperation o =>
      simp only [ResourceHolon.program, ResourceHolon.plan] at h
      split at h
      · obtain ⟨a, _, rfl⟩ := Option.map_eq_some_iff.mp h
        simp
      · cases h
    | _ =>
      simp only [ResourceHolon.program, ResourceHolon.plan] at h
      (repeat' split at h) <;> cases h <;> simp
  · intro t t' body ht hbody
    cases t with
    | callForProposal step stations o sender k =>
      cases ht
      cases hbody
      simp
    | _ => cases ht

theorem wait_amrPlans (n : String) (b : AmrBeliefs) :
    (waitWeight C).amr.Plans AmrAgent.program n b := by
  refine ⟨fun t body h => ?_, fun t t' body h => by cases h⟩
  suffices hbody : (waitWeight C).amr.body n body = (waitWeight C).amr.trigger n t from hbody.le
  cases t with
  | told m k =>
    obtain ⟨m, source⟩ := m
    cases m <;> simp only [AmrAgent.program, AmrAgent.plan] at h <;>
      (repeat' split at h) <;> cases h <;> simp
  | _ =>
    simp only [AmrAgent.program, AmrAgent.plan] at h
    repeat' split at h
    all_goals cases h
    all_goals simp

theorem wait_orderExec (hC : C.Ordered) (n : String) (b : OrderBeliefs) (s : OrderStmt)
    (x : OrderInput) :
    (waitWeight C).order.Outcome ((waitWeight C).orderCost n) n
      ((waitWeight C).order.stmt n s + (waitWeight C).orderGain n b s x)
      (OrderHolon.exec n b s x) := by
  cases s with
  | ifStarted o w step k =>
    have hanswer := hC.answer n o w k
    have htimeout := hC.timeout n o w k
    simp only [OrderHolon.exec]
    split <;> simpa
  | queryCnpWinner o k =>
    simp only [OrderHolon.exec]
    split
    · next w hw =>
      simp only [Weight.Outcome, Weight.body, waitWeight, WaitCosts.orderStmt, WaitCosts.gain, hw,
        List.map_cons, List.map_nil, List.sum_cons, List.sum_nil]
      omega
    · simp
  | setCnpWinner o w step =>
    simp [OrderHolon.exec]
    omega
  | findStaleWatchdogs =>
    have : ∀ l : List (OrderId × ℕ × String), (l.flatMap fun _ => [0, 0]).sum = 0 := by
      intro l
      induction l with
      | nil => rfl
      | cons w l ih => simpa using ih
    simpa [OrderHolon.exec, List.map_flatMap] using this _
  | rejectLosers winner o => simp [OrderHolon.exec, Function.comp_def]
  | sendCallForProposal stations step o => simp [OrderHolon.exec, Function.comp_def]
  | ifRemaining o step remaining => cases remaining <;> simp [OrderHolon.exec]
  | startTimer key ttl k => cases key <;> simp [OrderHolon.exec]
  | _ =>
    simp only [OrderHolon.exec]
    (repeat' split) <;> simp

theorem wait_stationExec (n : String) (b : StationBeliefs) (s : StationStmt)
    (x : StationInput) :
    (waitWeight C).station.Outcome ((waitWeight C).stationCost n) n
      ((waitWeight C).station.stmt n s) (ResourceHolon.exec n b s x) := by
  cases s with
  | releaseStation o => cases o <;> simp [ResourceHolon.exec]
  | _ =>
    simp only [ResourceHolon.exec]
    (repeat' split) <;> simp

theorem wait_amrExec (n : String) (b : AmrBeliefs) (s : AmrStmt) (u : ℚ) :
    (waitWeight C).amr.Outcome ((waitWeight C).amrCost n) n ((waitWeight C).amr.stmt n s)
      (AmrAgent.exec n b s u) := by
  cases s with
  | _ =>
    simp only [AmrAgent.exec]
    (repeat' split) <;> simp

/-- The weight of the waits passes along. -/
theorem wait_lawful (hC : C.Ordered) : (waitWeight C).Lawful where
  orderPlans := wait_orderPlans
  stationPlans := wait_stationPlans
  amrPlans := wait_amrPlans
  orderExec := wait_orderExec hC
  stationExec n b s x _ := wait_stationExec n b s x
  amrExec := wait_amrExec
  received m := by
    obtain ⟨sender, receiver, c, k⟩ := m
    cases c with
    | order c => cases c <;> simp [received]
    | station c => cases c <;> simp [received]
    | _ => simp [received]
  supervisor r m := by cases m <;> rfl
  timers t := by
    obtain ⟨n, key, k⟩ := t
    cases key <;> simp
  orderEvents _ _ := rfl
  stationEvents _ _ _ := ⟨rfl, rfl⟩
  amrEvents _ _ _ := ⟨rfl, rfl⟩

end

theorem wait_reads (s : Shop) : (waitWeight C).Reads s :=
  fun _ _ _ _ _ _ _ _ _ _ => wait_stationExec _ _ _ _

/-- Only the choice of a winner and the arrival of an item add to the weight. -/
theorem wait_gain {s : Shop} {op : ShopOp} (hgain : (waitWeight C).gain s op ≠ 0) :
    ∃ i x θ st, op = .orderMove i x ∧ s.orders.intentions[i]? = some θ ∧ θ.head = some st ∧
      (waitWeight C).gain s op
        = C.gain θ.owner (s.orders.beliefs θ.owner) st (s.orderInput θ x) := by
  cases op with
  | orderMove i x =>
    simp only [gain, headGain] at hgain ⊢
    cases hθ : s.orders.intentions[i]? with
    | none => simp [hθ] at hgain
    | some θ =>
      cases hhead : θ.head with
      | none => simp [hθ, hhead] at hgain
      | some st => exact ⟨i, x, θ, st, rfl, hθ, hhead, by simp [hhead, waitWeight]⟩
  | arrive j =>
    simp only [gain] at hgain
    cases hj : s.jobs[j]? <;> simp [hj, waitWeight, WaitCosts.amrTrigger] at hgain
  | finish j code summary =>
    simp only [gain] at hgain
    cases hj : s.runs[j]? <;> simp [hj, waitWeight] at hgain
  | _ => exact absurd rfl hgain

/-! ## Comparing weights -/

end ShopWeight

namespace WaitCosts

/-- Two weights together are at most a third. -/
structure AddLE (C E D : WaitCosts) : Prop where
  wait : ∀ n o w k, C.wait n o w k + E.wait n o w k ≤ D.wait n o w k
  retractAnswer : ∀ n w, C.retractAnswer n w + E.retractAnswer n w ≤ D.retractAnswer n w
  retractTimeout : ∀ n o, C.retractTimeout n o + E.retractTimeout n o ≤ D.retractTimeout n o
  answer : ∀ n w k, C.answer n w k + E.answer n w k ≤ D.answer n w k
  timer : ∀ n o k, C.timer n o k + E.timer n o k ≤ D.timer n o k
  transport : ∀ o k, C.transport o k + E.transport o k ≤ D.transport o k

/-- The weights that are all zero. -/
def zero : WaitCosts := ⟨fun _ _ _ _ => 0, fun _ _ => 0, fun _ _ => 0, fun _ _ _ => 0,
  fun _ _ _ => 0, fun _ _ => 0⟩

variable {C E D : WaitCosts}

theorem AddLE.orderTrigger (h : AddLE C E D) (n : String) (t : OrderTrigger) :
    C.orderTrigger n t + E.orderTrigger n t ≤ D.orderTrigger n t := by
  cases t with
  | awaitStationStart o w step k =>
    have hwait := h.wait n o w k
    have htimer := h.timer n o (some k)
    simp only [WaitCosts.orderTrigger]
    omega
  | timerExpired key k =>
    cases key with
    | await o => exact h.timer n o k
    | _ => exact le_rfl
  | requestTransport o f t k => exact h.transport o (some k)
  | told m k =>
    obtain ⟨m, source⟩ := m
    cases m with
    | transportDone o => exact h.transport o k
    | _ => exact le_rfl
  | _ => exact le_rfl

theorem AddLE.orderStmt (h : AddLE C E D) (n : String) (s : OrderStmt) :
    C.orderStmt n s + E.orderStmt n s ≤ D.orderStmt n s := by
  cases s with
  | achieve goal => exact h.orderTrigger n goal
  | startTimer key ttl k =>
    cases key with
    | await o => exact h.timer n o k
    | _ => exact le_rfl
  | waitStationStart o w step k => exact h.wait n o w k
  | ifStarted o w step k => exact h.wait n o w k
  | addSimTimeout o k => exact h.timer n o k
  | delSimTimeout o => exact h.retractTimeout n o
  | retract m =>
    obtain ⟨m, source⟩ := m
    have hle := h.retractAnswer n source
    cases m with
    | informStart w | rejectProposal w r =>
      by_cases hw : source = w
      · subst hw
        simpa only [WaitCosts.orderStmt, if_true] using hle
      · simp only [WaitCosts.orderStmt, if_neg hw, le_refl]
    | _ => exact le_rfl
  | retractReject w => exact h.retractAnswer n w
  | sendAcceptProposal w o k => exact h.answer n w (some k)
  | sendItemArrived w o k => exact h.answer n w k
  | queryCurrentLocation o w k => exact h.transport o (some k)
  | reserveTransport f t o k => exact h.transport o (some k)
  | queryCnpWinner o k => exact h.transport o k
  | _ => exact le_rfl

theorem AddLE.stationTrigger (h : AddLE C E D) (n : String) (t : StationTrigger) :
    C.stationTrigger n t + E.stationTrigger n t ≤ D.stationTrigger n t := by
  cases t with
  | told m k =>
    obtain ⟨m, source⟩ := m
    cases m with
    | acceptProposal o | itemArrived o => exact h.answer source n k
    | _ => exact le_rfl
  | _ => exact le_rfl

theorem AddLE.stationStmt (h : AddLE C E D) (n : String) (s : StationStmt) :
    C.stationStmt n s + E.stationStmt n s ≤ D.stationStmt n s := by
  cases s with
  | achieve goal => exact h.stationTrigger n goal
  | sendInformStart holon k | sendRejectProposal holon k => exact h.answer holon n k
  | _ => exact le_rfl

theorem AddLE.amrTrigger (h : AddLE C E D) (t : AmrTrigger) :
    C.amrTrigger t + E.amrTrigger t ≤ D.amrTrigger t := by
  cases t with
  | amrArrived o k => exact h.transport o (some k)
  | _ => exact le_rfl

theorem AddLE.amrStmt (h : AddLE C E D) (s : AmrStmt) :
    C.amrStmt s + E.amrStmt s ≤ D.amrStmt s := by
  cases s with
  | achieve goal => exact h.amrTrigger goal
  | sendTransportDone sender o k => exact h.transport o (some k)
  | _ => exact le_rfl

theorem AddLE.mail (h : AddLE C E D) (m : Message) : C.mail m + E.mail m ≤ D.mail m := by
  obtain ⟨sender, receiver, c, k⟩ := m
  cases c with
  | order c =>
    cases c with
    | informStart w | rejectProposal w r => exact h.answer receiver sender k
    | transportDone o => exact h.transport o k
    | _ => exact le_rfl
  | station c =>
    cases c with
    | acceptProposal o | itemArrived o => exact h.answer sender receiver k
    | _ => exact le_rfl
  | _ => exact le_rfl

theorem AddLE.timerCost (h : AddLE C E D) (t : OrderTimer) :
    C.timerCost t + E.timerCost t ≤ D.timerCost t := by
  obtain ⟨n, key, k⟩ := t
  cases key with
  | await o => exact h.timer n o k
  | _ => exact le_rfl

end WaitCosts

namespace ShopWeight

variable {C E D : WaitCosts}

/-- Two weights together are at most a third when their costs are. -/
theorem wait_total_add_le (h : WaitCosts.AddLE C E D) (s : Shop) :
    (waitWeight C).total s + (waitWeight E).total s ≤ (waitWeight D).total s := by
  have horders := Weight.total_add_le (w := (waitWeight C).order) (u := (waitWeight E).order)
    (v := (waitWeight D).order) h.orderTrigger h.orderStmt s.orders
  have hstations := Weight.total_add_le (w := (waitWeight C).station)
    (u := (waitWeight E).station) (v := (waitWeight D).station) h.stationTrigger h.stationStmt
    s.stations
  have hamrs := Weight.total_add_le (w := (waitWeight C).amr) (u := (waitWeight E).amr)
    (v := (waitWeight D).amr) (fun _ => h.amrTrigger) (fun _ => h.amrStmt) s.amrs
  have hmail := Weight.sum_map_add_le (f := C.mail) (g := E.mail) (h := D.mail) s.mail
    fun m _ => h.mail m
  have htimers := Weight.sum_map_add_le (f := C.timerCost) (g := E.timerCost) (h := D.timerCost)
    s.orderTimers fun t _ => h.timerCost t
  have hsignals := Weight.sum_map_add_le (f := C.timerCost) (g := E.timerCost) (h := D.timerCost)
    s.orderSignals fun t _ => h.timerCost t
  have hjobs := Weight.sum_map_add_le (f := (waitWeight C).job) (g := (waitWeight E).job)
    (h := (waitWeight D).job) s.jobs fun j _ => h.transport j.o (some j.attempt)
  have hzero : ∀ {α : Type} (l : List α), (l.map fun _ => 0).sum = 0 := fun l => by simp
  simp only [total]
  simp only [waitWeight, hzero] at horders hstations hamrs hjobs ⊢
  omega

theorem wait_total_zero (s : Shop) : (waitWeight .zero).total s = 0 := by
  have h := wait_total_add_le (C := .zero) (E := .zero) (D := .zero)
    ⟨fun _ _ _ _ => le_rfl, fun _ _ => le_rfl, fun _ _ => le_rfl, fun _ _ _ => le_rfl,
      fun _ _ _ => le_rfl, fun _ _ => le_rfl⟩ s
  omega

/-- A weight with smaller costs is smaller. -/
theorem wait_total_mono (h : WaitCosts.AddLE C .zero D) (s : Shop) :
    (waitWeight C).total s ≤ (waitWeight D).total s := by
  have := wait_total_add_le h s
  omega

end ShopWeight

end MatrixFactory
