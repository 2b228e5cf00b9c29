/-
# What an operation does to the agents

An operation of the shop floor changes the agents of one kind in one of four ways: it
changes what they are told, raises an event, lets one of them answer an event, or moves an
intention.  A rule for each kind of agent says so; whatever holds of the agents under these
four changes holds after the operation.
-/
import MatrixFactory.ShopFloor

namespace MatrixFactory

open AgentSpeak

/-- A part of the state that no action changes is the same after a list of them. -/
theorem run_proj {S A α : Type*} {f : A → S → S} {g : S → α} (h : ∀ a s, g (f a s) = g s)
    (l : List A) (s : S) : g (Runs.run f l s) = g s := by
  induction l generalizing s with
  | nil => rfl
  | cons a l ih => rw [Runs.run_cons, ih, h]

/-- What may be raised at a resource holon; the other goals are those of its plans. -/
def ResourceHolon.raised : StationTrigger → Bool
  | .start | .callForProposal _ _ _ _ _ | .timerExpired _ | .told _ _ | .schemaEpoch _ => true
  | _ => false

namespace Shop

/-! ## Actions -/

section

variable (me : String)

@[simp] theorem orderAct_orders (a : OrderAction) (s : Shop) :
    (orderAct me a s).orders = s.orders := by
  cases a <;> rfl

@[simp] theorem orderAct_stations (a : OrderAction) (s : Shop) :
    (orderAct me a s).stations = s.stations := by
  cases a <;> rfl

@[simp] theorem orderAct_amrs (a : OrderAction) (s : Shop) :
    (orderAct me a s).amrs = s.amrs := by
  cases a <;> rfl

@[simp] theorem stationAct_orders (a : StationAction) (s : Shop) :
    (stationAct me a s).orders = s.orders := by
  cases a <;> rfl

@[simp] theorem stationAct_stations (a : StationAction) (s : Shop) :
    (stationAct me a s).stations = s.stations := by
  cases a <;> rfl

@[simp] theorem stationAct_amrs (a : StationAction) (s : Shop) :
    (stationAct me a s).amrs = s.amrs := by
  cases a <;> rfl

@[simp] theorem amrAct_orders (a : AmrAction) (s : Shop) :
    (amrAct me a s).orders = s.orders := by
  cases a <;> rfl

@[simp] theorem amrAct_stations (a : AmrAction) (s : Shop) :
    (amrAct me a s).stations = s.stations := by
  cases a <;> rfl

@[simp] theorem amrAct_amrs (a : AmrAction) (s : Shop) : (amrAct me a s).amrs = s.amrs := by
  cases a <;> rfl

end

/-! ## Events -/

/-- The event that an operation may raise at an order holon. -/
def orderEvent (s : Shop) : ShopOp → Option (String × OrderTrigger)
  | .deliver j =>
    s.mail[j]?.bind fun m =>
      match m.content with
      | .order c => some (m.receiver, .told ⟨c, m.sender⟩ m.attempt)
      | _ => none
  | .orderSignal j => s.orderSignals[j]?.map fun t => (t.holon, .timerExpired t.key t.attempt)
  | .orderEpoch n epoch => some (n, .schemaEpoch epoch)
  | _ => none

/-- The event that an operation may raise at a resource holon. -/
def stationEvent (s : Shop) : ShopOp → Option (String × StationTrigger)
  | .deliver j =>
    s.mail[j]?.bind fun m =>
      match m.content with
      | .station c => some (m.receiver, .told ⟨c, m.sender⟩ m.attempt)
      | .callForProposal step stations o =>
        some (m.receiver, .callForProposal step stations o m.sender m.attempt)
      | _ => none
  | .stationSignal j => s.stationSignals[j]?.map fun t => (t.1, .timerExpired t.2)
  | .stationEpoch n epoch => some (n, .schemaEpoch epoch)
  | _ => none

/-- The event that an operation may raise at an AMR agent. -/
def amrEvent (s : Shop) : ShopOp → Option (String × AmrTrigger)
  | .deliver j =>
    s.mail[j]?.bind fun m =>
      match m.content with
      | .amr c => some (m.receiver, .told ⟨c, m.sender⟩ m.attempt)
      | .transport o fromStation toStation =>
        some (m.receiver, .transport o fromStation toStation m.sender)
      | _ => none
  | .arrive j => s.jobs[j]?.map fun job => (job.amr, .amrArrived job.o job.attempt)
  | .transportBlocked amr o => some (amr, .amrTransportBlocked o)
  | .amrEpoch n epoch => some (n, .schemaEpoch epoch)
  | _ => none

theorem stationEvent_raised {s : Shop} {op : ShopOp} {e : String × StationTrigger}
    (he : s.stationEvent op = some e) : ResourceHolon.raised e.2 := by
  cases op with
  | deliver j =>
    obtain ⟨m, _, hm⟩ := Option.bind_eq_some_iff.mp he
    split at hm <;> cases hm <;> rfl
  | stationSignal j =>
    obtain ⟨t, _, rfl⟩ := Option.map_eq_some_iff.mp he
    rfl
  | stationEpoch n epoch =>
    cases he
    rfl
  | _ => cases he

/-! ## The rules -/

/-- What holds of the order holons before an operation and is kept by the four changes holds
after it. -/
theorem orders_rule {Q : Population String OrderBeliefs OrderTrigger OrderStmt → Prop}
    {op : ShopOp} {s : Shop} (hQ : Q s.orders)
    (hbelieve : ∀ p n f, (∀ b, ∃ told, f b = { b with told := told }) → Q p →
      Q (p.believe n f))
    (hpost : ∀ p e, s.orderEvent op = some e → Q p → Q (p.post e.1 e.2))
    (hselect : ∀ n, op = .orderSelect n → Q (s.orders.select OrderHolon.program n))
    (hmove : ∀ i x θ, op = .orderMove i x → s.orders.intentions[i]? = some θ →
      Q (s.orders.apply i
        (OrderHolon.program.move (s.orderInput θ x) (s.orders.beliefs θ.owner) θ))) :
    Q (s.exec op).orders := by
  cases op with
  | orderSelect n => exact hselect n rfl
  | orderMove i x =>
    simp only [exec, orderMove]
    split
    · exact hQ
    · next θ hθ =>
      rw [run_proj (g := Shop.orders) (by simp)]
      exact hmove i x θ rfl hθ
  | stationMove i =>
    simp only [exec, stationMove]
    split
    · exact hQ
    · rw [run_proj (g := Shop.orders) (by simp)]
      exact hQ
  | amrMove i u =>
    simp only [exec, amrMove]
    split
    · exact hQ
    · rw [run_proj (g := Shop.orders) (by simp)]
      exact hQ
  | deliver j =>
    simp only [exec, deliver]
    split
    · exact hQ
    · next m hm =>
      split
      · exact hQ
      · simp only [receive]
        split
        · next c hc =>
          dsimp only
          have hb := fun told => hbelieve s.orders m.receiver (fun b => { b with told := told })
            (fun b => ⟨told, rfl⟩) hQ
          split
          · exact hpost _ (m.receiver, .told ⟨c, m.sender⟩ m.attempt)
              (by simp [orderEvent, hm, hc]) (hb _)
          · exact hb _
        all_goals exact hQ
  | orderSignal j =>
    simp only [exec]
    split
    · exact hQ
    · next t ht =>
      exact hpost _ (t.holon, .timerExpired t.key t.attempt) (by simp [orderEvent, ht]) hQ
  | orderEpoch n epoch => exact hpost _ (n, .schemaEpoch epoch) rfl hQ
  | arrive j =>
    simp only [exec, arrive]
    split <;> exact hQ
  | finish j code summary =>
    simp only [exec, finish]
    split <;> exact hQ
  | _ => first | exact hQ | (simp only [exec]; split <;> exact hQ)

/-- What holds of the resource holons before an operation and is kept by the four changes
holds after it. -/
theorem stations_rule {Q : Population String StationBeliefs StationTrigger StationStmt → Prop}
    {op : ShopOp} {s : Shop} (hQ : Q s.stations)
    (hbelieve : ∀ p n f, (∀ b, ∃ told summary, f b = { b with told := told, summary := summary } ∧
        ((∀ j code summary', op ≠ .finish j code summary') → summary = b.summary)) →
      Q p → Q (p.believe n f))
    (hpost : ∀ p e, s.stationEvent op = some e → Q p → Q (p.post e.1 e.2))
    (hselect : ∀ n, op = .stationSelect n → Q (s.stations.select ResourceHolon.program n))
    (hmove : ∀ i θ, op = .stationMove i → s.stations.intentions[i]? = some θ →
      Q (s.stations.apply i
        (ResourceHolon.program.move (s.stationInput θ) (s.stations.beliefs θ.owner) θ))) :
    Q (s.exec op).stations := by
  cases op with
  | orderMove i x =>
    simp only [exec, orderMove]
    split
    · exact hQ
    · rw [run_proj (g := Shop.stations) (by simp)]
      exact hQ
  | stationSelect n => exact hselect n rfl
  | stationMove i =>
    simp only [exec, stationMove]
    split
    · exact hQ
    · next θ hθ =>
      rw [run_proj (g := Shop.stations) (by simp)]
      exact hmove i θ rfl hθ
  | amrMove i u =>
    simp only [exec, amrMove]
    split
    · exact hQ
    · rw [run_proj (g := Shop.stations) (by simp)]
      exact hQ
  | deliver j =>
    simp only [exec, deliver]
    split
    · exact hQ
    · next m hm =>
      split
      · exact hQ
      · simp only [receive]
        split
        · exact hQ
        · next c hc =>
          dsimp only
          have hb := fun told => hbelieve s.stations m.receiver (fun b => { b with told := told })
            (fun b => ⟨told, b.summary, rfl, fun _ => rfl⟩) hQ
          split
          · exact hpost _ (m.receiver, .told ⟨c, m.sender⟩ m.attempt)
              (by simp [stationEvent, hm, hc]) (hb _)
          · exact hb _
        · exact hQ
        · next step stations o hc =>
          exact hpost _ (m.receiver, .callForProposal step stations o m.sender m.attempt)
            (by simp [stationEvent, hm, hc]) hQ
        · exact hQ
  | stationSignal j =>
    simp only [exec]
    split
    · exact hQ
    · next t ht => exact hpost _ (t.1, .timerExpired t.2) (by simp [stationEvent, ht]) hQ
  | arrive j =>
    simp only [exec, arrive]
    split <;> exact hQ
  | finish j code summary =>
    simp only [exec, finish]
    split
    · exact hQ
    · refine hbelieve _ _ _ (fun b => ⟨b.told, summary, rfl, fun h => ?_⟩) hQ
      exact absurd rfl (h j code summary)
  | stationEpoch n epoch => exact hpost _ (n, .schemaEpoch epoch) rfl hQ
  | _ => first | exact hQ | (simp only [exec]; split <;> exact hQ)

/-- What holds of the AMR agents before an operation and is kept by the four changes holds
after it. -/
theorem amrs_rule {Q : Population String AmrBeliefs AmrTrigger AmrStmt → Prop}
    {op : ShopOp} {s : Shop} (hQ : Q s.amrs)
    (hbelieve : ∀ p n f, (∀ b, ∃ told, f b = { b with told := told }) → Q p →
      Q (p.believe n f))
    (hpost : ∀ p e, s.amrEvent op = some e → Q p → Q (p.post e.1 e.2))
    (hselect : ∀ n, op = .amrSelect n → Q (s.amrs.select AmrAgent.program n))
    (hmove : ∀ i u θ, op = .amrMove i u → s.amrs.intentions[i]? = some θ →
      Q (s.amrs.apply i (AmrAgent.program.move u (s.amrs.beliefs θ.owner) θ))) :
    Q (s.exec op).amrs := by
  cases op with
  | orderMove i x =>
    simp only [exec, orderMove]
    split
    · exact hQ
    · rw [run_proj (g := Shop.amrs) (by simp)]
      exact hQ
  | stationMove i =>
    simp only [exec, stationMove]
    split
    · exact hQ
    · rw [run_proj (g := Shop.amrs) (by simp)]
      exact hQ
  | amrSelect n => exact hselect n rfl
  | amrMove i u =>
    simp only [exec, amrMove]
    split
    · exact hQ
    · next θ hθ =>
      rw [run_proj (g := Shop.amrs) (by simp)]
      exact hmove i u θ rfl hθ
  | deliver j =>
    simp only [exec, deliver]
    split
    · exact hQ
    · next m hm =>
      split
      · exact hQ
      · simp only [receive]
        split
        · exact hQ
        · exact hQ
        · next c hc =>
          dsimp only
          have hb := fun told => hbelieve s.amrs m.receiver (fun b => { b with told := told })
            (fun b => ⟨told, rfl⟩) hQ
          split
          · exact hpost _ (m.receiver, .told ⟨c, m.sender⟩ m.attempt)
              (by simp [amrEvent, hm, hc]) (hb _)
          · exact hb _
        · exact hQ
        · next o fromStation toStation hc =>
          exact hpost _ (m.receiver, .transport o fromStation toStation m.sender)
            (by simp [amrEvent, hm, hc]) hQ
  | arrive j =>
    simp only [exec, arrive]
    split
    · exact hQ
    · next job hjob =>
      exact hpost _ (job.amr, .amrArrived job.o job.attempt) (by simp [amrEvent, hjob]) hQ
  | transportBlocked amr o => exact hpost _ (amr, .amrTransportBlocked o) rfl hQ
  | finish j code summary =>
    simp only [exec, finish]
    split <;> exact hQ
  | amrEpoch n epoch => exact hpost _ (n, .schemaEpoch epoch) rfl hQ
  | _ => first | exact hQ | (simp only [exec]; split <;> exact hQ)

/-! ## The records of the transport jobs -/

/-- The transport jobs and what is recorded of them. -/
structure JobView where
  jobs : List CommittedJob
  committed : List CommittedJob
  arrived : List CommittedJob
  notified : List (Attempt × String)
  aborted : List Attempt
  received : List Attempt
  cancelled : List (CommittedJob × Option Attempt)

/-- The transport jobs of a state. -/
def jobView (s : Shop) : JobView :=
  ⟨s.jobs, s.committed, s.arrived, s.notified, s.aborted, s.received, s.cancelled⟩

/-- An operation that concerns transport jobs: a move of an order holon or an AMR agent, the
delivery of a message, or an arrival. -/
def concernsJobs : ShopOp → Bool
  | .orderMove _ _ | .amrMove _ _ | .deliver _ | .arrive _ => true
  | _ => false

theorem jobView_exec {op : ShopOp} (hop : concernsJobs op = false) (s : Shop) :
    (s.exec op).jobView = s.jobView := by
  cases op with
  | orderMove | amrMove | deliver | arrive => cases hop
  | stationMove i =>
    simp only [exec, stationMove]
    split
    · rfl
    · rw [run_proj (g := jobView) fun a s => by cases a <;> rfl]
      rfl
  | finish j code summary =>
    simp only [exec, finish]
    split <;> rfl
  | _ => first | rfl | (simp only [exec]; split <;> rfl)

/-- A move of an order holon commits jobs and sends aborts. -/
theorem orderMove_jobs (i : ℕ) (x : OrderInput) (s : Shop) :
    (s.orderMove i x).arrived = s.arrived ∧ (s.orderMove i x).notified = s.notified ∧
      (s.orderMove i x).received = s.received ∧ (s.orderMove i x).cancelled = s.cancelled ∧
      s.aborted ⊆ (s.orderMove i x).aborted ∧ s.committed ⊆ (s.orderMove i x).committed := by
  have hrun : ∀ me acts (s : Shop),
      (Runs.run (orderAct me) acts s).arrived = s.arrived ∧
      (Runs.run (orderAct me) acts s).notified = s.notified ∧
      (Runs.run (orderAct me) acts s).received = s.received ∧
      (Runs.run (orderAct me) acts s).cancelled = s.cancelled ∧
      s.aborted ⊆ (Runs.run (orderAct me) acts s).aborted ∧
      s.committed ⊆ (Runs.run (orderAct me) acts s).committed := by
    intro me acts
    induction acts with
    | nil => exact fun s => ⟨rfl, rfl, rfl, rfl, fun _ h => h, fun _ h => h⟩
    | cons a acts ih =>
      intro s
      obtain ⟨h₁, h₂, h₃, h₄, h₅, h₆⟩ := ih (orderAct me a s)
      rw [Runs.run_cons, h₁, h₂, h₃, h₄]
      cases a with
      | tellAmr amr m k =>
        exact ⟨rfl, rfl, rfl, rfl, fun _ h => h₅ (List.mem_cons_of_mem k h), h₆⟩
      | reserveTransport amr fromStation toStation o k =>
        exact ⟨rfl, rfl, rfl, rfl, h₅, fun _ h => h₆ (List.mem_cons_of_mem _ h)⟩
      | _ => exact ⟨rfl, rfl, rfl, rfl, h₅, h₆⟩
  unfold orderMove
  split
  · exact ⟨rfl, rfl, rfl, rfl, fun _ h => h, fun _ h => h⟩
  · exact hrun _ _ _

/-- A move of an AMR agent notifies and cancels. -/
theorem amrMove_jobs (i : ℕ) (u : ℚ) (s : Shop) :
    (s.amrMove i u).committed = s.committed ∧ (s.amrMove i u).arrived = s.arrived ∧
      (s.amrMove i u).aborted = s.aborted ∧ (s.amrMove i u).received = s.received ∧
      s.notified ⊆ (s.amrMove i u).notified ∧ (s.amrMove i u).jobs ⊆ s.jobs := by
  have hrun : ∀ me acts (s : Shop),
      (Runs.run (amrAct me) acts s).committed = s.committed ∧
      (Runs.run (amrAct me) acts s).arrived = s.arrived ∧
      (Runs.run (amrAct me) acts s).aborted = s.aborted ∧
      (Runs.run (amrAct me) acts s).received = s.received ∧
      s.notified ⊆ (Runs.run (amrAct me) acts s).notified ∧
      (Runs.run (amrAct me) acts s).jobs ⊆ s.jobs := by
    intro me acts
    induction acts with
    | nil => exact fun s => ⟨rfl, rfl, rfl, rfl, fun _ h => h, fun _ h => h⟩
    | cons a acts ih =>
      intro s
      obtain ⟨h₁, h₂, h₃, h₄, h₅, h₆⟩ := ih (amrAct me a s)
      rw [Runs.run_cons, h₁, h₂, h₃, h₄]
      cases a with
      | cancelTransport o k =>
        exact ⟨rfl, rfl, rfl, rfl, h₅, fun _ h => List.mem_of_mem_filter (h₆ h)⟩
      | tellOrder holon m k =>
        exact ⟨rfl, rfl, rfl, rfl, fun _ h => h₅ (List.mem_cons_of_mem _ h), h₆⟩
      | tellSupervisor => exact ⟨rfl, rfl, rfl, rfl, h₅, h₆⟩
  unfold amrMove
  split
  · exact ⟨rfl, rfl, rfl, rfl, fun _ h => h, fun _ h => h⟩
  · exact hrun _ _ _

/-- A delivery leaves the jobs, and records that an abort has reached its agent. -/
theorem deliver_jobs (j : ℕ) (s : Shop) :
    (s.deliver j).jobView = { s.jobView with received := (s.deliver j).received } := by
  unfold deliver
  split
  · rfl
  · split
    · rfl
    · unfold receive
      split <;> rfl

/-- The arrival of a job leaves the other records. -/
theorem arrive_jobs (j : ℕ) (s : Shop) :
    (s.arrive j).jobView =
      match s.jobs[j]? with
      | none => s.jobView
      | some job => { s.jobView with jobs := s.jobs.eraseIdx j, arrived := job :: s.arrived } := by
  unfold arrive
  cases s.jobs[j]? <;> rfl

/-- Only a move of an order holon sends aborts. -/
theorem aborted_eq {op : ShopOp} (hop : ∀ i x, op ≠ .orderMove i x) (s : Shop) :
    (s.exec op).aborted = s.aborted := by
  by_cases hjobs : concernsJobs op
  · cases op with
    | orderMove i x => exact absurd rfl (hop i x)
    | amrMove i u => exact (amrMove_jobs i u s).2.2.1
    | deliver j => exact congrArg JobView.aborted (deliver_jobs j s)
    | arrive j =>
      have h := congrArg JobView.aborted (arrive_jobs j s)
      split at h <;> exact h
    | _ => cases hjobs
  · exact congrArg JobView.aborted (jobView_exec (Bool.eq_false_iff.mpr hjobs) s)

/-- Attempts whose abort was sent stay so. -/
theorem aborted_exec (op : ShopOp) (s : Shop) : s.aborted ⊆ (s.exec op).aborted := by
  by_cases hop : ∃ i x, op = .orderMove i x
  · obtain ⟨i, x, rfl⟩ := hop
    exact (orderMove_jobs i x s).2.2.2.2.1
  · rw [aborted_eq fun i x h => hop ⟨i, x, h⟩]
    exact fun _ h => h

/-- Only a move of an AMR agent notifies. -/
theorem notified_exec {op : ShopOp} (hop : ∀ i u, op ≠ .amrMove i u) (s : Shop) :
    (s.exec op).notified = s.notified := by
  by_cases hjobs : concernsJobs op
  · cases op with
    | orderMove i x => exact (orderMove_jobs i x s).2.1
    | amrMove i u => exact absurd rfl (hop i u)
    | deliver j => exact congrArg JobView.notified (deliver_jobs j s)
    | arrive j =>
      have h := congrArg JobView.notified (arrive_jobs j s)
      split at h <;> exact h
    | _ => cases hjobs
  · exact congrArg JobView.notified (jobView_exec (Bool.eq_false_iff.mpr hjobs) s)

/-- Only an arrival is recorded as one. -/
theorem arrived_exec (op : ShopOp) (s : Shop) :
    (s.exec op).arrived = s.arrived ∨
      ∃ j job, op = .arrive j ∧ s.jobs[j]? = some job ∧ (s.exec op).arrived = job :: s.arrived := by
  by_cases hjobs : concernsJobs op
  · cases op with
    | orderMove i x => exact Or.inl (orderMove_jobs i x s).1
    | amrMove i u => exact Or.inl (amrMove_jobs i u s).2.1
    | deliver j => exact Or.inl (congrArg JobView.arrived (deliver_jobs j s))
    | arrive j =>
      have h := congrArg JobView.arrived (arrive_jobs j s)
      split at h
      · exact Or.inl h
      · next job hjob => exact Or.inr ⟨j, job, rfl, hjob, h⟩
    | _ => cases hjobs
  · exact Or.inl (congrArg JobView.arrived (jobView_exec (Bool.eq_false_iff.mpr hjobs) s))

end Shop

/-! ## A run -/

/-- One agent of each kind; the station carries out the first step. -/
def oneStation : ShopConfig where
  orderHolons := ["order_1"]
  resourceHolons := ["station_1"]
  transportHolons := ["amr_1"]
  recipeStep _ := 1

/-- Moves of one intention of the order holons. -/
def orderMoves (k i : ℕ) : List ShopOp := List.replicate k (.orderMove i { amr := "amr_1" })

/-- Moves of one intention of the resource holons. -/
def stationMoves (k i : ℕ) : List ShopOp := List.replicate k (.stationMove i)

/-- Moves of one intention of the AMR agents. -/
def amrMoves (k i : ℕ) : List ShopOp := List.replicate k (.amrMove i 0)

/-- The agents start, the order holon calls for proposals for its first order, the station
proposes, and the acceptance of its proposal has reached it. -/
def acceptedRun : List ShopOp :=
  ShopOp.amrSelect "amr_1" :: amrMoves 2 0 ++
    ShopOp.stationSelect "station_1" :: stationMoves 5 0 ++
    ShopOp.orderSelect "order_1" :: orderMoves 7 0 ++
    [ShopOp.orderTimer 0, .orderSignal 0, .orderSelect "order_1"] ++ orderMoves 10 1 ++
    [ShopOp.deliver 0, .stationSelect "station_1"] ++ stationMoves 6 1 ++
    [ShopOp.deliver 4, .orderTimer 0, .orderSignal 0, .orderSelect "order_1",
      .orderSelect "order_1"] ++ orderMoves 8 2 ++ [ShopOp.deliver 4, .stationSelect "station_1"] ++
    stationMoves 1 2

/-- After `acceptedRun`: the station registers its lock, the transport is dispatched and
done, the item arrives, and the station starts. -/
def arrivedRun : List ShopOp :=
  stationMoves 3 2 ++ orderMoves 12 2 ++ [ShopOp.deliver 4, .amrSelect "amr_1"] ++ amrMoves 4 1 ++
    [ShopOp.arrive 0, .amrSelect "amr_1"] ++ amrMoves 2 2 ++
    [ShopOp.deliver 4, .orderSelect "order_1"] ++ orderMoves 3 3 ++
    [ShopOp.deliver 4, .stationSelect "station_1"] ++ stationMoves 6 3

end MatrixFactory
