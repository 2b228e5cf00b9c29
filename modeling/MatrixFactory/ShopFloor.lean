/-
# The shop floor

The order holons, resource holons and AMR agents together with what connects them: the
messages under way, the timers, the transport jobs and the runs of `processOrder`.  An
operation is one move of one agent or one event of the surroundings, so a list of
operations is an interleaving.  A timer may expire at any moment; its signal is raised by
an internal operation of the artifact, so it reaches the agent later and can no longer be
cancelled.  A run may end and a committed job be delivered at any moment.  The supervisor
is part of the surroundings and may send its messages at any moment.

`attempts` numbers the attempts, and the fields after it record what has happened; no
guard and no effect of the code depends on them.
-/
import MatrixFactory.OrderHolon
import MatrixFactory.ResourceHolon
import MatrixFactory.AmrAgent
import MatrixFactory.Lib.Runs

namespace MatrixFactory

open AgentSpeak

/-- What a message carries; the last two are achieve messages. -/
inductive Content where
  | order (m : OrderMsg)
  | station (m : StationMsg)
  | amr (m : AmrMsg)
  | callForProposal (step : ℕ) (stations : List String) (o : OrderId)
  | transport (o : OrderId) (fromStation toStation : String)
  deriving DecidableEq

/-- A message under way, with the attempt it is sent for. -/
structure Message where
  sender : String
  receiver : String
  content : Content
  attempt : Option Attempt := none
  deriving DecidableEq

/-- A transport job that has been committed to an AMR for an attempt. -/
structure CommittedJob where
  amr : String
  fromStation : String
  toStation : String
  o : OrderId
  attempt : Attempt
  deriving DecidableEq

/-- A timer of an order holon. -/
structure OrderTimer where
  holon : String
  key : TimerKey
  attempt : Option Attempt
  deriving DecidableEq

/-- A run of `processOrder` in a station artifact. -/
structure StationRun where
  run : ℕ
  station : String
  o : OrderId
  deriving DecidableEq

/-- The result of a run that the agent has not read. -/
structure RunResult where
  run : ℕ
  station : String
  o : OrderId
  code : ResultCode
  deriving DecidableEq

/-- The state of the shop floor.  The timers of `orderSignals` and `stationSignals` have
expired, but their signals have not been raised.  `delivered` holds the jobs whose arrival
has been signalled, `processed` the calls of `processOrder`, `completed` the runs that
ended with `"ok"`, and `advanced` the steps that an order holon took as complete.

`committed` and `arrived` hold the jobs committed and signalled as arrived, `notified` the
attempts for which `transport_done` was sent and the order holon it went to, `aborted` the
attempts for which `abort_transport` was sent, `received` those whose `abort_transport` has
reached its AMR agent, `cancelled` the jobs cancelled together with the attempt whose
`abort_transport` did it, and `decided` what ended the wait of an attempt. -/
structure Shop where
  orders : Population String OrderBeliefs OrderTrigger OrderStmt
  stations : Population String StationBeliefs StationTrigger StationStmt
  amrs : Population String AmrBeliefs AmrTrigger AmrStmt
  mail : List Message := []
  orderTimers : List OrderTimer := []
  orderSignals : List OrderTimer := []
  stationTimers : List (String × OrderId) := []
  stationSignals : List (String × OrderId) := []
  jobs : List CommittedJob := []
  runs : List StationRun := []
  results : List RunResult := []
  nextRun : ℕ := 0
  registry : List (OrderId × String × String) := []
  ledger : List (OrderId × OrderEvent) := []
  attempts : ℕ := 0
  delivered : List (OrderId × String) := []
  processed : List (OrderId × String) := []
  completed : List (OrderId × String) := []
  advanced : List (OrderId × ℕ × Option ℕ) := []
  committed : List CommittedJob := []
  arrived : List CommittedJob := []
  notified : List (Attempt × String) := []
  aborted : List Attempt := []
  received : List Attempt := []
  cancelled : List (CommittedJob × Option Attempt) := []
  decided : List (Attempt × Option Attempt) := []

/-- What the supervisor may send. -/
inductive SupervisorMsg where
  | suspendOrder
  | resumeOrder
  | abortOrder (o : OrderId)
  | suspendStation
  | resumeStation
  | abortStation (o : OrderId)
  | suspendAmr
  | resumeAmr
  deriving DecidableEq

/-- The content of a supervisor's message. -/
def SupervisorMsg.content : SupervisorMsg → Content
  | .suspendOrder => .order .suspendIntentions
  | .resumeOrder => .order .resumeIntention
  | .abortOrder o => .order (.abortCurrentOperation o)
  | .suspendStation => .station .suspendIntentions
  | .resumeStation => .station .resumeIntention
  | .abortStation o => .station (.abortCurrentOperation o)
  | .suspendAmr => .amr .suspendIntentions
  | .resumeAmr => .amr .resumeIntention

/-- The operations: moves of the agents, and events of their surroundings. -/
inductive ShopOp where
  | orderSelect (n : String)
  | orderMove (i : ℕ) (x : OrderInput)
  | stationSelect (n : String)
  | stationMove (i : ℕ)
  | amrSelect (n : String)
  | amrMove (i : ℕ) (utilization : ℚ)
  | deliver (j : ℕ)
  | supervisor (receiver : String) (m : SupervisorMsg)
  | orderTimer (j : ℕ)
  | orderSignal (j : ℕ)
  | stationTimer (j : ℕ)
  | stationSignal (j : ℕ)
  | arrive (j : ℕ)
  | transportBlocked (amr : String) (o : OrderId)
  | finish (j : ℕ) (code : ResultCode) (summary : StationSummary)
  | orderEpoch (n : String) (epoch : ℤ)
  | stationEpoch (n : String) (epoch : ℤ)
  | amrEpoch (n : String) (epoch : ℤ)

namespace Shop

/-! ## Actions of the agents -/

/-- A message is sent. -/
def send (sender receiver : String) (c : Content) (k : Option Attempt) (s : Shop) : Shop :=
  { s with mail := s.mail ++ [⟨sender, receiver, c, k⟩] }

/-- An action of the order holon `me`. -/
def orderAct (me : String) : OrderAction → Shop → Shop
  | .startTimer key _ k, s => { s with orderTimers := s.orderTimers ++ [⟨me, key, k⟩] }
  | .cancelTimer key, s =>
    { s with orderTimers := s.orderTimers.filter fun t => ¬ (t.holon = me ∧ t.key = key) }
  | .recordEvent o e, s => { s with ledger := (o, e) :: s.ledger }
  | .reserveTransport amr fromStation toStation o k, s =>
    let job : CommittedJob := ⟨amr, fromStation, toStation, o, k⟩
    { s with jobs := s.jobs ++ [job], committed := job :: s.committed }
  | .achieveTransport amr o fromStation toStation, s =>
    s.send me amr (.transport o fromStation toStation) none
  | .achieveCallForProposal station step stations o k, s =>
    s.send me station (.callForProposal step stations o) (some k)
  | .tellStation station m k, s => s.send me station (.station m) k
  | .tellAmr amr m k, s => { s with aborted := k :: s.aborted }.send me amr (.amr m) (some k)
  | .tellSupervisor, s => s
  | .advanced o step next, s => { s with advanced := (o, step, next) :: s.advanced }
  | .decided k cause, s => { s with decided := (k, cause) :: s.decided }
  | .begins k, s => { s with attempts := k.number + 1 }

/-- An action of the resource holon `me`. -/
def stationAct (me : String) : StationAction → Shop → Shop
  | .startTimer o _, s => { s with stationTimers := s.stationTimers ++ [(me, o)] }
  | .cancelTimer o, s => { s with stationTimers := s.stationTimers.filter (· ≠ (me, o)) }
  | .registerLock o holon, s =>
    { s with registry := (o, me, holon) :: s.registry.filter (·.1 ≠ o) }
  | .releaseLock o, s => { s with registry := s.registry.filter (·.1 ≠ o) }
  | .tellOrder holon m k, s => s.send me holon (.order m) k
  | .tellSupervisor, s => s
  | .processOrder o, s => { s with processed := (o, me) :: s.processed }
  | .startRun run o, s => { s with runs := s.runs ++ [⟨run, me, o⟩], nextRun := run + 1 }
  | .readResult run, s =>
    { s with results := s.results.eraseP fun r => r.run = run ∧ r.station = me }

/-- An action of the AMR agent `me`. -/
def amrAct (me : String) : AmrAction → Shop → Shop
  | .cancelTransport o k, s =>
    { s with
      jobs := s.jobs.filter fun j => ¬ (j.amr = me ∧ j.o = o)
      cancelled :=
        (s.jobs.filter fun j => j.amr = me ∧ j.o = o).map (·, k) ++ s.cancelled }
  | .tellOrder holon m k, s =>
    { s with notified := (k, holon) :: s.notified }.send me holon (.order m) (some k)
  | .tellSupervisor, s => s

/-! ## Moves and events -/

/-- What a move of the intention reads from outside. -/
def orderInput (θ : Intention String OrderTrigger OrderStmt) (x : OrderInput) (s : Shop) :
    OrderInput :=
  { x with attempt := ⟨θ.owner, s.attempts⟩ }

/-- A move of intention `i` of the order holons. -/
def orderMove (i : ℕ) (x : OrderInput) (s : Shop) : Shop :=
  match s.orders.intentions[i]? with
  | none => s
  | some θ =>
    let m := OrderHolon.program.move (s.orderInput θ x) (s.orders.beliefs θ.owner) θ
    Runs.run (orderAct θ.owner) m.actions { s with orders := s.orders.apply i m }

/-- The result of the run that the intention waits for. -/
def resultFor (θ : Intention String StationTrigger StationStmt) (s : Shop) : Option RunResult :=
  match θ.head with
  | some (.awaitResult run _ _ _) => s.results.find? fun r => r.run = run ∧ r.station = θ.owner
  | _ => none

/-- What a move of the intention reads from outside. -/
def stationInput (θ : Intention String StationTrigger StationStmt) (s : Shop) : StationInput :=
  ⟨s.nextRun, (s.resultFor θ).map (·.code)⟩

/-- A move of intention `i` of the resource holons. -/
def stationMove (i : ℕ) (s : Shop) : Shop :=
  match s.stations.intentions[i]? with
  | none => s
  | some θ =>
    let m := ResourceHolon.program.move (s.stationInput θ) (s.stations.beliefs θ.owner) θ
    Runs.run (stationAct θ.owner) m.actions { s with stations := s.stations.apply i m }

/-- A move of intention `i` of the AMR agents. -/
def amrMove (i : ℕ) (utilization : ℚ) (s : Shop) : Shop :=
  match s.amrs.intentions[i]? with
  | none => s
  | some θ =>
    let m := AmrAgent.program.move utilization (s.amrs.beliefs θ.owner) θ
    Runs.run (amrAct θ.owner) m.actions { s with amrs := s.amrs.apply i m }

/-- A message reaches its receiver; a told literal that is held raises no event. -/
def receive (m : Message) (s : Shop) : Shop :=
  match m.content with
  | .order c =>
    let (told, new) := tell Held.lit ⟨⟨c, m.sender⟩, m.attempt⟩ (s.orders.beliefs m.receiver).told
    let orders := s.orders.believe m.receiver fun b => { b with told := told }
    { s with
      orders := if new then orders.post m.receiver (.told ⟨c, m.sender⟩ m.attempt) else orders }
  | .station c =>
    let (told, new) := tell id ⟨c, m.sender⟩ (s.stations.beliefs m.receiver).told
    let stations := s.stations.believe m.receiver fun b => { b with told := told }
    { s with
      stations :=
        if new then stations.post m.receiver (.told ⟨c, m.sender⟩ m.attempt) else stations }
  | .amr c =>
    let (told, new) := tell id ⟨c, m.sender⟩ (s.amrs.beliefs m.receiver).told
    let amrs := s.amrs.believe m.receiver fun b => { b with told := told }
    { s with
      amrs := if new then amrs.post m.receiver (.told ⟨c, m.sender⟩ m.attempt) else amrs
      received := m.attempt.toList ++ s.received }
  | .callForProposal step stations o =>
    { s with
      stations := s.stations.post m.receiver (.callForProposal step stations o m.sender m.attempt) }
  | .transport o fromStation toStation =>
    { s with amrs := s.amrs.post m.receiver (.transport o fromStation toStation m.sender) }

/-- Message `j` is delivered, unless an earlier one between the same agents is under
way. -/
def deliver (j : ℕ) (s : Shop) : Shop :=
  match s.mail[j]? with
  | none => s
  | some m =>
    if ∃ m' ∈ s.mail.take j, m'.sender = m.sender ∧ m'.receiver = m.receiver then s
    else { s with mail := s.mail.eraseIdx j }.receive m

/-- The AMR of job `j` signals `amr_arrived`. -/
def arrive (j : ℕ) (s : Shop) : Shop :=
  match s.jobs[j]? with
  | none => s
  | some job =>
    { s with
      jobs := s.jobs.eraseIdx j
      amrs := s.amrs.post job.amr (.amrArrived job.o job.attempt)
      delivered := (job.o, job.toStation) :: s.delivered
      arrived := job :: s.arrived }

/-- Run `j` of `processOrder` ends; `summary` is what it leaves in the artifact. -/
def finish (j : ℕ) (code : ResultCode) (summary : StationSummary) (s : Shop) : Shop :=
  match s.runs[j]? with
  | none => s
  | some r =>
    { s with
      runs := s.runs.eraseIdx j
      results := ⟨r.run, r.station, r.o, code⟩ :: s.results
      stations := s.stations.believe r.station fun b => { b with summary := summary }
      completed := if code = .ok then (r.o, r.station) :: s.completed else s.completed }

/-- One operation. -/
def exec : ShopOp → Shop → Shop
  | .orderSelect n, s => { s with orders := s.orders.select OrderHolon.program n }
  | .orderMove i x, s => s.orderMove i x
  | .stationSelect n, s => { s with stations := s.stations.select ResourceHolon.program n }
  | .stationMove i, s => s.stationMove i
  | .amrSelect n, s => { s with amrs := s.amrs.select AmrAgent.program n }
  | .amrMove i utilization, s => s.amrMove i utilization
  | .deliver j, s => s.deliver j
  | .supervisor receiver m, s => s.send "supervisor" receiver m.content none
  | .orderTimer j, s =>
    match s.orderTimers[j]? with
    | none => s
    | some t =>
      { s with orderTimers := s.orderTimers.eraseIdx j, orderSignals := s.orderSignals ++ [t] }
  | .orderSignal j, s =>
    match s.orderSignals[j]? with
    | none => s
    | some t =>
      { s with
        orderSignals := s.orderSignals.eraseIdx j
        orders := s.orders.post t.holon (.timerExpired t.key t.attempt) }
  | .stationTimer j, s =>
    match s.stationTimers[j]? with
    | none => s
    | some t =>
      { s with
        stationTimers := s.stationTimers.eraseIdx j, stationSignals := s.stationSignals ++ [t] }
  | .stationSignal j, s =>
    match s.stationSignals[j]? with
    | none => s
    | some t =>
      { s with
        stationSignals := s.stationSignals.eraseIdx j
        stations := s.stations.post t.1 (.timerExpired t.2) }
  | .arrive j, s => s.arrive j
  | .transportBlocked amr o, s => { s with amrs := s.amrs.post amr (.amrTransportBlocked o) }
  | .finish j code summary, s => s.finish j code summary
  | .orderEpoch n epoch, s => { s with orders := s.orders.post n (.schemaEpoch epoch) }
  | .stationEpoch n epoch, s => { s with stations := s.stations.post n (.schemaEpoch epoch) }
  | .amrEpoch n epoch, s => { s with amrs := s.amrs.post n (.schemaEpoch epoch) }

end Shop

/-! ## The start -/

/-- The agents of a factory, the recipe step and cost of each station, and the test
hooks. -/
structure ShopConfig where
  orderHolons : List String
  resourceHolons : List String
  transportHolons : List String
  recipeStep : String → ℕ
  processingCost : String → ℚ := fun _ => 10
  cnpSlowAccept : Bool := false
  bidTtl : Option ℕ := none
  blockAckFrom : String → Bool := fun _ => false

/-- Every agent is about to pursue its goal `start`. -/
def Shop.start (c : ShopConfig) : Shop where
  orders :=
    { beliefs := fun _ => { testHookCnpSlowAccept := c.cnpSlowAccept }
      events := c.orderHolons.map (·, .start) }
  stations :=
    { beliefs := fun n =>
        { recipeStep := c.recipeStep n
          processingCost := c.processingCost n
          testHookTtl := c.bidTtl
          testHookBlockAck := c.blockAckFrom n }
      events := c.resourceHolons.map (·, .start) }
  amrs := { beliefs := fun _ => {}, events := c.transportHolons.map (·, .start) }

end MatrixFactory
