/-
# The factory

The shop floor together with the supervisor.  What the supervisor sends reaches the holons'
mail; it reads the registry of the shop floor, and an acknowledgement reaches it some time
after it was sent.  Both record the events of the orders in one ledger.  The prices, the
utilization of the grid, blocked transports and the epoch that the simulator publishes are
those of the surroundings.
-/
import MatrixFactory.OrderAgenda
import MatrixFactory.Supervision

namespace MatrixFactory

open AgentSpeak

/-- The events of an order in the ledger. -/
inductive LedgerEvent where
  | submitted
  | completed
  | aborted
  deriving DecidableEq, Repr

/-- The event that an order holon records. -/
def OrderEvent.ledger : OrderEvent → LedgerEvent
  | .submitted => .submitted
  | .completed => .completed

/-- The state of the factory.  `acks` holds the acknowledgements under way, and `ledger` the
recorded events, newest first. -/
structure Factory where
  shop : Shop
  supervision : Supervision
  acks : List String := []
  ledger : List (OrderId × LedgerEvent) := []

/-- The operations: those of the shop floor and of the supervisor, and the arrival of an
acknowledgement. -/
inductive FactoryOp where
  | shop (op : ShopOp)
  | supervise (op : SupervisionOp)
  | ack (j : ℕ)

namespace Shop

/-- What an operation records. -/
def recorded (s : Shop) : ShopOp → Option (OrderId × OrderEvent)
  | .orderMove i _ => s.orders.intentions[i]?.bind fun θ =>
    match θ.head with
    | some (.recordEvent o e) => some (o, e)
    | _ => none
  | _ => none

/-- The holon that acknowledges a suspension. -/
def acknowledges (s : Shop) : ShopOp → Option String
  | .orderMove i _ => (s.orders.intentions[i]?.filter (·.head = some .sendSuspendAck)).map (·.owner)
  | .stationMove i =>
    (s.stations.intentions[i]?.filter (·.head = some .sendSuspendAck)).map (·.owner)
  | .amrMove i _ => (s.amrs.intentions[i]?.filter (·.head = some .sendSuspendAck)).map (·.owner)
  | _ => none

end Shop

namespace Factory

/-- `suspend_intentions` for a holon. -/
def suspendMsg (r : Roster) (h : String) : SupervisorMsg :=
  if h ∈ r.orderHolons then .suspendOrder
  else if h ∈ r.resourceHolons then .suspendStation
  else .suspendAmr

/-- `resume_intention` for a holon. -/
def resumeMsg (r : Roster) (h : String) : SupervisorMsg :=
  if h ∈ r.orderHolons then .resumeOrder
  else if h ∈ r.resourceHolons then .resumeStation
  else .resumeAmr

/-- `abort_current_operation` for a holon. -/
def abortMsg (r : Roster) (h : String) (o : OrderId) : SupervisorMsg :=
  if h ∈ r.orderHolons then .abortOrder o else .abortStation o

/-- A message of the supervisor. -/
def tell (h : String) (m : SupervisorMsg) (s : Factory) : Factory :=
  { s with shop := s.shop.exec (.supervisor h m) }

/-- What an action of the supervisor does outside `Supervision`. -/
def act (r : Roster) : SupervisorAction → Factory → Factory
  | .sendSuspend h _, s => s.tell h (suspendMsg r h)
  | .sendResume h, s => s.tell h (resumeMsg r h)
  | .sendAbort h o, s => s.tell h (abortMsg r h o)
  | .recordAborted o, s => { s with ledger := (o, .aborted) :: s.ledger }
  | _, s => s

/-- What a move of the supervisor reads: the locks are those of the registry. -/
def input (x : SupervisorInput) (s : Factory) : SupervisorInput :=
  { x with locks := s.shop.registry.map fun p => ⟨p.1, p.2.1, p.2.2⟩ }

/-- A move of the supervisor. -/
def superviseMove (r : Roster) (i : ℕ) (x : SupervisorInput) (s : Factory) : Factory :=
  match s.supervision.agent.intentions[i]? with
  | none => s
  | some θ =>
    let m := (SupervisorAgent.program r).move (s.supervision.input (s.input x))
      (s.supervision.agent.beliefs ()) θ
    Runs.run (act r) m.actions
      { s with supervision := s.supervision.exec r (.move i (s.input x)) }

/-- One operation. -/
def exec (r : Roster) : FactoryOp → Factory → Factory
  -- the messages of the supervisor are those that it sends
  | .shop (.supervisor _ _), s => s
  | .shop op, s =>
    { s with
      shop := s.shop.exec op
      acks := s.acks ++ (s.shop.acknowledges op).toList
      ledger := ((s.shop.recorded op).map fun p => (p.1, p.2.ledger)).toList ++ s.ledger }
  -- an acknowledgement is one that was sent
  | .supervise (.suspendAck _), s => s
  | .supervise (.move i x), s => s.superviseMove r i x
  | .supervise op, s => { s with supervision := s.supervision.exec r op }
  | .ack j, s =>
    match s.acks[j]? with
    | none => s
    | some who =>
      { s with
        acks := s.acks.eraseIdx j
        supervision := s.supervision.exec r (.suspendAck who) }

/-- The holons of a factory. -/
def roster (c : ShopConfig) : Roster := ⟨c.orderHolons, c.resourceHolons, c.transportHolons⟩

/-- Every agent is about to pursue its goal `start`. -/
def start (c : ShopConfig) (adacorEnabled : Bool) : Factory where
  shop := Shop.start c
  supervision := Supervision.start adacorEnabled

end Factory

end MatrixFactory
