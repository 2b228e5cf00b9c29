/-
# Messages between the holons

The order ids, the keys of the holons' timers, and what the agents tell each other.
-/
import Mathlib.Data.Rat.Defs

namespace MatrixFactory

/-- An order id: `"ORD-"`, the name of the holon, and the number it has drawn. -/
structure OrderId where
  holon : String
  random : ℕ
  deriving DecidableEq, Repr

/-- Pairs that begin with an order are compared component by component. -/
instance : LawfulBEq (OrderId × String) := inferInstance

instance : LawfulBEq (OrderId × ℕ × String) := inferInstance

/-- An attempt of an order holon to have a step carried out: a call for proposals, or what
follows the choice of its winner.  The number is no data of the code.  It tells messages,
jobs and intentions apart that the code does not, and no guard and no effect reads it. -/
structure Attempt where
  holon : String
  number : ℕ
  deriving DecidableEq, Repr

/-- The keys under which an order holon starts timers: `"batch_wait"`, the order id, the
order id with `"_await"`, and the order id with `"_stepwatch"`. -/
inductive TimerKey where
  | batchWait
  | order (o : OrderId)
  | await (o : OrderId)
  | stepwatch (o : OrderId)
  deriving DecidableEq, Repr

/-- What an order holon is told. -/
inductive OrderMsg where
  | propose (station : String) (cost : ℚ)
  | refuse (station reason : String)
  | informStart (station : String)
  | rejectProposal (station reason : String)
  | stepComplete (o : OrderId) (step : ℕ)
  | stepFailed (o : OrderId) (step : ℕ) (reason : String)
  | abortAck (o : OrderId)
  | transportDone (o : OrderId)
  | abortCurrentOperation (o : OrderId)
  | suspendIntentions
  | resumeIntention
  deriving DecidableEq, Repr

/-- What a resource holon is told. -/
inductive StationMsg where
  | acceptProposal (o : OrderId)
  | rejectProposal (o : OrderId)
  | itemArrived (o : OrderId)
  | abortCurrentOperation (o : OrderId)
  | suspendIntentions
  | resumeIntention
  deriving DecidableEq, Repr

/-- What an AMR agent is told. -/
inductive AmrMsg where
  | abortTransport (o : OrderId)
  | suspendIntentions
  | resumeIntention
  deriving DecidableEq, Repr

/-- A told literal, with its source. -/
structure Told (M : Type) where
  content : M
  source : String
  deriving DecidableEq, Repr

/-- A held literal, with the attempt for which it was sent. -/
structure Held (M : Type) where
  lit : Told M
  attempt : Option Attempt := none
  deriving DecidableEq, Repr

/-- The events of an order in the database. -/
inductive OrderEvent where
  | submitted
  | completed
  deriving DecidableEq, Repr

/-! ## Belief bases -/

/-- `+b`: a literal that is held is not added again, and a new one comes first. -/
def addBelief {α : Type} [DecidableEq α] (b : α) (l : List α) : List α :=
  if b ∈ l then l else b :: l

/-- `-+b`: the newest literal of the predicate is replaced. -/
def replaceBelief {α : Type} [DecidableEq α] (b : α) (l : List α) : List α :=
  addBelief b l.tail

/-- The newest value held for the order. -/
def valueFor {α : Type} (o : OrderId) (l : List (OrderId × α)) : Option α :=
  (l.find? (·.1 = o)).map (·.2)

/-- `-b(o, _)`: the newest literal for the order goes. -/
def removeFor {α : Type} (o : OrderId) (l : List (OrderId × α)) : List (OrderId × α) :=
  l.eraseP (·.1 = o)

end MatrixFactory
