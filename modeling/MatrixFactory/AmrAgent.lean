/-
# The AMR agent

The plans of `amr_agent.asl`.  An agent is identified with the AMR whose id it carries
in `amr_id`, so the signals of other AMRs, for which it has no applicable plan, do not
reach it.  Printing is left out.
-/
import MatrixFactory.Lib.AgentSpeak
import MatrixFactory.Messages

namespace MatrixFactory

open AgentSpeak

/-- The beliefs of an AMR agent. -/
structure AmrBeliefs where
  myName : Bool := false
  currentEpoch : List ℤ := []
  transporting : List (OrderId × String) := []
  told : List (Told AmrMsg) := []
  deriving DecidableEq

/-- The goals and events of an AMR agent. -/
inductive AmrTrigger where
  | start
  | transport (o : OrderId) (fromStation toStation sender : String)
  | notifyGridSaturation (o : OrderId)
  | reinitializeSchema
  | amrArrived (o : OrderId) (k : Attempt)
  | amrTransportBlocked (o : OrderId)
  | told (m : Told AmrMsg) (k : Option Attempt)
  | schemaEpoch (epoch : ℤ)
  deriving DecidableEq

/-- The patterns of `.drop_intention`, and `.drop_all_intentions`. -/
inductive AmrDrop where
  | transport (o : Option OrderId)
  | all
  deriving DecidableEq

/-- The goals that a pattern matches. -/
def AmrDrop.goals : AmrDrop → AmrTrigger → Bool
  | .transport none, .transport _ _ _ _ => true
  | .transport (some o), .transport o' _ _ _ => o = o'
  | .all, _ => true
  | _, _ => false

/-- The statements of the plans. -/
inductive AmrStmt where
  | achieve (goal : AmrTrigger)
  | addMyName
  | addCurrentEpoch (epoch : ℤ)
  | delCurrentEpoch (epoch : ℤ)
  | addTransporting (o : OrderId) (sender : String)
  | delTransporting (o : OrderId) (sender : String)
  | sendTransportDone (sender : String) (o : OrderId) (k : Attempt)
  | retract (m : Told AmrMsg)
  | cancelTimer (o : OrderId)
  | cancelTransport (o : OrderId) (k : Option Attempt)
  | getGridUtilization (o : OrderId)
  | sendTransportBlocked (o : OrderId)
  | sendSuspendAck
  | dropIntention (goals : AmrDrop)
  deriving DecidableEq

/-- The actions of an AMR agent on its surroundings. -/
inductive AmrAction where
  | cancelTransport (o : OrderId) (k : Option Attempt)
  | tellOrder (holon : String) (m : OrderMsg) (k : Attempt)
  | tellSupervisor
  deriving DecidableEq

namespace AmrAgent

/-- The plan of `amr_agent.asl` for an event. -/
def plan (_ : String) (b : AmrBeliefs) : AmrTrigger → Option (List AmrStmt)
  | .start => some [.addMyName, .addCurrentEpoch 0]
  | .transport o _ _ sender =>
    if b.myName then some [.achieve (.notifyGridSaturation o), .addTransporting o sender] else none
  | .notifyGridSaturation o => some [.getGridUtilization o]
  | .reinitializeSchema => some [.dropIntention .all, .achieve .start]
  | .amrArrived o k =>
    match valueFor o b.transporting with
    | some sender => some [.delTransporting o sender, .sendTransportDone sender o k]
    | none => none
  | .amrTransportBlocked o =>
    match valueFor o b.transporting with
    | some _ => some [.sendTransportBlocked o]
    | none => none
  | .told ⟨.abortTransport o, sender⟩ k =>
    if (o, sender) ∈ b.transporting ∧ b.myName then
      some [.retract ⟨.abortTransport o, sender⟩, .dropIntention (.transport (some o)),
        .cancelTimer o, .cancelTransport o k, .delTransporting o sender]
    else some [.retract ⟨.abortTransport o, sender⟩]
  | .told ⟨.suspendIntentions, source⟩ _ =>
    if source = "supervisor" ∧ b.myName then
      some [.dropIntention (.transport none), .sendSuspendAck]
    else none
  | .told ⟨.resumeIntention, source⟩ _ =>
    if source = "supervisor" then some [.achieve .start] else none
  | .schemaEpoch epoch =>
    match b.currentEpoch.find? (· ≠ epoch) with
    | some old => some [.delCurrentEpoch old, .addCurrentEpoch epoch, .achieve .reinitializeSchema]
    | none => none

/-- The execution of a statement; the input is the grid's utilization. -/
def exec (_ : String) (b : AmrBeliefs) (s : AmrStmt) (utilization : ℚ) :
    Outcome AmrBeliefs AmrTrigger AmrStmt AmrAction :=
  match s with
  | .achieve goal => .subgoal goal
  | .addMyName => .next { b with myName := true } [] []
  | .addCurrentEpoch e => .next { b with currentEpoch := addBelief e b.currentEpoch } [] []
  | .delCurrentEpoch e => .next { b with currentEpoch := b.currentEpoch.erase e } [] []
  | .addTransporting o sender =>
    .next { b with transporting := addBelief (o, sender) b.transporting } [] []
  | .delTransporting o sender =>
    .next { b with transporting := b.transporting.erase (o, sender) } [] []
  | .sendTransportDone sender o k => .next b [] [.tellOrder sender (.transportDone o) k]
  | .retract m => .next { b with told := b.told.erase m } [] []
  | .cancelTimer _ => .next b [] []
  | .cancelTransport o k => .next b [] [.cancelTransport o k]
  | .getGridUtilization o =>
    .next b (if 85 / 100 < utilization then [.sendTransportBlocked o] else []) []
  | .sendTransportBlocked _ => .next b [] [.tellSupervisor]
  | .sendSuspendAck => .next b [] [.tellSupervisor]
  | .dropIntention goals => .drop goals.goals

/-- The program of an AMR agent; none of its goals has a failure plan. -/
def program : Program String AmrBeliefs AmrTrigger AmrStmt ℚ AmrAction where
  plan := plan
  recover _ := none
  exec := exec

end AmrAgent

end MatrixFactory
