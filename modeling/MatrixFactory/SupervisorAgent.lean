/-
# The supervisor

The plans of `supervisor_agent.asl`: the transitions between the two schemas with their two
phases, and the suspension of order holons when the grid is saturated.  The polling of the
defect rates, printing and the time stamps of a transition are left out.

A transition has a number, which is no data of the code.  The goals and timers of a
transition carry it, as does a suspension that is part of one; no guard and no effect depends
on it.
-/
import MatrixFactory.Lib.AgentSpeak
import MatrixFactory.Messages

namespace MatrixFactory

open AgentSpeak

/-- The organisational schemas. -/
inductive Schema where
  | prosa
  | adacor
  deriving DecidableEq, Repr

/-- An entry `lock(OrderId, StationName, OrderHolonName)` of the reservation registry. -/
structure Lock where
  o : OrderId
  station : String
  orderHolon : String
  deriving DecidableEq

/-- The holons of a factory, as `register_active_holons` lists them. -/
structure Roster where
  orderHolons : List String
  resourceHolons : List String
  transportHolons : List String

/-- The timers of the supervisor. -/
inductive PhaseTimer where
  | phase0Transition
  | phase0Poll
  | phase1Transition
  | gridResumePoll
  deriving DecidableEq

/-- The beliefs of the supervisor, newest first. -/
structure SupervisorBeliefs where
  activeSchema : List Schema := []
  suspendedHolons : List (List String) := []
  activeOrderHolons : List (List String) := []
  activeResourceHolons : List (List String) := []
  activeTransportHolons : List (List String) := []
  pendingTransition : List (Schema × ℕ) := []
  pendingRevert : List ℚ := []
  suspendAck : List String := []
  transportBlocked : List (Told OrderId) := []
  adacorEnabled : Bool := true

/-- The goals and events of the supervisor. -/
inductive SupervisorTrigger where
  | start
  | registerActiveHolons
  | energyPriceSpike (price : ℚ)
  | energyPriceNormal (price : ℚ)
  | revertToProsa (price : ℚ)
  | runPhase0 (k : ℕ)
  | awaitPhase0Drain (k : ℕ)
  | abortAllLocks (locks : List Lock)
  | runPhase1 (k : ℕ)
  | sendSuspendToAll (holons : List String) (k : Option ℕ)
  | awaitPhase1Acks (pending : List String) (k : ℕ)
  | doCommit (k : ℕ)
  | transportBlocked (m : Told OrderId)
  | suspendLowPriorityHolons
  | checkGridResume
  | resumeSuspendedHolons
  | timerExpired (key : PhaseTimer) (k : ℕ)
  deriving DecidableEq

/-- The statements of the plans. -/
inductive SupervisorStmt where
  | achieve (goal : SupervisorTrigger)
  | addActiveSchema (schema : Schema)
  | setActiveSchema (schema : Schema)
  | addSuspendedHolons (holons : List String)
  | setSuspendedHolons (holons : List String)
  | clearSuspendedHolons
  | addActiveOrderHolons (holons : List String)
  | addActiveResourceHolons (holons : List String)
  | addActiveTransportHolons (holons : List String)
  | getSimTime
  | initiateTransition (target : Schema)
  | addPendingTransition (target : Schema) (epoch : ℕ)
  | delPendingTransition (target : Schema) (epoch : ℕ)
  | addPendingRevert (price : ℚ)
  | delPendingRevert (price : ℚ)
  | startTimer (key : PhaseTimer) (ttlMs : ℕ) (k : ℕ)
  | cancelTimer (key : PhaseTimer)
  | ifDrained (k : ℕ)
  | getActiveLocks (k : ℕ)
  | sendAbort (receiver : String) (o : OrderId)
  | recordAborted (o : OrderId)
  | queryActiveHolons (k : ℕ)
  | sendSuspend (holon : String) (k : Option ℕ)
  | waitSuspendAck (pending : List String) (k : ℕ)
  | dropAwaitPhase1Acks
  | commitTransition (k : ℕ)
  | ifPendingRevert
  | ifSaturated
  | findLowPriority
  | clearExpiredReservations
  | ifNormal
  | sendResume (holon : String)
  deriving DecidableEq

/-- The actions of the supervisor on its surroundings. -/
inductive SupervisorAction where
  | initiateTransition (target : Schema) (k : ℕ)
  | commitTransition (k : ℕ)
  | startTimer (key : PhaseTimer) (ttlMs : ℕ) (k : ℕ)
  | cancelTimer (key : PhaseTimer)
  | sendSuspend (holon : String) (k : Option ℕ)
  | sendResume (holon : String)
  | sendAbort (receiver : String) (o : OrderId)
  | recordAborted (o : OrderId)
  | clearExpiredReservations
  deriving DecidableEq

/-- What a statement may read from outside: the locks of the registry, the utilization of the
grid, the acknowledgement that a wait finds, the epoch that is reserved, and the number of
the next transition. -/
structure SupervisorInput where
  locks : List Lock := []
  utilization : ℚ := 0
  who : String := ""
  epoch : ℕ := 0
  number : ℕ := 0

namespace SupervisorAgent

/-- The plan of `supervisor_agent.asl` for an event. -/
def plan (r : Roster) (_ : Unit) (b : SupervisorBeliefs) :
    SupervisorTrigger → Option (List SupervisorStmt)
  | .start => some [.addActiveSchema .prosa, .addSuspendedHolons [], .achieve .registerActiveHolons]
  | .registerActiveHolons =>
    some [.addActiveOrderHolons r.orderHolons, .addActiveResourceHolons r.resourceHolons,
      .addActiveTransportHolons r.transportHolons]
  | .energyPriceSpike _ =>
    if .prosa ∈ b.activeSchema ∧ b.pendingTransition = [] ∧ b.adacorEnabled then
      some [.getSimTime, .initiateTransition .adacor]
    else if ¬ b.adacorEnabled then some []
    else none
  | .energyPriceNormal price =>
    if .adacor ∈ b.activeSchema ∧ b.pendingTransition = [] then
      some [.achieve (.revertToProsa price)]
    else if b.pendingTransition.any (·.1 = .adacor) then some [.addPendingRevert price]
    else none
  | .revertToProsa _ => some [.getSimTime, .initiateTransition .prosa]
  | .runPhase0 k =>
    some [.startTimer .phase0Transition 15000 k, .achieve (.awaitPhase0Drain k)]
  | .awaitPhase0Drain k => some [.ifDrained k]
  | .abortAllLocks [] => some []
  | .abortAllLocks (⟨o, station, orderHolon⟩ :: rest) =>
    some [.sendAbort station o, .sendAbort orderHolon o, .recordAborted o,
      .achieve (.abortAllLocks rest)]
  | .runPhase1 k => some [.queryActiveHolons k]
  | .sendSuspendToAll [] _ => some []
  | .sendSuspendToAll (h :: rest) k => some [.sendSuspend h k, .achieve (.sendSuspendToAll rest k)]
  | .awaitPhase1Acks [] k => some [.cancelTimer .phase1Transition, .achieve (.doCommit k)]
  | .awaitPhase1Acks (h :: pending) k => some [.waitSuspendAck (h :: pending) k]
  | .doCommit k =>
    match b.pendingTransition with
    | [] => none
    | (target, epoch) :: _ =>
      some [.getSimTime, .commitTransition k, .setActiveSchema target,
        .delPendingTransition target epoch, .ifPendingRevert]
  | .transportBlocked _ => if .prosa ∈ b.activeSchema then some [.ifSaturated] else none
  | .suspendLowPriorityHolons => some [.findLowPriority]
  | .checkGridResume =>
    if ∃ l ∈ b.suspendedHolons, l ≠ [] then some [.ifNormal]
    else if [] ∈ b.suspendedHolons then some []
    else none
  | .resumeSuspendedHolons =>
    match b.suspendedHolons with
    | [] => none
    | holons :: _ => some (holons.map .sendResume ++ [.clearSuspendedHolons])
  | .timerExpired .phase0Transition k => some [.cancelTimer .phase0Poll, .getActiveLocks k]
  | .timerExpired .phase0Poll k => some [.achieve (.awaitPhase0Drain k)]
  | .timerExpired .phase1Transition k => some [.dropAwaitPhase1Acks, .achieve (.doCommit k)]
  | .timerExpired .gridResumePoll _ => some [.achieve .checkGridResume]

/-- `.drop_intention(await_phase1_acks(_))`. -/
def awaitsPhase1Acks : SupervisorTrigger → Bool
  | .awaitPhase1Acks _ _ => true
  | _ => false

/-- The execution of a statement. -/
def exec (_ : Unit) (b : SupervisorBeliefs) (s : SupervisorStmt) (x : SupervisorInput) :
    Outcome SupervisorBeliefs SupervisorTrigger SupervisorStmt SupervisorAction :=
  match s with
  | .achieve goal => .subgoal goal
  | .addActiveSchema schema =>
    .next { b with activeSchema := addBelief schema b.activeSchema } [] []
  | .setActiveSchema schema =>
    .next { b with activeSchema := replaceBelief schema b.activeSchema } [] []
  | .addSuspendedHolons l =>
    .next { b with suspendedHolons := addBelief l b.suspendedHolons } [] []
  | .setSuspendedHolons l =>
    .next { b with suspendedHolons := replaceBelief l b.suspendedHolons } [] []
  | .clearSuspendedHolons =>
    .next { b with suspendedHolons := replaceBelief [] b.suspendedHolons } [] []
  | .addActiveOrderHolons l =>
    .next { b with activeOrderHolons := addBelief l b.activeOrderHolons } [] []
  | .addActiveResourceHolons l =>
    .next { b with activeResourceHolons := addBelief l b.activeResourceHolons } [] []
  | .addActiveTransportHolons l =>
    .next { b with activeTransportHolons := addBelief l b.activeTransportHolons } [] []
  | .getSimTime => .next b [] []
  | .initiateTransition target =>
    .next b [.addPendingTransition target x.epoch, .achieve (.runPhase0 x.number)]
      [.initiateTransition target x.number]
  | .addPendingTransition target epoch =>
    .next { b with pendingTransition := addBelief (target, epoch) b.pendingTransition } [] []
  | .delPendingTransition target epoch =>
    .next { b with pendingTransition := b.pendingTransition.erase (target, epoch) } [] []
  | .addPendingRevert price =>
    .next { b with pendingRevert := addBelief price b.pendingRevert } [] []
  | .delPendingRevert price => .next { b with pendingRevert := b.pendingRevert.erase price } [] []
  | .startTimer key ttl k => .next b [] [.startTimer key ttl k]
  | .cancelTimer key => .next b [] [.cancelTimer key]
  | .ifDrained k =>
    if x.locks = [] then .next b [.cancelTimer .phase0Transition, .achieve (.runPhase1 k)] []
    else .next b [.startTimer .phase0Poll 500 k] []
  | .getActiveLocks k => .next b [.achieve (.abortAllLocks x.locks), .achieve (.runPhase1 k)] []
  | .sendAbort receiver o => .next b [] [.sendAbort receiver o]
  | .recordAborted o => .next b [] [.recordAborted o]
  | .queryActiveHolons k =>
    match b.activeOrderHolons, b.activeResourceHolons, b.activeTransportHolons with
    | orders :: _, stations :: _, amrs :: _ =>
      let all := orders ++ stations ++ amrs
      .next b [.setSuspendedHolons all, .achieve (.sendSuspendToAll all (some k)),
        .startTimer .phase1Transition 10000 k, .achieve (.awaitPhase1Acks all k)] []
    | _, _, _ => .failed []
  | .sendSuspend h k => .next b [] [.sendSuspend h k]
  | .waitSuspendAck pending k =>
    if x.who ∈ b.suspendAck then
      .next b [.achieve (.awaitPhase1Acks (pending.filter (· ≠ x.who)) k)] []
    else .blocked
  | .dropAwaitPhase1Acks => .drop awaitsPhase1Acks
  | .commitTransition k => .next b [] [.commitTransition k]
  | .ifPendingRevert =>
    match b.pendingRevert with
    | price :: _ => .next b [.delPendingRevert price, .achieve (.revertToProsa price)] []
    | [] => .next b [.achieve .resumeSuspendedHolons] []
  | .ifSaturated =>
    if 85 / 100 < x.utilization then
      .next b [.achieve .suspendLowPriorityHolons, .clearExpiredReservations] []
    else .next b [] []
  | .findLowPriority =>
    match b.activeOrderHolons with
    | [] => .failed []
    | orders :: _ =>
      let lowPri := orders.filter fun h => ¬ ∃ l ∈ x.locks, l.orderHolon = h
      .next b [.setSuspendedHolons lowPri, .achieve (.sendSuspendToAll lowPri none),
        .startTimer .gridResumePoll 2000 0] []
  | .clearExpiredReservations => .next b [] [.clearExpiredReservations]
  | .ifNormal =>
    if x.utilization < 60 / 100 then .next b [.achieve .resumeSuspendedHolons] []
    else .next b [.startTimer .gridResumePoll 2000 0] []
  | .sendResume h => .next b [] [.sendResume h]

/-- The program of the supervisor; none of its goals has a failure plan. -/
def program (r : Roster) : Program Unit SupervisorBeliefs SupervisorTrigger SupervisorStmt
    SupervisorInput SupervisorAction where
  plan := plan r
  recover _ := none
  exec := exec

end SupervisorAgent

end MatrixFactory
