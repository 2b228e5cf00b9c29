/-
# The resource holon

The plans of `resource_holon.asl`, with the reservation state of the station artifact
(`claimStation`, `processOrder`, `releaseStation`, `setStationOffline`) that only this
agent uses.  `processOrder` runs in the artifact: the intention that called it waits for
the result, and a dropped intention leaves the run going.  Left out: printing, the set
points and the test hook that injects an abort into `claimStation`.
-/
import MatrixFactory.Lib.AgentSpeak
import MatrixFactory.Messages

namespace MatrixFactory

open AgentSpeak

/-- The belief `station_state`. -/
inductive StationState where
  | idle
  | provisionalLock (o : OrderId)
  | busyProcessing (o : OrderId)
  | offline
  deriving DecidableEq, Repr

/-- `StationStateEnum`. -/
inductive StationStateEnum where
  | idle
  | provisionalLock
  | busyProcessing
  | offline
  | defectDetected
  deriving DecidableEq, Repr

/-- `StationSummary`; `none` is the empty order id. -/
structure StationSummary where
  state : StationStateEnum
  activeOrderId : Option OrderId
  deriving DecidableEq, Repr

/-- The result code of `processOrder`. -/
inductive ResultCode where
  | ok
  | defect
  deriving DecidableEq, Repr

/-- The beliefs of a resource holon, with the state of its artifact. -/
structure StationBeliefs where
  recipeStep : ℕ
  processingCost : ℚ
  myName : Bool := false
  myStation : Bool := false
  currentEpoch : List ℤ := []
  stationState : Option StationState := none
  activeOrder : List (OrderId × String × ℕ) := []
  told : List (Told StationMsg) := []
  testHookTtl : Option ℕ := none
  testHookBlockAck : Bool := false
  summary : StationSummary := ⟨.idle, none⟩
  deriving DecidableEq

/-- The goals and events of a resource holon. -/
inductive StationTrigger where
  | start
  | callForProposal (step : ℕ) (stations : List String) (o : OrderId) (sender : String)
      (k : Option Attempt)
  | callForProposalFailed (o : OrderId) (sender : String)
  | executePhysicalOperation (o : OrderId)
  | reportDefect (o : OrderId)
  | reinitializeSchema
  | timerExpired (o : OrderId)
  | told (m : Told StationMsg) (k : Option Attempt)
  | schemaEpoch (epoch : ℤ)
  deriving DecidableEq

/-- `.drop_intention(execute_physical_operation(_))` and `.drop_all_intentions`. -/
inductive StationDrop where
  | executePhysicalOperation
  | all
  deriving DecidableEq

/-- The goals that a pattern matches. -/
def StationDrop.goals : StationDrop → StationTrigger → Bool
  | .executePhysicalOperation, .executePhysicalOperation _ => true
  | .all, _ => true
  | _, _ => false

/-- The statements of the plans. -/
inductive StationStmt where
  | achieve (goal : StationTrigger)
  | addMyName
  | queryMyName
  | addMyStation
  | addCurrentEpoch (epoch : ℤ)
  | delCurrentEpoch (epoch : ℤ)
  | setStationState (state : StationState)
  | queryProcessingCost (o : OrderId) (sender : String) (k : Option Attempt)
  | claimStation (o : OrderId)
  | releaseStation (o : Option OrderId)
  | setStationOffline
  | sendPropose (sender : String) (cost : ℚ) (k : Option Attempt)
  | sendRefuse (sender reason : String)
  | ifTestHookTtl (o : OrderId)
  | startTimer (o : OrderId) (ttlMs : ℕ)
  | cancelTimer (o : OrderId)
  | ifProvisionalLock (o : OrderId)
  | retract (m : Told StationMsg)
  | registerLock (o : OrderId) (holon : String)
  | releaseLock (o : OrderId)
  | addActiveOrder (o : OrderId) (holon : String) (step : ℕ)
  | delActiveOrder (o : OrderId) (holon : String) (step : ℕ)
  | sendInformStart (holon : String) (k : Option Attempt)
  | sendRejectProposal (holon : String) (k : Option Attempt)
  | sendAbortAck (sender : String) (o : OrderId)
  | processOrder (o : OrderId) (holon : String) (step : ℕ)
  | awaitResult (run : ℕ) (o : OrderId) (holon : String) (step : ℕ)
  | sendStepComplete (holon : String) (o : OrderId) (step : ℕ)
  | sendStepFailed (holon : String) (o : OrderId) (step : ℕ)
  | ifOccupied
  | queryStationState
  | ifTestHookBlockAck
  | sendSuspendAck
  | dropIntention (goals : StationDrop)
  deriving DecidableEq

/-- The actions of a resource holon on its surroundings. -/
inductive StationAction where
  | startTimer (o : OrderId) (ttlMs : ℕ)
  | cancelTimer (o : OrderId)
  | registerLock (o : OrderId) (holon : String)
  | releaseLock (o : OrderId)
  | tellOrder (holon : String) (m : OrderMsg) (k : Option Attempt)
  | tellSupervisor
  | processOrder (o : OrderId)
  | startRun (run : ℕ) (o : OrderId)
  | readResult (run : ℕ)
  deriving DecidableEq

/-- What a statement may read from outside: the number of the next run, and the result of
the run it waits for. -/
structure StationInput where
  run : ℕ := 0
  result : Option ResultCode := none

namespace ResourceHolon

/-- The plan of `resource_holon.asl` for an event. -/
def plan (me : String) (b : StationBeliefs) : StationTrigger → Option (List StationStmt)
  | .start =>
    some [.addMyName, .setStationState .idle, .addCurrentEpoch 0, .addMyStation,
      .releaseStation none]
  | .callForProposal step stations o sender k =>
    if b.myName ∧ me ∈ stations ∧ b.stationState = some .idle ∧ b.recipeStep = step then
      some [.setStationState (.provisionalLock o), .queryProcessingCost o sender k]
    else if b.myName ∧ me ∈ stations ∧ b.stationState = some .idle then
      some [.sendRefuse sender "step_mismatch"]
    else if b.myName ∧ me ∈ stations then some [.sendRefuse sender "station_busy"]
    else none
  | .callForProposalFailed o sender =>
    some [.queryMyName, .ifProvisionalLock o, .sendRefuse sender ""]
  | .executePhysicalOperation o =>
    if b.stationState = some (.busyProcessing o) ∧ b.myStation then
      (valueFor o b.activeOrder).map fun a => [.processOrder o a.1 a.2]
    else none
  | .reportDefect _ => some []
  | .reinitializeSchema =>
    some [.dropIntention .all, .queryStationState, .setStationState .idle, .achieve .start]
  | .timerExpired o =>
    if b.stationState = some (.provisionalLock o) ∧ b.myName then
      some [.setStationState .idle, .releaseStation (some o), .releaseLock o]
    else some []
  | .told ⟨.acceptProposal o, sender⟩ k =>
    if b.stationState = some (.provisionalLock o) ∧ b.myName then
      some [.retract ⟨.acceptProposal o, sender⟩, .cancelTimer o, .registerLock o sender,
        .addActiveOrder o sender b.recipeStep]
    else if b.stationState ≠ some (.provisionalLock o) ∧ b.myName then
      some [.retract ⟨.acceptProposal o, sender⟩, .sendRejectProposal sender k]
    else none
  | .told ⟨.itemArrived o, sender⟩ k =>
    if b.stationState = some (.provisionalLock o) ∧ b.myName ∧
        ∃ a ∈ b.activeOrder, a.1 = o ∧ a.2.1 = sender then
      some [.retract ⟨.itemArrived o, sender⟩, .setStationState (.busyProcessing o),
        .sendInformStart sender k, .achieve (.executePhysicalOperation o)]
    else some [.retract ⟨.itemArrived o, sender⟩]
  | .told ⟨.rejectProposal o, sender⟩ _ =>
    if b.stationState = some (.provisionalLock o) ∧ b.myName then
      some [.retract ⟨.rejectProposal o, sender⟩, .setStationState .idle, .cancelTimer o,
        .releaseStation (some o)]
    else if b.myName then some [.retract ⟨.rejectProposal o, sender⟩]
    else none
  | .told ⟨.abortCurrentOperation o, sender⟩ _ =>
    if b.stationState = some (.provisionalLock o) ∧ b.myName then
      some [.retract ⟨.abortCurrentOperation o, sender⟩, .setStationState .idle, .cancelTimer o,
        .releaseStation (some o), .releaseLock o, .sendAbortAck sender o]
    else if b.stationState ≠ some (.provisionalLock o) then
      some [.retract ⟨.abortCurrentOperation o, sender⟩, .sendAbortAck sender o]
    else none
  | .told ⟨.suspendIntentions, source⟩ _ =>
    if source = "supervisor" then
      some [.dropIntention .executePhysicalOperation, .queryMyName, .ifOccupied,
        .setStationState .offline, .setStationOffline, .ifTestHookBlockAck]
    else none
  | .told ⟨.resumeIntention, source⟩ _ =>
    if source = "supervisor" then some [.achieve .start] else none
  | .schemaEpoch epoch =>
    match b.currentEpoch.find? (· ≠ epoch) with
    | some old => some [.delCurrentEpoch old, .addCurrentEpoch epoch, .achieve .reinitializeSchema]
    | none => none

/-- The execution of a statement. -/
def exec (me : String) (b : StationBeliefs) (s : StationStmt) (x : StationInput) :
    Outcome StationBeliefs StationTrigger StationStmt StationAction :=
  match s with
  | .achieve goal => .subgoal goal
  | .addMyName => .next { b with myName := true } [] []
  | .queryMyName => if b.myName then .next b [] [] else .failed []
  | .addMyStation => .next { b with myStation := true } [] []
  | .addCurrentEpoch e => .next { b with currentEpoch := addBelief e b.currentEpoch } [] []
  | .delCurrentEpoch e => .next { b with currentEpoch := b.currentEpoch.erase e } [] []
  | .setStationState state => .next { b with stationState := some state } [] []
  | .queryProcessingCost o sender k =>
    .next b [.claimStation o, .sendPropose sender b.processingCost k, .ifTestHookTtl o] []
  | .claimStation o =>
    if b.summary.state = .idle then
      .next { b with summary := ⟨.provisionalLock, some o⟩ } [] []
    else .failed []
  | .releaseStation o =>
    .next { b with summary := ⟨.idle, none⟩ } [] (o.toList.map .cancelTimer)
  | .setStationOffline => .next { b with summary := ⟨.offline, none⟩ } [] []
  | .sendPropose sender cost k => .next b [] [.tellOrder sender (.propose me cost) k]
  | .sendRefuse sender reason => .next b [] [.tellOrder sender (.refuse me reason) none]
  | .ifTestHookTtl o => .next b [.startTimer o (b.testHookTtl.getD 20000)] []
  | .startTimer o ttl => .next b [] [.startTimer o ttl]
  | .cancelTimer o => .next b [] [.cancelTimer o]
  | .ifProvisionalLock o =>
    if b.stationState = some (.provisionalLock o) then
      .next b [.releaseStation (some o), .setStationState .idle] []
    else .next b [] []
  | .retract m => .next { b with told := b.told.erase m } [] []
  | .registerLock o holon => .next b [] [.registerLock o holon]
  | .releaseLock o => .next b [] [.releaseLock o]
  | .addActiveOrder o holon step =>
    .next { b with activeOrder := addBelief (o, holon, step) b.activeOrder } [] []
  | .delActiveOrder o holon step =>
    .next { b with activeOrder := b.activeOrder.erase (o, holon, step) } [] []
  | .sendInformStart holon k => .next b [] [.tellOrder holon (.informStart me) k]
  | .sendRejectProposal holon k =>
    .next b [] [.tellOrder holon (.rejectProposal me "lock_expired_or_superseded") k]
  | .sendAbortAck sender o => .next b [] [.tellOrder sender (.abortAck o) none]
  | .processOrder o holon step =>
    if b.summary = ⟨.provisionalLock, some o⟩ then
      .next { b with summary := ⟨.busyProcessing, some o⟩ } [.awaitResult x.run o holon step]
        [.processOrder o, .startRun x.run o]
    else .failed [.processOrder o]
  | .awaitResult run o holon step =>
    match x.result with
    | none => .blocked
    | some .defect =>
      .next b
        [.releaseLock o, .delActiveOrder o holon step, .releaseStation (some o),
          .setStationState .idle, .sendStepFailed holon o step, .achieve (.reportDefect o)]
        [.readResult run]
    | some .ok =>
      .next b
        [.releaseLock o, .delActiveOrder o holon step, .setStationState .idle,
          .sendStepComplete holon o step]
        [.readResult run]
  | .sendStepComplete holon o step => .next b [] [.tellOrder holon (.stepComplete o step) none]
  | .sendStepFailed holon o step =>
    .next b [] [.tellOrder holon (.stepFailed o step "defect") none]
  | .ifOccupied =>
    match b.stationState with
    | some (.busyProcessing o) | some (.provisionalLock o) =>
      .next b [.cancelTimer o, .releaseLock o, .releaseStation (some o)] []
    | _ => .next b [] []
  | .queryStationState =>
    match b.myName, b.stationState with
    | true, some (.provisionalLock o) => .next b [.cancelTimer o, .releaseStation (some o)] []
    | true, some (.busyProcessing o) => .next b [.releaseStation (some o)] []
    | true, some _ => .next b [] []
    | _, _ => .failed []
  | .ifTestHookBlockAck => .next b (if b.testHookBlockAck then [] else [.sendSuspendAck]) []
  | .sendSuspendAck => .next b [] [.tellSupervisor]
  | .dropIntention goals => .drop goals.goals

/-- The program of a resource holon; answering a call for proposals has a failure
plan. -/
def program :
    Program String StationBeliefs StationTrigger StationStmt StationInput StationAction where
  plan := plan
  recover
    | .callForProposal _ _ o sender _ => some (.callForProposalFailed o sender)
    | _ => none
  exec := exec

end ResourceHolon

end MatrixFactory
