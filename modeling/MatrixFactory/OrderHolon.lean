/-
# The order holon

The plans of `order_holon.asl`.  A plan's body is a list of statements; a statement that
binds variables or branches comes to the statements that follow it.  Printing, the
construction of timer keys and the belief `order_random`, which no plan reads, are left
out.  `advanced`, `decided` and `begins` are no actions of the code.  The first records that
the holon takes a step as complete, and the step it goes on to, if there is one; the second
records for which attempt the belief was sent that ends the wait of an attempt; the third
numbers the attempts.
-/
import MatrixFactory.Lib.AgentSpeak
import MatrixFactory.Messages

namespace MatrixFactory

open AgentSpeak

/-- The beliefs of an order holon, newest first; a watchdog's key is `stepwatch` of its
order. -/
structure OrderBeliefs where
  myName : Bool := false
  currentEpoch : List ℤ := []
  isSuspended : Bool := false
  myOrderId : List OrderId := []
  recipeRemaining : List (OrderId × List ℕ) := []
  currentLocation : List (OrderId × String) := []
  dispatchedAmr : List (OrderId × String) := []
  cnpWinner : List (OrderId × String) := []
  cnpState : List (OrderId × ℕ × List String) := []
  pendingAcceptStep : List (OrderId × ℕ) := []
  stepWatchdog : List (OrderId × ℕ × String) := []
  simTimeout : List (OrderId × Option Attempt) := []
  told : List (Held OrderMsg) := []
  testHookCnpSlowAccept : Bool := false
  deriving DecidableEq

/-- The goals and events of an order holon. -/
inductive OrderTrigger where
  | start
  | requestNextBatch
  | requestTransport (o : OrderId) (fromStation toStation : String) (k : Attempt)
  | callForProposals (step : ℕ) (stations : List String) (o : OrderId)
  | selectProposal (step : ℕ) (stations : List String) (o : OrderId)
  | finishSelectProposal (o : OrderId) (winner : String) (step : ℕ)
  | awaitStationStart (o : OrderId) (station : String) (step : ℕ) (k : Attempt)
  | reinitializeSchema
  | timerExpired (key : TimerKey) (k : Option Attempt)
  | told (m : Told OrderMsg) (k : Option Attempt)
  | schemaEpoch (epoch : ℤ)
  deriving DecidableEq

/-- The patterns of `.drop_intention`, and `.drop_all_intentions`. -/
inductive OrderDrop where
  | requestNextBatch
  | callForProposals
  | awaitStationStart (o : Option OrderId)
  | requestTransport (o : Option OrderId)
  | all
  deriving DecidableEq

/-- The goals that a pattern matches. -/
def OrderDrop.goals : OrderDrop → OrderTrigger → Bool
  | .requestNextBatch, .requestNextBatch => true
  | .callForProposals, .callForProposals _ _ _ => true
  | .awaitStationStart none, .awaitStationStart _ _ _ _ => true
  | .awaitStationStart (some o), .awaitStationStart o' _ _ _ => o = o'
  | .requestTransport none, .requestTransport _ _ _ _ => true
  | .requestTransport (some o), .requestTransport o' _ _ _ => o = o'
  | .all, _ => true
  | _, _ => false

/-- The statements of the plans. -/
inductive OrderStmt where
  | achieve (goal : OrderTrigger)
  | addMyName
  | addCurrentEpoch (epoch : ℤ)
  | delCurrentEpoch (epoch : ℤ)
  | delIsSuspended
  | addIsSuspended
  | findStaleWatchdogs
  | startTimer (key : TimerKey) (ttlMs : ℕ) (k : Option Attempt)
  | cancelTimer (key : TimerKey)
  | addStepWatchdog (w : OrderId × ℕ × String)
  | delStepWatchdog (w : OrderId × ℕ × String)
  | random
  | addMyOrderId (o : OrderId)
  | delMyOrderId (o : OrderId)
  | addRecipeRemaining (o : OrderId) (steps : List ℕ)
  | delRecipeRemaining (o : OrderId) (steps : List ℕ)
  | addCurrentLocation (o : OrderId) (location : String)
  | setCurrentLocation (o : OrderId) (location : String)
  | delCurrentLocation (o : OrderId)
  | queryCurrentLocation (o : OrderId) (winner : String) (k : Attempt)
  | recordEvent (o : OrderId) (event : OrderEvent)
  | askAmrPhysicalIds
  | reserveTransport (fromStation toStation : String) (o : OrderId) (k : Attempt)
  | setDispatchedAmr (o : OrderId) (amr : String)
  | delDispatchedAmr (o : OrderId)
  | queryDispatchedAmr (o : OrderId) (k : Attempt)
  | sendTransport (amr : String) (o : OrderId) (fromStation toStation : String)
  | sendAbortTransport (amr : String) (o : OrderId) (k : Attempt)
  | retract (m : Told OrderMsg)
  | retractReject (station : String)
  | setCnpWinner (o : OrderId) (winner : String) (step : ℕ)
  | delCnpWinner (o : OrderId)
  | queryCnpWinner (o : OrderId) (k : Option Attempt)
  | sendItemArrived (winner : String) (o : OrderId) (k : Option Attempt)
  | ifRemaining (o : OrderId) (step : ℕ) (remaining : List ℕ)
  | sendAbort (station : String) (o : OrderId)
  | waitAbortAck (o : OrderId) (station : String)
  | sendCallForProposal (stations : List String) (step : ℕ) (o : OrderId)
  | addCnpState (o : OrderId) (step : ℕ) (stations : List String)
  | delCnpState (o : OrderId) (step : ℕ) (stations : List String)
  | ifSlowAccept (o : OrderId) (winner : String) (step : ℕ)
  | addPendingAcceptStep (o : OrderId) (step : ℕ)
  | delPendingAcceptStep (o : OrderId) (step : ℕ)
  | sendAcceptProposal (winner : String) (o : OrderId) (k : Attempt)
  | rejectLosers (winner : String) (o : OrderId)
  | sendRejectProposal (loser : String) (o : OrderId)
  | abolishPropose
  | wait (ms : ℕ)
  | waitStationStart (o : OrderId) (station : String) (step : ℕ) (k : Attempt)
  | ifStarted (o : OrderId) (station : String) (step : ℕ) (k : Attempt)
  | addSimTimeout (o : OrderId) (k : Option Attempt)
  | delSimTimeout (o : OrderId)
  | dropIntention (goals : OrderDrop)
  | sendSuspendAck
  deriving DecidableEq

/-- The actions of an order holon on its surroundings. -/
inductive OrderAction where
  | startTimer (key : TimerKey) (ttlMs : ℕ) (k : Option Attempt)
  | cancelTimer (key : TimerKey)
  | recordEvent (o : OrderId) (event : OrderEvent)
  | reserveTransport (amr fromStation toStation : String) (o : OrderId) (k : Attempt)
  | achieveTransport (amr : String) (o : OrderId) (fromStation toStation : String)
  | achieveCallForProposal (station : String) (step : ℕ) (stations : List String) (o : OrderId)
      (k : Attempt)
  | tellStation (station : String) (m : StationMsg) (k : Option Attempt)
  | tellAmr (amr : String) (m : AmrMsg) (k : Attempt)
  | tellSupervisor
  | advanced (o : OrderId) (step : ℕ) (next : Option ℕ)
  | decided (k : Attempt) (cause : Option Attempt)
  | begins (k : Attempt)
  deriving DecidableEq

/-- What a statement may read from outside: the number drawn, the AMR that
`reserveTransport` has chosen, and the next attempt. -/
structure OrderInput where
  random : ℕ := 0
  amr : String := ""
  attempt : Attempt := ⟨"", 0⟩

namespace OrderHolon

/-- The stations in every call for proposals. -/
def stations : List String := ["station_1", "station_2", "station_3", "station_4", "station_5"]

/-- `.findall(cost(C,W), propose(W,C)[source(W)], L)`. -/
def proposals (b : OrderBeliefs) : List (ℚ × String) :=
  b.told.filterMap fun m =>
    match m.lit.content with
    | .propose w c => if m.lit.source = w then some (c, w) else none
    | _ => none

/-- `.min` over the terms `cost(C,W)`: by cost, then by name. -/
def cheapest : List (ℚ × String) → Option (ℚ × String)
  | [] => none
  | p :: l =>
    match cheapest l with
    | none => some p
    | some q => if p.1 < q.1 ∨ (p.1 = q.1 ∧ p.2 < q.2) then some p else some q

/-- `inform_start(Station)[source(Station)]`. -/
def isInform (station : String) (m : Held OrderMsg) : Bool :=
  m.lit = ⟨.informStart station, station⟩

/-- `reject_proposal(Station, _)[source(Station)]`. -/
def isReject (station : String) (m : Held OrderMsg) : Bool :=
  match m.lit.content with
  | .rejectProposal s _ => s = station ∧ m.lit.source = station
  | _ => false

/-- The end of a step's retries: the abort at the station, its acknowledgement, and the
call for the same step. -/
def abortAndRetry (o : OrderId) (station : String) (step : ℕ) : List OrderStmt :=
  [.sendAbort station o, .waitAbortAck o station, .retract ⟨.abortAck o, station⟩,
    .achieve (.callForProposals step stations o)]

/-- The plan of `order_holon.asl` for an event. -/
def plan (_ : String) (b : OrderBeliefs) : OrderTrigger → Option (List OrderStmt)
  | .start =>
    some [.addMyName, .addCurrentEpoch 0, .delIsSuspended, .findStaleWatchdogs,
      .achieve .requestNextBatch]
  | .requestNextBatch => if b.myName then some [.startTimer .batchWait 2000 none] else none
  | .requestTransport o fromStation toStation k =>
    some [.askAmrPhysicalIds, .reserveTransport fromStation toStation o k]
  | .callForProposals step stations o =>
    if b.myName then
      some [.sendCallForProposal stations step o, .addCnpState o step stations,
        .startTimer (.order o) 3000 none]
    else none
  | .selectProposal step stations o =>
    match cheapest (proposals b) with
    | some (_, winner) => some [.ifSlowAccept o winner step]
    | none =>
      if b.isSuspended then some [.abolishPropose]
      else some [.abolishPropose, .wait 1000, .achieve (.callForProposals step stations o)]
  | .finishSelectProposal o winner step => some [.setCnpWinner o winner step]
  | .awaitStationStart o station step k =>
    some [.startTimer (.await o) 60000 (some k), .waitStationStart o station step k]
  | .reinitializeSchema => some [.dropIntention .all, .achieve .requestNextBatch]
  | .timerExpired .batchWait _ =>
    if b.myName then if b.isSuspended then some [] else some [.random] else none
  | .timerExpired (.stepwatch o) _ =>
    match b.myName, valueFor o b.stepWatchdog with
    | true, some (step, station) =>
      if b.isSuspended then some []
      else some (.delStepWatchdog (o, step, station) :: abortAndRetry o station step)
    | _, _ => none
  | .timerExpired (.order o) _ =>
    match b.myName, valueFor o b.cnpState with
    | true, some (step, stations) =>
      some [.delCnpState o step stations, .achieve (.selectProposal step stations o)]
    | true, none =>
      match b.testHookCnpSlowAccept, (proposals b).head?, valueFor o b.pendingAcceptStep with
      | true, some (_, winner), some step =>
        some [.delPendingAcceptStep o step, .achieve (.finishSelectProposal o winner step)]
      | _, _, _ => none
    | _, _ => none
  | .timerExpired (.await o) k => some [.addSimTimeout o k]
  | .told ⟨.transportDone o, amr⟩ k =>
    some [.retract ⟨.transportDone o, amr⟩, .queryCnpWinner o k]
  | .told ⟨.stepComplete o step, station⟩ _ =>
    match valueFor o b.recipeRemaining with
    | some remaining =>
      if (o, step, station) ∈ b.stepWatchdog then
        some [.cancelTimer (.stepwatch o), .delStepWatchdog (o, step, station),
          .setCurrentLocation o station, .ifRemaining o step remaining]
      else some []
    | none => some []
  | .told ⟨.stepFailed o step reason, station⟩ _ =>
    if (o, step, station) ∈ b.stepWatchdog then
      some [.cancelTimer (.stepwatch o), .delStepWatchdog (o, step, station),
        .retract ⟨.stepFailed o step reason, station⟩,
        .achieve (.callForProposals step stations o)]
    else
      some [.retract ⟨.stepFailed o step reason, station⟩,
        .achieve (.callForProposals step stations o)]
  | .told ⟨.abortCurrentOperation o, _⟩ _ =>
    -- the code retracts the literal without a source, which is none that it was told
    if o ∈ b.myOrderId then
      some [.dropIntention (.awaitStationStart (some o)),
        .dropIntention (.requestTransport (some o)), .achieve .requestNextBatch]
    else some []
  | .told ⟨.suspendIntentions, source⟩ _ =>
    if source = "supervisor" ∧ b.myName then
      some [.addIsSuspended, .cancelTimer .batchWait, .dropIntention .requestNextBatch,
        .dropIntention .callForProposals, .dropIntention (.awaitStationStart none),
        .dropIntention (.requestTransport none), .sendSuspendAck]
    else none
  | .told ⟨.resumeIntention, source⟩ _ =>
    if source = "supervisor" then some [.achieve .start] else none
  | .told _ _ => none
  | .schemaEpoch epoch =>
    match b.currentEpoch.find? (· ≠ epoch) with
    | some old => some [.delCurrentEpoch old, .addCurrentEpoch epoch, .achieve .reinitializeSchema]
    | none => none

/-- The execution of a statement. -/
def exec (me : String) (b : OrderBeliefs) (s : OrderStmt) (x : OrderInput) :
    Outcome OrderBeliefs OrderTrigger OrderStmt OrderAction :=
  match s with
  | .achieve goal => .subgoal goal
  | .addMyName => .next { b with myName := true } [] []
  | .addCurrentEpoch e => .next { b with currentEpoch := addBelief e b.currentEpoch } [] []
  | .delCurrentEpoch e => .next { b with currentEpoch := b.currentEpoch.erase e } [] []
  | .delIsSuspended => .next { b with isSuspended := false } [] []
  | .addIsSuspended => .next { b with isSuspended := true } [] []
  | .findStaleWatchdogs =>
    .next b (b.stepWatchdog.flatMap fun w => [.cancelTimer (.stepwatch w.1), .delStepWatchdog w]) []
  | .startTimer key ttl k => .next b [] [.startTimer key ttl k]
  | .cancelTimer key => .next b [] [.cancelTimer key]
  | .addStepWatchdog w => .next { b with stepWatchdog := addBelief w b.stepWatchdog } [] []
  | .delStepWatchdog w => .next { b with stepWatchdog := b.stepWatchdog.erase w } [] []
  | .random =>
    let o : OrderId := ⟨me, x.random⟩
    .next b [.addMyOrderId o, .addRecipeRemaining o [2, 3, 4, 5], .addCurrentLocation o "start",
      .recordEvent o .submitted, .achieve (.callForProposals 1 stations o)] []
  | .addMyOrderId o => .next { b with myOrderId := addBelief o b.myOrderId } [] []
  | .delMyOrderId o => .next { b with myOrderId := b.myOrderId.erase o } [] []
  | .addRecipeRemaining o l =>
    .next { b with recipeRemaining := addBelief (o, l) b.recipeRemaining } [] []
  | .delRecipeRemaining o l =>
    .next { b with recipeRemaining := b.recipeRemaining.erase (o, l) } [] []
  | .addCurrentLocation o l =>
    .next { b with currentLocation := addBelief (o, l) b.currentLocation } [] []
  | .setCurrentLocation o l =>
    .next { b with currentLocation := replaceBelief (o, l) b.currentLocation } [] []
  | .delCurrentLocation o => .next { b with currentLocation := removeFor o b.currentLocation } [] []
  | .queryCurrentLocation o winner k =>
    match valueFor o b.currentLocation with
    | some loc => .next b [.achieve (.requestTransport o loc winner k)] []
    | none => .failed []
  | .recordEvent o e => .next b [] [.recordEvent o e]
  | .askAmrPhysicalIds => .next b [] []
  | .reserveTransport fromStation toStation o k =>
    .next b [.setDispatchedAmr o x.amr, .sendTransport x.amr o fromStation toStation]
      [.reserveTransport x.amr fromStation toStation o k]
  | .setDispatchedAmr o amr =>
    .next { b with dispatchedAmr := replaceBelief (o, amr) b.dispatchedAmr } [] []
  | .delDispatchedAmr o => .next { b with dispatchedAmr := removeFor o b.dispatchedAmr } [] []
  | .queryDispatchedAmr o k =>
    match valueFor o b.dispatchedAmr with
    | some amr => .next b [.sendAbortTransport amr o k] []
    | none => .failed []
  | .sendTransport amr o fromStation toStation =>
    .next b [] [.achieveTransport amr o fromStation toStation]
  | .sendAbortTransport amr o k => .next b [] [.tellAmr amr (.abortTransport o) k]
  | .retract m => .next { b with told := b.told.eraseP (·.lit = m) } [] []
  | .retractReject station => .next { b with told := b.told.eraseP (isReject station) } [] []
  | .setCnpWinner o winner step =>
    .next { b with cnpWinner := replaceBelief (o, winner) b.cnpWinner }
      [.sendAcceptProposal winner o x.attempt, .rejectLosers winner o, .abolishPropose,
        .queryCurrentLocation o winner x.attempt,
        .achieve (.awaitStationStart o winner step x.attempt)]
      [.begins x.attempt]
  | .delCnpWinner o => .next { b with cnpWinner := removeFor o b.cnpWinner } [] []
  | .queryCnpWinner o k =>
    match valueFor o b.cnpWinner with
    | some winner => .next b [.sendItemArrived winner o k] []
    | none => .failed []
  | .sendItemArrived winner o k => .next b [] [.tellStation winner (.itemArrived o) k]
  | .ifRemaining o step [] =>
    .next b
      [.recordEvent o .completed, .delRecipeRemaining o [], .delMyOrderId o,
        .delCurrentLocation o, .delDispatchedAmr o, .delCnpWinner o, .achieve .requestNextBatch]
      [.advanced o step none]
  | .ifRemaining o step (next :: rest) =>
    .next { b with recipeRemaining := replaceBelief (o, rest) b.recipeRemaining }
      [.achieve (.callForProposals next stations o)] [.advanced o step (some next)]
  | .sendAbort station o => .next b [] [.tellStation station (.abortCurrentOperation o) none]
  | .waitAbortAck o station =>
    if b.told.any (·.lit = ⟨.abortAck o, station⟩) then .next b [] [] else .blocked
  | .sendCallForProposal stations step o =>
    .next b [] (.begins x.attempt ::
      stations.map fun station => .achieveCallForProposal station step stations o x.attempt)
  | .addCnpState o step stations =>
    .next { b with cnpState := addBelief (o, step, stations) b.cnpState } [] []
  | .delCnpState o step stations =>
    .next { b with cnpState := b.cnpState.erase (o, step, stations) } [] []
  | .ifSlowAccept o winner step =>
    if b.testHookCnpSlowAccept then
      .next b [.addPendingAcceptStep o step, .startTimer (.order o) 3000 none] []
    else .next b [.achieve (.finishSelectProposal o winner step)] []
  | .addPendingAcceptStep o step =>
    .next { b with pendingAcceptStep := addBelief (o, step) b.pendingAcceptStep } [] []
  | .delPendingAcceptStep o step =>
    .next { b with pendingAcceptStep := b.pendingAcceptStep.erase (o, step) } [] []
  | .sendAcceptProposal winner o k => .next b [] [.tellStation winner (.acceptProposal o) (some k)]
  | .rejectLosers winner o =>
    .next b ((b.told.filterMap fun m =>
      match m.lit.content with
      | .propose w _ => if w ≠ winner then some w else none
      | _ => none).map fun loser => .sendRejectProposal loser o) []
  | .sendRejectProposal loser o => .next b [] [.tellStation loser (.rejectProposal o) none]
  | .abolishPropose =>
    .next { b with told := b.told.filter fun m =>
      match m.lit.content with
      | .propose _ _ => false
      | _ => true } [] []
  | .wait _ => .next b [] []
  | .waitStationStart o station step k =>
    if b.told.any (isInform station) ∨ (valueFor o b.simTimeout).isSome ∨
        b.told.any (isReject station) then
      .next b [.ifStarted o station step k] []
    else .blocked
  | .ifStarted o station step k =>
    match b.told.find? (isInform station), b.told.find? (isReject station) with
    | some m, _ =>
      .next b [.cancelTimer (.await o), .retract ⟨.informStart station, station⟩,
        .addStepWatchdog (o, step, station), .startTimer (.stepwatch o) 120000 none]
        [.decided k m.attempt]
    | none, some m =>
      .next b [.cancelTimer (.await o), .retractReject station, .queryDispatchedAmr o k,
        .achieve (.callForProposals step stations o)] [.decided k m.attempt]
    | none, none =>
      .next b (.delSimTimeout o :: .queryDispatchedAmr o k :: abortAndRetry o station step)
        [.decided k (valueFor o b.simTimeout).join]
  | .addSimTimeout o k =>
    .next
      { b with simTimeout := if (valueFor o b.simTimeout).isSome then b.simTimeout
          else (o, k) :: b.simTimeout } [] []
  | .delSimTimeout o => .next { b with simTimeout := removeFor o b.simTimeout } [] []
  | .dropIntention goals => .drop goals.goals
  | .sendSuspendAck => .next b [] [.tellSupervisor]

/-- The program of an order holon; none of its goals has a failure plan. -/
def program : Program String OrderBeliefs OrderTrigger OrderStmt OrderInput OrderAction where
  plan := plan
  recover _ := none
  exec := exec

end OrderHolon

end MatrixFactory
