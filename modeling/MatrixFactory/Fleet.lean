/-
# The AMR fleet

`AMRArtifact` without its planner: the state of an AMR, the transport operations
(`reserveTransport`, `requestTransport`, `cancelTransport`, `triggerBreakdown`) and
the tick (`updatePositions`, `stepAMR`).  Times are exact rationals where the code
has `double` and `float`.

Each AMR carries a `history`, newest event first, which no definition of the code
reads: it records the signals of the AMR and what happened to its jobs, so that
statements about runs can refer to them.  The draws of the AMR's random generator
in a tick are inputs of the tick.
-/
import MatrixFactory.SpaceTimeAStar
import MatrixFactory.Lib.Runs
import Mathlib.Data.List.Sort
import Mathlib.Data.Rat.Lemmas
import Mathlib.Algebra.Order.Field.Rat

namespace MatrixFactory

/-- `AMRStatusEnum`. -/
inductive AMRStatus where
  | idle
  | moving
  | loading
  | unloading
  | blocked
  deriving DecidableEq, Repr

/-- `TransportJob`. -/
structure TransportJob where
  fromStation : String
  toStation : String
  orderId : String
  deriving DecidableEq, Repr

/-- What the history of an AMR records: a job committed to it, a job started, the
signals `amr_arrived` (with the AMR's cell) and `amr_transport_blocked`, and the
number of jobs a `cancelTransport` dropped. -/
inductive AMREvent where
  | committed (job : TransportJob)
  | started (job : TransportJob)
  | arrived (orderId : String) (cell : Cell)
  | transportBlocked (orderId : String)
  | cancelled (orderId : String) (dropped : ℕ)
  deriving DecidableEq, Repr

/-- `AMRSim`; `cell`, `next` and `home` stand for the coordinate pairs. -/
structure AMRSim where
  amrId : String
  home : Cell
  cell : Cell
  next : Cell
  progress : ℚ := 0
  secPerCell : ℚ := 1 / 2
  dwellRemaining : ℚ := 0
  downtimeRemainingS : ℚ := 0
  path : List Cell := []
  pathIndex : ℕ := 0
  status : AMRStatus := .idle
  carryingOrderId : String := ""
  pendingOrderId : String := ""
  destinations : List String := []
  blockedTicks : ℕ := 0
  pendingDest : Option String := none
  completedJobCount : ℕ := 0
  jobQueue : List TransportJob := []
  history : List AMREvent := []
  deriving DecidableEq, Repr

namespace AMRSim

/-- `isFree`. -/
def IsFree (a : AMRSim) : Prop :=
  a.downtimeRemainingS ≤ 0 ∧ a.carryingOrderId = "" ∧ a.pendingOrderId = ""

instance (a : AMRSim) : Decidable a.IsFree := by unfold IsFree; infer_instance

/-- The load `getFleetStatus` and `reserveTransport` compute. -/
def load (a : AMRSim) : ℕ := a.jobQueue.length + if a.IsFree then 0 else 1

/-! ## Jobs -/

/-- `startJob`. -/
def startJob (job : TransportJob) (a : AMRSim) : AMRSim :=
  let a :=
    if job.fromStation ≠ "start" then
      { a with destinations := [job.fromStation], carryingOrderId := "" }
    else { a with destinations := [], carryingOrderId := job.orderId }
  { a with
    destinations := a.destinations ++ [job.toStation]
    pendingOrderId := job.orderId
    path := []
    progress := 0
    history := .started job :: a.history }

/-- The commit of a job to an AMR: start it now or queue it. -/
def takeJob (job : TransportJob) (a : AMRSim) : AMRSim :=
  let a := { a with history := .committed job :: a.history }
  if a.IsFree then a.startJob job else { a with jobQueue := a.jobQueue ++ [job] }

/-- The body of `cancelTransport` for the AMR it names. -/
def cancelJob (orderId : String) (a : AMRSim) : AMRSim :=
  let kept := a.jobQueue.filter (·.orderId ≠ orderId)
  let dropped := a.jobQueue.length - kept.length
  let a := { a with jobQueue := kept }
  if orderId = a.pendingOrderId ∨ orderId = a.carryingOrderId then
    { a with
      destinations := []
      path := []
      pathIndex := 0
      carryingOrderId := ""
      pendingOrderId := ""
      history := .cancelled orderId (dropped + 1) :: a.history }
  else { a with history := .cancelled orderId dropped :: a.history }

/-- The body of `triggerBreakdown` for the AMR it names. -/
def breakDown (downtimeS : ℚ) (a : AMRSim) : AMRSim :=
  { a with status := .blocked, downtimeRemainingS := downtimeS }

/-! ## One tick of one AMR -/

/-- The repair branch of `stepAMR`. -/
def repair (dt : ℚ) (a : AMRSim) : AMRSim :=
  if a.downtimeRemainingS - dt ≤ 0 then { a with downtimeRemainingS := 0, status := .idle }
  else { a with downtimeRemainingS := a.downtimeRemainingS - dt }

/-- The MTBF test of `stepAMR`; `mtbfSeconds = none` is `Double.MAX_VALUE`, and a
division by zero is infinite. -/
def FailsThisTick (mtbfSeconds : Option ℚ) (draw : ℚ) (dt : ℚ) (a : AMRSim) : Prop :=
  match mtbfSeconds with
  | none => False
  | some m => a.status = .moving ∧ (m = 0 ∨ draw < dt / m)

instance (mtbfSeconds : Option ℚ) (draw dt : ℚ) (a : AMRSim) :
    Decidable (a.FailsThisTick mtbfSeconds draw dt) := by
  unfold FailsThisTick; cases mtbfSeconds <;> infer_instance

/-- The first `if` chain at the end of a path: drop-off, pickup, or nothing. -/
def finishLeg (a : AMRSim) : AMRSim :=
  if a.carryingOrderId ≠ "" ∧ a.destinations = [] then
    { a with
      history := .arrived a.carryingOrderId a.cell :: a.history
      carryingOrderId := ""
      pendingOrderId := ""
      completedJobCount := a.completedJobCount + 1
      status := .unloading }
  else if a.pendingOrderId ≠ "" ∧ a.carryingOrderId = "" ∧ a.destinations.length = 1 then
    { a with carryingOrderId := a.pendingOrderId, status := .loading }
  else { a with status := .idle }

/-- The start of a queued job at the end of a path. -/
def startQueued (a : AMRSim) : AMRSim :=
  if a.destinations = [] ∧ a.IsFree then
    match a.jobQueue with
    | [] => a
    | job :: rest => { a with jobQueue := rest }.startJob job
  else a

/-- The choice of `poppedDest`: a retained destination goes first. -/
def popDest (a : AMRSim) : Option String × AMRSim :=
  match a.pendingDest with
  | some d => (some d, { a with pendingDest := none })
  | none =>
    match a.destinations with
    | d :: ds => (some d, { a with destinations := ds })
    | [] => (none, a)

/-- The target cell of the popped destination; the dock, with the load given up,
where there is none. -/
def legTarget (popped : Option String) (a : AMRSim) : Cell × AMRSim :=
  match popped.bind stationCell with
  | some c => (c, a)
  | none => (a.home, { a with carryingOrderId := "" })

/-- A granted leg. -/
def driveLeg (path : List Cell) (a : AMRSim) : AMRSim :=
  { a with path := path, pathIndex := 0, dwellRemaining := 3 / 5, blockedTicks := 0 }

/-- A denied leg: the destination is retained in `pendingDest`. -/
def denyLeg (popped : Option String) (a : AMRSim) : AMRSim :=
  let a :=
    { a with
      pendingDest := popped
      blockedTicks := a.blockedTicks + 1
      status := .blocked
      path := []
      pathIndex := 0
      dwellRemaining := 1 }
  if a.blockedTicks = 3 then
    { a with history := .transportBlocked a.carryingOrderId :: a.history }
  else a

/-- The planning of the next leg, with `commitReservation` for a granted one. -/
def planLeg (pq : PriorityQueue STNode STNode.Le) (g : Grid) (r : Reservations) (a : AMRSim) :
    Reservations × AMRSim :=
  let (popped, a) := a.popDest
  let (target, a) := a.legTarget popped
  match spaceTimeAStar g r a.amrId pq a.cell target with
  | some (c :: p) => (r.commitReservation g a.amrId (c :: p), a.driveLeg (c :: p))
  | _ => (r, a.denyLeg popped)

/-- The last part of `stepAMR`: progress along the current path. -/
def advance (dt : ℚ) (a : AMRSim) : AMRSim :=
  match a.path[a.pathIndex]? with
  | none => a
  | some target =>
    let a :=
      { a with next := target, status := .moving, progress := a.progress + dt / a.secPerCell }
    if 1 ≤ a.progress then
      { a with cell := target, progress := 0, pathIndex := a.pathIndex + 1 }
    else a

/-- The AMR has no path left to drive. -/
def PathDone (a : AMRSim) : Prop := a.path = [] ∨ a.path.length ≤ a.pathIndex

instance (a : AMRSim) : Decidable a.PathDone := by unfold PathDone; infer_instance

/-- `stepAMR`; `draw` holds the two values `nextDouble` gives in this tick. -/
def stepAMR (pq : PriorityQueue STNode STNode.Le) (g : Grid) (mtbfSeconds : Option ℚ)
    (draw : ℚ × ℚ) (dt : ℚ) (r : Reservations) (a : AMRSim) : Reservations × AMRSim :=
  if 0 < a.downtimeRemainingS then (r, a.repair dt)
  else if a.FailsThisTick mtbfSeconds draw.1 dt then (r, a.breakDown (30 + draw.2 * 90))
  else if 0 < a.dwellRemaining then (r, { a with dwellRemaining := a.dwellRemaining - dt })
  else if a.PathDone then planLeg pq g r a.finishLeg.startQueued
  else (r, a.advance dt)

end AMRSim

/-! ## The artifact -/

/-- The state of `AMRArtifact`; `amrFleetNer` is the entry `"amr_fleet"` it keeps in
the simulator's NER registry. -/
structure AMRArtifact where
  grid : Grid
  reservations : Reservations
  mtbfSeconds : Option ℚ
  fleet : List AMRSim
  amrFleetNer : Option ℚ

namespace AMRArtifact

/-- The AMR number `i` of `init`. -/
def initAMR (g : Grid) (i : ℕ) : AMRSim where
  amrId := "AMR-" ++ toString (i + 1)
  home := ⟨1 + i, g.gridRows - 1⟩
  cell := ⟨1 + i, g.gridRows - 1⟩
  next := ⟨1 + i, g.gridRows - 1⟩
  dwellRemaining := 1 + i * (3 / 5)

/-- `init(cols, rows, count)`, with the MTBF read from the environment. -/
def init (cols rows count : ℕ) (mtbfSeconds : Option ℚ) : AMRArtifact where
  grid := ⟨cols, rows⟩
  reservations := .empty
  mtbfSeconds := mtbfSeconds
  fleet := (List.range count).map (initAMR ⟨cols, rows⟩)
  amrFleetNer := none

/-- The loops `for (AMRSim a : fleet) if (a.amrId.equals(amrId)) ...`. -/
def onAMR (amrId : String) (f : AMRSim → AMRSim) (s : AMRArtifact) : AMRArtifact :=
  { s with fleet := s.fleet.map fun a => if a.amrId = amrId then f a else a }

/-- `triggerBreakdown`. -/
def triggerBreakdown (amrId : String) (downtimeS : ℚ) : AMRArtifact → AMRArtifact :=
  onAMR amrId (·.breakDown downtimeS)

/-- `requestTransport`. -/
def requestTransport (amrId : String) (job : TransportJob) : AMRArtifact → AMRArtifact :=
  onAMR amrId (·.takeJob job)

/-- `cancelTransport`. -/
def cancelTransport (amrId orderId : String) : AMRArtifact → AMRArtifact :=
  onAMR amrId (·.cancelJob orderId)

/-- The loop of `reserveTransport` over the fleet from index `i` on: the first AMR
of least load, with its load. -/
def leastLoaded : ℕ → Option (ℕ × ℕ) → List AMRSim → Option (ℕ × ℕ)
  | _, best, [] => best
  | i, none, a :: fleet => leastLoaded (i + 1) (some (i, a.load)) fleet
  | i, some (b, l), a :: fleet =>
    leastLoaded (i + 1) (if a.load < l then some (i, a.load) else some (b, l)) fleet

/-- The AMR `reserveTransport` chooses: its index and load. -/
def chosenAMR (s : AMRArtifact) : Option (ℕ × ℕ) := leastLoaded 0 none s.fleet

/-- `reserveTransport`. -/
def reserveTransport (job : TransportJob) (s : AMRArtifact) : AMRArtifact :=
  match s.chosenAMR with
  | none => s
  | some (i, _) => { s with fleet := s.fleet.modify i (·.takeJob job) }

/-- The feedback parameters of `reserveTransport`. -/
def reserveTransportResult (s : AMRArtifact) : String × ℤ :=
  match s.chosenAMR with
  | none => ("", -1)
  | some (i, l) => ((s.fleet[i]?.map (·.amrId)).getD "", l)

/-- `planningOrder`: indices by descending `blockedTicks`, ties in fleet order. -/
def planningOrder (fleet : List AMRSim) : List ℕ :=
  (List.range fleet.length).insertionSort fun i j =>
    (fleet[j]?.map (·.blockedTicks)).getD 0 ≤ (fleet[i]?.map (·.blockedTicks)).getD 0

/-- `stepAMR` on the AMR number `i`. -/
def stepAt (pq : PriorityQueue STNode STNode.Le) (g : Grid) (mtbfSeconds : Option ℚ)
    (draws : ℕ → ℚ × ℚ) (dt : ℚ) (i : ℕ) (s : Reservations × List AMRSim) :
    Reservations × List AMRSim :=
  match s.2[i]? with
  | none => s
  | some a =>
    let (r, a) := a.stepAMR pq g mtbfSeconds (draws i) dt s.1
    (r, s.2.set i a)

/-- The NER of the fleet after a tick: the soonest need of an AMR that is not
idle. -/
def fleetNeed : List AMRSim → Option ℚ
  | [] => none
  | a :: fleet =>
    if a.status ≠ .idle then
      let need := min a.secPerCell (max a.dwellRemaining (1 / 20))
      match fleetNeed fleet with
      | none => some need
      | some soonest => some (min need soonest)
    else fleetNeed fleet

/-- `updatePositions`. -/
def updatePositions (pq : PriorityQueue STNode STNode.Le) (simTime dt : ℚ)
    (draws : ℕ → ℚ × ℚ) (s : AMRArtifact) : AMRArtifact :=
  let (r, fleet) := Runs.run (stepAt pq s.grid s.mtbfSeconds draws dt) (planningOrder s.fleet)
    (s.reservations, s.fleet)
  { s with
    reservations := r.refreshGridOccupancy s.grid (fleet.map fun a => (a.amrId, a.cell))
    fleet := fleet
    amrFleetNer := (fleetNeed fleet).map (simTime + ·) }

/-- `reserveTrajectory(amrId, goalX, goalY)`: plans from the AMR's cell, commits the
path and hands it to the AMR. -/
def reserveTrajectory (pq : PriorityQueue STNode STNode.Le) (amrId : String) (goal : Cell)
    (s : AMRArtifact) : AMRArtifact :=
  match s.fleet.findIdx? (·.amrId = amrId) with
  | none => s
  | some i =>
    match s.fleet[i]? with
    | none => s
    | some a =>
      match spaceTimeAStar s.grid s.reservations amrId pq a.cell goal with
      | none => s
      | some path =>
        { s with
          reservations := s.reservations.commitReservation s.grid amrId path
          fleet := s.fleet.set i { a with path := path, pathIndex := 0 } }

end AMRArtifact

/-! ## Operations and runs -/

/-- The operations of the artifact that change its state. -/
inductive AMROp where
  | setMtbfSeconds (mtbfSeconds : Option ℚ)
  | triggerBreakdown (amrId : String) (downtimeS : ℚ)
  | requestTransport (amrId : String) (job : TransportJob)
  | cancelTransport (amrId orderId : String)
  | reserveTransport (job : TransportJob)
  | updatePositions (simTime dt : ℚ) (draws : ℕ → ℚ × ℚ)
  | reserveTrajectory (amrId : String) (goal : Cell)
  | clearExpiredReservations

namespace AMRArtifact

/-- One operation. -/
def exec (pq : PriorityQueue STNode STNode.Le) : AMROp → AMRArtifact → AMRArtifact
  | .setMtbfSeconds m, s => { s with mtbfSeconds := m }
  | .triggerBreakdown amrId d, s => s.triggerBreakdown amrId d
  | .requestTransport amrId job, s => s.requestTransport amrId job
  | .cancelTransport amrId orderId, s => s.cancelTransport amrId orderId
  | .reserveTransport job, s => s.reserveTransport job
  | .updatePositions simTime dt draws, s => s.updatePositions pq simTime dt draws
  | .reserveTrajectory amrId goal, s => s.reserveTrajectory pq amrId goal
  | .clearExpiredReservations, s =>
    { s with reservations := s.reservations.clearExpired s.grid }

end AMRArtifact

end MatrixFactory
