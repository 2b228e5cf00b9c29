/-
# What one operation does to one AMR

Every operation of `AMRArtifact` other than `reserveTrajectory` acts on each AMR of
the fleet by one of five local moves (`AMRMove`), and the AMRs keep their places
(`exec_fleet`).  Statements about one AMR along a run of the artifact are proved
from the five moves with `run_fleet_invariant`; the other AMRs enter a move only
through the reservation table a tick is given.
-/
import MatrixFactory.Fleet

namespace MatrixFactory

/-- A local move of one AMR. -/
inductive AMRMove where
  | stay
  | take (job : TransportJob)
  | cancel (orderId : String)
  | breakDown (downtimeS : ℚ)
  | step (mtbfSeconds : Option ℚ) (draw : ℚ × ℚ) (dt : ℚ) (r : Reservations)

/-- The effect of a local move. -/
def AMRMove.apply (pq : PriorityQueue STNode STNode.Le) (g : Grid) : AMRMove → AMRSim → AMRSim
  | .stay, a => a
  | .take job, a => a.takeJob job
  | .cancel orderId, a => a.cancelJob orderId
  | .breakDown downtimeS, a => a.breakDown downtimeS
  | .step m draw dt r, a => (a.stepAMR pq g m draw dt r).2

/-- The local moves an operation can make, of an AMR with a given name. -/
def AMROp.Allows : AMROp → String → AMRMove → Prop
  | .requestTransport amrId job, name, m =>
    if amrId = name then m = .take job else m = .stay
  | .reserveTransport job, _, m => m = .stay ∨ m = .take job
  | .cancelTransport amrId orderId, name, m =>
    if amrId = name then m = .cancel orderId else m = .stay
  | .triggerBreakdown amrId d, name, m => if amrId = name then m = .breakDown d else m = .stay
  | .updatePositions _ dt _, _, m => ∃ mtbf draw r, m = .step mtbf draw dt r
  | .setMtbfSeconds _, _, m => m = .stay
  | .clearExpiredReservations, _, m => m = .stay
  | .reserveTrajectory _ _, _, _ => False

/-- The operation is not `reserveTrajectory`, which no agent calls and which hands an
AMR a path outside the transport bookkeeping. -/
def AMROp.IsTransport : AMROp → Prop
  | .reserveTrajectory _ _ => False
  | _ => True

/-- The operation is a tick. -/
def AMROp.IsTick : AMROp → Prop
  | .updatePositions _ _ _ => True
  | _ => False

instance : DecidablePred AMROp.IsTick := fun op => by
  induction op using AMROp.casesOn <;> unfold AMROp.IsTick <;> infer_instance

/-- The stations of a job are in the table; `"start"` stands for no pickup. -/
def TransportJob.Known (job : TransportJob) : Prop :=
  (job.fromStation = "start" ∨ (stationCell job.fromStation).isSome) ∧
    (stationCell job.toStation).isSome

instance (job : TransportJob) : Decidable job.Known := by
  unfold TransportJob.Known; infer_instance

/-- A transport operation over jobs with known stations, with `dt > 0` in ticks. -/
def AMROp.WellFormed : AMROp → Prop
  | .requestTransport _ job => job.Known
  | .reserveTransport job => job.Known
  | .updatePositions _ dt _ => 0 < dt
  | .reserveTrajectory _ _ => False
  | _ => True

instance : DecidablePred AMROp.WellFormed := fun op => by
  induction op using AMROp.casesOn <;> unfold AMROp.WellFormed <;> infer_instance

theorem AMROp.WellFormed.isTransport {op : AMROp} (h : op.WellFormed) : op.IsTransport := by
  cases op <;> trivial

namespace AMRSim

variable {pq : PriorityQueue STNode STNode.Le} {g : Grid}

/-! ## The two kinds of jobs -/

theorem startJob_start {job : TransportJob} (h : job.fromStation = "start") (a : AMRSim) :
    a.startJob job =
      { a with
        destinations := [job.toStation]
        carryingOrderId := job.orderId
        pendingOrderId := job.orderId
        path := []
        progress := 0
        history := .started job :: a.history } := by
  simp [startJob, h]

theorem startJob_pickup {job : TransportJob} (h : job.fromStation ≠ "start") (a : AMRSim) :
    a.startJob job =
      { a with
        destinations := [job.fromStation, job.toStation]
        carryingOrderId := ""
        pendingOrderId := job.orderId
        path := []
        progress := 0
        history := .started job :: a.history } := by
  simp [startJob, h]

/-! ## The branches of `stepAMR` -/

variable (pq g) in
/-- **Inversion of `stepAMR`**: under repair, failing, dwelling, planning, or
driving. -/
theorem stepAMR_cases (mtbf : Option ℚ) (draw : ℚ × ℚ) (dt : ℚ) (r : Reservations)
    (a : AMRSim) :
    a.stepAMR pq g mtbf draw dt r = (r, a.repair dt) ∨
    a.stepAMR pq g mtbf draw dt r = (r, a.breakDown (30 + draw.2 * 90)) ∨
    a.stepAMR pq g mtbf draw dt r = (r, { a with dwellRemaining := a.dwellRemaining - dt }) ∨
    (a.downtimeRemainingS ≤ 0 ∧ a.dwellRemaining ≤ 0 ∧ a.PathDone ∧
      a.stepAMR pq g mtbf draw dt r = planLeg pq g r a.finishLeg.startQueued) ∨
    (a.downtimeRemainingS ≤ 0 ∧ a.dwellRemaining ≤ 0 ∧ ¬ a.PathDone ∧
      a.stepAMR pq g mtbf draw dt r = (r, a.advance dt)) := by
  unfold stepAMR
  by_cases hdown : 0 < a.downtimeRemainingS
  · exact Or.inl (if_pos hdown)
  rw [if_neg hdown]
  by_cases hfail : a.FailsThisTick mtbf draw.1 dt
  · exact Or.inr (Or.inl (if_pos hfail))
  rw [if_neg hfail]
  by_cases hdwell : 0 < a.dwellRemaining
  · exact Or.inr (Or.inr (Or.inl (if_pos hdwell)))
  rw [if_neg hdwell]
  by_cases hdone : a.PathDone
  · exact Or.inr (Or.inr (Or.inr (Or.inl
      ⟨not_lt.mp hdown, not_lt.mp hdwell, hdone, if_pos hdone⟩)))
  · exact Or.inr (Or.inr (Or.inr (Or.inr
      ⟨not_lt.mp hdown, not_lt.mp hdwell, hdone, if_neg hdone⟩)))

/-- The AMR and the target cell of the leg that `planLeg` plans. -/
def planned (a : AMRSim) : Cell × AMRSim := a.popDest.2.legTarget a.popDest.1

theorem planned_retained {a : AMRSim} {d : String} {c : Cell} (hpd : a.pendingDest = some d)
    (hc : stationCell d = some c) :
    a.popDest.1 = some d ∧ a.planned = (c, { a with pendingDest := none }) := by
  simp [planned, popDest, legTarget, hpd, hc]

theorem planned_next {a : AMRSim} {d : String} {ds : List String} {c : Cell}
    (hpd : a.pendingDest = none) (hdest : a.destinations = d :: ds) (hc : stationCell d = some c) :
    a.popDest.1 = some d ∧ a.planned = (c, { a with destinations := ds }) := by
  simp [planned, popDest, legTarget, hpd, hdest, hc]

theorem planned_home {a : AMRSim} (hpd : a.pendingDest = none) (hdest : a.destinations = []) :
    a.popDest.1 = none ∧ a.planned = (a.home, { a with carryingOrderId := "" }) := by
  simp [planned, popDest, legTarget, hpd, hdest]

theorem denyLeg_eq (popped : Option String) (a : AMRSim) :
    a.denyLeg popped =
      { a with
        pendingDest := popped
        blockedTicks := a.blockedTicks + 1
        status := .blocked
        path := []
        pathIndex := 0
        dwellRemaining := 1
        history := if a.blockedTicks + 1 = 3 then
          .transportBlocked a.carryingOrderId :: a.history else a.history } := by
  unfold denyLeg
  dsimp only
  split <;> rfl

variable (pq g) in
/-- A leg is driven along the path that the search finds, and denied without one. -/
theorem planLeg_eq (r : Reservations) (a : AMRSim) : planLeg pq g r a =
    match spaceTimeAStar g r a.amrId pq a.cell a.planned.1 with
    | some (c :: p) => (r.commitReservation g a.amrId (c :: p), a.planned.2.driveLeg (c :: p))
    | _ => (r, a.planned.2.denyLeg a.popDest.1) := by
  have hid : a.planned.2.amrId = a.amrId ∧ a.planned.2.cell = a.cell := by
    unfold planned legTarget popDest
    constructor <;> (repeat' split) <;> rfl
  rw [← hid.1, ← hid.2]
  rfl

variable (pq g) in
/-- **Inversion of `planLeg`**: a granted leg is a timed path to the target, and
every other leg is denied. -/
theorem planLeg_cases (r : Reservations) (a : AMRSim) :
    (∃ path, path ≠ [] ∧ TimedPath g r a.amrId a.cell 0 path ∧
      pathEnd a.cell path = a.planned.1 ∧
      spaceTimeAStar g r a.amrId pq a.cell a.planned.1 = some path ∧
      planLeg pq g r a = (r.commitReservation g a.amrId path, a.planned.2.driveLeg path)) ∨
    ((spaceTimeAStar g r a.amrId pq a.cell a.planned.1 = none ∨
        spaceTimeAStar g r a.amrId pq a.cell a.planned.1 = some []) ∧
      planLeg pq g r a = (r, a.planned.2.denyLeg a.popDest.1)) := by
  have hplan := planLeg_eq pq g r a
  rcases hs : spaceTimeAStar g r a.amrId pq a.cell a.planned.1 with _ | _ | ⟨c, p⟩
  · exact Or.inr ⟨Or.inl rfl, by rw [hplan, hs]⟩
  · exact Or.inr ⟨Or.inr rfl, by rw [hplan, hs]⟩
  · obtain ⟨htimed, hend⟩ := spaceTimeAStar_sound hs
    exact Or.inl ⟨c :: p, by simp, htimed, hend, rfl, by rw [hplan, hs]⟩

/-! ## What no move changes -/

/-- The name, dock and speed of an AMR. -/
def static (a : AMRSim) : String × Cell × ℚ := (a.amrId, a.home, a.secPerCell)

theorem static_startJob (job : TransportJob) (a : AMRSim) :
    (a.startJob job).static = a.static := by
  by_cases h : job.fromStation = "start"
  · rw [startJob_start h]
    rfl
  · rw [startJob_pickup h]
    rfl

theorem static_finishLeg (a : AMRSim) : a.finishLeg.static = a.static := by
  unfold finishLeg
  (repeat' split) <;> rfl

theorem static_startQueued (a : AMRSim) : a.startQueued.static = a.static := by
  unfold startQueued
  split
  · split
    · rfl
    · exact static_startJob _ _
  · rfl

theorem static_planned (a : AMRSim) : a.planned.2.static = a.static := by
  unfold planned legTarget popDest
  (repeat' split) <;> rfl

theorem static_advance (dt : ℚ) (a : AMRSim) : (a.advance dt).static = a.static := by
  unfold advance
  split
  · rfl
  · dsimp only
    split <;> rfl

theorem static_stepAMR (mtbf : Option ℚ) (draw : ℚ × ℚ) (dt : ℚ) (r : Reservations)
    (a : AMRSim) : (a.stepAMR pq g mtbf draw dt r).2.static = a.static := by
  rcases stepAMR_cases pq g mtbf draw dt r a with
    h | h | h | ⟨-, -, -, h⟩ | ⟨-, -, -, h⟩ <;> rw [h]
  · unfold repair
    split <;> rfl
  · rfl
  · rfl
  · have hplan : a.finishLeg.startQueued.planned.2.static = a.static := by
      rw [static_planned, static_startQueued, static_finishLeg]
    rcases planLeg_cases pq g r a.finishLeg.startQueued with
      ⟨path, -, -, -, -, hp⟩ | ⟨-, hp⟩ <;> rw [hp]
    · exact hplan
    · rw [denyLeg_eq]
      exact hplan
  · exact static_advance dt a

/-- No move changes the static data. -/
theorem static_apply (m : AMRMove) (a : AMRSim) : (m.apply pq g a).static = a.static := by
  cases m with
  | stay => rfl
  | take job =>
    show (a.takeJob job).static = a.static
    unfold takeJob
    dsimp only
    split
    · exact static_startJob _ _
    · rfl
  | cancel orderId =>
    show (a.cancelJob orderId).static = a.static
    unfold cancelJob
    dsimp only
    split <;> rfl
  | breakDown d => rfl
  | step mtbf draw dt r => exact static_stepAMR mtbf draw dt r a

end AMRSim

namespace AMRArtifact

variable {pq : PriorityQueue STNode STNode.Le}

/-! ## The planning order -/

theorem planningOrder_perm (fleet : List AMRSim) :
    (planningOrder fleet).Perm (List.range fleet.length) :=
  List.perm_insertionSort _ _

theorem nodup_planningOrder (fleet : List AMRSim) : (planningOrder fleet).Nodup :=
  (planningOrder_perm fleet).nodup_iff.mpr List.nodup_range

theorem mem_planningOrder {fleet : List AMRSim} {i : ℕ} :
    i ∈ planningOrder fleet ↔ i < fleet.length := by
  rw [(planningOrder_perm fleet).mem_iff, List.mem_range]

/-! ## The loop over the planning order -/

section Loop

variable {g : Grid} {mtbf : Option ℚ} {draws : ℕ → ℚ × ℚ} {dt : ℚ}

theorem length_stepAt (i : ℕ) (s : Reservations × List AMRSim) :
    (stepAt pq g mtbf draws dt i s).2.length = s.2.length := by
  unfold stepAt
  split <;> simp

theorem getElem?_stepAt_ne {i j : ℕ} (h : j ≠ i) (s : Reservations × List AMRSim) :
    (stepAt pq g mtbf draws dt i s).2[j]? = s.2[j]? := by
  unfold stepAt
  split
  · rfl
  · simp [h.symm]

theorem getElem?_stepAt_self {i : ℕ} {s : Reservations × List AMRSim} {a : AMRSim}
    (ha : s.2[i]? = some a) :
    (stepAt pq g mtbf draws dt i s).2[i]?
      = some (a.stepAMR pq g mtbf (draws i) dt s.1).2 := by
  have hi : i < s.2.length := (List.getElem?_eq_some_iff.mp ha).1
  unfold stepAt
  rw [ha]
  simp [hi]

theorem length_runSteps (order : List ℕ) (s : Reservations × List AMRSim) :
    (Runs.run (stepAt pq g mtbf draws dt) order s).2.length = s.2.length := by
  induction order generalizing s with
  | nil => rfl
  | cons i order ih => rw [Runs.run_cons, ih, length_stepAt]

theorem getElem?_runSteps_of_notMem {order : List ℕ} {j : ℕ} (h : j ∉ order)
    (s : Reservations × List AMRSim) :
    (Runs.run (stepAt pq g mtbf draws dt) order s).2[j]? = s.2[j]? := by
  induction order generalizing s with
  | nil => rfl
  | cons i order ih =>
    rw [Runs.run_cons, ih (fun hm => h (List.mem_cons_of_mem _ hm)),
      getElem?_stepAt_ne (by rintro rfl; exact h List.mem_cons_self)]

/-- Every AMR of the order is stepped once, against some reservation table. -/
theorem getElem?_runSteps {order : List ℕ} (hnd : order.Nodup) {i : ℕ} (hi : i ∈ order)
    {s : Reservations × List AMRSim} {a : AMRSim} (ha : s.2[i]? = some a) :
    ∃ r, (Runs.run (stepAt pq g mtbf draws dt) order s).2[i]?
      = some (a.stepAMR pq g mtbf (draws i) dt r).2 := by
  induction order generalizing s with
  | nil => simp at hi
  | cons j order ih =>
    obtain ⟨hj, hnd⟩ := List.nodup_cons.mp hnd
    rw [Runs.run_cons]
    by_cases hij : i = j
    · subst hij
      exact ⟨s.1, by rw [getElem?_runSteps_of_notMem hj, getElem?_stepAt_self ha]⟩
    · refine ih hnd ((List.mem_cons.mp hi).resolve_left hij) ?_
      rw [getElem?_stepAt_ne hij, ha]

end Loop

theorem updatePositions_fleet (simTime dt : ℚ) (draws : ℕ → ℚ × ℚ) (s : AMRArtifact) :
    (s.updatePositions pq simTime dt draws).fleet
      = (Runs.run (stepAt pq s.grid s.mtbfSeconds draws dt) (planningOrder s.fleet)
          (s.reservations, s.fleet)).2 := rfl

/-! ## The choice of `reserveTransport` -/

theorem lt_of_leastLoaded {i b l : ℕ} {best : Option (ℕ × ℕ)} {fleet : List AMRSim}
    (hbest : ∀ b l, best = some (b, l) → b < i)
    (h : leastLoaded i best fleet = some (b, l)) : b < i + fleet.length := by
  induction fleet generalizing i best with
  | nil =>
    cases best with
    | none => simp [leastLoaded] at h
    | some p => exact Nat.lt_of_lt_of_le (hbest b l h) (Nat.le_add_right _ _)
  | cons a fleet ih =>
    rw [List.length_cons, show i + (fleet.length + 1) = i + 1 + fleet.length by omega]
    cases best with
    | none =>
      refine ih (fun b' l' hb => ?_) h
      obtain ⟨rfl, -⟩ : i = b' ∧ a.load = l' := by simpa using hb
      omega
    | some p =>
      obtain ⟨b₀, l₀⟩ := p
      refine ih (fun b' l' hb => ?_) h
      split at hb
      · obtain ⟨rfl, -⟩ : i = b' ∧ a.load = l' := by simpa using hb
        omega
      · obtain ⟨rfl, -⟩ : b₀ = b' ∧ l₀ = l' := by simpa using hb
        have := hbest b₀ l₀ rfl
        omega

theorem chosenAMR_lt {s : AMRArtifact} {i l : ℕ} (h : s.chosenAMR = some (i, l)) :
    i < s.fleet.length := by
  have := lt_of_leastLoaded (by simp) h
  omega

theorem chosenAMR_eq_none_iff {s : AMRArtifact} : s.chosenAMR = none ↔ s.fleet = [] := by
  have hsome : ∀ (fleet : List AMRSim) (i : ℕ) (p : ℕ × ℕ),
      leastLoaded i (some p) fleet ≠ none := by
    intro fleet
    induction fleet with
    | nil => simp [leastLoaded]
    | cons a fleet ih =>
      rintro i ⟨b, l⟩
      rw [leastLoaded]
      split
      · exact ih (i + 1) (i, a.load)
      · exact ih (i + 1) (b, l)
  unfold chosenAMR
  cases hf : s.fleet with
  | nil => simp [leastLoaded]
  | cons a fleet => simpa [leastLoaded] using hsome fleet 1 (0, a.load)

/-! ## One operation -/

theorem exec_grid (op : AMROp) (s : AMRArtifact) : (exec pq op s).grid = s.grid := by
  cases op with
  | reserveTransport job => simp only [exec, reserveTransport]; split <;> rfl
  | reserveTrajectory amrId goal =>
    simp only [exec, reserveTrajectory]
    repeat' split
    all_goals rfl
  | _ => rfl

theorem onAMR_fleet (amrId : String) (f : AMRSim → AMRSim) (s : AMRArtifact) {i : ℕ} {a : AMRSim}
    (ha : s.fleet[i]? = some a) :
    (s.onAMR amrId f).fleet[i]? = some (if a.amrId = amrId then f a else a) := by
  simp [onAMR, List.getElem?_map, ha]

/-- A tick steps every AMR against some reservation table. -/
theorem tick_fleet {s : AMRArtifact} (simTime dt : ℚ) (draws : ℕ → ℚ × ℚ) {i : ℕ} {a : AMRSim}
    (ha : s.fleet[i]? = some a) :
    ∃ r, (exec pq (.updatePositions simTime dt draws) s).fleet[i]?
      = some (a.stepAMR pq s.grid s.mtbfSeconds (draws i) dt r).2 := by
  have hi : i ∈ planningOrder s.fleet :=
    mem_planningOrder.mpr (List.getElem?_eq_some_iff.mp ha).1
  exact getElem?_runSteps (nodup_planningOrder s.fleet) hi (s := (s.reservations, s.fleet)) ha

variable (pq) in
/-- **Inversion of an operation at one AMR.** -/
theorem exec_fleet {op : AMROp} (hop : op.IsTransport) {s : AMRArtifact} {i : ℕ} {a : AMRSim}
    (ha : s.fleet[i]? = some a) :
    ∃ m, op.Allows a.amrId m ∧ (exec pq op s).fleet[i]? = some (m.apply pq s.grid a) := by
  cases op with
  | setMtbfSeconds m => exact ⟨.stay, rfl, ha⟩
  | clearExpiredReservations => exact ⟨.stay, rfl, ha⟩
  | reserveTrajectory amrId goal => exact hop.elim
  | triggerBreakdown amrId d =>
    have h := onAMR_fleet amrId (·.breakDown d) s ha
    by_cases hid : amrId = a.amrId
    · exact ⟨.breakDown d, by simp [AMROp.Allows, hid], by rw [if_pos hid.symm] at h; exact h⟩
    · exact ⟨.stay, by simp [AMROp.Allows, hid], by rw [if_neg (Ne.symm hid)] at h; exact h⟩
  | requestTransport amrId job =>
    have h := onAMR_fleet amrId (·.takeJob job) s ha
    by_cases hid : amrId = a.amrId
    · exact ⟨.take job, by simp [AMROp.Allows, hid], by rw [if_pos hid.symm] at h; exact h⟩
    · exact ⟨.stay, by simp [AMROp.Allows, hid], by rw [if_neg (Ne.symm hid)] at h; exact h⟩
  | cancelTransport amrId orderId =>
    have h := onAMR_fleet amrId (·.cancelJob orderId) s ha
    by_cases hid : amrId = a.amrId
    · exact ⟨.cancel orderId, by simp [AMROp.Allows, hid], by rw [if_pos hid.symm] at h; exact h⟩
    · exact ⟨.stay, by simp [AMROp.Allows, hid], by rw [if_neg (Ne.symm hid)] at h; exact h⟩
  | reserveTransport job =>
    simp only [exec, reserveTransport]
    rcases hc : s.chosenAMR with _ | ⟨j, l⟩
    · exact ⟨.stay, Or.inl rfl, ha⟩
    · by_cases hij : j = i
      · subst hij
        exact ⟨.take job, Or.inr rfl, by simp [ha, AMRMove.apply]⟩
      · exact ⟨.stay, Or.inl rfl, by simp [ha, hij, AMRMove.apply]⟩
  | updatePositions simTime dt draws =>
    obtain ⟨r, hr⟩ := tick_fleet simTime dt draws ha
    exact ⟨.step s.mtbfSeconds (draws i) dt r, ⟨_, _, _, rfl⟩, hr⟩

variable (pq) in
theorem length_exec (op : AMROp) (s : AMRArtifact) :
    (exec pq op s).fleet.length = s.fleet.length := by
  cases op with
  | triggerBreakdown amrId d => simp [exec, triggerBreakdown, onAMR]
  | requestTransport amrId job => simp [exec, requestTransport, onAMR]
  | cancelTransport amrId orderId => simp [exec, cancelTransport, onAMR]
  | reserveTransport job =>
    simp only [exec, reserveTransport]
    split
    · rfl
    · simp
  | updatePositions simTime dt draws =>
    exact length_runSteps (planningOrder s.fleet) (s.reservations, s.fleet)
  | reserveTrajectory amrId goal =>
    simp only [exec, reserveTrajectory]
    repeat' split
    all_goals simp
  | _ => rfl

variable (pq) in
/-- The AMRs keep their names, docks and speeds. -/
theorem exec_static {op : AMROp} (hop : op.IsTransport) (s : AMRArtifact) :
    (exec pq op s).fleet.map AMRSim.static = s.fleet.map AMRSim.static := by
  refine List.ext_getElem? fun i => ?_
  rw [List.getElem?_map, List.getElem?_map]
  rcases hi : s.fleet[i]? with _ | a
  · have hlen : (exec pq op s).fleet.length ≤ i := by
      rw [length_exec]
      exact List.getElem?_eq_none_iff.mp hi
    rw [List.getElem?_eq_none_iff.mpr hlen]
  · obtain ⟨m, -, hget⟩ := exec_fleet pq hop hi
    rw [hget, Option.map_some, Option.map_some, AMRSim.static_apply]

theorem length_run (ops : List AMROp) (s : AMRArtifact) :
    (Runs.run (exec pq) ops s).fleet.length = s.fleet.length := by
  induction ops generalizing s with
  | nil => rfl
  | cons op ops ih => rw [Runs.run_cons, ih, length_exec pq]

theorem run_grid (ops : List AMROp) (s : AMRArtifact) :
    (Runs.run (exec pq) ops s).grid = s.grid := by
  induction ops generalizing s with
  | nil => rfl
  | cons op ops ih => rw [Runs.run_cons, ih, exec_grid]

/-! ## Names -/

theorem toString_injective {m n : ℕ} (h : toString m = toString n) : m = n := by
  have hl : m.repr.toList = n.repr.toList := congrArg String.toList h
  rw [Nat.toList_repr, Nat.toList_repr] at hl
  rw [← Nat.ofDigitChars_ten_toDigits (n := m), hl, Nat.ofDigitChars_ten_toDigits]

/-- The AMRs of a fleet have distinct names from the start. -/
theorem nodup_init (cols rows count : ℕ) (mtbf : Option ℚ) :
    ((init cols rows count mtbf).fleet.map (·.amrId)).Nodup := by
  have hids : (init cols rows count mtbf).fleet.map (·.amrId)
      = (List.range count).map fun i => "AMR-" ++ toString (i + 1) := by
    simp [init, initAMR, Function.comp_def]
  rw [hids]
  refine List.nodup_range.map fun i j hij => ?_
  have := toString_injective ((String.append_right_inj "AMR-").mp hij)
  omega

variable (pq) in
theorem exec_names {op : AMROp} (hop : op.IsTransport) (s : AMRArtifact) :
    (exec pq op s).fleet.map (·.amrId) = s.fleet.map (·.amrId) := by
  have h := congrArg (List.map Prod.fst) (exec_static pq hop s)
  simpa [AMRSim.static, Function.comp_def] using h

/-! ## Invariants of the AMRs along a run -/

/-- What the local moves preserve holds of every AMR along every run.  `C` is a
condition on an AMR and the move it is about to make. -/
theorem run_fleet_invariant {I : AMRSim → Prop} {C : AMROp → AMRSim → AMRMove → Prop} {g : Grid}
    (hmove : ∀ op a m, op.Allows a.amrId m → C op a m → I a → I (m.apply pq g a))
    {ops : List AMROp} (hops : ∀ op ∈ ops, op.IsTransport) {s : AMRArtifact} (hg : s.grid = g)
    (hC : Runs.Along (exec pq)
      (fun s op => ∀ a ∈ s.fleet, ∀ m, op.Allows a.amrId m → C op a m) s ops)
    (hs : ∀ a ∈ s.fleet, I a) : ∀ a ∈ (Runs.run (exec pq) ops s).fleet, I a := by
  induction ops generalizing s with
  | nil => exact hs
  | cons op ops ih =>
    refine ih (fun o ho => hops o (List.mem_cons_of_mem _ ho)) ((exec_grid op s).trans hg) hC.2 ?_
    intro a' ha'
    obtain ⟨i, hi, hget⟩ := List.getElem_of_mem ha'
    have hi' : i < s.fleet.length := by rwa [length_exec] at hi
    obtain ⟨m, hm, hget'⟩ := exec_fleet pq (hops op List.mem_cons_self)
      (List.getElem?_eq_getElem hi')
    rw [List.getElem?_eq_getElem hi, hget, hg] at hget'
    obtain rfl : a' = m.apply pq g s.fleet[i] := by simpa using hget'
    have hmem : s.fleet[i] ∈ s.fleet := List.getElem_mem hi'
    exact hmove op _ m hm (hC.1 _ hmem m hm) (hs _ hmem)

end AMRArtifact

end MatrixFactory
