/-
# What a cancelled transport leaves behind

`cancelTransport` clears the destinations, the path and the order ids of the job in
progress.  It leaves a destination retained by a denied leg, the progress along the
current edge, and the reservations of the abandoned path.

The fleet after a cancel is compared with the fleet in which the AMR stands on the same
cell without the job, over every continuation: `cancelTransport_iff` says when the two
agree in everything but what their histories held before.  That a history is only ever
extended is the frame lemma `exec_withPast`.
-/
import MatrixFactory.FleetRuns

namespace MatrixFactory

/-! ## The past of a fleet -/

namespace AMRSim

variable {pq : PriorityQueue STNode STNode.Le} {g : Grid}

/-- The AMR with older events before its history. -/
def withPast (past : List AMREvent) (a : AMRSim) : AMRSim :=
  { a with history := a.history ++ past }

@[simp] theorem withPast_amrId (past : List AMREvent) (a : AMRSim) :
    (a.withPast past).amrId = a.amrId := rfl

theorem load_withPast (past : List AMREvent) (a : AMRSim) : (a.withPast past).load = a.load := rfl

theorem startJob_withPast (past : List AMREvent) (job : TransportJob) (a : AMRSim) :
    (a.withPast past).startJob job = (a.startJob job).withPast past := by
  by_cases h : job.fromStation = "start"
  · rw [startJob_start h, startJob_start h]
    rfl
  · rw [startJob_pickup h, startJob_pickup h]
    rfl

theorem takeJob_withPast (past : List AMREvent) (job : TransportJob) (a : AMRSim) :
    (a.withPast past).takeJob job = (a.takeJob job).withPast past := by
  by_cases h : a.IsFree
  · have h' : (a.withPast past).IsFree := h
    unfold takeJob
    dsimp only
    rw [if_pos (show IsFree { a with history := .committed job :: a.history } from h),
      if_pos (show IsFree { a.withPast past with
        history := .committed job :: (a.withPast past).history } from h'), ← startJob_withPast]
    rfl
  · have h' : ¬ (a.withPast past).IsFree := h
    unfold takeJob
    dsimp only
    rw [if_neg (show ¬ IsFree { a with history := .committed job :: a.history } from h),
      if_neg (show ¬ IsFree { a.withPast past with
        history := .committed job :: (a.withPast past).history } from h')]
    rfl

theorem cancelJob_withPast (past : List AMREvent) (orderId : String) (a : AMRSim) :
    (a.withPast past).cancelJob orderId = (a.cancelJob orderId).withPast past := by
  unfold cancelJob
  by_cases h : orderId = a.pendingOrderId ∨ orderId = a.carryingOrderId
  · have h' : orderId = (a.withPast past).pendingOrderId ∨
        orderId = (a.withPast past).carryingOrderId := h
    dsimp only
    rw [if_pos h, if_pos h']
    rfl
  · have h' : ¬ (orderId = (a.withPast past).pendingOrderId ∨
        orderId = (a.withPast past).carryingOrderId) := h
    dsimp only
    rw [if_neg h, if_neg h']
    rfl

theorem finishLeg_withPast (past : List AMREvent) (a : AMRSim) :
    (a.withPast past).finishLeg = a.finishLeg.withPast past := by
  unfold finishLeg
  rw [apply_ite (withPast past), apply_ite (withPast past)]
  rfl

theorem startQueued_withPast (past : List AMREvent) (a : AMRSim) :
    (a.withPast past).startQueued = a.startQueued.withPast past := by
  by_cases h : a.destinations = [] ∧ a.IsFree
  · have h' : (a.withPast past).destinations = [] ∧ (a.withPast past).IsFree := h
    unfold startQueued
    rw [if_pos h, if_pos h']
    rcases hq : a.jobQueue with _ | ⟨job, rest⟩
    · rw [show (a.withPast past).jobQueue = [] from hq]
    · rw [show (a.withPast past).jobQueue = job :: rest from hq]
      exact startJob_withPast past job { a with jobQueue := rest }
  · have h' : ¬ ((a.withPast past).destinations = [] ∧ (a.withPast past).IsFree) := h
    unfold startQueued
    rw [if_neg h, if_neg h']

theorem popDest_withPast (past : List AMREvent) (a : AMRSim) :
    (a.withPast past).popDest = (a.popDest.1, a.popDest.2.withPast past) := by
  unfold popDest
  rw [show (a.withPast past).pendingDest = a.pendingDest from rfl,
    show (a.withPast past).destinations = a.destinations from rfl]
  rcases a.pendingDest with _ | d
  · rcases a.destinations with _ | ⟨d, ds⟩ <;> rfl
  · rfl

theorem legTarget_withPast (past : List AMREvent) (popped : Option String) (a : AMRSim) :
    (a.withPast past).legTarget popped
      = ((a.legTarget popped).1, (a.legTarget popped).2.withPast past) := by
  unfold legTarget
  rcases popped.bind stationCell with _ | c <;> rfl

theorem denyLeg_withPast (past : List AMREvent) (popped : Option String) (a : AMRSim) :
    (a.withPast past).denyLeg popped = (a.denyLeg popped).withPast past := by
  unfold denyLeg
  dsimp only
  rw [apply_ite (withPast past)]
  rfl

theorem planLeg_withPast (past : List AMREvent) (r : Reservations) (a : AMRSim) :
    planLeg pq g r (a.withPast past)
      = ((planLeg pq g r a).1, (planLeg pq g r a).2.withPast past) := by
  unfold planLeg
  rw [popDest_withPast]
  dsimp only
  rw [legTarget_withPast]
  dsimp only
  rw [show ((a.popDest.2.legTarget a.popDest.1).2.withPast past).amrId
      = (a.popDest.2.legTarget a.popDest.1).2.amrId from rfl,
    show ((a.popDest.2.legTarget a.popDest.1).2.withPast past).cell
      = (a.popDest.2.legTarget a.popDest.1).2.cell from rfl]
  rcases spaceTimeAStar g r _ pq _ _ with _ | _ | ⟨c, p⟩
  · rw [denyLeg_withPast]
  · rw [denyLeg_withPast]
  · rfl

theorem advance_withPast (past : List AMREvent) (dt : ℚ) (a : AMRSim) :
    (a.withPast past).advance dt = (a.advance dt).withPast past := by
  unfold advance
  rw [show (a.withPast past).path[(a.withPast past).pathIndex]? = a.path[a.pathIndex]? from rfl]
  rcases a.path[a.pathIndex]? with _ | target
  · rfl
  · dsimp only
    rw [apply_ite (withPast past)]
    rfl

theorem repair_withPast (past : List AMREvent) (dt : ℚ) (a : AMRSim) :
    (a.withPast past).repair dt = (a.repair dt).withPast past := by
  unfold repair
  rw [apply_ite (withPast past)]
  rfl

/-- **A tick does not read the history.** -/
theorem stepAMR_withPast (past : List AMREvent) (mtbf : Option ℚ) (draw : ℚ × ℚ) (dt : ℚ)
    (r : Reservations) (a : AMRSim) :
    (a.withPast past).stepAMR pq g mtbf draw dt r
      = ((a.stepAMR pq g mtbf draw dt r).1, (a.stepAMR pq g mtbf draw dt r).2.withPast past) := by
  unfold stepAMR
  rw [repair_withPast, advance_withPast, finishLeg_withPast, startQueued_withPast,
    planLeg_withPast]
  by_cases hdown : 0 < a.downtimeRemainingS
  · rw [if_pos hdown, if_pos (show 0 < (a.withPast past).downtimeRemainingS from hdown)]
  rw [if_neg hdown, if_neg (show ¬ 0 < (a.withPast past).downtimeRemainingS from hdown)]
  by_cases hfail : a.FailsThisTick mtbf draw.1 dt
  · rw [if_pos hfail, if_pos (show (a.withPast past).FailsThisTick mtbf draw.1 dt from hfail)]
    rfl
  rw [if_neg hfail, if_neg (show ¬ (a.withPast past).FailsThisTick mtbf draw.1 dt from hfail)]
  by_cases hdwell : 0 < a.dwellRemaining
  · rw [if_pos hdwell, if_pos (show 0 < (a.withPast past).dwellRemaining from hdwell)]
    rfl
  rw [if_neg hdwell, if_neg (show ¬ 0 < (a.withPast past).dwellRemaining from hdwell)]
  by_cases hdone : a.PathDone
  · rw [if_pos hdone, if_pos (show (a.withPast past).PathDone from hdone)]
  · rw [if_neg hdone, if_neg (show ¬ (a.withPast past).PathDone from hdone)]

end AMRSim

namespace AMRArtifact

variable {pq : PriorityQueue STNode STNode.Le}

/-- The fleet with older events before the histories, one list for each AMR. -/
def pastFleet (past : ℕ → List AMREvent) (fleet : List AMRSim) : List AMRSim :=
  fleet.mapIdx fun i a => a.withPast (past i)

/-- The artifact with older events before the histories of its AMRs. -/
def withPast (past : ℕ → List AMREvent) (s : AMRArtifact) : AMRArtifact :=
  { s with fleet := pastFleet past s.fleet }

theorem getElem?_pastFleet (past : ℕ → List AMREvent) (fleet : List AMRSim) (i : ℕ) :
    (pastFleet past fleet)[i]? = fleet[i]?.map (AMRSim.withPast (past i)) :=
  List.getElem?_mapIdx

/-- What does not read a history is the same for both fleets. -/
theorem map_pastFleet {β : Type*} (f : AMRSim → β)
    (hf : ∀ past a, f (AMRSim.withPast past a) = f a) (past : ℕ → List AMREvent)
    (fleet : List AMRSim) : (pastFleet past fleet).map f = fleet.map f := by
  refine List.ext_getElem? fun i => ?_
  rw [List.getElem?_map, List.getElem?_map, getElem?_pastFleet, Option.map_map]
  exact congrFun (congrArg Option.map (funext fun a => hf _ a)) _

theorem pastFleet_map (past : ℕ → List AMREvent) {f : AMRSim → AMRSim}
    (hf : ∀ past a, f (AMRSim.withPast past a) = (f a).withPast past) (fleet : List AMRSim) :
    (pastFleet past fleet).map f = pastFleet past (fleet.map f) := by
  refine List.ext_getElem? fun i => ?_
  rw [List.getElem?_map, getElem?_pastFleet, getElem?_pastFleet, List.getElem?_map,
    Option.map_map, Option.map_map]
  exact congrFun (congrArg Option.map (funext fun a => hf _ a)) _

theorem pastFleet_set (past : ℕ → List AMREvent) (fleet : List AMRSim) (i : ℕ) (a : AMRSim) :
    (pastFleet past fleet).set i (a.withPast (past i)) = pastFleet past (fleet.set i a) := by
  refine List.ext_getElem? fun j => ?_
  rw [getElem?_pastFleet, List.getElem?_set, List.getElem?_set, getElem?_pastFleet]
  have hlen : (pastFleet past fleet).length = fleet.length := List.length_mapIdx
  rw [hlen]
  by_cases hij : i = j
  · subst hij
    rw [if_pos rfl, if_pos rfl]
    split <;> rfl
  · rw [if_neg hij, if_neg hij]

theorem onAMR_withPast (past : ℕ → List AMREvent) (amrId : String) {f : AMRSim → AMRSim}
    (hf : ∀ past a, f (AMRSim.withPast past a) = (f a).withPast past) (s : AMRArtifact) :
    (s.withPast past).onAMR amrId f = (s.onAMR amrId f).withPast past := by
  unfold onAMR withPast
  dsimp only
  have hcomm : ∀ past a, (if (AMRSim.withPast past a).amrId = amrId then
      f (AMRSim.withPast past a) else AMRSim.withPast past a)
        = AMRSim.withPast past (if a.amrId = amrId then f a else a) := by
    intro past a
    rw [hf, AMRSim.withPast_amrId, apply_ite (AMRSim.withPast past)]
  rw [pastFleet_map past hcomm]

theorem leastLoaded_congr {fleet fleet' : List AMRSim}
    (h : fleet.map AMRSim.load = fleet'.map AMRSim.load) (i : ℕ) (best : Option (ℕ × ℕ)) :
    leastLoaded i best fleet = leastLoaded i best fleet' := by
  induction fleet generalizing fleet' i best with
  | nil =>
    obtain rfl : fleet' = [] := by simpa using h.symm
    rfl
  | cons a fleet ih =>
    rcases fleet' with _ | ⟨a', fleet'⟩
    · cases h
    · rw [List.map_cons, List.map_cons, List.cons.injEq] at h
      rcases best with _ | ⟨b, l⟩
      · rw [leastLoaded, leastLoaded, h.1]
        exact ih h.2 _ _
      · rw [leastLoaded, leastLoaded, h.1]
        exact ih h.2 _ _

theorem chosenAMR_withPast (past : ℕ → List AMREvent) (s : AMRArtifact) :
    (s.withPast past).chosenAMR = s.chosenAMR :=
  leastLoaded_congr (map_pastFleet AMRSim.load AMRSim.load_withPast past s.fleet) 0 none

theorem planningOrder_pastFleet (past : ℕ → List AMREvent) (fleet : List AMRSim) :
    planningOrder (pastFleet past fleet) = planningOrder fleet := by
  have hget : ∀ j : ℕ, ((pastFleet past fleet)[j]?.map (·.blockedTicks)).getD 0
      = (fleet[j]?.map (·.blockedTicks)).getD 0 := by
    intro j
    rw [getElem?_pastFleet, Option.map_map]
    rfl
  have hlen : (pastFleet past fleet).length = fleet.length := List.length_mapIdx
  simp only [planningOrder, hget, hlen]

theorem fleetNeed_congr {fleet fleet' : List AMRSim}
    (h : fleet.map (fun a => (a.status, a.secPerCell, a.dwellRemaining))
      = fleet'.map fun a => (a.status, a.secPerCell, a.dwellRemaining)) :
    fleetNeed fleet = fleetNeed fleet' := by
  induction fleet generalizing fleet' with
  | nil =>
    obtain rfl : fleet' = [] := by simpa using h.symm
    rfl
  | cons a fleet ih =>
    rcases fleet' with _ | ⟨a', fleet'⟩
    · cases h
    · rw [List.map_cons, List.map_cons, List.cons.injEq, Prod.mk.injEq, Prod.mk.injEq] at h
      obtain ⟨⟨hstatus, hspeed, hdwell⟩, hrest⟩ := h
      rw [fleetNeed, fleetNeed, hstatus, hspeed, hdwell, ih hrest]

section Loop

variable {g : Grid} {mtbf : Option ℚ} {draws : ℕ → ℚ × ℚ} {dt : ℚ}

theorem stepAt_withPast (past : ℕ → List AMREvent) (i : ℕ) (r : Reservations)
    (fleet : List AMRSim) :
    stepAt pq g mtbf draws dt i (r, pastFleet past fleet)
      = ((stepAt pq g mtbf draws dt i (r, fleet)).1,
        pastFleet past (stepAt pq g mtbf draws dt i (r, fleet)).2) := by
  unfold stepAt
  dsimp only
  rw [getElem?_pastFleet]
  rcases fleet[i]? with _ | a
  · rfl
  · dsimp only [Option.map_some]
    rw [AMRSim.stepAMR_withPast, pastFleet_set]

theorem runSteps_withPast (past : ℕ → List AMREvent) (order : List ℕ) (r : Reservations)
    (fleet : List AMRSim) :
    Runs.run (stepAt pq g mtbf draws dt) order (r, pastFleet past fleet)
      = ((Runs.run (stepAt pq g mtbf draws dt) order (r, fleet)).1,
        pastFleet past (Runs.run (stepAt pq g mtbf draws dt) order (r, fleet)).2) := by
  induction order generalizing r fleet with
  | nil => rfl
  | cons i order ih => rw [Runs.run_cons, Runs.run_cons, stepAt_withPast, ih]

end Loop

variable (pq) in
/-- **The histories are only ever extended**: no operation reads what they held. -/
theorem exec_withPast (past : ℕ → List AMREvent) {op : AMROp} (hop : op.IsTransport)
    (s : AMRArtifact) : exec pq op (s.withPast past) = (exec pq op s).withPast past := by
  cases op with
  | setMtbfSeconds m => rfl
  | clearExpiredReservations => rfl
  | reserveTrajectory amrId goal => exact hop.elim
  | triggerBreakdown amrId d => exact onAMR_withPast past amrId (fun _ _ => rfl) s
  | requestTransport amrId job =>
    exact onAMR_withPast past amrId (fun past a => a.takeJob_withPast past job) s
  | cancelTransport amrId orderId =>
    exact onAMR_withPast past amrId (fun past a => a.cancelJob_withPast past orderId) s
  | reserveTransport job =>
    simp only [exec, reserveTransport, chosenAMR_withPast]
    rcases s.chosenAMR with _ | ⟨i, l⟩
    · rfl
    · dsimp only [withPast]
      congr 1
      refine List.ext_getElem? fun j => ?_
      rw [List.getElem?_modify, getElem?_pastFleet, getElem?_pastFleet, List.getElem?_modify]
      rcases s.fleet[j]? with _ | a
      · rfl
      · by_cases hij : i = j
        · simp [hij, AMRSim.takeJob_withPast]
        · simp [hij]
  | updatePositions simTime dt draws =>
    simp only [exec, updatePositions, withPast, planningOrder_pastFleet, runSteps_withPast]
    congr 1
    · rw [map_pastFleet (fun a => (a.amrId, a.cell)) fun _ _ => rfl]
    · rw [fleetNeed_congr (map_pastFleet _ (fun _ _ => rfl) past _)]

theorem run_withPast (past : ℕ → List AMREvent) {ops : List AMROp}
    (hops : ∀ op ∈ ops, op.IsTransport) (s : AMRArtifact) :
    Runs.run (exec pq) ops (s.withPast past) = (Runs.run (exec pq) ops s).withPast past := by
  induction ops generalizing s with
  | nil => rfl
  | cons op ops ih =>
    rw [Runs.run_cons, Runs.run_cons, exec_withPast pq past (hops op List.mem_cons_self),
      ih fun op hop => hops op (List.mem_cons_of_mem _ hop)]

end AMRArtifact

/-! ## The fleet that never had the job -/

namespace AMRSim

/-- The test of `cancelTransport` for the job in progress. -/
def OnOrder (orderId : String) (a : AMRSim) : Prop :=
  orderId = a.pendingOrderId ∨ orderId = a.carryingOrderId

instance (orderId : String) (a : AMRSim) : Decidable (a.OnOrder orderId) := by
  unfold OnOrder; infer_instance

/-- The AMR on the same cell without the order's jobs: with the job in progress goes all
that it drives by.  Its pause, its status and its count of blocked ticks, which an AMR
has with or without a job, are kept. -/
def withoutJob (orderId : String) (a : AMRSim) : AMRSim :=
  let a := { a with jobQueue := a.jobQueue.filter (·.orderId ≠ orderId) }
  if a.OnOrder orderId then
    { a with
      destinations := []
      pendingDest := none
      progress := 0
      path := []
      pathIndex := 0
      carryingOrderId := ""
      pendingOrderId := "" }
  else a

theorem withoutJob_on {orderId : String} {a : AMRSim} (h : a.OnOrder orderId) :
    a.withoutJob orderId =
      { a with
        jobQueue := a.jobQueue.filter (·.orderId ≠ orderId)
        destinations := []
        pendingDest := none
        progress := 0
        path := []
        pathIndex := 0
        carryingOrderId := ""
        pendingOrderId := "" } :=
  if_pos h

theorem withoutJob_off {orderId : String} {a : AMRSim} (h : ¬ a.OnOrder orderId) :
    a.withoutJob orderId = { a with jobQueue := a.jobQueue.filter (·.orderId ≠ orderId) } :=
  if_neg h

/-- A cancel clears less: the retained destination and the progress stay. -/
theorem cancelJob_on {orderId : String} {a : AMRSim} (h : a.OnOrder orderId) :
    ∃ event, a.cancelJob orderId =
      { a.withoutJob orderId with
        pendingDest := a.pendingDest
        progress := a.progress
        history := event :: a.history } := by
  refine ⟨.cancelled orderId
    (a.jobQueue.length - (a.jobQueue.filter (·.orderId ≠ orderId)).length + 1), ?_⟩
  rw [withoutJob_on h]
  exact if_pos h

theorem cancelJob_off {orderId : String} {a : AMRSim} (h : ¬ a.OnOrder orderId) :
    ∃ event, a.cancelJob orderId =
      { a.withoutJob orderId with history := event :: a.history } := by
  refine ⟨.cancelled orderId
    (a.jobQueue.length - (a.jobQueue.filter (·.orderId ≠ orderId)).length), ?_⟩
  rw [withoutJob_off h]
  exact if_neg h

/-- The AMR without a history. -/
def forget (a : AMRSim) : AMRSim := { a with history := [] }

theorem forget_withPast (a : AMRSim) : a.forget.withPast a.history = a := rfl

end AMRSim

namespace Reservations

/-- The table without what an AMR holds ahead, and without the given edges. -/
def release (amrId : String) (keys : List ℕ) (r : Reservations) : Reservations where
  reservedBy c t := if t ≠ 0 ∧ r.reservedBy c t = some amrId then none else r.reservedBy c t
  edgeReservations := r.edgeReservations.filter (· ∉ keys)

/-- The AMR holds nothing ahead, and none of the edges is recorded. -/
def Released (amrId : String) (keys : List ℕ) (r : Reservations) : Prop :=
  (∀ c t, t ≠ 0 → r.reservedBy c t ≠ some amrId) ∧ ∀ k ∈ keys, k ∉ r.edgeReservations

theorem release_eq_self_iff {amrId : String} {keys : List ℕ} {r : Reservations} :
    r.release amrId keys = r ↔ r.Released amrId keys := by
  constructor
  · intro h
    refine ⟨fun c t ht hheld => ?_, fun k hk hmem => ?_⟩
    · have hcell := congrFun (congrFun (congrArg reservedBy h) c) t
      simp only [release] at hcell
      rw [if_pos ⟨ht, hheld⟩, hheld] at hcell
      cases hcell
    · rw [← congrArg edgeReservations h] at hmem
      have := List.of_mem_filter hmem
      simp [hk] at this
  · rintro ⟨hcells, hkeys⟩
    have hcell : (r.release amrId keys).reservedBy = r.reservedBy := by
      funext c t
      exact if_neg fun h => hcells c t h.1 h.2
    have hedge : (r.release amrId keys).edgeReservations = r.edgeReservations :=
      List.filter_eq_self.mpr fun k hk => by simpa using fun h => hkeys k h hk
    calc r.release amrId keys
        = ⟨(r.release amrId keys).reservedBy, (r.release amrId keys).edgeReservations⟩ := rfl
      _ = r := by rw [hcell, hedge]

end Reservations

namespace AMRArtifact

/-- The fleet in which the AMR stands on the same cell without having had the order's
jobs; `keys` are the edges recorded for the legs of the job in progress. -/
def withoutJob (amrId orderId : String) (keys : List ℕ) (s : AMRArtifact) : AMRArtifact :=
  { s.onAMR amrId (·.withoutJob orderId) with
    reservations :=
      if ∃ a ∈ s.fleet, a.amrId = amrId ∧ a.OnOrder orderId then
        s.reservations.release amrId keys
      else s.reservations }

/-- The job in progress has left no trace beyond what `cancelTransport` clears. -/
def NoTrace (amrId orderId : String) (keys : List ℕ) (s : AMRArtifact) : Prop :=
  ∀ a ∈ s.fleet, a.amrId = amrId → a.OnOrder orderId →
    a.pendingDest = none ∧ a.progress = 0 ∧ s.reservations.Released amrId keys

/-- The history of the AMR number `i`. -/
def past (s : AMRArtifact) (i : ℕ) : List AMREvent := (s.fleet[i]?.map (·.history)).getD []

/-- `t₁`, reached from `s₁`, and `t₂`, reached from `s₂`, are the same state, and the same
events have been recorded since. -/
def SameSince (s₁ s₂ t₁ t₂ : AMRArtifact) : Prop :=
  ∃ t : AMRArtifact, t₁ = t.withPast s₁.past ∧ t₂ = t.withPast s₂.past

/-- The artifact without histories. -/
def forget (s : AMRArtifact) : AMRArtifact := { s with fleet := s.fleet.map AMRSim.forget }

theorem forget_withPast (s : AMRArtifact) : s.forget.withPast s.past = s := by
  have hfleet : pastFleet s.past (s.fleet.map AMRSim.forget) = s.fleet := by
    refine List.ext_getElem? fun i => ?_
    rw [getElem?_pastFleet, List.getElem?_map, past]
    rcases s.fleet[i]? with _ | a <;> rfl
  unfold forget withPast
  dsimp only
  rw [hfleet]

/-- Where the job has left no trace, the cancelled fleet is the one without the job. -/
theorem NoTrace.forget_eq {s : AMRArtifact} {amrId orderId : String} {keys : List ℕ}
    (h : s.NoTrace amrId orderId keys) :
    (s.cancelTransport amrId orderId).forget = (s.withoutJob amrId orderId keys).forget := by
  have hres : (s.withoutJob amrId orderId keys).reservations = s.reservations := by
    unfold withoutJob
    dsimp only
    split
    · next hany =>
      obtain ⟨a, ha, hid, hon⟩ := hany
      exact Reservations.release_eq_self_iff.mpr (h a ha hid hon).2.2
    · rfl
  have hfleet : (s.cancelTransport amrId orderId).fleet.map AMRSim.forget
      = (s.withoutJob amrId orderId keys).fleet.map AMRSim.forget := by
    unfold cancelTransport withoutJob onAMR
    rw [List.map_map, List.map_map]
    refine List.map_congr_left fun a ha => ?_
    dsimp only [Function.comp_apply]
    by_cases hid : a.amrId = amrId
    · rw [if_pos hid, if_pos hid]
      by_cases hon : a.OnOrder orderId
      · obtain ⟨hpend, hprog, -⟩ := h a ha hid hon
        obtain ⟨event, hcancel⟩ := AMRSim.cancelJob_on hon
        rw [hcancel, AMRSim.withoutJob_on hon, hpend, hprog]
        rfl
      · obtain ⟨event, hcancel⟩ := AMRSim.cancelJob_off hon
        rw [hcancel]
        rfl
    · rw [if_neg hid, if_neg hid]
  unfold forget
  rw [hfleet, hres]
  rfl

theorem noTrace_of_same {s : AMRArtifact} {amrId orderId : String} {keys : List ℕ}
    {t : AMRArtifact} {p₁ p₂ : ℕ → List AMREvent}
    (h₁ : s.cancelTransport amrId orderId = t.withPast p₁)
    (h₂ : s.withoutJob amrId orderId keys = t.withPast p₂) : s.NoTrace amrId orderId keys := by
  intro a ha hid hon
  have hres : s.reservations.release amrId keys = s.reservations := by
    have hwithout : (s.withoutJob amrId orderId keys).reservations
        = s.reservations.release amrId keys := if_pos ⟨a, ha, hid, hon⟩
    rw [← hwithout, h₂]
    exact (congrArg reservations h₁).symm
  obtain ⟨i, hi⟩ := List.mem_iff_getElem?.mp ha
  have hcancel : (s.cancelTransport amrId orderId).fleet[i]? = some (a.cancelJob orderId) := by
    rw [cancelTransport, onAMR_fleet amrId _ s hi, if_pos hid]
  have hwithout : (s.withoutJob amrId orderId keys).fleet[i]?
      = some (a.withoutJob orderId) := by
    have h := onAMR_fleet amrId (·.withoutJob orderId) s hi
    rw [if_pos hid] at h
    exact h
  rw [h₁] at hcancel
  rw [h₂] at hwithout
  have hget₁ := (getElem?_pastFleet p₁ t.fleet i).symm.trans hcancel
  have hget₂ := (getElem?_pastFleet p₂ t.fleet i).symm.trans hwithout
  obtain ⟨c, hc, hc₁⟩ := Option.map_eq_some_iff.mp hget₁
  rw [hc] at hget₂
  have hc₂ := Option.some.inj hget₂
  have hsame : ∀ {β : Type} (f : AMRSim → β), (∀ past b, f (AMRSim.withPast past b) = f b) →
      f (a.cancelJob orderId) = f (a.withoutJob orderId) := by
    intro β f hf
    rw [← hc₁, ← hc₂, hf, hf]
  have hcleared : (a.withoutJob orderId).pendingDest = none ∧
      (a.withoutJob orderId).progress = 0 := by
    rw [AMRSim.withoutJob_on hon]
    exact ⟨rfl, rfl⟩
  have hkept : (a.cancelJob orderId).pendingDest = a.pendingDest ∧
      (a.cancelJob orderId).progress = a.progress := by
    obtain ⟨event, hevent⟩ := AMRSim.cancelJob_on hon
    rw [hevent]
    exact ⟨rfl, rfl⟩
  refine ⟨?_, ?_, Reservations.release_eq_self_iff.mp hres⟩
  · rw [← hkept.1, hsame (·.pendingDest) fun _ _ => rfl, hcleared.1]
  · rw [← hkept.2, hsame (·.progress) fun _ _ => rfl, hcleared.2]

/-- A delivery to station_1 with a job from there queued behind it: the AMR already
stands on the pickup cell, so the leg is denied and its destination retained. -/
def deniedAtPickup : List AMROp :=
  [AMROp.requestTransport "AMR-1" ⟨"start", "station_1", "ORD-1"⟩,
    .requestTransport "AMR-1" ⟨"station_1", "station_2", "ORD-2"⟩] ++
  List.replicate 14 (AMROp.updatePositions 0 1 fun _ => (0, 0))

end AMRArtifact

end MatrixFactory
