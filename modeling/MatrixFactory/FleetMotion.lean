/-
# The motion of the fleet

`publishSnapshot` reports for every AMR the cell it stands on, the cell it is entering and the
progress between the two; `init` and every tick publish a snapshot of the fleet.

Whatever the operations are, what an AMR has still to drive is a walk of unit moves and waits that
begins at its cell and does not leave the grid.  So the reported cells are neighbours on the grid,
and from one snapshot to the next an AMR moves by one cell at most.
-/
import MatrixFactory.Collision
import MatrixFactory.ConflictFree

namespace MatrixFactory

variable {pq : PriorityQueue STNode STNode.Le} {g : Grid}

/-! ## Walks -/

/-- A walk of unit moves and waits inside the grid, from `c` on. -/
def Walk (g : Grid) : Cell → List Cell → Prop
  | _, [] => True
  | c, c' :: p => UnitStep c c' ∧ g.InBounds c' ∧ Walk g c' p

theorem unitStep_refl (c : Cell) : UnitStep c c := by
  simp [UnitStep]

theorem TimedPath.walk {r : Reservations} {amrId : String} {c : Cell} {t : ℕ} {p : List Cell}
    (h : TimedPath g r amrId c t p) : Walk g c p := by
  induction p generalizing c t with
  | nil => trivial
  | cons c' p ih =>
    obtain ⟨-, hmove, hrest⟩ := h
    exact ⟨unitStep_iff.mpr hmove.1, hmove.2.1, ih hrest⟩

/-! ## An AMR on its route -/

namespace AMRSim

/-- What is left of the path. -/
def rest (a : AMRSim) : List Cell := a.path.drop a.pathIndex

/-- What the motion of an AMR depends on. -/
def motion (a : AMRSim) : Cell × Cell × List Cell × ℚ × ℚ :=
  (a.cell, a.next, a.rest, a.progress, a.secPerCell)

/-- The rest of the path is a walk from the cell of the AMR, and the AMR is on its way to a
neighbour. -/
structure OnRoute (g : Grid) (a : AMRSim) : Prop where
  cell : g.InBounds a.cell
  next : g.InBounds a.next
  entering : UnitStep a.cell a.next
  walk : Walk g a.cell a.rest
  progress_nonneg : 0 ≤ a.progress
  progress_lt : a.progress < 1
  speed : 0 < a.secPerCell

variable {a a' : AMRSim}

theorem OnRoute.of_motion (h : OnRoute g a) (heq : a'.motion = a.motion) : OnRoute g a' := by
  simp only [motion, Prod.mk.injEq] at heq
  obtain ⟨hcell, hnext, hrest, hprogress, hspeed⟩ := heq
  constructor
  · rw [hcell]; exact h.cell
  · rw [hnext]; exact h.next
  · rw [hcell, hnext]; exact h.entering
  · rw [hcell, hrest]; exact h.walk
  · rw [hprogress]; exact h.progress_nonneg
  · rw [hprogress]; exact h.progress_lt
  · rw [hspeed]; exact h.speed

/-- An AMR that gives up its path stays where it is. -/
theorem OnRoute.halt (h : OnRoute g a) (hcell : a'.cell = a.cell) (hnext : a'.next = a.next)
    (hpath : a'.path = []) (hprogress : a'.progress = a.progress ∨ a'.progress = 0)
    (hspeed : a'.secPerCell = a.secPerCell) : OnRoute g a' where
  cell := hcell ▸ h.cell
  next := hnext ▸ h.next
  entering := by rw [hcell, hnext]; exact h.entering
  walk := by simp [rest, hpath, Walk]
  progress_nonneg := by
    rcases hprogress with hp | hp
    · exact hp ▸ h.progress_nonneg
    · exact hp.ge
  progress_lt := by
    rcases hprogress with hp | hp
    · exact hp ▸ h.progress_lt
    · rw [hp]; exact one_pos
  speed := hspeed ▸ h.speed

theorem OnRoute.startJob (h : OnRoute g a) (job : TransportJob) : OnRoute g (a.startJob job) := by
  by_cases hfrom : job.fromStation = "start"
  · rw [startJob_start hfrom]
    exact h.halt rfl rfl rfl (Or.inr rfl) rfl
  · rw [startJob_pickup hfrom]
    exact h.halt rfl rfl rfl (Or.inr rfl) rfl

theorem motion_finishLeg (a : AMRSim) : a.finishLeg.motion = a.motion := by
  unfold finishLeg
  (repeat' split) <;> rfl

theorem motion_planned (a : AMRSim) : a.planned.2.motion = a.motion := by
  unfold planned legTarget popDest
  (repeat' split) <;> rfl

theorem OnRoute.startQueued (h : OnRoute g a) : OnRoute g a.startQueued := by
  unfold AMRSim.startQueued
  split
  · split
    · exact h
    · next job queue _ =>
      exact OnRoute.startJob (a := { a with jobQueue := queue }) (h.of_motion rfl) job
  · exact h

/-- A planned leg: a granted one is a walk, a denied one is empty. -/
theorem OnRoute.planLeg (h : OnRoute g a) (r : Reservations) :
    OnRoute g (AMRSim.planLeg pq g r a).2 := by
  have hp : OnRoute g a.planned.2 := h.of_motion (motion_planned a)
  have hcell : a.planned.2.cell = a.cell := congrArg Prod.fst (motion_planned a)
  rcases planLeg_cases pq g r a with ⟨path, -, htimed, -, -, heq⟩ | ⟨-, heq⟩ <;> rw [heq]
  · refine ⟨hp.cell, hp.next, hp.entering, ?_, hp.progress_nonneg, hp.progress_lt, hp.speed⟩
    show Walk g a.planned.2.cell (path.drop 0)
    rw [hcell, List.drop_zero]
    exact htimed.walk
  · rw [denyLeg_eq]
    exact hp.halt rfl rfl rfl (Or.inl rfl) rfl

theorem rest_of_getElem? {c : Cell} (h : a.path[a.pathIndex]? = some c) :
    a.rest = c :: a.path.drop (a.pathIndex + 1) := by
  obtain ⟨hlt, hc⟩ := List.getElem?_eq_some_iff.mp h
  rw [rest, List.drop_eq_getElem_cons hlt, hc]

/-- The next cell of the path is a neighbour on the grid, and the walk goes on from there. -/
theorem OnRoute.target (h : OnRoute g a) {c : Cell} (hc : a.path[a.pathIndex]? = some c) :
    UnitStep a.cell c ∧ g.InBounds c ∧ Walk g c (a.path.drop (a.pathIndex + 1)) := by
  have hwalk := h.walk
  rw [rest_of_getElem? hc] at hwalk
  exact hwalk

theorem OnRoute.advance (h : OnRoute g a) {dt : ℚ} (hdt : 0 ≤ dt) : OnRoute g (a.advance dt) := by
  unfold AMRSim.advance
  split
  · exact h
  · next c hc =>
    obtain ⟨hstep, hin, hwalk⟩ := h.target hc
    dsimp only
    split
    · exact ⟨hin, hin, unitStep_refl c, hwalk, le_rfl, one_pos, h.speed⟩
    · next hprogress =>
      refine ⟨h.cell, hin, hstep, h.walk, ?_, not_le.mp hprogress, h.speed⟩
      exact add_nonneg h.progress_nonneg (div_nonneg hdt h.speed.le)

/-- **A step keeps the AMR on its route.** -/
theorem OnRoute.stepAMR (h : OnRoute g a) (mtbf : Option ℚ) (draw : ℚ × ℚ) {dt : ℚ} (hdt : 0 ≤ dt)
    (r : Reservations) : OnRoute g (a.stepAMR pq g mtbf draw dt r).2 := by
  rcases stepAMR_cases pq g mtbf draw dt r a with
    heq | heq | heq | ⟨-, -, -, heq⟩ | ⟨-, -, -, heq⟩ <;> rw [heq]
  · refine h.of_motion ?_
    unfold repair
    split <;> rfl
  · exact h.of_motion rfl
  · exact h.of_motion rfl
  · exact (OnRoute.startQueued (h.of_motion (motion_finishLeg a))).planLeg r
  · exact h.advance hdt

/-- A step moves an AMR by one cell at most. -/
theorem OnRoute.unitStep (h : OnRoute g a) (mtbf : Option ℚ) (draw : ℚ × ℚ) (dt : ℚ)
    (r : Reservations) : UnitStep a.cell (a.stepAMR pq g mtbf draw dt r).2.cell := by
  by_cases hmove : ∃ c, a.CompletesEdge mtbf draw.1 dt c
  · obtain ⟨c, hc⟩ := hmove
    rw [cell_stepAMR_of_completes hc]
    exact (h.target hc.2.2.2.1).1
  · rw [cell_stepAMR_of_not (not_exists.mp hmove)]
    exact unitStep_refl _

/-! ## Breakdowns -/

/-- Broken down means blocked. -/
def BrokenBlocked (a : AMRSim) : Prop := 0 < a.downtimeRemainingS → a.status = .blocked

/-- What a breakdown leaves as it is. -/
def frozen (a : AMRSim) :=
  (a.amrId, a.motion, a.dwellRemaining, a.destinations, a.carryingOrderId, a.pendingOrderId,
    a.pendingDest, a.blockedTicks, a.completedJobCount)

theorem health_startJob (job : TransportJob) (a : AMRSim) :
    (a.startJob job).downtimeRemainingS = a.downtimeRemainingS ∧
      (a.startJob job).status = a.status := by
  by_cases h : job.fromStation = "start"
  · rw [startJob_start h]
    exact ⟨rfl, rfl⟩
  · rw [startJob_pickup h]
    exact ⟨rfl, rfl⟩

theorem downtime_planLeg (r : Reservations) (a : AMRSim) :
    (AMRSim.planLeg pq g r a.finishLeg.startQueued).2.downtimeRemainingS =
      a.downtimeRemainingS := by
  have hfinish : a.finishLeg.downtimeRemainingS = a.downtimeRemainingS := by
    unfold finishLeg
    (repeat' split) <;> rfl
  have hstart : a.finishLeg.startQueued.downtimeRemainingS = a.downtimeRemainingS := by
    rw [← hfinish]
    unfold startQueued
    split
    · split
      · rfl
      · exact (health_startJob _ _).1
    · rfl
  have hplanned : a.finishLeg.startQueued.planned.2.downtimeRemainingS = a.downtimeRemainingS := by
    rw [← hstart]
    unfold planned legTarget popDest
    (repeat' split) <;> rfl
  rcases planLeg_cases pq g r a.finishLeg.startQueued with
    ⟨path, -, -, -, -, heq⟩ | ⟨-, heq⟩ <;> rw [heq]
  · exact hplanned
  · rw [denyLeg_eq]
    exact hplanned

theorem downtime_advance (dt : ℚ) (a : AMRSim) :
    (a.advance dt).downtimeRemainingS = a.downtimeRemainingS := by
  unfold advance
  split
  · rfl
  · dsimp only
    split <;> rfl

theorem BrokenBlocked.of_operational (h : a.downtimeRemainingS ≤ 0) : a.BrokenBlocked :=
  fun hpos => absurd hpos (not_lt.mpr h)

theorem stepAMR_broken (h : 0 < a.downtimeRemainingS) (mtbf : Option ℚ) (draw : ℚ × ℚ) (dt : ℚ)
    (r : Reservations) : a.stepAMR pq g mtbf draw dt r = (r, a.repair dt) :=
  if_pos h

theorem BrokenBlocked.stepAMR (h : a.BrokenBlocked) (mtbf : Option ℚ) (draw : ℚ × ℚ) (dt : ℚ)
    (r : Reservations) : (a.stepAMR pq g mtbf draw dt r).2.BrokenBlocked := by
  by_cases hpos : 0 < a.downtimeRemainingS
  · rw [stepAMR_broken hpos]
    unfold repair
    split
    · exact BrokenBlocked.of_operational le_rfl
    · exact fun _ => h hpos
  · have hoper := not_lt.mp hpos
    unfold AMRSim.stepAMR
    rw [if_neg hpos]
    split_ifs
    · exact fun _ => rfl
    · exact BrokenBlocked.of_operational hoper
    · exact BrokenBlocked.of_operational ((downtime_planLeg r a).trans_le hoper)
    · exact BrokenBlocked.of_operational ((downtime_advance dt a).trans_le hoper)

theorem BrokenBlocked.takeJob (h : a.BrokenBlocked) (job : TransportJob) :
    (a.takeJob job).BrokenBlocked := by
  unfold AMRSim.takeJob
  dsimp only
  split
  · next hfree =>
    obtain ⟨hdown, -, -⟩ := hfree
    exact BrokenBlocked.of_operational ((health_startJob _ _).1.trans_le hdown)
  · exact h

theorem BrokenBlocked.cancelJob (h : a.BrokenBlocked) (orderId : String) :
    (a.cancelJob orderId).BrokenBlocked := by
  unfold AMRSim.cancelJob
  dsimp only
  split <;> exact h

theorem OnRoute.takeJob (h : OnRoute g a) (job : TransportJob) : OnRoute g (a.takeJob job) := by
  unfold AMRSim.takeJob
  dsimp only
  split
  · exact OnRoute.startJob (a := { a with history := .committed job :: a.history })
      (h.of_motion rfl) job
  · exact h.of_motion rfl

theorem OnRoute.cancelJob (h : OnRoute g a) (orderId : String) :
    OnRoute g (a.cancelJob orderId) := by
  unfold AMRSim.cancelJob
  dsimp only
  split
  · exact h.halt rfl rfl rfl (Or.inl rfl) rfl
  · exact h.of_motion rfl

/-- What every AMR of a fleet keeps. -/
structure Sound (g : Grid) (a : AMRSim) : Prop where
  onRoute : OnRoute g a
  brokenBlocked : a.BrokenBlocked

theorem Sound.apply (h : Sound g a) {m : AMRMove}
    (hdt : ∀ mtbf draw dt r, m = .step mtbf draw dt r → 0 ≤ dt) : Sound g (m.apply pq g a) := by
  cases m with
  | stay => exact h
  | take job => exact ⟨h.onRoute.takeJob job, h.brokenBlocked.takeJob job⟩
  | cancel orderId => exact ⟨h.onRoute.cancelJob orderId, h.brokenBlocked.cancelJob orderId⟩
  | breakDown d => exact ⟨h.onRoute.of_motion rfl, fun _ => rfl⟩
  | step mtbf draw dt r =>
    exact ⟨h.onRoute.stepAMR mtbf draw (hdt _ _ _ _ rfl) r, h.brokenBlocked.stepAMR mtbf draw dt r⟩

/-- A trajectory handed to the AMR from outside is a walk from its cell. -/
theorem Sound.handed (h : Sound g a) {r : Reservations} {amrId : String} {path : List Cell}
    (hpath : TimedPath g r amrId a.cell 0 path) :
    Sound g { a with path := path, pathIndex := 0 } where
  onRoute :=
    ⟨h.onRoute.cell, h.onRoute.next, h.onRoute.entering, hpath.walk, h.onRoute.progress_nonneg,
      h.onRoute.progress_lt, h.onRoute.speed⟩
  brokenBlocked := h.brokenBlocked

theorem sound_initAMR {cols rows i : ℕ} (hrows : 0 < rows) (hi : 1 + i < cols) :
    Sound ⟨cols, rows⟩ (AMRArtifact.initAMR ⟨cols, rows⟩ i) where
  onRoute := by
    have hin : Grid.InBounds ⟨cols, rows⟩ ⟨1 + i, (rows : ℤ) - 1⟩ := by
      simp only [Grid.InBounds]
      omega
    exact ⟨hin, hin, unitStep_refl _, trivial, le_rfl, one_pos, by norm_num [AMRArtifact.initAMR]⟩
  brokenBlocked := fun h => absurd h (lt_irrefl _)

end AMRSim

/-! ## Snapshots -/

/-- `AMRSnapshot`; `cell` and `nextCell` stand for the coordinate pairs. -/
structure AMRSnapshot where
  amrId : String
  cell : Cell
  nextCell : Cell
  movementProgress : ℚ
  status : AMRStatus
  carryingOrderId : String
  breakdownActive : Bool
  deriving DecidableEq, Repr

/-- What a snapshot says can be drawn: two neighbours on the grid and a place between them. -/
structure AMRSnapshot.Drawable (g : Grid) (v : AMRSnapshot) : Prop where
  cell : g.InBounds v.cell
  nextCell : g.InBounds v.nextCell
  neighbours : UnitStep v.cell v.nextCell
  progress : 0 ≤ v.movementProgress ∧ v.movementProgress < 1
  broken : v.breakdownActive = true → v.status = .blocked

/-- The snapshot of an AMR. -/
def AMRSim.snapshot (a : AMRSim) : AMRSnapshot where
  amrId := a.amrId
  cell := a.cell
  nextCell := a.next
  movementProgress := a.progress
  status := a.status
  carryingOrderId := a.carryingOrderId
  breakdownActive := 0 < a.downtimeRemainingS

theorem AMRSim.Sound.drawable {a : AMRSim} (h : a.Sound g) : a.snapshot.Drawable g where
  cell := h.onRoute.cell
  nextCell := h.onRoute.next
  neighbours := h.onRoute.entering
  progress := ⟨h.onRoute.progress_nonneg, h.onRoute.progress_lt⟩
  broken hb := h.brokenBlocked (of_decide_eq_true hb)

/-- The time of a tick does not run backwards. -/
def AMROp.Forward : AMROp → Prop
  | .updatePositions _ dt _ => 0 ≤ dt
  | _ => True

instance : DecidablePred AMROp.Forward := fun op => by
  induction op using AMROp.casesOn <;> unfold AMROp.Forward <;> infer_instance

namespace AMRArtifact

/-- `publishSnapshot`. -/
def publishSnapshot (s : AMRArtifact) : List AMRSnapshot := s.fleet.map (·.snapshot)

variable (pq) in
/-- One operation on the artifact and its `currentPositions`: a tick publishes a new snapshot. -/
def execPublishing (op : AMROp) (x : AMRArtifact × List AMRSnapshot) :
    AMRArtifact × List AMRSnapshot :=
  (exec pq op x.1, if op.IsTick then (exec pq op x.1).publishSnapshot else x.2)

variable (pq) in
/-- What one operation does to one AMR. -/
theorem exec_one (op : AMROp) {s : AMRArtifact} {i : ℕ} {a : AMRSim} (ha : s.fleet[i]? = some a) :
    (∃ m, op.Allows a.amrId m ∧ (exec pq op s).fleet[i]? = some (m.apply pq s.grid a)) ∨
      ¬ op.IsTick ∧ (exec pq op s).fleet[i]? = some a ∨
      ¬ op.IsTick ∧ ∃ r amrId path, TimedPath s.grid r amrId a.cell 0 path ∧
        (exec pq op s).fleet[i]? = some { a with path := path, pathIndex := 0 } := by
  by_cases hop : op.IsTransport
  · exact Or.inl (exec_fleet pq hop ha)
  · obtain ⟨amrId, goal, rfl⟩ : ∃ amrId goal, op = .reserveTrajectory amrId goal := by
      cases op <;> first | exact ⟨_, _, rfl⟩ | exact absurd trivial hop
    refine Or.inr ?_
    simp only [exec, reserveTrajectory]
    split
    · exact Or.inl ⟨not_false, ha⟩
    · next j _ =>
      split
      · exact Or.inl ⟨not_false, ha⟩
      · next b hb =>
        split
        · exact Or.inl ⟨not_false, ha⟩
        · next path hpath =>
          by_cases hij : j = i
          · subst hij
            obtain rfl : b = a := Option.some.inj (hb.symm.trans ha)
            refine Or.inr ⟨not_false, _, _, path, (spaceTimeAStar_sound hpath).1, ?_⟩
            have hj := (List.getElem?_eq_some_iff.mp ha).1
            simp [hj]
          · exact Or.inl ⟨not_false, by simp [hij, ha]⟩

theorem step_of_allows {op : AMROp} (hop : op.Forward) {name : String} {m : AMRMove}
    (hm : op.Allows name m) : ∀ mtbf draw dt r, m = .step mtbf draw dt r → op.IsTick ∧ 0 ≤ dt := by
  rintro mtbf draw dt r rfl
  cases op with
  | updatePositions simTime dt' draws =>
    obtain ⟨mtbf', draw', r', heq⟩ := hm
    cases heq
    exact ⟨trivial, hop⟩
  | _ => simp [AMROp.Allows] at hm

/-- Every AMR is sound. -/
def FleetSound (s : AMRArtifact) : Prop := ∀ a ∈ s.fleet, a.Sound s.grid

variable (pq) in
/-- **One operation** keeps an AMR sound and its name, and moves it by one cell at most, if it is a
tick, and not at all otherwise. -/
theorem exec_sound {op : AMROp} (hop : op.Forward) {s : AMRArtifact} (hs : s.FleetSound) {i : ℕ}
    {a : AMRSim} (ha : s.fleet[i]? = some a) :
    ∃ a', (exec pq op s).fleet[i]? = some a' ∧ a'.Sound s.grid ∧ a'.amrId = a.amrId ∧
      UnitStep a.cell a'.cell ∧ (¬ op.IsTick → a'.cell = a.cell) := by
  have hsound := hs a (List.mem_of_getElem? ha)
  rcases exec_one pq op ha with ⟨m, hm, hget⟩ | ⟨-, hget⟩ | ⟨-, r, amrId, path, hpath, hget⟩
  · have hstep := step_of_allows hop hm
    refine ⟨_, hget, hsound.apply fun mtbf draw dt r h => (hstep mtbf draw dt r h).2,
      congrArg Prod.fst (AMRSim.static_apply m a), ?_, fun htick => AMRSim.cell_apply
        (fun mtbf draw dt r h => htick (hstep mtbf draw dt r h).1) a⟩
    by_cases hs : ∃ mtbf draw dt r, m = .step mtbf draw dt r
    · obtain ⟨mtbf, draw, dt, r, rfl⟩ := hs
      exact hsound.onRoute.unitStep mtbf draw dt r
    · rw [AMRSim.cell_apply fun mtbf draw dt r h => hs ⟨mtbf, draw, dt, r, h⟩]
      exact unitStep_refl _
  · exact ⟨a, hget, hsound, rfl, unitStep_refl _, fun _ => rfl⟩
  · exact ⟨_, hget, hsound.handed hpath, rfl, unitStep_refl _, fun _ => rfl⟩

variable (pq) in
theorem FleetSound.exec {op : AMROp} (hop : op.Forward) {s : AMRArtifact} (hs : s.FleetSound) :
    (AMRArtifact.exec pq op s).FleetSound := by
  intro a' ha'
  obtain ⟨i, hi, rfl⟩ := List.getElem_of_mem ha'
  have hi' : i < s.fleet.length := by rwa [length_exec] at hi
  obtain ⟨b, hb, hsound, -⟩ := exec_sound pq hop hs (List.getElem?_eq_getElem hi')
  rw [List.getElem?_eq_getElem hi] at hb
  rw [exec_grid, Option.some.inj hb]
  exact hsound

theorem fleetSound_init {cols rows count : ℕ} (hrows : 0 < rows) (hcount : count < cols)
    (mtbf : Option ℚ) : (init cols rows count mtbf).FleetSound := by
  intro a ha
  obtain ⟨i, hi, rfl⟩ := List.mem_map.mp ha
  exact AMRSim.sound_initAMR hrows (by have := List.mem_range.mp hi; omega)

/-! ## The published snapshots -/

/-- The current snapshot can be drawn and shows every AMR on its cell. -/
structure Published (x : AMRArtifact × List AMRSnapshot) : Prop where
  sound : x.1.FleetSound
  drawable : ∀ v ∈ x.2, v.Drawable x.1.grid
  current : x.2.map (fun v => (v.amrId, v.cell)) = x.1.fleet.map fun a => (a.amrId, a.cell)

theorem published_snapshot {s : AMRArtifact} (hs : s.FleetSound) :
    Published (s, s.publishSnapshot) where
  sound := hs
  drawable v hv := by
    obtain ⟨a, ha, rfl⟩ := List.mem_map.mp hv
    exact (hs a ha).drawable
  current := by simp [publishSnapshot, AMRSim.snapshot]

variable (pq) in
theorem Published.exec {op : AMROp} (hop : op.Forward) {x : AMRArtifact × List AMRSnapshot}
    (hx : Published x) : Published (execPublishing pq op x) := by
  have hsound := hx.sound.exec pq hop
  unfold execPublishing
  split
  · exact published_snapshot hsound
  · next htick =>
    refine ⟨hsound, ?_, hx.current.trans (List.ext_getElem? fun i => ?_)⟩
    · rw [exec_grid]
      exact hx.drawable
    · rw [List.getElem?_map, List.getElem?_map]
      rcases hi : x.1.fleet[i]? with _ | a
      · have hlen : (AMRArtifact.exec pq op x.1).fleet.length ≤ i := by
          rw [length_exec]
          exact List.getElem?_eq_none_iff.mp hi
        rw [List.getElem?_eq_none_iff.mpr hlen]
      · obtain ⟨a', ha', -, hname, -, hstay⟩ := exec_sound pq hop hx.sound hi
        rw [ha', Option.map_some, Option.map_some, hname, hstay htick]

/-- From one snapshot to the next an AMR moves by one cell at most. -/
theorem Published.unitStep {op : AMROp} (hop : op.Forward) {x : AMRArtifact × List AMRSnapshot}
    (hx : Published x) {i : ℕ} {v v' : AMRSnapshot} (hv : x.2[i]? = some v)
    (hv' : (execPublishing pq op x).2[i]? = some v') :
    v'.amrId = v.amrId ∧ UnitStep v.cell v'.cell := by
  have hcur := congrArg (·[i]?) hx.current
  have hcur' := congrArg (·[i]?) (hx.exec pq hop).current
  simp only [List.getElem?_map, hv, hv', Option.map_some] at hcur hcur'
  obtain ⟨a, ha, heq⟩ := Option.map_eq_some_iff.mp hcur.symm
  obtain ⟨a', ha', -, hname, hstep, -⟩ := exec_sound pq hop hx.sound ha
  have hget : (execPublishing pq op x).1.fleet[i]? = some a' := ha'
  rw [hget, Option.map_some, Option.some_inj, Prod.mk.injEq] at hcur'
  obtain ⟨hname₁, hcell₁⟩ := Prod.mk.injEq .. ▸ heq
  rw [hcur'.1, hcur'.2, hname, ← hname₁, ← hcell₁]
  exact ⟨rfl, hstep⟩

theorem published_run {ops : List AMROp} (hops : ∀ op ∈ ops, op.Forward)
    {x : AMRArtifact × List AMRSnapshot} (hx : Published x) :
    Published (Runs.run (execPublishing pq) ops x) := by
  induction ops generalizing x with
  | nil => exact hx
  | cons op ops ih =>
    exact ih (fun o ho => hops o (List.mem_cons_of_mem _ ho))
      (hx.exec pq (hops op List.mem_cons_self))

theorem grid_runPublishing (ops : List AMROp) (x : AMRArtifact × List AMRSnapshot) :
    (Runs.run (execPublishing pq) ops x).1.grid = x.1.grid := by
  induction ops generalizing x with
  | nil => rfl
  | cons op ops ih => rw [Runs.run_cons, ih]; exact exec_grid op x.1

/-- **The snapshots of a fleet can be drawn and do not jump.** -/
theorem snapshots_drawable (pq : PriorityQueue STNode STNode.Le) {cols rows count : ℕ}
    (hrows : 0 < rows) (hcount : count < cols) (mtbf : Option ℚ) {ops : List AMROp}
    (hops : ∀ op ∈ ops, op.Forward) :
    let s₀ := init cols rows count mtbf
    let x := Runs.run (execPublishing pq) ops (s₀, s₀.publishSnapshot)
    (∀ v ∈ x.2, v.Drawable ⟨cols, rows⟩) ∧
      ∀ op : AMROp, op.Forward → ∀ (i : ℕ) (v v' : AMRSnapshot), x.2[i]? = some v →
        (execPublishing pq op x).2[i]? = some v' →
          v'.amrId = v.amrId ∧ UnitStep v.cell v'.cell := by
  intro s₀ x
  have hx : Published x :=
    published_run hops (published_snapshot (fleetSound_init hrows hcount mtbf))
  refine ⟨?_, fun op hop i v v' hv hv' => hx.unitStep hop hv hv'⟩
  have hgrid : x.1.grid = ⟨cols, rows⟩ := grid_runPublishing ops _
  rw [← hgrid]
  exact hx.drawable

/-- The factory's fleet of two, with a job and a breakdown. -/
theorem snapshots_drawable_factory :
    let ops : List AMROp := [.reserveTransport ⟨"start", "station_1", "ORD-1"⟩,
      .updatePositions 1 1 fun _ => (0, 0), .triggerBreakdown "AMR-1" 30,
      .updatePositions 2 1 fun _ => (0, 0)]
    let s₀ := init 20 12 2 none
    let x := Runs.run (execPublishing (.scan _)) ops (s₀, s₀.publishSnapshot)
    (∀ v ∈ x.2, v.Drawable ⟨20, 12⟩) ∧
      ∀ op : AMROp, op.Forward → ∀ (i : ℕ) (v v' : AMRSnapshot), x.2[i]? = some v →
        (execPublishing (.scan _) op x).2[i]? = some v' →
          v'.amrId = v.amrId ∧ UnitStep v.cell v'.cell :=
  snapshots_drawable (.scan _) (by decide) (by decide) none (by decide)

end AMRArtifact

end MatrixFactory
