/-
# Blocked at the dock

The planner answers the empty path when start and goal coincide, and `stepAMR` takes
an empty answer for a congestion denial.  An AMR whose next leg ends where it stands,
in particular an idle one on its dock, is therefore marked `BLOCKED` and counts
blocked ticks although no leg is denied to it.

* `suffersBlock_only_iff`: a tick blocks an AMR only for a leg without a conflict-free
  path, unless it plans a leg to the cell it stands on.
* `not_idle_forever`: no AMR stays `IDLE`, whatever the reservations; so a fleet
  without jobs comes to rest only if it is empty.
-/
import MatrixFactory.ConflictFree
import MatrixFactory.Collision
import MatrixFactory.Completion
import Mathlib.Algebra.Order.Floor.Ring

namespace MatrixFactory

namespace AMRSim

variable {pq : PriorityQueue STNode STNode.Le} {g : Grid}

/-! ## The legs of an AMR -/

/-- The AMR plans its next leg in this tick. -/
def PlansLeg (mtbf : Option ℚ) (draw dt : ℚ) (a : AMRSim) : Prop :=
  a.downtimeRemainingS ≤ 0 ∧ ¬ a.FailsThisTick mtbf draw dt ∧ a.dwellRemaining ≤ 0 ∧ a.PathDone

instance (mtbf : Option ℚ) (draw dt : ℚ) (a : AMRSim) : Decidable (a.PlansLeg mtbf draw dt) := by
  unfold PlansLeg; infer_instance

/-- The AMR as it plans: leg finished, queued job started. -/
def planner (a : AMRSim) : AMRSim := a.finishLeg.startQueued

/-- The cell the next leg ends at. -/
def legGoal (a : AMRSim) : Cell := a.planner.planned.1

/-- There is a leg to drive, and no conflict-free path for it in the table. -/
def LegWithoutPath (g : Grid) (r : Reservations) (a : AMRSim) : Prop :=
  a.legGoal ≠ a.cell ∧
    ¬ ∃ p, ConflictFree g r a.amrId a.cell p ∧ p.length ≤ g.horizonTicks - 1 ∧
      pathEnd a.cell p = a.legGoal

theorem stepAMR_plan {mtbf : Option ℚ} {draw : ℚ × ℚ} {dt : ℚ} {a : AMRSim}
    (h : a.PlansLeg mtbf draw.1 dt) (r : Reservations) :
    a.stepAMR pq g mtbf draw dt r = planLeg pq g r a.planner := by
  obtain ⟨hdown, hfail, hdwell, hdone⟩ := h
  unfold stepAMR
  rw [if_neg (not_lt.mpr hdown), if_neg hfail, if_neg (not_lt.mpr hdwell), if_pos hdone]
  rfl

/-! ## What planning leaves alone -/

/-- The number of `amr_transport_blocked` signals. -/
def blockSignals : List AMREvent → ℕ
  | [] => 0
  | .transportBlocked _ :: h => blockSignals h + 1
  | _ :: h => blockSignals h

/-- The counters of congestion, and where the AMR stands. -/
def blockView (a : AMRSim) : ℕ × ℕ × ℚ × Cell × String :=
  (a.blockedTicks, blockSignals a.history, a.downtimeRemainingS, a.cell, a.amrId)

theorem blockView_finishLeg (a : AMRSim) : a.finishLeg.blockView = a.blockView := by
  unfold finishLeg
  (repeat' split) <;> rfl

theorem blockView_startJob (job : TransportJob) (a : AMRSim) :
    (a.startJob job).blockView = a.blockView := by
  by_cases h : job.fromStation = "start"
  · rw [startJob_start h]
    rfl
  · rw [startJob_pickup h]
    rfl

theorem blockView_planner (a : AMRSim) : a.planner.blockView = a.blockView := by
  rw [planner, ← blockView_finishLeg a]
  unfold startQueued
  split
  · split
    · rfl
    · exact blockView_startJob _ _
  · rfl

theorem blockView_planned (a : AMRSim) : a.planned.2.blockView = a.blockView := by
  unfold planned legTarget popDest
  (repeat' split) <;> rfl

/-- At the end of a leg the status is no longer `BLOCKED`. -/
theorem status_planner (a : AMRSim) : a.planner.planned.2.status ≠ .blocked := by
  have hfin : a.finishLeg.status ≠ .blocked := by
    unfold finishLeg
    (repeat' split) <;> exact nofun
  have hstart : a.planner.status = a.finishLeg.status := by
    unfold planner startQueued
    split
    · split
      · rfl
      · next job rest _ =>
        by_cases h : job.fromStation = "start"
        · rw [startJob_start h]
        · rw [startJob_pickup h]
    · rfl
  have hplanned : a.planner.planned.2.status = a.planner.status := by
    unfold planned legTarget popDest
    (repeat' split) <;> rfl
  rw [hplanned, hstart]
  exact hfin

/-! ## One tick -/

/-- In the tick from `a` to `a'` an operational AMR is marked `BLOCKED`, counts a blocked
tick or signals `amr_transport_blocked`. -/
def SuffersBlock (a a' : AMRSim) : Prop :=
  a.downtimeRemainingS ≤ 0 ∧ a'.downtimeRemainingS ≤ 0 ∧
    (a.status ≠ .blocked ∧ a'.status = .blocked ∨ a.blockedTicks < a'.blockedTicks ∨
      blockSignals a.history < blockSignals a'.history)

theorem not_suffersBlock {a a' : AMRSim} (hstatus : a'.status = .blocked → a.status = .blocked)
    (hticks : a'.blockedTicks ≤ a.blockedTicks)
    (hsignals : blockSignals a'.history = blockSignals a.history) : ¬ SuffersBlock a a' := by
  rintro ⟨-, -, ⟨hno, hyes⟩ | h | h⟩
  · exact hno (hstatus hyes)
  · omega
  · omega

/-- **A tick blocks an operational AMR exactly when it plans a leg and the planner
answers without a cell.** -/
theorem suffersBlock_iff {mtbf : Option ℚ} {draw : ℚ × ℚ} (hdraw : 0 ≤ draw.2) {dt : ℚ}
    {r : Reservations} {a : AMRSim} :
    SuffersBlock a (a.stepAMR pq g mtbf draw dt r).2 ↔
      a.PlansLeg mtbf draw.1 dt ∧
        (spaceTimeAStar g r a.amrId pq a.cell a.legGoal = none ∨
          spaceTimeAStar g r a.amrId pq a.cell a.legGoal = some []) := by
  have hview : a.planner.planned.2.blockView = a.blockView := by
    rw [blockView_planned, blockView_planner]
  simp only [blockView, Prod.mk.injEq] at hview
  obtain ⟨hticks, hsignals, hdowntime, hcell, hid⟩ := hview
  have hplanner : a.planner.blockView = a.blockView := blockView_planner a
  simp only [blockView, Prod.mk.injEq] at hplanner
  obtain ⟨-, -, -, hcell', hid'⟩ := hplanner
  by_cases hplan : a.PlansLeg mtbf draw.1 dt
  · rw [stepAMR_plan hplan r]
    rcases planLeg_cases pq g r a.planner with
      ⟨path, hne, -, -, hs, hp⟩ | ⟨hs, hp⟩ <;> rw [hp] <;> rw [hcell', hid'] at hs
    · have hno : ¬ (spaceTimeAStar g r a.amrId pq a.cell a.legGoal = none ∨
          spaceTimeAStar g r a.amrId pq a.cell a.legGoal = some []) := by
        rw [legGoal, hs]
        rintro (h | h)
        · cases h
        · exact hne (Option.some.inj h)
      refine iff_of_false (not_suffersBlock ?_ ?_ hsignals) fun h => hno h.2
      · exact fun h => absurd h (status_planner a)
      · exact Nat.zero_le _
    · refine iff_of_true ⟨hplan.1, ?_, Or.inr (Or.inl ?_)⟩ ⟨hplan, hs⟩
      · rw [denyLeg_eq]
        exact hdowntime.trans_le hplan.1
      · rw [denyLeg_eq]
        show a.blockedTicks < a.planner.planned.2.blockedTicks + 1
        omega
  · refine iff_of_false ?_ fun h => hplan h.1
    unfold stepAMR
    by_cases hdown : 0 < a.downtimeRemainingS
    · exact fun h => absurd h.1 (not_le.mpr hdown)
    rw [if_neg hdown]
    by_cases hfail : a.FailsThisTick mtbf draw.1 dt
    · rw [if_pos hfail]
      rintro ⟨-, hdown', -⟩
      have hrepair : (30 : ℚ) + draw.2 * 90 ≤ 0 := hdown'
      linarith
    rw [if_neg hfail]
    by_cases hdwell : 0 < a.dwellRemaining
    · rw [if_pos hdwell]
      exact not_suffersBlock id le_rfl rfl
    rw [if_neg hdwell]
    by_cases hdone : a.PathDone
    · exact absurd ⟨not_lt.mp hdown, hfail, not_lt.mp hdwell, hdone⟩ hplan
    rw [if_neg hdone]
    unfold advance
    split
    · exact not_suffersBlock id le_rfl rfl
    · dsimp only
      split <;> exact not_suffersBlock nofun le_rfl rfl

/-- A tick blocks an AMR only for a leg without a path, unless the leg it plans ends
where it stands. -/
theorem suffersBlock_only_iff (pq : PriorityQueue STNode STNode.Le) (hfit : g.FitsKey)
    {mtbf : Option ℚ} {draw : ℚ × ℚ} (hdraw : 0 ≤ draw.2) (dt : ℚ) (r : Reservations) {a : AMRSim}
    (hcell : g.InBounds a.cell) :
    (SuffersBlock a (a.stepAMR pq g mtbf draw dt r).2 → a.LegWithoutPath g r) ↔
      ¬ (a.PlansLeg mtbf draw.1 dt ∧ a.legGoal = a.cell) := by
  rw [suffersBlock_iff hdraw]
  constructor
  · rintro honly ⟨hplan, hgoal⟩
    refine (honly ⟨hplan, Or.inr ?_⟩).1 hgoal
    rw [hgoal, spaceTimeAStar_self]
  · rintro hno ⟨hplan, hs⟩
    have hgoal : a.legGoal ≠ a.cell := fun h => hno ⟨hplan, h⟩
    refine ⟨hgoal, fun hpath => ?_⟩
    obtain ⟨p, hp⟩ := (planned_iff hfit pq hcell).mpr hpath
    rcases hs with hs | hs
    · rw [hp] at hs
      cases hs
    · exact hgoal ((planned_nil_iff hs).mp rfl).symm

/-! ## No AMR stays idle -/

/-- The ticks of one second an idle AMR can still stay idle for: repair, pause, and the
leg it plans then. -/
def idleRank (a : AMRSim) : ℕ :=
  ⌈a.downtimeRemainingS⌉₊ + ⌈a.dwellRemaining⌉₊ + if a.PathDone then 2 else 0

theorem ceil_sub_one_lt {d : ℚ} (h : 0 < d) : ⌈d - 1⌉₊ < ⌈d⌉₊ := by
  have hpos : 0 < ⌈d⌉₊ := Nat.ceil_pos.mpr h
  rw [Nat.ceil_sub_one]
  omega

/-- **A tick of one second that leaves an idle AMR idle uses up its rank.** -/
theorem idleRank_stepAMR_lt {mtbf : Option ℚ} {draw : ℚ × ℚ} {r : Reservations} {a : AMRSim}
    (hidle' : (a.stepAMR pq g mtbf draw 1 r).2.status = .idle) :
    (a.stepAMR pq g mtbf draw 1 r).2.idleRank < a.idleRank := by
  by_cases hplan : a.PlansLeg mtbf draw.1 1
  · rw [stepAMR_plan hplan r] at hidle' ⊢
    obtain ⟨hdown, -, hdwell, hdone⟩ := hplan
    have hview : a.planner.planned.2.blockView = a.blockView := by
      rw [blockView_planned, blockView_planner]
    simp only [blockView, Prod.mk.injEq] at hview
    obtain ⟨-, -, hdowntime, -, -⟩ := hview
    rcases planLeg_cases pq g r a.planner with
      ⟨path, hne, -, -, -, hp⟩ | ⟨-, hp⟩ <;> rw [hp] at hidle' ⊢
    · -- granted: the pause before the drive takes one tick
      have hnew : ¬ (a.planner.planned.2.driveLeg path).PathDone := by
        rintro (hnil | hlen)
        · exact hne hnil
        · exact hne (List.length_eq_zero_iff.mp (Nat.le_zero.mp hlen))
      have hpause : ⌈(3 / 5 : ℚ)⌉₊ = 1 := by
        rw [Nat.ceil_eq_iff one_ne_zero]
        norm_num
      unfold idleRank
      rw [if_neg hnew, if_pos hdone]
      show ⌈a.planner.planned.2.downtimeRemainingS⌉₊ + ⌈(3 / 5 : ℚ)⌉₊ + 0 < _
      rw [hdowntime, hpause]
      omega
    · rw [denyLeg_eq] at hidle'
      cases hidle'
  · unfold stepAMR at hidle' ⊢
    by_cases hdown : 0 < a.downtimeRemainingS
    · rw [if_pos hdown] at hidle' ⊢
      have hlt := ceil_sub_one_lt hdown
      unfold repair
      split
      · show ⌈(0 : ℚ)⌉₊ + ⌈a.dwellRemaining⌉₊ + (if a.PathDone then 2 else 0) < a.idleRank
        unfold idleRank
        rw [Nat.ceil_zero]
        omega
      · show ⌈a.downtimeRemainingS - 1⌉₊ + ⌈a.dwellRemaining⌉₊ + (if a.PathDone then 2 else 0)
          < a.idleRank
        unfold idleRank
        omega
    rw [if_neg hdown] at hidle' ⊢
    by_cases hfail : a.FailsThisTick mtbf draw.1 1
    · rw [if_pos hfail] at hidle'
      cases hidle'
    rw [if_neg hfail] at hidle' ⊢
    by_cases hdwell : 0 < a.dwellRemaining
    · rw [if_pos hdwell]
      have hlt := ceil_sub_one_lt hdwell
      show ⌈a.downtimeRemainingS⌉₊ + ⌈a.dwellRemaining - 1⌉₊ + (if a.PathDone then 2 else 0)
        < a.idleRank
      unfold idleRank
      omega
    rw [if_neg hdwell] at hidle' ⊢
    by_cases hdone : a.PathDone
    · exact absurd ⟨not_lt.mp hdown, hfail, not_lt.mp hdwell, hdone⟩ hplan
    · -- driving marks the AMR as moving
      rw [if_neg hdone] at hidle'
      exfalso
      have hlt : a.pathIndex < a.path.length := by
        by_contra hge
        exact hdone (Or.inr (not_lt.mp hge))
      unfold advance at hidle'
      rw [List.getElem?_eq_getElem hlt] at hidle'
      dsimp only at hidle'
      split at hidle' <;> cases hidle'

end AMRSim

namespace AMRArtifact

variable {pq : PriorityQueue STNode STNode.Le}

/-! ## The fleet at rest -/

/-- Every AMR is idle on its dock, and the fleet asks for no tick. -/
def AtRest (s : AMRArtifact) : Prop :=
  (∀ a ∈ s.fleet, a.status = .idle ∧ a.cell = a.home) ∧ s.amrFleetNer = none

/-- Ticks alone bring the fleet to rest and leave it there. -/
def ComesToRest (pq : PriorityQueue STNode STNode.Le) (s : AMRArtifact) : Prop :=
  ∀ simTime dt draws, Clock dt →
    ∃ N, ∀ n ≥ N, (Runs.run (exec pq) (ticks simTime dt draws n) s).AtRest

theorem ticks_succ (simTime dt : ℕ → ℚ) (draws : ℕ → ℕ → ℚ × ℚ) (n : ℕ) :
    ticks simTime dt draws (n + 1)
      = ticks simTime dt draws n ++ [.updatePositions (simTime n) (dt n) (draws n)] := by
  simp [ticks, List.range_succ]

/-- **No fleet with an AMR comes to rest.** -/
theorem not_idle_forever {s : AMRArtifact} (hne : s.fleet ≠ [])
    (pq : PriorityQueue STNode STNode.Le) (simTime : ℕ → ℚ) (draws : ℕ → ℕ → ℚ × ℚ) (N : ℕ) :
    ¬ ∀ n ≥ N, ∀ a ∈ (Runs.run (exec pq) (ticks simTime (fun _ => 1) draws n) s).fleet,
      a.status = .idle := by
  intro hidle
  have hstep : ∀ n ≥ N, ∀ a, (Runs.run (exec pq) (ticks simTime (fun _ => 1) draws n)
      s).fleet[0]? = some a →
      ∃ a', (Runs.run (exec pq) (ticks simTime (fun _ => 1) draws (n + 1)) s).fleet[0]? = some a' ∧
        a'.idleRank < a.idleRank := by
    intro n hn a ha
    rw [ticks_succ, Runs.run_append, Runs.run_cons, Runs.run_nil]
    have htick : ∃ r, (exec pq (.updatePositions (simTime n) 1 (draws n))
        (Runs.run (exec pq) (ticks simTime (fun _ => 1) draws n) s)).fleet[0]? = some (a.stepAMR pq
          _ _ (draws n 0) 1 r).2 := tick_fleet (simTime n) 1 (draws n) ha
    obtain ⟨r, hr⟩ := htick
    refine ⟨_, hr, AMRSim.idleRank_stepAMR_lt ?_⟩
    have hnext := hidle (n + 1) (by omega)
    rw [ticks_succ, Runs.run_append, Runs.run_cons, Runs.run_nil] at hnext
    exact hnext _ (List.mem_of_getElem? hr)
  have hdown : ∀ k, ∀ n ≥ N, ∀ a, (Runs.run (exec pq) (ticks simTime (fun _ => 1) draws n)
      s).fleet[0]? = some a → ¬ a.idleRank ≤ k := by
    intro k
    induction k with
    | zero =>
      intro n hn a ha hle
      obtain ⟨a', -, hlt⟩ := hstep n hn a ha
      omega
    | succ k ih =>
      intro n hn a ha hle
      obtain ⟨a', ha', hlt⟩ := hstep n hn a ha
      exact ih (n + 1) (by omega) a' ha' (by omega)
  have hlen : 0 < (Runs.run (exec pq) (ticks simTime (fun _ => 1) draws N) s).fleet.length := by
    rw [length_run]
    exact List.length_pos_of_ne_nil hne
  exact hdown _ N le_rfl _ (List.getElem?_eq_getElem hlen) le_rfl

theorem comesToRest_iff (pq : PriorityQueue STNode STNode.Le) (s : AMRArtifact) :
    s.ComesToRest pq ↔ s.fleet = [] := by
  constructor
  · intro hrest
    by_contra hne
    obtain ⟨N, hN⟩ := hrest (fun _ => 0) (fun _ => 1) (fun _ _ => (0, 0)) (.const one_pos)
    exact not_idle_forever hne pq _ _ N fun n hn a ha => ((hN n hn).1 a ha).1
  · intro hnil simTime dt draws _
    refine ⟨1, fun n hn => ?_⟩
    have hempty : ∀ m, (Runs.run (exec pq) (ticks simTime dt draws m) s).fleet = [] := by
      intro m
      rw [← List.length_eq_zero_iff, length_run, hnil, List.length_nil]
    refine ⟨by simp [hempty n], ?_⟩
    obtain ⟨m, rfl⟩ : ∃ m, n = m + 1 := ⟨n - 1, by omega⟩
    have hlast := hempty (m + 1)
    rw [ticks_succ, Runs.run_append, Runs.run_cons, Runs.run_nil] at hlast ⊢
    show (fleetNeed (exec pq (.updatePositions (simTime m) (dt m) (draws m)) _).fleet).map _ = none
    rw [hlast]
    rfl

/-! ## Reachable fleets -/

/-- The AMR stands in the grid, and its path stays there. -/
def OnGrid (g : Grid) (a : AMRSim) : Prop := g.InBounds a.cell ∧ ∀ c ∈ a.path, g.InBounds c

theorem onGrid_of_eq {g : Grid} {a a' : AMRSim} (h : OnGrid g a) (hcell : a'.cell = a.cell)
    (hpath : a'.path = a.path ∨ a'.path = []) : OnGrid g a' := by
  unfold OnGrid at *
  rw [hcell]
  rcases hpath with hp | hp
  · rwa [hp]
  · rw [hp]
    exact ⟨h.1, by simp⟩

theorem path_startJob (job : TransportJob) (a : AMRSim) : (a.startJob job).path = [] := by
  by_cases h : job.fromStation = "start"
  · rw [AMRSim.startJob_start h]
  · rw [AMRSim.startJob_pickup h]

theorem onGrid_apply {g : Grid} {a : AMRSim} (h : OnGrid g a) (m : AMRMove) :
    OnGrid g (m.apply pq g a) := by
  rcases m with _ | job | orderId | downtimeS | ⟨mtbf, draw, dt, r⟩
  · exact h
  · show OnGrid g (a.takeJob job)
    unfold AMRSim.takeJob
    dsimp only
    split
    · exact onGrid_of_eq h (AMRSim.cell_startJob _ _) (Or.inr (path_startJob _ _))
    · exact onGrid_of_eq h rfl (Or.inl rfl)
  · show OnGrid g (a.cancelJob orderId)
    unfold AMRSim.cancelJob
    dsimp only
    split
    · exact onGrid_of_eq h rfl (Or.inr rfl)
    · exact onGrid_of_eq h rfl (Or.inl rfl)
  · exact onGrid_of_eq h rfl (Or.inl rfl)
  · show OnGrid g (a.stepAMR pq g mtbf draw dt r).2
    rcases AMRSim.stepAMR_cases pq g mtbf draw dt r a with
      hs | hs | hs | ⟨-, -, -, hs⟩ | ⟨-, -, -, hs⟩ <;> rw [hs]
    · unfold AMRSim.repair
      split <;> exact onGrid_of_eq h rfl (Or.inl rfl)
    · exact onGrid_of_eq h rfl (Or.inl rfl)
    · exact onGrid_of_eq h rfl (Or.inl rfl)
    · have hcell : (AMRSim.planLeg pq g r a.finishLeg.startQueued).2.cell = a.cell :=
        AMRSim.cell_planLeg r a
      refine ⟨hcell ▸ h.1, ?_⟩
      rcases AMRSim.planLeg_cases pq g r a.finishLeg.startQueued with
        ⟨path, -, htimed, -, -, hp⟩ | ⟨-, hp⟩ <;> rw [hp]
      · exact htimed.inBounds
      · rw [AMRSim.denyLeg_eq]
        simp
    · unfold AMRSim.advance
      split
      · exact h
      · next target htarget =>
        dsimp only
        split
        · exact ⟨h.2 target (List.mem_of_getElem? htarget), h.2⟩
        · exact onGrid_of_eq h rfl (Or.inl rfl)

theorem onGrid_exec {s : AMRArtifact} (hs : ∀ a ∈ s.fleet, OnGrid s.grid a) (op : AMROp) :
    ∀ a ∈ (exec pq op s).fleet, OnGrid s.grid a := by
  intro a' ha'
  by_cases hop : op.IsTransport
  · obtain ⟨i, hi⟩ := List.mem_iff_getElem?.mp ha'
    have hlt : i < s.fleet.length := by
      rw [← length_exec pq op s]
      exact (List.getElem?_eq_some_iff.mp hi).1
    have ha := List.getElem?_eq_getElem hlt
    obtain ⟨m, -, hget⟩ := exec_fleet pq hop ha
    obtain rfl := Option.some.inj (hi.symm.trans hget)
    exact onGrid_apply (hs _ (List.mem_of_getElem? ha)) m
  · cases op with
    | reserveTrajectory amrId goal =>
      simp only [exec, reserveTrajectory] at ha'
      split at ha'
      · exact hs a' ha'
      · split at ha'
        · exact hs a' ha'
        · next a ha =>
          split at ha'
          · exact hs a' ha'
          · next path hpath =>
            rcases List.mem_or_eq_of_mem_set ha' with h | rfl
            · exact hs a' h
            · exact ⟨(hs a (List.mem_of_getElem? ha)).1, (spaceTimeAStar_sound hpath).1.inBounds⟩
    | _ => exact absurd trivial hop

/-- In every reachable state all AMRs are in the grid, as their docks are. -/
theorem onGrid_run (cols rows count : ℕ) (mtbf : Option ℚ) (hrows : 0 < rows)
    (hcols : count < cols) (ops : List AMROp) :
    ∀ a ∈ (Runs.run (exec pq) ops (init cols rows count mtbf)).fleet,
      OnGrid ⟨cols, rows⟩ a := by
  have hinit : ∀ a ∈ (init cols rows count mtbf).fleet, OnGrid ⟨cols, rows⟩ a := by
    intro a ha
    obtain ⟨i, hi, rfl⟩ := List.mem_map.mp ha
    rw [List.mem_range] at hi
    refine ⟨?_, by simp [initAMR]⟩
    simp only [initAMR, Grid.InBounds]
    omega
  have hgrid : (init cols rows count mtbf).grid = ⟨cols, rows⟩ := rfl
  generalize init cols rows count mtbf = s at hinit hgrid
  induction ops generalizing s with
  | nil => exact hinit
  | cons op ops ih =>
    refine ih _ ?_ ((exec_grid op s).trans hgrid)
    rw [← hgrid] at hinit ⊢
    exact onGrid_exec hinit op

/-! ## The table at the turn of an AMR -/

/-- The reservation table when the tick reaches the AMR number `i`. -/
def tableAt (pq : PriorityQueue STNode STNode.Le) (dt : ℚ) (draws : ℕ → ℚ × ℚ) (i : ℕ)
    (s : AMRArtifact) : Reservations :=
  (Runs.run (stepAt pq s.grid s.mtbfSeconds draws dt)
    ((planningOrder s.fleet).takeWhile (· ≠ i)) (s.reservations, s.fleet)).1

variable (pq) in
/-- A tick steps every AMR against the table at its turn. -/
theorem tick_fleet_tableAt (simTime dt : ℚ) (draws : ℕ → ℚ × ℚ) {s : AMRArtifact} {i : ℕ}
    {a : AMRSim} (ha : s.fleet[i]? = some a) :
    (exec pq (.updatePositions simTime dt draws) s).fleet[i]?
      = some (a.stepAMR pq s.grid s.mtbfSeconds (draws i) dt (s.tableAt pq dt draws i)).2 := by
  have hmem : i ∈ planningOrder s.fleet :=
    mem_planningOrder.mpr (List.getElem?_eq_some_iff.mp ha).1
  have hnd := nodup_planningOrder s.fleet
  have hsplit : ∃ after, planningOrder s.fleet
      = (planningOrder s.fleet).takeWhile (· ≠ i) ++ i :: after := by
    generalize planningOrder s.fleet = order at hmem
    induction order with
    | nil => simp at hmem
    | cons j order ih =>
      by_cases hj : j = i
      · exact ⟨order, by simp [hj]⟩
      · obtain ⟨after, hafter⟩ := ih ((List.mem_cons.mp hmem).resolve_left (Ne.symm hj))
        refine ⟨after, ?_⟩
        rw [List.takeWhile_cons_of_pos (by simpa using hj), List.cons_append, ← hafter]
  obtain ⟨after, hafter⟩ := hsplit
  show (Runs.run (stepAt pq s.grid s.mtbfSeconds draws dt) (planningOrder s.fleet)
    (s.reservations, s.fleet)).2[i]? = _
  unfold tableAt
  generalize (planningOrder s.fleet).takeWhile (· ≠ i) = before at hafter
  rw [hafter] at hnd ⊢
  obtain ⟨-, hcons, hdisj⟩ := List.nodup_append.mp hnd
  rw [Runs.run_append, Runs.run_cons,
    getElem?_runSteps_of_notMem (List.nodup_cons.mp hcons).1, getElem?_stepAt_self]
  rw [getElem?_runSteps_of_notMem fun h => hdisj i h i List.mem_cons_self rfl]
  exact ha

/-- **The congestion marks of a tick, and the fleet at rest.**  In every reachable state
a tick blocks an operational AMR only for a leg without a conflict-free path, unless the
leg it plans ends where it stands; and the fleet comes to rest exactly when it is
empty. -/
theorem blocked_iff (pq : PriorityQueue STNode STNode.Le) {cols rows count : ℕ}
    (hfit : Grid.FitsKey ⟨cols, rows⟩) (hrows : 0 < rows) (hcols : count < cols) (mtbf : Option ℚ)
    (ops : List AMROp) :
    let s := Runs.run (exec pq) ops (init cols rows count mtbf)
    (∀ (simTime dt : ℚ) (draws : ℕ → ℚ × ℚ), (∀ i, 0 ≤ (draws i).2) →
      ∀ (i : ℕ) (a a' : AMRSim), s.fleet[i]? = some a →
      (exec pq (.updatePositions simTime dt draws) s).fleet[i]? = some a' →
      ((a.SuffersBlock a' → a.LegWithoutPath s.grid (s.tableAt pq dt draws i)) ↔
        ¬ (a.PlansLeg s.mtbfSeconds (draws i).1 dt ∧ a.legGoal = a.cell))) ∧
    (s.ComesToRest pq ↔ s.fleet = []) := by
  intro s
  refine ⟨?_, comesToRest_iff pq s⟩
  intro simTime dt draws hdraws i a a' ha ha'
  rw [tick_fleet_tableAt pq simTime dt draws ha] at ha'
  obtain rfl := Option.some.inj ha'
  have hgrid : s.grid = ⟨cols, rows⟩ := run_grid ops _
  rw [hgrid]
  exact AMRSim.suffersBlock_only_iff pq hfit (hdraws i) dt _
    (onGrid_run cols rows count mtbf hrows hcols ops a (List.mem_of_getElem? ha)).1

/-- The factory's fleet of two. -/
theorem blocked_iff_factory :
    (Runs.run (exec (.scan _)) [.reserveTransport ⟨"start", "station_1", "ORD-1"⟩]
        (init 20 12 2 none)).ComesToRest (.scan _) ↔
      (Runs.run (exec (.scan _)) [.reserveTransport ⟨"start", "station_1", "ORD-1"⟩]
        (init 20 12 2 none)).fleet = [] :=
  (blocked_iff (.scan _) (by unfold Grid.FitsKey; decide) (by decide) (by decide) none _).2

/-- With its first pause over, an AMR that has never had a job plans a leg from its dock
to its dock, and is blocked. -/
theorem not_blocked_only :
    ¬ ∀ (pq : PriorityQueue STNode STNode.Le) (cols rows count : ℕ),
      Grid.FitsKey ⟨cols, rows⟩ → 0 < rows → count < cols → ∀ (mtbf : Option ℚ) (ops : List AMROp),
      let s := Runs.run (exec pq) ops (init cols rows count mtbf)
      (∀ (simTime dt : ℚ) (draws : ℕ → ℚ × ℚ), (∀ i, 0 ≤ (draws i).2) →
        ∀ (i : ℕ) (a a' : AMRSim), s.fleet[i]? = some a →
        (exec pq (.updatePositions simTime dt draws) s).fleet[i]? = some a' →
        a.SuffersBlock a' → a.LegWithoutPath s.grid (s.tableAt pq dt draws i)) ∧
      ((∀ a ∈ s.fleet, a.IsFree ∧ a.jobQueue = []) → s.ComesToRest pq) := by
  intro h
  have hfit : Grid.FitsKey ⟨20, 12⟩ := by unfold Grid.FitsKey; decide
  have honly := (h (.scan _) 20 12 1 hfit (by decide) (by decide) none
    [.updatePositions 0 1 fun _ => (0, 0)]).1 1 1 (fun _ => (0, 0)) fun _ => le_rfl
  have hplan : ∀ a ∈ (Runs.run (exec (.scan _)) [.updatePositions 0 1 fun _ => (0, 0)]
      (init 20 12 1 none)).fleet,
      a.PlansLeg none 0 1 ∧ a.legGoal = a.cell ∧ Grid.InBounds ⟨20, 12⟩ a.cell := by
    with_unfolding_all decide
  have hmtbf : (Runs.run (exec (.scan _)) [.updatePositions 0 1 fun _ => (0, 0)]
      (init 20 12 1 none)).mtbfSeconds = none := rfl
  have hgrid : (Runs.run (exec (.scan _)) [.updatePositions 0 1 fun _ => (0, 0)]
      (init 20 12 1 none)).grid = ⟨20, 12⟩ := rfl
  have hlen : 0 < (Runs.run (exec (.scan _)) [.updatePositions 0 1 fun _ => (0, 0)]
      (init 20 12 1 none)).fleet.length := by
    rw [length_run]
    decide
  generalize Runs.run (exec (.scan _)) [.updatePositions 0 1 fun _ => (0, 0)]
    (init 20 12 1 none) = s at honly hplan hmtbf hgrid hlen
  have ha := List.getElem?_eq_getElem hlen
  obtain ⟨hleg, hgoal, hcell⟩ := hplan _ (List.getElem_mem hlen)
  have htick := tick_fleet_tableAt (.scan _) 1 1 (fun _ => (0, 0)) ha
  rw [hmtbf, hgrid] at htick
  have hblock := honly 0 _ _ ha htick
  rw [hgrid] at hblock
  exact (AMRSim.suffersBlock_only_iff (.scan _) hfit le_rfl 1 _ hcell).mp hblock ⟨hleg, hgoal⟩

end AMRArtifact

end MatrixFactory
