/-
# The utilization of the grid

`getGridUtilization` is the share of the slots of the reservation table that are taken, over the
cells of the grid and the times of the horizon.  An AMR agent that finds it above 85 % reports a
saturated grid.

A granted leg takes one slot at each time, each AMR is granted one leg a tick at most, and the table
ages by one time a tick.  So the slots of a fleet are bounded by its size and the horizon alone, and
on a grid that is large for its fleet no sequence of jobs and ticks saturates it.
-/
import MatrixFactory.AmrAgent
import MatrixFactory.FleetRuns
import Mathlib.Algebra.BigOperators.Intervals
import Mathlib.Tactic.Ring

namespace MatrixFactory

namespace Reservations

variable {g : Grid}

/-- The cells of the grid that are taken at a time. -/
def takenAt (g : Grid) (r : Reservations) (t : ℕ) : Finset (ℕ × ℕ) :=
  (Finset.range g.gridCols ×ˢ Finset.range g.gridRows).filter fun p =>
    (r.reservedBy ⟨p.1, p.2⟩ t).isSome

/-- The count of `getGridUtilization`. -/
def occupied (g : Grid) (r : Reservations) : ℕ :=
  ∑ t ∈ Finset.range g.horizonTicks, (r.takenAt g t).card

theorem mem_takenAt {r : Reservations} {t : ℕ} {p : ℕ × ℕ} :
    p ∈ r.takenAt g t ↔
      (p.1 < g.gridCols ∧ p.2 < g.gridRows) ∧ (r.reservedBy ⟨p.1, p.2⟩ t).isSome := by
  simp [takenAt]

/-! ## One reservation, one path -/

theorem card_reserve_of_ne (r : Reservations) (c : Cell) {t u : ℕ} (h : u ≠ t) (amrId : String) :
    ((r.reserve c t amrId).takenAt g u).card = (r.takenAt g u).card := by
  have heq : (r.reserve c t amrId).takenAt g u = r.takenAt g u := by
    ext p
    simp [mem_takenAt, reserve, h]
  rw [heq]

/-- A reservation takes one slot. -/
theorem card_reserve_le (r : Reservations) (c : Cell) (t : ℕ) (amrId : String) (u : ℕ) :
    ((r.reserve c t amrId).takenAt g u).card ≤ (r.takenAt g u).card + 1 := by
  have hsub : (r.reserve c t amrId).takenAt g u ⊆
      insert (c.x.toNat, c.y.toNat) (r.takenAt g u) := by
    intro p hp
    obtain ⟨hin, htaken⟩ := mem_takenAt.mp hp
    by_cases hc : (⟨p.1, p.2⟩ : Cell) = c
    · subst hc
      exact Finset.mem_insert_self _ _
    · apply Finset.mem_insert_of_mem
      refine mem_takenAt.mpr ⟨hin, ?_⟩
      simpa [reserve, hc] using htaken
  exact (Finset.card_le_card hsub).trans (Finset.card_insert_le _ _)

/-- The edges are not counted. -/
theorem takenAt_edges (T : Cell → ℕ → Option String) (E E' : List ℕ) (u : ℕ) :
    (⟨T, E⟩ : Reservations).takenAt g u = (⟨T, E'⟩ : Reservations).takenAt g u := rfl

theorem card_commitFrom_le (amrId : String) (path : List Cell) (r : Reservations) (t : ℕ)
    (prev : Option Cell) (u : ℕ) :
    ((commitFrom g amrId r t prev path).takenAt g u).card ≤
      (r.takenAt g u).card + if t < u then 1 else 0 := by
  induction path generalizing r t prev with
  | nil => exact Nat.le_add_right _ _
  | cons c path ih =>
    rw [commitFrom]
    split
    · set r' : Reservations := r.reserve c (t + 1) amrId with hr'
      have hih : ∀ r'' : Reservations, r''.takenAt g u = r'.takenAt g u →
          ((commitFrom g amrId r'' (t + 1) (some c) path).takenAt g u).card ≤
            (r.takenAt g u).card + if t < u then 1 else 0 := by
        intro r'' heq
        refine (ih r'' (t + 1) (some c)).trans ?_
        rw [heq, hr']
        -- the slot of the first cell is at `t + 1`, those of the others come after it
        by_cases hu : u = t + 1
        · have := card_reserve_le (g := g) r c (t + 1) amrId u
          rw [if_neg (by omega), if_pos (by omega)]
          omega
        · rw [card_reserve_of_ne r c hu]
          split_ifs <;> omega
      rcases prev with _ | p
      · exact hih _ rfl
      · dsimp only
        split
        · exact hih _ rfl
        · exact hih _ rfl
    · exact Nat.le_add_right _ _

/-- **A committed path takes one slot at each time**, and none at the time that is now. -/
theorem card_commit_le (amrId : String) (path : List Cell) (r : Reservations) (u : ℕ) :
    ((r.commitReservation g amrId path).takenAt g u).card ≤
      (r.takenAt g u).card + if 0 < u then 1 else 0 :=
  card_commitFrom_le amrId path r 0 none u

/-! ## Ageing -/

theorem card_shift (r : Reservations) (E : List ℕ) (u : ℕ) :
    ((⟨shift g r.reservedBy, E⟩ : Reservations).takenAt g u).card ≤
      if u + 1 < g.horizonTicks then (r.takenAt g (u + 1)).card else 0 := by
  split
  · next h =>
    refine Finset.card_le_card fun p hp => ?_
    simpa [mem_takenAt, shift, h] using hp
  · next h =>
    rw [Nat.le_zero, Finset.card_eq_zero, Finset.eq_empty_iff_forall_notMem]
    intro p hp
    simp [mem_takenAt, shift, h] at hp

theorem card_slice_le (fleet : List (String × Cell)) (r : Reservations) (u : ℕ) :
    ((fleet.foldl (fun r a => if g.InBounds a.2 then r.reserve a.2 0 a.1 else r) r).takenAt g
      u).card ≤ (r.takenAt g u).card + if u = 0 then fleet.length else 0 := by
  induction fleet generalizing r with
  | nil => exact Nat.le_add_right _ _
  | cons a fleet ih =>
    refine (ih _).trans ?_
    dsimp only
    split
    · by_cases hu : u = 0
      · have := card_reserve_le (g := g) r a.2 0 a.1 u
        rw [if_pos hu, if_pos hu, List.length_cons]
        omega
      · rw [card_reserve_of_ne r a.2 hu, if_neg hu, if_neg hu]
    · split_ifs
      · rw [List.length_cons]
        omega
      · exact le_rfl

/-- **A refresh** moves the slots by one time and takes those of the fleet at time 0. -/
theorem card_refresh_le (fleet : List (String × Cell)) (r : Reservations) (u : ℕ) :
    ((r.refreshGridOccupancy g fleet).takenAt g u).card ≤
      (if u + 1 < g.horizonTicks then (r.takenAt g (u + 1)).card else 0) +
        if u = 0 then fleet.length else 0 :=
  (card_slice_le fleet _ u).trans (Nat.add_le_add_right (card_shift r r.edgeReservations u) _)

end Reservations

namespace AMRArtifact

open Reservations

variable {pq : PriorityQueue STNode STNode.Le}

/-! ## One operation of the artifact -/

variable (pq) in
/-- A step of an AMR commits one path at most. -/
theorem stepAMR_reservations (g : Grid) (mtbf : Option ℚ) (draw : ℚ × ℚ) (dt : ℚ)
    (r : Reservations) (a : AMRSim) :
    (a.stepAMR pq g mtbf draw dt r).1 = r ∨
      ∃ path, (a.stepAMR pq g mtbf draw dt r).1 = r.commitReservation g
        a.finishLeg.startQueued.amrId path := by
  rcases AMRSim.stepAMR_cases pq g mtbf draw dt r a with
    h | h | h | ⟨-, -, -, h⟩ | ⟨-, -, -, h⟩ <;> rw [h]
  · exact Or.inl rfl
  · exact Or.inl rfl
  · exact Or.inl rfl
  · rcases AMRSim.planLeg_cases pq g r a.finishLeg.startQueued with
      ⟨path, -, -, -, -, hp⟩ | ⟨-, hp⟩ <;> rw [hp]
    · exact Or.inr ⟨path, rfl⟩
    · exact Or.inl rfl
  · exact Or.inl rfl

variable (pq) in
theorem card_stepAt_le (g : Grid) (mtbf : Option ℚ) (draws : ℕ → ℚ × ℚ) (dt : ℚ) (i : ℕ)
    (s : Reservations × List AMRSim) (u : ℕ) :
    ((stepAt pq g mtbf draws dt i s).1.takenAt g u).card ≤
      (s.1.takenAt g u).card + if 0 < u then 1 else 0 := by
  unfold stepAt
  split
  · exact Nat.le_add_right _ _
  · next a _ =>
    show ((a.stepAMR pq g mtbf (draws i) dt s.1).1.takenAt g u).card ≤ _
    rcases stepAMR_reservations pq g mtbf (draws i) dt s.1 a with h | ⟨path, h⟩ <;> rw [h]
    · exact Nat.le_add_right _ _
    · exact card_commit_le _ path s.1 u

variable (pq) in
/-- The steps of a tick take a slot for each AMR at each time to come. -/
theorem card_steps_le (g : Grid) (mtbf : Option ℚ) (draws : ℕ → ℚ × ℚ) (dt : ℚ) (order : List ℕ)
    (s : Reservations × List AMRSim) (u : ℕ) :
    ((Runs.run (stepAt pq g mtbf draws dt) order s).1.takenAt g u).card ≤
      (s.1.takenAt g u).card + if 0 < u then order.length else 0 := by
  induction order generalizing s with
  | nil => exact Nat.le_add_right _ _
  | cons i order ih =>
    have h := ih (stepAt pq g mtbf draws dt i s)
    have hstep := card_stepAt_le pq g mtbf draws dt i s u
    rw [Runs.run_cons, List.length_cons]
    split_ifs at h hstep ⊢ <;> omega

/-- The slots that a fleet of `n` can hold at a time. -/
def share (n horizon t : ℕ) : ℕ := n * (horizon - 1 - t) + if t = 0 then n else 0

/-- No time of the horizon is taken more often than the fleet can have taken it. -/
def WithinShare (s : AMRArtifact) : Prop :=
  ∀ t < s.grid.horizonTicks,
    (s.reservations.takenAt s.grid t).card ≤ share s.fleet.length s.grid.horizonTicks t

theorem share_succ (n : ℕ) {horizon t : ℕ} (h : t + 1 < horizon) :
    share n horizon (t + 1) + n ≤ n * (horizon - 1 - t) := by
  obtain ⟨k, rfl⟩ : ∃ k, horizon = t + 2 + k := ⟨horizon - (t + 2), by omega⟩
  rw [share, if_neg (Nat.succ_ne_zero t), show t + 2 + k - 1 - (t + 1) = k by omega,
    show t + 2 + k - 1 - t = k + 1 by omega, Nat.mul_succ]
  exact le_rfl

theorem WithinShare.exec {op : AMROp} (hop : op.IsTransport) {s : AMRArtifact}
    (hs : s.WithinShare) : (AMRArtifact.exec pq op s).WithinShare := by
  cases op with
  | reserveTrajectory amrId goal => exact hop.elim
  | setMtbfSeconds mtbf => exact hs
  | triggerBreakdown amrId d =>
    intro t ht
    rw [length_exec]
    exact hs t ht
  | requestTransport amrId job =>
    intro t ht
    rw [length_exec]
    exact hs t ht
  | cancelTransport amrId orderId =>
    intro t ht
    rw [length_exec]
    exact hs t ht
  | reserveTransport job =>
    have hreservations : (AMRArtifact.exec pq (.reserveTransport job) s).reservations =
        s.reservations := by
      simp only [AMRArtifact.exec, reserveTransport]
      split <;> rfl
    intro t ht
    rw [length_exec, hreservations]
    rw [exec_grid] at ht ⊢
    exact hs t ht
  | clearExpiredReservations =>
    intro t ht
    refine (card_shift s.reservations [] t).trans ?_
    show _ ≤ share s.fleet.length s.grid.horizonTicks t
    split
    · next hlt =>
      calc (s.reservations.takenAt s.grid (t + 1)).card
          ≤ share s.fleet.length s.grid.horizonTicks (t + 1) := hs (t + 1) hlt
        _ ≤ s.fleet.length * (s.grid.horizonTicks - 1 - t) :=
            (Nat.le_add_right _ _).trans (share_succ s.fleet.length hlt)
        _ ≤ share s.fleet.length s.grid.horizonTicks t := Nat.le_add_right _ _
    · exact Nat.zero_le _
  | updatePositions simTime dt draws =>
    intro t ht
    rw [length_exec]
    set moved := Runs.run (stepAt pq s.grid s.mtbfSeconds draws dt) (planningOrder s.fleet)
      (s.reservations, s.fleet) with hmoved
    have horder : (planningOrder s.fleet).length = s.fleet.length :=
      (planningOrder_perm s.fleet).length_eq.trans List.length_range
    have hfleet : (moved.2.map fun a => (a.amrId, a.cell)).length = s.fleet.length := by
      rw [List.length_map, hmoved, length_runSteps]
    have hrefresh := card_refresh_le (g := s.grid) (moved.2.map fun a => (a.amrId, a.cell))
      moved.1 t
    have hsteps := card_steps_le pq s.grid s.mtbfSeconds draws dt (planningOrder s.fleet)
      (s.reservations, s.fleet) (t + 1)
    rw [hfleet] at hrefresh
    rw [← hmoved, horder, if_pos t.succ_pos] at hsteps
    refine hrefresh.trans (Nat.add_le_add_right ?_ _)
    split
    · next hlt =>
      calc (moved.1.takenAt s.grid (t + 1)).card
          ≤ (s.reservations.takenAt s.grid (t + 1)).card + s.fleet.length := hsteps
        _ ≤ share s.fleet.length s.grid.horizonTicks (t + 1) + s.fleet.length :=
            Nat.add_le_add_right (hs (t + 1) hlt) _
        _ ≤ s.fleet.length * (s.grid.horizonTicks - 1 - t) := share_succ s.fleet.length hlt
    · exact Nat.zero_le _

theorem withinShare_init (cols rows count : ℕ) (mtbf : Option ℚ) :
    (init cols rows count mtbf).WithinShare := by
  intro t ht
  have hnone : (init cols rows count mtbf).reservations.takenAt
      (init cols rows count mtbf).grid t = ∅ := by
    rw [Finset.eq_empty_iff_forall_notMem]
    intro p hp
    exact absurd (mem_takenAt.mp hp).2 (by simp [init, Reservations.empty])
  rw [hnone, Finset.card_empty]
  exact Nat.zero_le _

theorem WithinShare.run {ops : List AMROp} (hops : ∀ op ∈ ops, op.IsTransport)
    {s : AMRArtifact} (hs : s.WithinShare) :
    (Runs.run (AMRArtifact.exec pq) ops s).WithinShare := by
  induction ops generalizing s with
  | nil => exact hs
  | cons op ops ih =>
    rw [Runs.run_cons]
    exact ih (fun o ho => hops o (List.mem_cons_of_mem _ ho))
      (hs.exec (hops op List.mem_cons_self))

/-! ## The utilization -/

/-- `getGridUtilization`: under grid stress a fixed value, else the share of the taken slots. -/
def getGridUtilization (gridStress : Bool) (s : AMRArtifact) : ℚ :=
  if gridStress then 95 / 100
  else (s.reservations.occupied s.grid : ℚ) /
    (s.grid.gridCols * s.grid.gridRows * s.grid.horizonTicks : ℕ)

/-- The shares of a fleet over the times of the horizon. -/
theorem sum_share (n : ℕ) {horizon : ℕ} (h : 0 < horizon) :
    2 * ∑ t ∈ Finset.range horizon, share n horizon t = n * (horizon * (horizon - 1) + 2) := by
  have hfalling : ∑ t ∈ Finset.range horizon, (horizon - 1 - t) =
      ∑ t ∈ Finset.range horizon, t := Finset.sum_range_reflect (fun t => t) horizon
  have hnow : ∑ t ∈ Finset.range horizon, (if t = 0 then n else 0) = n := by
    rw [Finset.sum_ite_eq' (Finset.range horizon) 0 fun _ => n,
      if_pos (Finset.mem_range.mpr h)]
  have hgauss : (∑ t ∈ Finset.range horizon, t) * 2 = horizon * (horizon - 1) :=
    Finset.sum_range_id_mul_two horizon
  simp only [share, Finset.sum_add_distrib, ← Finset.mul_sum, hfalling, hnow]
  rw [← hgauss]
  ring

theorem WithinShare.occupied_le {s : AMRArtifact} (hs : s.WithinShare) :
    2 * s.reservations.occupied s.grid ≤
      s.fleet.length * (s.grid.horizonTicks * (s.grid.horizonTicks - 1) + 2) := by
  have hpos : 0 < s.grid.horizonTicks := Nat.succ_pos _
  rw [← sum_share s.fleet.length hpos]
  exact Nat.mul_le_mul_left 2 (Finset.sum_le_sum fun t ht => hs t (Finset.mem_range.mp ht))

theorem card_takenAt_le (g : Grid) (r : Reservations) (t : ℕ) :
    (r.takenAt g t).card ≤ g.gridCols * g.gridRows := by
  refine (Finset.card_filter_le _ _).trans ?_
  rw [Finset.card_product, Finset.card_range, Finset.card_range]

theorem occupied_le_slots (g : Grid) (r : Reservations) :
    r.occupied g ≤ g.gridCols * g.gridRows * g.horizonTicks := by
  have h : r.occupied g ≤ ∑ _t ∈ Finset.range g.horizonTicks, g.gridCols * g.gridRows :=
    Finset.sum_le_sum fun t _ => card_takenAt_le g r t
  rwa [Finset.sum_const, Finset.card_range, smul_eq_mul, Nat.mul_comm] at h

theorem getGridUtilization_mem (s : AMRArtifact) (stress : Bool) :
    0 ≤ s.getGridUtilization stress ∧ s.getGridUtilization stress ≤ 1 := by
  unfold getGridUtilization
  split
  · norm_num
  · refine ⟨by positivity, div_le_one_of_le₀ ?_ (Nat.cast_nonneg _)⟩
    exact_mod_cast occupied_le_slots s.grid s.reservations

end AMRArtifact

end MatrixFactory
