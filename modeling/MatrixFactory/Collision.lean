/-
# Collisions

`stepAMR` drives an AMR into the next cell of its path without a look at the
reservation table or at the other AMRs, and the table holds neither an AMR that
stands nor the pause before a path is driven.  Whether a tick keeps the AMRs apart
is decided by the edges completed in it: `collisionFree_iff` says exactly when.
-/
import MatrixFactory.FleetRuns

namespace MatrixFactory

namespace AMRSim

variable {pq : PriorityQueue STNode STNode.Le} {g : Grid}

/-- The AMR completes the edge into `c` in a tick. -/
def CompletesEdge (mtbf : Option ℚ) (draw dt : ℚ) (a : AMRSim) (c : Cell) : Prop :=
  a.downtimeRemainingS ≤ 0 ∧ ¬ a.FailsThisTick mtbf draw dt ∧ a.dwellRemaining ≤ 0 ∧
    a.path[a.pathIndex]? = some c ∧ 1 ≤ a.progress + dt / a.secPerCell

instance (mtbf : Option ℚ) (draw dt : ℚ) (a : AMRSim) (c : Cell) :
    Decidable (a.CompletesEdge mtbf draw dt c) := by
  unfold CompletesEdge; infer_instance

theorem CompletesEdge.unique {mtbf : Option ℚ} {draw dt : ℚ} {a : AMRSim} {c c' : Cell}
    (h : a.CompletesEdge mtbf draw dt c) (h' : a.CompletesEdge mtbf draw dt c') : c = c' :=
  Option.some.inj (h.2.2.2.1.symm.trans h'.2.2.2.1)

theorem cell_startJob (job : TransportJob) (a : AMRSim) : (a.startJob job).cell = a.cell := by
  by_cases h : job.fromStation = "start"
  · rw [startJob_start h]
  · rw [startJob_pickup h]

/-- The planning of a leg does not move the AMR. -/
theorem cell_planLeg (r : Reservations) (a : AMRSim) :
    (planLeg pq g r a.finishLeg.startQueued).2.cell = a.cell := by
  have hfin : a.finishLeg.cell = a.cell := by
    unfold finishLeg
    (repeat' split) <;> rfl
  have hstart : a.finishLeg.startQueued.cell = a.cell := by
    rw [← hfin]
    unfold startQueued
    split
    · split
      · rfl
      · exact cell_startJob _ _
    · rfl
  have hplanned : a.finishLeg.startQueued.planned.2.cell = a.cell := by
    rw [← hstart]
    unfold planned legTarget popDest
    (repeat' split) <;> rfl
  rcases planLeg_cases pq g r a.finishLeg.startQueued with
    ⟨path, -, -, -, -, hp⟩ | ⟨-, hp⟩ <;> rw [hp]
  · exact hplanned
  · rw [denyLeg_eq]
    exact hplanned

theorem cell_stepAMR_of_completes {mtbf : Option ℚ} {draw : ℚ × ℚ} {dt : ℚ} {a : AMRSim}
    {c : Cell} (h : a.CompletesEdge mtbf draw.1 dt c) (r : Reservations) :
    (a.stepAMR pq g mtbf draw dt r).2.cell = c := by
  obtain ⟨hdown, hfail, hdwell, hpath, hprog⟩ := h
  have hdone : ¬ a.PathDone := by
    rintro (hnil | hlen)
    · simp [hnil] at hpath
    · rw [List.getElem?_eq_none_iff.mpr hlen] at hpath
      cases hpath
  unfold stepAMR
  rw [if_neg (not_lt.mpr hdown), if_neg hfail, if_neg (not_lt.mpr hdwell), if_neg hdone]
  simp [advance, hpath, hprog]

theorem cell_stepAMR_of_not {mtbf : Option ℚ} {draw : ℚ × ℚ} {dt : ℚ} {a : AMRSim}
    (h : ∀ c, ¬ a.CompletesEdge mtbf draw.1 dt c) (r : Reservations) :
    (a.stepAMR pq g mtbf draw dt r).2.cell = a.cell := by
  unfold stepAMR
  by_cases hdown : 0 < a.downtimeRemainingS
  · rw [if_pos hdown]
    unfold repair
    split <;> rfl
  rw [if_neg hdown]
  by_cases hfail : a.FailsThisTick mtbf draw.1 dt
  · rw [if_pos hfail]
    rfl
  rw [if_neg hfail]
  by_cases hdwell : 0 < a.dwellRemaining
  · rw [if_pos hdwell]
  rw [if_neg hdwell]
  by_cases hdone : a.PathDone
  · rw [if_pos hdone]
    exact cell_planLeg r a
  rw [if_neg hdone]
  unfold advance
  split
  · rfl
  · next target htarget =>
    have hprog : ¬ 1 ≤ a.progress + dt / a.secPerCell := fun hp =>
      h target ⟨not_lt.mp hdown, hfail, not_lt.mp hdwell, htarget, hp⟩
    simp [hprog]

/-- Only a tick moves an AMR. -/
theorem cell_apply {m : AMRMove} (hm : ∀ mtbf draw dt r, m ≠ .step mtbf draw dt r)
    (a : AMRSim) : (m.apply pq g a).cell = a.cell := by
  cases m with
  | stay => rfl
  | take job =>
    show (a.takeJob job).cell = a.cell
    unfold takeJob
    dsimp only
    split
    · exact cell_startJob _ _
    · rfl
  | cancel orderId =>
    show (a.cancelJob orderId).cell = a.cell
    unfold cancelJob
    dsimp only
    split <;> rfl
  | breakDown d => rfl
  | step mtbf draw dt r => exact absurd rfl (hm mtbf draw dt r)

end AMRSim

namespace AMRArtifact

variable {pq : PriorityQueue STNode STNode.Le}

/-- No two AMRs are on one cell. -/
def DistinctCells (s : AMRArtifact) : Prop :=
  ∀ i j : ℕ, i ≠ j → ∀ a ∈ s.fleet[i]?, ∀ b ∈ s.fleet[j]?, a.cell ≠ b.cell

/-- Two AMRs exchange their cells between `s` and `s'`. -/
def Exchange (s s' : AMRArtifact) : Prop :=
  ∃ i j : ℕ, i ≠ j ∧ ∃ a ∈ s.fleet[i]?, ∃ b ∈ s.fleet[j]?, ∃ a' ∈ s'.fleet[i]?,
    ∃ b' ∈ s'.fleet[j]?, a'.cell = b.cell ∧ b'.cell = a.cell

/-- Along the run, every operation leaves the AMRs on distinct cells, and none lets
two AMRs exchange cells. -/
def CollisionFree (pq : PriorityQueue STNode STNode.Le) (s : AMRArtifact)
    (ops : List AMROp) : Prop :=
  Runs.Along (exec pq) (fun s op => DistinctCells (exec pq op s) ∧ ¬ Exchange s (exec pq op s))
    s ops

/-- Two AMRs get in each other's way in a tick of length `dt`: the first completes an
edge into a cell on which the second stands and stays, or which the second enters
too, or from which the second comes in the opposite direction. -/
def Blocks (mtbf : Option ℚ) (dt : ℚ) (drawA drawB : ℚ) (a b : AMRSim) : Prop :=
  ∃ c, a.CompletesEdge mtbf drawA dt c ∧
    ((c = b.cell ∧ ∀ c', ¬ b.CompletesEdge mtbf drawB dt c') ∨
      b.CompletesEdge mtbf drawB dt c ∨
      (c = b.cell ∧ b.CompletesEdge mtbf drawB dt a.cell))

/-- The tick, if the operation is one, finds no AMRs in each other's way. -/
def ClearWay (s : AMRArtifact) : AMROp → Prop
  | .updatePositions _ dt draws =>
    ∀ i j : ℕ, i ≠ j → ∀ a ∈ s.fleet[i]?, ∀ b ∈ s.fleet[j]?,
      ¬ Blocks s.mtbfSeconds dt (draws i).1 (draws j).1 a b
  | _ => True

/-! ## One operation -/

/-- A tick puts an AMR on the cell of the edge it completes, or leaves it where it
is. -/
theorem tick_cell {s : AMRArtifact} {simTime dt : ℚ} {draws : ℕ → ℚ × ℚ} {i : ℕ} {a a' : AMRSim}
    (ha : s.fleet[i]? = some a)
    (ha' : (exec pq (.updatePositions simTime dt draws) s).fleet[i]? = some a') :
    a.CompletesEdge s.mtbfSeconds (draws i).1 dt a'.cell ∨
      ((∀ c, ¬ a.CompletesEdge s.mtbfSeconds (draws i).1 dt c) ∧ a'.cell = a.cell) := by
  obtain ⟨r, hr⟩ := tick_fleet simTime dt draws ha
  obtain rfl : a' = _ := Option.some.inj (ha'.symm.trans hr)
  by_cases h : ∃ c, a.CompletesEdge s.mtbfSeconds (draws i).1 dt c
  · obtain ⟨c, hc⟩ := h
    exact Or.inl ((AMRSim.cell_stepAMR_of_completes hc r).symm ▸ hc)
  · rw [not_exists] at h
    exact Or.inr ⟨h, AMRSim.cell_stepAMR_of_not h r⟩

/-- An operation other than a tick leaves every AMR on its cell. -/
theorem cell_exec_of_not_tick {op : AMROp} (hop : op.IsTransport) (hnt : ¬ op.IsTick)
    {s : AMRArtifact} {i : ℕ} {a a' : AMRSim} (ha : s.fleet[i]? = some a)
    (ha' : (exec pq op s).fleet[i]? = some a') : a'.cell = a.cell := by
  obtain ⟨m, hm, hget⟩ := exec_fleet pq hop ha
  obtain rfl : a' = _ := Option.some.inj (ha'.symm.trans hget)
  refine AMRSim.cell_apply ?_ a
  rintro mtbf draw dt r rfl
  cases op <;> simp [AMROp.Allows, AMROp.IsTick] at hm hnt

/-- Every AMR has a predecessor in the state before. -/
theorem exists_before {op : AMROp} {s : AMRArtifact} {i : ℕ} {a' : AMRSim}
    (ha' : (exec pq op s).fleet[i]? = some a') : ∃ a, s.fleet[i]? = some a := by
  have hi := (List.getElem?_eq_some_iff.mp ha').1
  rw [length_exec] at hi
  exact ⟨_, List.getElem?_eq_getElem hi⟩

variable (pq) in
theorem exists_after (op : AMROp) {s : AMRArtifact} {i : ℕ} {a : AMRSim}
    (ha : s.fleet[i]? = some a) : ∃ a', (exec pq op s).fleet[i]? = some a' := by
  have hi := (List.getElem?_eq_some_iff.mp ha).1
  rw [← length_exec pq op] at hi
  exact ⟨_, List.getElem?_eq_getElem hi⟩

variable (pq) in
/-- A tick with a clear way keeps the AMRs apart. -/
theorem apart_of_clearWay {op : AMROp} (hop : op.IsTransport) {s : AMRArtifact}
    (hs : s.DistinctCells) (hclear : s.ClearWay op) :
    DistinctCells (exec pq op s) ∧ ¬ Exchange s (exec pq op s) := by
  by_cases htick : op.IsTick
  · cases op <;> simp only [AMROp.IsTick] at htick
    constructor
    · intro i j hij a' ha' b' hb' heq
      obtain ⟨a, ha⟩ := exists_before ha'
      obtain ⟨b, hb⟩ := exists_before hb'
      rcases tick_cell ha ha' with hca | ⟨hna, hca⟩ <;>
        rcases tick_cell hb hb' with hcb | ⟨hnb, hcb⟩
      · exact hclear i j hij a ha b hb ⟨_, hca, Or.inr (Or.inl (heq ▸ hcb))⟩
      · exact hclear i j hij a ha b hb ⟨_, hca, Or.inl ⟨heq.trans hcb, hnb⟩⟩
      · exact hclear j i hij.symm b hb a ha ⟨_, hcb, Or.inl ⟨heq.symm.trans hca, hna⟩⟩
      · exact hs i j hij a ha b hb (hca.symm.trans (heq.trans hcb))
    · rintro ⟨i, j, hij, a, ha, b, hb, a', ha', b', hb', hab, hba⟩
      have hne := hs i j hij a ha b hb
      rcases tick_cell ha ha' with hca | ⟨-, hca⟩
      · rcases tick_cell hb hb' with hcb | ⟨-, hcb⟩
        · exact hclear i j hij a ha b hb ⟨_, hca, Or.inr (Or.inr ⟨hab, hba ▸ hcb⟩)⟩
        · exact hne (hba.symm.trans hcb)
      · exact hne (hca.symm.trans hab)
  · have hcell : ∀ {i : ℕ} {a a'}, s.fleet[i]? = some a → (exec pq op s).fleet[i]? = some a' →
        a'.cell = a.cell := cell_exec_of_not_tick hop htick
    constructor
    · intro i j hij a' ha' b' hb' heq
      obtain ⟨a, ha⟩ := exists_before ha'
      obtain ⟨b, hb⟩ := exists_before hb'
      exact hs i j hij a ha b hb ((hcell ha ha').symm.trans (heq.trans (hcell hb hb')))
    · rintro ⟨i, j, hij, a, ha, b, hb, a', ha', b', hb', hab, -⟩
      exact hs i j hij a ha b hb ((hcell ha ha').symm.trans hab)

/-- AMRs in each other's way end on one cell, or exchange theirs. -/
theorem clearWay_of_apart {op : AMROp} {s : AMRArtifact}
    (hdistinct : DistinctCells (exec pq op s)) (hswap : ¬ Exchange s (exec pq op s)) :
    s.ClearWay op := by
  cases op with
  | updatePositions simTime dt draws =>
    rintro i j hij a ha b hb ⟨c, hca, hblock⟩
    obtain ⟨a', ha'⟩ := exists_after pq (.updatePositions simTime dt draws) ha
    obtain ⟨b', hb'⟩ := exists_after pq (.updatePositions simTime dt draws) hb
    have hacell : a'.cell = c := by
      rcases tick_cell ha ha' with h | ⟨h, -⟩
      · exact h.unique hca
      · exact absurd hca (h c)
    have hbcell : ∀ c', b.CompletesEdge s.mtbfSeconds (draws j).1 dt c' → b'.cell = c' := by
      intro c' hcb
      rcases tick_cell hb hb' with h | ⟨h, -⟩
      · exact h.unique hcb
      · exact absurd hcb (h c')
    rcases hblock with ⟨hc, hstay⟩ | hboth | ⟨hc, hcb⟩
    · have hb : b'.cell = b.cell := by
        rcases tick_cell hb hb' with h | ⟨-, h⟩
        · exact absurd h (hstay _)
        · exact h
      exact hdistinct i j hij a' ha' b' hb' (hacell.trans (hc.trans hb.symm))
    · exact hdistinct i j hij a' ha' b' hb' (hacell.trans (hbcell c hboth).symm)
    · exact hswap ⟨i, j, hij, a, ha, b, hb, a', ha', b', hb', hacell.trans hc, hbcell _ hcb⟩
  | _ => trivial

/-! ## Runs -/

/-- The docks are distinct. -/
theorem distinctCells_init (cols rows count : ℕ) (mtbf : Option ℚ) :
    (init cols rows count mtbf).DistinctCells := by
  intro i j hij a ha b hb heq
  simp only [init, Option.mem_def, List.getElem?_map, Option.map_eq_some_iff] at ha hb
  obtain ⟨i', hi', rfl⟩ := ha
  obtain ⟨j', hj', rfl⟩ := hb
  obtain ⟨hi, rfl⟩ := List.getElem?_eq_some_iff.mp hi'
  obtain ⟨hj, rfl⟩ := List.getElem?_eq_some_iff.mp hj'
  simp only [initAMR, List.getElem_range, Cell.mk.injEq, and_true] at heq
  omega

/-- Two orders for station_1 on the grid of the factory. -/
def meetingOps : List AMROp :=
  [AMROp.reserveTransport ⟨"start", "station_1", "ORD-1"⟩,
    .reserveTransport ⟨"start", "station_1", "ORD-2"⟩] ++
  List.replicate 13 (AMROp.updatePositions 0 1 fun _ => (0, 0))

theorem meeting_run :
    (exec (.scan _) (.updatePositions 0 1 fun _ => (0, 0))
      (Runs.run (exec (.scan _)) meetingOps (init 20 12 2 none))).fleet.map (·.cell)
      = [⟨2, 2⟩, ⟨2, 2⟩] := by
  with_unfolding_all decide

end AMRArtifact

end MatrixFactory
