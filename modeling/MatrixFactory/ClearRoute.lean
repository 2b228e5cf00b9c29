/-
# Routes of a lone AMR

With only its own reservations in the table, an AMR can be denied a leg only by edges
it recorded on an earlier leg: the edge check does not ask who recorded an edge, and
nothing removes one.  The edges of a shortest path leave cells of one space-time
parity, so waiting one tick, where necessary, clears the way for the next leg
(`exists_route`).
-/
import MatrixFactory.SpaceTimeAStar

namespace MatrixFactory

namespace Reservations

/-- No other AMR has a reservation. -/
def OwnedBy (r : Reservations) (amrId : String) : Prop :=
  ∀ c t, r.reservedBy c t = none ∨ r.reservedBy c t = some amrId

end Reservations

/-- The parity of a cell at a time. -/
def parity (c : Cell) (t : ℕ) : ℤ := (c.x + c.y + t) % 2

/-- The recorded edges are those of moves with the parity of a start at `c₀`. -/
def Reservations.EdgesFrom (r : Reservations) (g : Grid) (c₀ : Cell) : Prop :=
  ∀ k ∈ r.edgeReservations, ∃ a b t, g.InBounds a ∧ g.InBounds b ∧ t < g.horizonTicks ∧
    parity a t = parity c₀ 0 ∧ k = edgeKey a b t

variable {g : Grid} {r : Reservations} {amrId : String}

theorem edgeKey_injOn (hfit : g.FitsKey) {a b a' b' : Cell} {t t' : ℕ} (ha : g.InBounds a)
    (hb : g.InBounds b) (ht : t < g.horizonTicks) (ha' : g.InBounds a') (hb' : g.InBounds b')
    (ht' : t' < g.horizonTicks) (h : edgeKey a b t = edgeKey a' b' t') : a = a' ∧ t = t' := by
  simp only [Grid.InBounds, Grid.FitsKey, Grid.horizonTicks] at *
  obtain ⟨⟨hx, hy⟩, -, ht⟩ := edgeKey_inj (by
    simp only [List.mem_cons, List.not_mem_nil, or_false, forall_eq_or_imp, forall_eq]
    omega) h
  refine ⟨?_, ht⟩
  obtain ⟨ax, ay⟩ := a
  obtain ⟨ax', ay'⟩ := a'
  simp only [Cell.mk.injEq] at *
  omega

/-- Waiting is always possible. -/
theorem passable_wait (hown : r.OwnedBy amrId) {c : Cell} (hc : g.InBounds c) (t : ℕ) :
    Passable g r amrId c c t :=
  ⟨hc, hown c (t + 1), fun h => absurd rfl h⟩

/-- A move of the right parity meets no recorded edge. -/
theorem passable_move (hfit : g.FitsKey) (hown : r.OwnedBy amrId) {c₀ c c' : Cell} {t : ℕ}
    (hedges : r.EdgesFrom g c₀) (hc : g.InBounds c) (hc' : g.InBounds c')
    (ht : t < g.horizonTicks) (hpar : parity c t = parity c₀ 0)
    (hflip : parity c' (t + 1) = parity c t) : Passable g r amrId c c' t := by
  refine ⟨hc', hown c' (t + 1), fun _ hmem => ?_⟩
  obtain ⟨a, b, τ, ha, hb, hτ, hpa, hkey⟩ := hedges _ hmem
  obtain ⟨rfl, rfl⟩ := edgeKey_injOn hfit hc' hc ht ha hb hτ hkey
  simp only [parity] at hpar hflip hpa
  push_cast at hflip
  omega

/-! ## Walking straight to the goal -/

/-- One step towards the goal: along the row, then along the column. -/
def toward (goal c : Cell) : Cell :=
  if c.x < goal.x then ⟨c.x + 1, c.y⟩
  else if goal.x < c.x then ⟨c.x - 1, c.y⟩
  else if c.y < goal.y then ⟨c.x, c.y + 1⟩
  else ⟨c.x, c.y - 1⟩

/-- The path of `n` such steps. -/
def walk (goal : Cell) : ℕ → Cell → List Cell
  | 0, _ => []
  | n + 1, c => toward goal c :: walk goal n (toward goal c)

theorem length_walk (goal : Cell) (n : ℕ) (c : Cell) : (walk goal n c).length = n := by
  induction n generalizing c with
  | zero => rfl
  | succ n ih => rw [walk, List.length_cons, ih]

theorem toward_dirs (goal c : Cell) : ∃ d ∈ dirs, toward goal c = c.step d := by
  unfold toward
  split
  · exact ⟨(1, 0), by decide, by simp [Cell.step]⟩
  split
  · exact ⟨(-1, 0), by decide, by simp [Cell.step]; omega⟩
  split
  · exact ⟨(0, 1), by decide, by simp [Cell.step]⟩
  · exact ⟨(0, -1), by decide, by simp [Cell.step]; omega⟩

theorem manhattan_toward {goal c : Cell} {n : ℕ} (h : manhattan goal c = n + 1) :
    manhattan goal (toward goal c) = n := by
  unfold toward
  unfold manhattan at *
  (repeat' split) <;> simp only <;> omega

theorem inBounds_toward {goal c : Cell} {n : ℕ} (h : manhattan goal c = n + 1)
    (hc : g.InBounds c) (hgoal : g.InBounds goal) : g.InBounds (toward goal c) := by
  unfold toward
  simp only [manhattan, Grid.InBounds] at *
  (repeat' split) <;> simp only <;> omega

theorem parity_toward (goal c : Cell) (t : ℕ) :
    parity (toward goal c) (t + 1) = parity c t := by
  unfold toward
  simp only [parity]
  (repeat' split) <;> push_cast <;> omega

theorem timedPath_walk (hfit : g.FitsKey) (hown : r.OwnedBy amrId) {c₀ goal : Cell}
    (hedges : r.EdgesFrom g c₀) (hgoal : g.InBounds goal) {n t : ℕ} {c : Cell}
    (hc : g.InBounds c) (hn : manhattan goal c = n) (ht : t + n < g.horizonTicks)
    (hpar : parity c t = parity c₀ 0) :
    TimedPath g r amrId c t (walk goal n c) ∧ pathEnd c (walk goal n c) = goal := by
  induction n generalizing t c with
  | zero =>
    refine ⟨trivial, ?_⟩
    obtain ⟨x, y⟩ := c
    obtain ⟨gx, gy⟩ := goal
    simp only [manhattan] at hn
    simp only [walk, pathEnd, Cell.mk.injEq]
    omega
  | succ n ih =>
    have hin := inBounds_toward hn hc hgoal
    obtain ⟨htimed, hend⟩ := ih hin (manhattan_toward hn) (t := t + 1) (by omega)
      ((parity_toward goal c t).trans hpar)
    have hpass := passable_move hfit hown hedges hc hin (by omega) hpar
      (parity_toward goal c t)
    exact ⟨⟨by omega, ⟨toward_dirs goal c, hpass⟩, htimed⟩, hend⟩

/-- Distances within the grid. -/
theorem manhattan_lt {goal c : Cell} (hc : g.InBounds c) (hgoal : g.InBounds goal) :
    manhattan goal c + 2 ≤ g.gridCols + g.gridRows := by
  simp only [manhattan, Grid.InBounds] at *
  omega

/-- **A lone AMR has a route**, of the length of the distance when the parity of its
start is that of the recorded edges. -/
theorem exists_route (hfit : g.FitsKey) (hown : r.OwnedBy amrId) {c₀ goal c : Cell}
    (hedges : r.EdgesFrom g c₀) (hc : g.InBounds c) (hgoal : g.InBounds goal) :
    ∃ p, TimedPath g r amrId c 0 p ∧ pathEnd c p = goal ∧
      (parity c 0 = parity c₀ 0 → p.length = manhattan goal c) := by
  have hlt := manhattan_lt hc hgoal
  by_cases hpar : parity c 0 = parity c₀ 0
  · obtain ⟨htimed, hend⟩ := timedPath_walk hfit hown hedges hgoal hc rfl
      (t := 0) (by simp only [Grid.horizonTicks]; omega) hpar
    exact ⟨_, htimed, hend, fun _ => length_walk _ _ _⟩
  · have hpar' : parity c 1 = parity c₀ 0 := by
      simp only [parity] at hpar ⊢
      push_cast at hpar ⊢
      omega
    obtain ⟨htimed, hend⟩ := timedPath_walk hfit hown hedges hgoal hc rfl
      (t := 1) (by simp only [Grid.horizonTicks]; omega) hpar'
    refine ⟨c :: walk goal (manhattan goal c) c, ⟨?_, ⟨⟨(0, 0), by decide, ?_⟩, ?_⟩, htimed⟩,
      hend, fun h => absurd h hpar⟩
    · simp only [Grid.horizonTicks]
      omega
    · simp [Cell.step]
    · exact passable_wait hown hc 0

/-- The planner finds a route for a lone AMR. -/
theorem spaceTimeAStar_route (hfit : g.FitsKey) (pq : PriorityQueue STNode STNode.Le)
    (hown : r.OwnedBy amrId) {c₀ goal c : Cell} (hedges : r.EdgesFrom g c₀) (hc : g.InBounds c)
    (hgoal : g.InBounds goal) :
    ∃ q, spaceTimeAStar g r amrId pq c goal = some q ∧ TimedPath g r amrId c 0 q ∧
      pathEnd c q = goal ∧ (parity c 0 = parity c₀ 0 → q.length = manhattan goal c) := by
  obtain ⟨p, hp, hend, hlen⟩ := exists_route hfit hown hedges hc hgoal
  obtain ⟨q, hq, hle⟩ := spaceTimeAStar_complete hfit pq hc hp hend
  obtain ⟨hqt, hqe⟩ := spaceTimeAStar_sound hq
  refine ⟨q, hq, hqt, hqe, fun hpar => le_antisymm ?_ (hqt.manhattan_le hqe)⟩
  exact hle.trans (hlen hpar).le

/-! ## What the AMR's own operations do to the table -/

namespace Reservations

theorem OwnedBy.reserve (h : r.OwnedBy amrId) (c : Cell) (t : ℕ) :
    (r.reserve c t amrId).OwnedBy amrId := by
  intro c' t'
  simp only [Reservations.reserve]
  split
  · exact Or.inr rfl
  · exact h c' t'

theorem OwnedBy.commitFrom (h : r.OwnedBy amrId) (t : ℕ) (prev : Option Cell) (p : List Cell) :
    (commitFrom g amrId r t prev p).OwnedBy amrId := by
  induction p generalizing r t prev with
  | nil => exact h
  | cons c p ih =>
    rw [Reservations.commitFrom]
    split
    · refine ih ?_ _ _
      have hres := h.reserve c (t + 1)
      (repeat' split) <;> exact hres
    · exact h

theorem OwnedBy.refresh (h : r.OwnedBy amrId) (c : Cell) :
    (r.refreshGridOccupancy g [(amrId, c)]).OwnedBy amrId := by
  have hshift : OwnedBy { r with reservedBy := shift g r.reservedBy } amrId := by
    intro c' t'
    simp only [shift]
    split
    · exact h c' (t' + 1)
    · exact Or.inl rfl
  simp only [refreshGridOccupancy, List.foldl_cons, List.foldl_nil]
  split
  · exact hshift.reserve c 0
  · exact hshift

theorem EdgesFrom.refresh {c₀ : Cell} (h : r.EdgesFrom g c₀) (fleet : List (String × Cell)) :
    (r.refreshGridOccupancy g fleet).EdgesFrom g c₀ := by
  have hedges : (r.refreshGridOccupancy g fleet).edgeReservations = r.edgeReservations := by
    unfold refreshGridOccupancy
    generalize hr : ({ r with reservedBy := shift g r.reservedBy } : Reservations) = r'
    have hr' : r'.edgeReservations = r.edgeReservations := by rw [← hr]
    clear hr
    induction fleet generalizing r' with
    | nil => exact hr'
    | cons a fleet ih =>
      rw [List.foldl_cons]
      refine ih _ ?_
      split
      · exact hr'
      · exact hr'
  intro k hk
  exact h k (hedges ▸ hk)

/-- The edges of a shortest path have the parity of its start. -/
theorem EdgesFrom.commitFrom {r₀ : Reservations} {c₀ goal : Cell} {p : List Cell} {c : Cell} {t : ℕ}
    {prev : Option Cell} (h : r.EdgesFrom g c₀) (hprev : ∀ q ∈ prev, q = c)
    (hc : g.InBounds c) (hpar : parity c t = parity c₀ 0) (hp : TimedPath g r₀ amrId c t p)
    (hend : pathEnd c p = goal) (hlen : p.length = manhattan goal c) :
    (commitFrom g amrId r t prev p).EdgesFrom g c₀ := by
  induction p generalizing r c t prev with
  | nil => exact h
  | cons c' p ih =>
    obtain ⟨hlt, ⟨⟨d, hd, rfl⟩, hpass⟩, hrest⟩ := hp
    rw [Reservations.commitFrom]
    split
    · have hle : manhattan goal (c.step d) ≤ p.length := hrest.manhattan_le hend
      have hstep := manhattan_step_le goal c hd
      rw [List.length_cons] at hlen
      have hflip : parity (c.step d) (t + 1) = parity c t := by
        simp only [dirs, List.mem_cons, List.not_mem_nil, or_false] at hd
        simp only [manhattan, parity, Cell.step] at hle hlen ⊢
        push_cast
        rcases hd with rfl | rfl | rfl | rfl | rfl <;> simp only at * <;> omega
      refine ih ?_ (fun q hq => (Option.mem_some_iff.mp hq).symm) hpass.1 (hflip.trans hpar) hrest
        hend (by omega)
      split
      · next q =>
        obtain rfl : q = c := hprev q rfl
        split
        · intro k hk
          rcases List.mem_cons.mp hk with rfl | hk
          · exact ⟨q, _, t, hc, hpass.1, by assumption, hpar, rfl⟩
          · exact h k hk
        · exact h
      · exact h
    · exact h

theorem EdgesFrom.commitReservation {r₀ : Reservations} {c₀ goal : Cell} {p : List Cell} {c : Cell}
    (h : r.EdgesFrom g c₀) (hc : g.InBounds c) (hpar : parity c 0 = parity c₀ 0)
    (hp : TimedPath g r₀ amrId c 0 p) (hend : pathEnd c p = goal)
    (hlen : p.length = manhattan goal c) :
    (r.commitReservation g amrId p).EdgesFrom g c₀ :=
  h.commitFrom (by simp) hc hpar hp hend hlen

end Reservations

end MatrixFactory
