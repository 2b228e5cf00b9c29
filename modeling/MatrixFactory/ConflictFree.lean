/-
# Conflict-free trajectories

What the planner promises, stated without its nodes and keys.  A trajectory is the
start cell followed by the cells of a path, indexed by time; it is `ConflictFree`
when every step is a unit move or a wait into a cell of the grid that no other AMR
has reserved for the time of arrival, along an edge whose reverse is not reserved.
The reserved edges are a set of `TimedEdge`s, read off the packed keys.

* `spaceTimeAStar_spec`: the planner decides whether such a trajectory reaches the
  goal within the horizon, and returns a shortest one.
* `apart_iff`: a trajectory planned after the commit of another conflicts with it
  exactly when the two AMRs exchange cells in their first move, the one move for
  which `commitReservation` records no edge.
-/
import MatrixFactory.ClearRoute

namespace MatrixFactory

/-! ## Edges and their keys -/

/-- The edge from `a` to `b`, entered at time `t`. -/
structure TimedEdge where
  a : Cell
  b : Cell
  t : ℕ
  deriving DecidableEq, Repr

namespace TimedEdge

/-- The packed key of an edge. -/
def key (e : TimedEdge) : ℕ := edgeKey e.a e.b e.t

/-- The edge joins cells of the grid, at a time within the horizon. -/
def InGrid (g : Grid) (e : TimedEdge) : Prop :=
  g.InBounds e.a ∧ g.InBounds e.b ∧ e.t < g.horizonTicks

instance (g : Grid) (e : TimedEdge) : Decidable (e.InGrid g) := by
  unfold InGrid; infer_instance

/-- Two edges of the grid never share a key. -/
theorem key_injOn {g : Grid} (hfit : g.FitsKey) {e e' : TimedEdge} (he : e.InGrid g)
    (he' : e'.InGrid g) (h : e.key = e'.key) : e = e' := by
  have hwidth : ∀ c, g.InBounds c → 0 ≤ c.x ∧ c.x.toNat < 4096 ∧ 0 ≤ c.y ∧ c.y.toNat < 4096 := by
    intro c hc
    simp only [Grid.InBounds, Grid.FitsKey, Grid.horizonTicks] at hc hfit
    omega
  obtain ⟨ha, hb, ht⟩ := he
  obtain ⟨ha', hb', ht'⟩ := he'
  have hcell : ∀ c c', g.InBounds c → g.InBounds c' → c.x.toNat = c'.x.toNat →
      c.y.toNat = c'.y.toNat → c = c' := by
    rintro ⟨x, y⟩ ⟨x', y'⟩ ⟨hx, -, hy, -⟩ ⟨hx', -, hy', -⟩ hxx hyy
    simp only [Cell.mk.injEq]
    simp only at hx hy hx' hy' hxx hyy
    omega
  obtain ⟨⟨h₁, h₂⟩, ⟨h₃, h₄⟩, h₅⟩ := edgeKey_inj (by
    simp only [List.mem_cons, List.not_mem_nil, or_false, forall_eq_or_imp, forall_eq]
    exact ⟨(hwidth _ ha).2.1, (hwidth _ ha).2.2.2, (hwidth _ hb).2.1, (hwidth _ hb).2.2.2,
      ht.trans_le hfit, (hwidth _ ha').2.1, (hwidth _ ha').2.2.2, (hwidth _ hb').2.1,
      (hwidth _ hb').2.2.2, ht'.trans_le hfit⟩) h
  rw [show e = ⟨e.a, e.b, e.t⟩ from rfl, show e' = ⟨e'.a, e'.b, e'.t⟩ from rfl,
    hcell _ _ ha ha' h₁ h₂, hcell _ _ hb hb' h₃ h₄, h₅]

end TimedEdge

namespace Reservations

/-- The edges of the grid that the table reserves. -/
def edges (g : Grid) (r : Reservations) : Set TimedEdge :=
  {e | e.InGrid g ∧ e.key ∈ r.edgeReservations}

/-- The cell is reserved by another AMR for a time. -/
def HeldByOther (r : Reservations) (amrId : String) (c : Cell) (t : ℕ) : Prop :=
  ∃ other, other ≠ amrId ∧ r.reservedBy c t = some other

/-- No key stands for an edge that was not recorded. -/
theorem edges_of_keys {g : Grid} (hfit : g.FitsKey) {E : List TimedEdge}
    (hE : ∀ e ∈ E, e.InGrid g) (T : Cell → ℕ → Option String) :
    (⟨T, E.map TimedEdge.key⟩ : Reservations).edges g = {e | e ∈ E} := by
  ext e
  simp only [edges, Set.mem_ofPred_eq, List.mem_map]
  constructor
  · rintro ⟨he, e', he', hkey⟩
    exact TimedEdge.key_injOn hfit (hE e' he') he hkey ▸ he'
  · intro he
    exact ⟨hE e he, e, he, rfl⟩

theorem not_heldByOther_iff {r : Reservations} {amrId : String} {c : Cell} {t : ℕ} :
    ¬ r.HeldByOther amrId c t ↔ r.reservedBy c t = none ∨ r.reservedBy c t = some amrId := by
  unfold HeldByOther
  rcases h : r.reservedBy c t with _ | other
  · simp
  · simp only [Option.some.injEq, reduceCtorEq, false_or]
    constructor
    · intro hno
      by_contra hne
      exact hno ⟨other, hne, rfl⟩
    · rintro rfl ⟨other', hne, heq⟩
      exact hne heq.symm

end Reservations

/-! ## Trajectories -/

/-- A unit move or a wait. -/
def UnitStep (u v : Cell) : Prop := (u.x - v.x).natAbs + (u.y - v.y).natAbs ≤ 1

theorem unitStep_iff {u v : Cell} : UnitStep u v ↔ ∃ d ∈ dirs, v = u.step d := by
  obtain ⟨ux, uy⟩ := u
  obtain ⟨vx, vy⟩ := v
  simp only [UnitStep, dirs, Cell.step, Cell.mk.injEq, List.mem_cons, List.not_mem_nil, or_false,
    exists_eq_or_imp, exists_eq_left]
  omega

section Trajectory

variable (g : Grid) (r : Reservations) (amrId : String)

/-- The step of a trajectory from `u` at time `t` into `v`. -/
structure FreeStep (u v : Cell) (t : ℕ) : Prop where
  unit : UnitStep u v
  inBounds : g.InBounds v
  vertex : ¬ r.HeldByOther amrId v (t + 1)
  edge : u ≠ v → ⟨v, u, t⟩ ∉ r.edges g

/-- Every step of the trajectory `c, p` is free, with `c` at time `t`. -/
def FreeFrom (t : ℕ) (c : Cell) (p : List Cell) : Prop :=
  ∀ k u v, (c :: p)[k]? = some u → p[k]? = some v → FreeStep g r amrId u v (t + k)

/-- The trajectory of a path driven from `c`, with `c` at time 0, is free of
conflicts with the table. -/
def ConflictFree (c : Cell) (p : List Cell) : Prop := FreeFrom g r amrId 0 c p

variable {g r amrId}

theorem freeStep_iff {u v : Cell} {t : ℕ} (hu : g.InBounds u) (ht : t < g.horizonTicks) :
    FreeStep g r amrId u v t ↔ LegalMove g r amrId u v t := by
  constructor
  · rintro ⟨hunit, hin, hvertex, hedge⟩
    refine ⟨unitStep_iff.mp hunit, hin, Reservations.not_heldByOther_iff.mp hvertex, ?_⟩
    intro hne hmem
    exact hedge (Ne.symm hne) ⟨⟨hin, hu, ht⟩, hmem⟩
  · rintro ⟨hdir, hin, hvertex, hedge⟩
    refine ⟨unitStep_iff.mpr hdir, hin, Reservations.not_heldByOther_iff.mpr hvertex, ?_⟩
    intro hne hmem
    exact hedge (Ne.symm hne) hmem.2

theorem freeFrom_cons {t : ℕ} {c c' : Cell} {p : List Cell} :
    FreeFrom g r amrId t c (c' :: p) ↔
      FreeStep g r amrId c c' t ∧ FreeFrom g r amrId (t + 1) c' p := by
  constructor
  · intro h
    refine ⟨h 0 c c' rfl rfl, ?_⟩
    intro k u v hu hv
    rw [show t + 1 + k = t + (k + 1) by omega]
    exact h (k + 1) u v (by simpa using hu) (by simpa using hv)
  · rintro ⟨hstep, hrest⟩ k u v hu hv
    rcases k with _ | k
    · obtain rfl : c = u := by simpa using hu
      obtain rfl : c' = v := by simpa using hv
      exact hstep
    · rw [show t + (k + 1) = t + 1 + k by omega]
      exact hrest k u v (by simpa using hu) (by simpa using hv)

/-- The planner's paths are the conflict-free ones within the horizon. -/
theorem timedPath_iff {t : ℕ} {c : Cell} {p : List Cell} (hc : g.InBounds c)
    (ht : t < g.horizonTicks) :
    TimedPath g r amrId c t p ↔
      FreeFrom g r amrId t c p ∧ t + p.length ≤ g.horizonTicks - 1 := by
  induction p generalizing t c with
  | nil =>
    simp only [TimedPath, FreeFrom, List.length_nil, true_iff]
    exact ⟨by simp, by omega⟩
  | cons c' p ih =>
    rw [TimedPath, freeFrom_cons, freeStep_iff hc ht, List.length_cons]
    constructor
    · rintro ⟨hlt, hmove, hrest⟩
      obtain ⟨hfree, hlen⟩ := (ih hmove.2.1 hlt).mp hrest
      exact ⟨⟨hmove, hfree⟩, by omega⟩
    · rintro ⟨⟨hmove, hfree⟩, hlen⟩
      have hlt : t + 1 < g.horizonTicks := by omega
      exact ⟨hlt, hmove, (ih hmove.2.1 hlt).mpr ⟨hfree, by omega⟩⟩

end Trajectory

/-! ## The planner's contract -/

section Contract

variable {g : Grid} {r : Reservations} {amrId : String} {pq : PriorityQueue STNode STNode.Le}

/-- A conflict-free path to the goal within the horizon, none arriving earlier. -/
structure Shortest (g : Grid) (r : Reservations) (amrId : String) (start goal : Cell)
    (p : List Cell) : Prop where
  free : ConflictFree g r amrId start p
  length_le : p.length ≤ g.horizonTicks - 1
  reaches : pathEnd start p = goal
  least : ∀ q, ConflictFree g r amrId start q → pathEnd start q = goal → p.length ≤ q.length

theorem timedPath_zero_iff {start : Cell} (hstart : g.InBounds start) {p : List Cell} :
    TimedPath g r amrId start 0 p ↔
      ConflictFree g r amrId start p ∧ p.length ≤ g.horizonTicks - 1 := by
  have hzero : 0 < g.horizonTicks := by unfold Grid.horizonTicks; omega
  simpa [ConflictFree] using timedPath_iff (p := p) hstart hzero

theorem shortest_of_planned (hfit : g.FitsKey) {start goal : Cell} (hstart : g.InBounds start)
    {p : List Cell} (hp : spaceTimeAStar g r amrId pq start goal = some p) :
    Shortest g r amrId start goal p := by
  obtain ⟨htimed, hend⟩ := spaceTimeAStar_sound hp
  obtain ⟨hfree, hlen⟩ := (timedPath_zero_iff hstart).mp htimed
  refine ⟨hfree, hlen, hend, ?_⟩
  intro q hq hqend
  by_cases hshort : q.length ≤ g.horizonTicks - 1
  · obtain ⟨p', hp', hle⟩ :=
      spaceTimeAStar_complete hfit pq hstart ((timedPath_zero_iff hstart).mpr ⟨hq, hshort⟩) hqend
    obtain rfl : p = p' := Option.some.inj (hp.symm.trans hp')
    exact hle
  · omega

theorem planned_iff (hfit : g.FitsKey) (pq : PriorityQueue STNode STNode.Le) {start goal : Cell}
    (hstart : g.InBounds start) :
    (∃ p, spaceTimeAStar g r amrId pq start goal = some p) ↔
      ∃ p, ConflictFree g r amrId start p ∧ p.length ≤ g.horizonTicks - 1 ∧
        pathEnd start p = goal := by
  constructor
  · rintro ⟨p, hp⟩
    have h := shortest_of_planned hfit hstart hp
    exact ⟨p, h.free, h.length_le, h.reaches⟩
  · rintro ⟨p, hfree, hlen, hend⟩
    obtain ⟨q, hq, -⟩ := spaceTimeAStar_complete hfit pq hstart
      ((timedPath_zero_iff hstart).mpr ⟨hfree, hlen⟩) hend
    exact ⟨q, hq⟩

theorem planned_nil_iff {start goal : Cell} {p : List Cell}
    (hp : spaceTimeAStar g r amrId pq start goal = some p) : p = [] ↔ start = goal := by
  constructor
  · rintro rfl
    exact (spaceTimeAStar_sound hp).2
  · rintro rfl
    rw [spaceTimeAStar_self] at hp
    exact (Option.some.inj hp).symm

/-- **The planner decides reachability within the horizon and returns a shortest
conflict-free path.**  The first part says that the packed keys stand for exactly the
edges recorded. -/
theorem spaceTimeAStar_spec (pq : PriorityQueue STNode STNode.Le) {g : Grid} (hfit : g.FitsKey)
    (r : Reservations) (amrId : String) {start : Cell} (hstart : g.InBounds start) (goal : Cell) :
    (∀ (T : Cell → ℕ → Option String) (E : List TimedEdge), (∀ e ∈ E, e.InGrid g) →
      (⟨T, E.map TimedEdge.key⟩ : Reservations).edges g = {e | e ∈ E}) ∧
    ((∃ p, spaceTimeAStar g r amrId pq start goal = some p) ↔
      ∃ p, ConflictFree g r amrId start p ∧ p.length ≤ g.horizonTicks - 1 ∧
        pathEnd start p = goal) ∧
    ∀ p, spaceTimeAStar g r amrId pq start goal = some p →
      Shortest g r amrId start goal p ∧ (p = [] ↔ start = goal) := by
  refine ⟨fun T E hE => Reservations.edges_of_keys hfit hE T, planned_iff hfit pq hstart, ?_⟩
  intro p hp
  exact ⟨shortest_of_planned hfit hstart hp, planned_nil_iff hp⟩

/-- On the factory's grid, with one cell and one edge reserved. -/
theorem spaceTimeAStar_spec_factory :
    let r : Reservations := ⟨fun c t => if c = ⟨2, 10⟩ ∧ t = 1 then some "AMR-2" else none,
      [edgeKey ⟨2, 11⟩ ⟨1, 11⟩ 0]⟩
    ∀ p, spaceTimeAStar ⟨20, 12⟩ r "AMR-1" (.scan _) ⟨1, 11⟩ ⟨2, 2⟩ = some p →
      Shortest ⟨20, 12⟩ r "AMR-1" ⟨1, 11⟩ ⟨2, 2⟩ p ∧ (p = [] ↔ (⟨1, 11⟩ : Cell) = ⟨2, 2⟩) :=
  (spaceTimeAStar_spec (.scan _) (by unfold Grid.FitsKey; decide) _ "AMR-1" (by decide) _).2.2

end Contract

/-! ## What a commit records -/

namespace Reservations

variable {g : Grid} {amrId : String}

/-- The commit reserves the cell at index `k` of the path for time `k + 1`. -/
theorem reservedBy_commitFrom_of_mem {p : List Cell} {r : Reservations} {t : ℕ}
    {prev : Option Cell} (hlen : t + p.length ≤ g.horizonTicks) {k : ℕ} {c : Cell}
    (hk : p[k]? = some c) :
    (commitFrom g amrId r t prev p).reservedBy c (t + k + 1) = some amrId := by
  have hkeep : ∀ (p : List Cell) (r : Reservations) (t : ℕ) (prev : Option Cell) (c : Cell)
      (s : ℕ), r.reservedBy c s = some amrId →
      (commitFrom g amrId r t prev p).reservedBy c s = some amrId := by
    intro p
    induction p with
    | nil => exact fun r t prev c s h => h
    | cons c' p ih =>
      intro r t prev c s h
      have hstep : (r.reserve c' (t + 1) amrId).reservedBy c s = some amrId := by
        simp only [reserve]
        split
        · rfl
        · exact h
      unfold commitFrom
      split
      · refine ih _ _ _ _ _ ?_
        repeat' split
        all_goals exact hstep
      · exact h
  induction p generalizing r t prev k with
  | nil => simp at hk
  | cons c' p ih =>
    rw [List.length_cons] at hlen
    unfold commitFrom
    rw [if_pos (by omega)]
    rcases k with _ | k
    · obtain rfl : c' = c := by simpa using hk
      refine hkeep _ _ _ _ _ _ ?_
      repeat' split
      all_goals simp [reserve]
    · rw [show t + (k + 1) + 1 = t + 1 + k + 1 by omega]
      exact ih (by omega) (by simpa using hk)

/-- The edges the loop of a commit records: those of the moves between cells of the
path, but not the edge into its first cell. -/
def recordedEdges : ℕ → Option Cell → List Cell → List TimedEdge
  | _, _, [] => []
  | t, none, c :: p => recordedEdges (t + 1) (some c) p
  | t, some u, c :: p =>
    if u ≠ c then ⟨u, c, t⟩ :: recordedEdges (t + 1) (some c) p
    else recordedEdges (t + 1) (some c) p

theorem mem_edges_commitFrom {p : List Cell} {r : Reservations} {t : ℕ} {prev : Option Cell}
    (hlen : t + p.length ≤ g.horizonTicks) {n : ℕ} :
    n ∈ (commitFrom g amrId r t prev p).edgeReservations ↔
      n ∈ r.edgeReservations ∨ ∃ e ∈ recordedEdges t prev p, e.key = n := by
  induction p generalizing r t prev with
  | nil => simp [commitFrom, recordedEdges]
  | cons c p ih =>
    rw [List.length_cons] at hlen
    unfold commitFrom
    rw [if_pos (by omega)]
    dsimp only
    rw [ih (by omega)]
    rcases prev with _ | u
    · rfl
    · dsimp only [recordedEdges]
      by_cases hu : u ≠ c
      · rw [if_pos hu, if_pos hu]
        simp only [reserve, List.mem_cons, exists_eq_or_imp, TimedEdge.key]
        rw [or_assoc, or_left_comm, eq_comm (a := n)]
      · rw [if_neg hu, if_neg hu]
        rfl

/-- The move between two neighbours of the path is recorded. -/
theorem mem_recordedEdges {p : List Cell} {t k : ℕ} {c u v : Cell}
    (hu : (c :: p)[k]? = some u) (hv : p[k]? = some v) (hne : u ≠ v) :
    ⟨u, v, t + k⟩ ∈ recordedEdges t (some c) p := by
  induction p generalizing t c k with
  | nil => simp at hv
  | cons c' p ih =>
    rcases k with _ | k
    · obtain rfl : c = u := by simpa using hu
      obtain rfl : c' = v := by simpa using hv
      rw [recordedEdges, if_pos hne]
      exact List.mem_cons_self
    · have hmem : ⟨u, v, t + 1 + k⟩ ∈ recordedEdges (t + 1) (some c') p :=
        ih (by simpa using hu) (by simpa using hv)
      rw [show t + (k + 1) = t + 1 + k by omega, recordedEdges]
      split
      · exact List.mem_cons_of_mem _ hmem
      · exact hmem

end Reservations

/-! ## Two plans of one tick -/

/-- Two trajectories never stand on one cell at one time and never exchange cells, up
to the end of the shorter one. -/
def Apart (p q : List Cell) : Prop :=
  (∀ (k : ℕ) (u v : Cell), p[k]? = some u → q[k]? = some v → u ≠ v) ∧
    ∀ (k : ℕ) (u u' v v' : Cell), p[k]? = some u → p[k + 1]? = some u' → q[k]? = some v →
      q[k + 1]? = some v' → ¬ (u = v' ∧ u' = v)

section TwoPlans

variable {g : Grid} {pq : PriorityQueue STNode STNode.Le} {r : Reservations} {A B : String}
  {cA cB goalA goalB : Cell} {p q : List Cell}

/-- Step `k` of a timed path is a legal move at time `k`. -/
theorem TimedPath.legalMove {amrId : String} {c : Cell} {t k : ℕ} {u v : Cell}
    (h : TimedPath g r amrId c t p) (hu : (c :: p)[k]? = some u) (hv : p[k]? = some v) :
    LegalMove g r amrId u v (t + k) := by
  induction p generalizing c t k with
  | nil => simp at hv
  | cons c' p ih =>
    obtain ⟨-, hmove, hrest⟩ := h
    rcases k with _ | k
    · obtain rfl : c = u := by simpa using hu
      obtain rfl : c' = v := by simpa using hv
      exact hmove
    · rw [show t + (k + 1) = t + 1 + k by omega]
      exact ih hrest (by simpa using hu) (by simpa using hv)

theorem TimedPath.length_le {amrId : String} {c : Cell} (h : TimedPath g r amrId c 0 p) :
    p.length ≤ g.horizonTicks := by
  by_cases hnil : p = []
  · simp [hnil]
  · have := h.length_lt hnil
    omega

/-- No common cell at a common time. -/
theorem ne_of_planned (hAB : A ≠ B) (hne : cA ≠ cB) (hp : p.length ≤ g.horizonTicks)
    (hq : TimedPath g (r.commitReservation g A p) B cB 0 q) {k : ℕ} {u v : Cell}
    (hu : (cA :: p)[k]? = some u) (hv : (cB :: q)[k]? = some v) : u ≠ v := by
  rcases k with _ | k
  · obtain rfl : cA = u := by simpa using hu
    obtain rfl : cB = v := by simpa using hv
    exact hne
  · rintro rfl
    have hlt : k < q.length := (List.getElem?_eq_some_iff.mp (by simpa using hv)).1
    obtain ⟨w, hw⟩ : ∃ w, (cB :: q)[k]? = some w :=
      ⟨_, List.getElem?_eq_getElem (by rw [List.length_cons]; omega)⟩
    have hmove := hq.legalMove hw (by simpa using hv)
    have hheld : (r.commitReservation g A p).reservedBy u (0 + k + 1) = some A :=
      Reservations.reservedBy_commitFrom_of_mem (by omega) (by simpa using hu)
    rcases hmove.2.2.1 with h | h
    · rw [hheld] at h
      cases h
    · rw [hheld] at h
      exact hAB (Option.some.inj h)

/-- No exchange of cells after the first move. -/
theorem not_exchange_of_planned (hp : p.length ≤ g.horizonTicks)
    (hq : TimedPath g (r.commitReservation g A p) B cB 0 q) {k : ℕ} {u u' v v' : Cell}
    (hu : (cA :: p)[k + 1]? = some u) (hu' : (cA :: p)[k + 2]? = some u')
    (hv : (cB :: q)[k + 1]? = some v) (hv' : (cB :: q)[k + 2]? = some v') (hne : u ≠ u') :
    ¬ (u = v' ∧ u' = v) := by
  rintro ⟨rfl, rfl⟩
  have hmove := hq.legalMove hv (by simpa using hv')
  have hedge : (⟨u, u', k + 1⟩ : TimedEdge) ∈ Reservations.recordedEdges 0 none p := by
    rcases p with _ | ⟨c, p⟩
    · simp at hu
    · rw [Reservations.recordedEdges, show k + 1 = 0 + 1 + k by omega]
      exact Reservations.mem_recordedEdges (by simpa using hu) (by simpa using hu') hne
  refine hmove.2.2.2 hne ?_
  rw [Nat.zero_add]
  exact (Reservations.mem_edges_commitFrom (by omega)).mpr (Or.inr ⟨_, hedge, rfl⟩)

/-- A path planned after another was committed conflicts with it only by an exchange
of cells in the first move. -/
theorem apart_of_planned (hAB : A ≠ B) (hne : cA ≠ cB) (hp : p.length ≤ g.horizonTicks)
    (hq : TimedPath g (r.commitReservation g A p) B cB 0 q) :
    Apart (cA :: p) (cB :: q) ↔ ¬ (p.head? = some cB ∧ q.head? = some cA) := by
  constructor
  · rintro ⟨-, hswap⟩ ⟨hA, hB⟩
    rw [List.head?_eq_getElem?] at hA hB
    exact hswap 0 cA cB cB cA rfl (by simpa using hA) rfl (by simpa using hB) ⟨rfl, rfl⟩
  · intro hfirst
    refine ⟨fun k u v hu hv => ne_of_planned hAB hne hp hq hu hv, ?_⟩
    intro k u u' v v' hu hu' hv hv' ⟨huv, huv'⟩
    rcases k with _ | k
    · obtain rfl : cA = u := by simpa using hu
      obtain rfl : cB = v := by simpa using hv
      subst huv huv'
      refine hfirst ⟨?_, ?_⟩
      · rw [List.head?_eq_getElem?]
        simpa using hu'
      · rw [List.head?_eq_getElem?]
        simpa using hv'
    · by_cases hwait : u = u'
      · subst hwait
        exact ne_of_planned hAB hne hp hq hu hv huv'
      · exact not_exchange_of_planned hp hq hu hu' hv hv' hwait ⟨huv, huv'⟩

/-- **Two plans of one tick conflict exactly by an exchange of cells in the first
move.**  The heap's ties decide which shortest path is taken, so on the inputs alone
the exchange is excluded when no shortest path of one AMR enters the cell of the
other, and certain when every one of both does. -/
theorem apart_iff (pq : PriorityQueue STNode STNode.Le) (g : Grid) (r : Reservations)
    {A B : String} (hAB : A ≠ B) {cA cB : Cell} (hne : cA ≠ cB) {goalA goalB : Cell}
    {p q : List Cell} (hp : spaceTimeAStar g r A pq cA goalA = some p)
    (hq : spaceTimeAStar g (r.commitReservation g A p) B pq cB goalB = some q) :
    (Apart (cA :: p) (cB :: q) ↔ ¬ (p.head? = some cB ∧ q.head? = some cA)) ∧
    (g.FitsKey → g.InBounds cA → g.InBounds cB →
      ((∀ p', Shortest g r A cA goalA p' → p'.head? ≠ some cB) ∨
        (∀ q', Shortest g (r.commitReservation g A p) B cB goalB q' → q'.head? ≠ some cA) →
        Apart (cA :: p) (cB :: q)) ∧
      ((∀ p', Shortest g r A cA goalA p' → p'.head? = some cB) ∧
        (∀ q', Shortest g (r.commitReservation g A p) B cB goalB q' → q'.head? = some cA) →
        ¬ Apart (cA :: p) (cB :: q))) := by
  have hiff : Apart (cA :: p) (cB :: q) ↔ ¬ (p.head? = some cB ∧ q.head? = some cA) :=
    apart_of_planned hAB hne (spaceTimeAStar_sound hp).1.length_le (spaceTimeAStar_sound hq).1
  refine ⟨hiff, fun hfit hcA hcB => ?_⟩
  have hpmin := shortest_of_planned hfit hcA hp
  have hqmin := shortest_of_planned hfit hcB hq
  rw [hiff]
  constructor
  · rintro (hA | hB) ⟨hpB, hqA⟩
    · exact hA p hpmin hpB
    · exact hB q hqmin hqA
  · rintro ⟨hA, hB⟩ hno
    exact hno ⟨hA p hpmin, hB q hqmin⟩

/-- Two AMRs that leave in the same direction. -/
theorem apart_iff_following :
    Apart [⟨3, 2⟩, ⟨4, 2⟩, ⟨5, 2⟩] [⟨4, 2⟩, ⟨5, 2⟩, ⟨6, 2⟩] ↔
      ¬ ((some ⟨4, 2⟩ : Option Cell) = some ⟨4, 2⟩ ∧
        (some ⟨5, 2⟩ : Option Cell) = some ⟨3, 2⟩) := by
  have hp : spaceTimeAStar ⟨20, 12⟩ .empty "AMR-1" (.scan _) ⟨3, 2⟩ ⟨5, 2⟩
      = some [⟨4, 2⟩, ⟨5, 2⟩] := by decide
  have hq : spaceTimeAStar ⟨20, 12⟩
      (Reservations.empty.commitReservation ⟨20, 12⟩ "AMR-1" [⟨4, 2⟩, ⟨5, 2⟩]) "AMR-2" (.scan _)
      ⟨4, 2⟩ ⟨6, 2⟩ = some [⟨5, 2⟩, ⟨6, 2⟩] := by decide
  exact (apart_iff (.scan _) ⟨20, 12⟩ .empty (by decide) (by decide) hp hq).1

/-- Side by side and bound for each other's side, the two AMRs exchange their cells in
the first move. -/
theorem not_apart :
    ¬ ∀ (pq : PriorityQueue STNode STNode.Le) (g : Grid) (r : Reservations) (A B : String)
      (cA cB goalA goalB : Cell) (p q : List Cell), A ≠ B → cA ≠ cB →
      spaceTimeAStar g r A pq cA goalA = some p →
      spaceTimeAStar g (r.commitReservation g A p) B pq cB goalB = some q →
      Apart (cA :: p) (cB :: q) := by
  intro h
  have hapart := h (.scan _) ⟨20, 12⟩ .empty "AMR-1" "AMR-2" ⟨3, 2⟩ ⟨4, 2⟩ ⟨5, 2⟩ ⟨2, 2⟩
    [⟨4, 2⟩, ⟨5, 2⟩] [⟨3, 2⟩, ⟨2, 2⟩] (by decide) (by decide) (by decide)
    (by decide)
  exact hapart.2 0 ⟨3, 2⟩ ⟨4, 2⟩ ⟨4, 2⟩ ⟨3, 2⟩ rfl rfl rfl rfl ⟨rfl, rfl⟩

end TwoPlans

end MatrixFactory
