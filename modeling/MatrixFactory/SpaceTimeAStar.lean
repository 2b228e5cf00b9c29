/-
# The space-time planner

`spaceTimeAStar` of `AMRArtifact`: cooperative A* over (cell, time) against the
reservation table.  The nodes, the five moves and the conflict checks are the
code's; the loop is the best-first search of the library, closed under the packed
`long` key.  `java.util.PriorityQueue` enters through its contract only, so the
results hold however ties in `STNode.compareTo` are broken.

`TimedPath` is the planner's specification: a list of cells that can be driven one
per tick without meeting a reservation of another AMR.

* `spaceTimeAStar_sound`: a returned path is a timed path to the goal.
* `spaceTimeAStar_complete`: if one exists, one that is no longer is returned, as
  long as coordinates and times fit the 12-bit fields of the key.
-/
import MatrixFactory.Grid
import MatrixFactory.Lib.BestFirst

namespace MatrixFactory

/-- `STNode`.  The code builds every node with `g = t`, so `g` is not stored;
`start` is the node without a parent. -/
inductive STNode where
  | start (cell : Cell) (h : ℕ)
  | move (cell : Cell) (t h : ℕ) (parent : STNode)
  deriving Repr

namespace STNode

def cell : STNode → Cell
  | start c _ => c
  | move c _ _ _ => c

def t : STNode → ℕ
  | start _ _ => 0
  | move _ t _ _ => t

def h : STNode → ℕ
  | start _ h => h
  | move _ _ h _ => h

/-- `f = g + h`, with `g = t`. -/
def f (n : STNode) : ℕ := n.t + n.h

/-- `compareTo`: by `f`, ties by lower `h`. -/
def Le (a b : STNode) : Prop := a.f < b.f ∨ a.f = b.f ∧ a.h ≤ b.h

instance : DecidableRel Le := fun a b => by unfold Le; infer_instance

instance : IsTrans STNode Le where
  trans a b c hab hbc := by unfold Le at *; omega

instance : Std.Total Le where
  total a b := by unfold Le; omega

/-- `reconstructPath`: the cells after the start. -/
def reconstructPath : STNode → List Cell
  | start _ _ => []
  | move c _ _ parent => parent.reconstructPath ++ [c]

end STNode

/-- `Math.abs(gx - x) + Math.abs(gy - y)`. -/
def manhattan (goal c : Cell) : ℕ := (goal.x - c.x).natAbs + (goal.y - c.y).natAbs

/-- The direction deltas N, S, E, W and wait. -/
def dirs : List (ℤ × ℤ) := [(0, -1), (0, 1), (1, 0), (-1, 0), (0, 0)]

section Planner

variable (g : Grid) (r : Reservations) (amrId : String)

/-- The checks on the move from `c` to `c'` that starts at time `t`: bounds,
vertex conflict at `t + 1`, edge conflict at `t`. -/
def Passable (c c' : Cell) (t : ℕ) : Prop :=
  g.InBounds c' ∧ (r.reservedBy c' (t + 1) = none ∨ r.reservedBy c' (t + 1) = some amrId) ∧
    (c' ≠ c → edgeKey c' c t ∉ r.edgeReservations)

instance (c c' : Cell) (t : ℕ) : Decidable (Passable g r amrId c c' t) := by
  unfold Passable; infer_instance

/-- The cell one step in direction `d`. -/
def Cell.step (c : Cell) (d : ℤ × ℤ) : Cell := ⟨c.x + d.1, c.y + d.2⟩

/-- The nodes that the `for` loop over `dirs` offers, the closed-set check
aside. -/
def stChildren (goal : Cell) (cur : STNode) : List STNode :=
  if g.horizonTicks ≤ cur.t + 1 then []
  else
    dirs.filterMap fun d =>
      if Passable g r amrId cur.cell (cur.cell.step d) cur.t then
        some (.move (cur.cell.step d) (cur.t + 1) (manhattan goal (cur.cell.step d)) cur)
      else none

/-- The search space of the planner. -/
def stSpace (goal : Cell) : SearchSpace STNode (Cell × ℕ) ℕ where
  state n := (n.cell, n.t)
  isGoal s := decide (s.1 = goal)
  key s := nodeKey s.1 s.2
  children := stChildren g r amrId goal

/-- Enough iterations for every key to be closed once. -/
def stFuel : ℕ := 5 * (g.gridCols * g.gridRows * g.horizonTicks) + 2

/-- `spaceTimeAStar`; `none` is `null`. -/
def spaceTimeAStar (pq : PriorityQueue STNode STNode.Le) (start goal : Cell) :
    Option (List Cell) :=
  ((stSpace g r amrId goal).search pq (stFuel g) [.start start (manhattan goal start)] []).map
    STNode.reconstructPath

/-! ## Timed paths -/

/-- A move of the planner from `c` at time `t`: one of the five directions, and
passable. -/
def LegalMove (c c' : Cell) (t : ℕ) : Prop :=
  (∃ d ∈ dirs, c' = c.step d) ∧ Passable g r amrId c c' t

/-- The last cell of a path driven from `c`. -/
def pathEnd : Cell → List Cell → Cell
  | c, [] => c
  | _, c' :: p => pathEnd c' p

/-- `p` can be driven from `c`, which is occupied at time `t`, within the
horizon. -/
def TimedPath : Cell → ℕ → List Cell → Prop
  | _, _, [] => True
  | c, t, c' :: p => t + 1 < g.horizonTicks ∧ LegalMove g r amrId c c' t ∧ TimedPath c' (t + 1) p

variable {g r amrId}

theorem mem_stChildren {goal : Cell} {cur m : STNode} :
    m ∈ stChildren g r amrId goal cur ↔
      cur.t + 1 < g.horizonTicks ∧ LegalMove g r amrId cur.cell m.cell cur.t ∧
        m = .move m.cell (cur.t + 1) (manhattan goal m.cell) cur := by
  unfold stChildren
  split
  · next h => simp only [List.not_mem_nil, false_iff, not_and]; omega
  · next h =>
    simp only [List.mem_filterMap, Option.ite_none_right_eq_some, Option.some.injEq, LegalMove]
    constructor
    · rintro ⟨d, hd, hp, rfl⟩
      exact ⟨by omega, ⟨⟨d, hd, rfl⟩, hp⟩, rfl⟩
    · rintro ⟨-, ⟨⟨d, hd, hc⟩, hp⟩, hm⟩
      exact ⟨d, hd, hc ▸ hp, by rw [← hc, ← hm]⟩

theorem timedPath_append {c : Cell} {t : ℕ} {p q : List Cell} :
    TimedPath g r amrId c t (p ++ q) ↔
      TimedPath g r amrId c t p ∧
        TimedPath g r amrId (pathEnd c p) (t + p.length) q := by
  induction p generalizing c t with
  | nil => simp [TimedPath, pathEnd]
  | cons c' p ih =>
    rw [List.cons_append, TimedPath, TimedPath, ih, pathEnd, List.length_cons,
      show t + 1 + p.length = t + (p.length + 1) by omega]
    tauto

@[simp] theorem pathEnd_concat (c c' : Cell) (p : List Cell) : pathEnd c (p ++ [c']) = c' := by
  induction p generalizing c with
  | nil => rfl
  | cons d p ih => exact ih d

theorem TimedPath.inBounds {c : Cell} {t : ℕ} {p : List Cell} (h : TimedPath g r amrId c t p) :
    ∀ c' ∈ p, g.InBounds c' := by
  induction p generalizing c t with
  | nil => simp
  | cons c' p ih =>
    obtain ⟨-, hmove, hp⟩ := h
    intro c'' hc
    rcases List.mem_cons.mp hc with rfl | hc
    · exact hmove.2.1
    · exact ih hp c'' hc

theorem TimedPath.length_lt {c : Cell} {t : ℕ} {p : List Cell} (h : TimedPath g r amrId c t p)
    (hp : p ≠ []) : t + p.length < g.horizonTicks := by
  induction p generalizing c t with
  | nil => exact absurd rfl hp
  | cons c' p ih =>
    obtain ⟨hlt, -, hrest⟩ := h
    by_cases hnil : p = []
    · subst hnil
      simpa using hlt
    · have := ih hrest hnil
      rw [List.length_cons]
      omega

/-- One move changes the distance to the goal by at most one. -/
theorem manhattan_step_le (goal c : Cell) {d : ℤ × ℤ} (hd : d ∈ dirs) :
    manhattan goal c ≤ manhattan goal (c.step d) + 1 := by
  simp only [dirs, List.mem_cons, List.not_mem_nil, or_false] at hd
  rcases hd with rfl | rfl | rfl | rfl | rfl <;> simp only [manhattan, Cell.step] <;> omega

theorem TimedPath.manhattan_le {goal c : Cell} {t : ℕ} {p : List Cell}
    (h : TimedPath g r amrId c t p) (hlast : pathEnd c p = goal) :
    manhattan goal c ≤ p.length := by
  induction p generalizing c t with
  | nil =>
    obtain rfl : c = goal := hlast
    simp [manhattan]
  | cons c' p ih =>
    obtain ⟨-, ⟨⟨d, hd, rfl⟩, -⟩, hrest⟩ := h
    have hstep := manhattan_step_le goal c hd
    have hih := ih hrest hlast
    rw [List.length_cons]
    omega

/-! ## Soundness -/

/-- What every node of a search from `start` to `goal` satisfies: its parent chain
is a timed path from the start to it. -/
structure NodeOK (g : Grid) (r : Reservations) (amrId : String) (start goal : Cell)
    (n : STNode) : Prop where
  timed : TimedPath g r amrId start 0 n.reconstructPath
  last : pathEnd start n.reconstructPath = n.cell
  length : n.reconstructPath.length = n.t
  h_eq : n.h = manhattan goal n.cell

theorem nodeOK_start (start goal : Cell) :
    NodeOK g r amrId start goal (.start start (manhattan goal start)) where
  timed := by simp [STNode.reconstructPath, TimedPath]
  last := rfl
  length := rfl
  h_eq := rfl

theorem NodeOK.child {start goal : Cell} {n : STNode} (hn : NodeOK g r amrId start goal n) :
    ∀ m ∈ (stSpace g r amrId goal).children n, NodeOK g r amrId start goal m := by
  intro m hm
  obtain ⟨hlt, hmove, hm⟩ := mem_stChildren.mp hm
  rw [hm]
  constructor
  · rw [STNode.reconstructPath, timedPath_append, hn.last, hn.length]
    exact ⟨hn.timed, by simpa using hlt, by simpa using hmove, trivial⟩
  · simp [STNode.reconstructPath, STNode.cell]
  · simp [STNode.reconstructPath, STNode.t, hn.length]
  · rfl

/-- **A returned path is a timed path to the goal.** -/
theorem spaceTimeAStar_sound {pq : PriorityQueue STNode STNode.Le} {start goal : Cell}
    {p : List Cell} (h : spaceTimeAStar g r amrId pq start goal = some p) :
    TimedPath g r amrId start 0 p ∧ pathEnd start p = goal := by
  unfold spaceTimeAStar at h
  obtain ⟨n, hn, rfl⟩ := Option.map_eq_some_iff.mp h
  obtain ⟨hok, hgoal⟩ := (stSpace g r amrId goal).search_sound pq
    (I := NodeOK g r amrId start goal) (fun _ hm => hm.child) _ _ _
    (by simpa using nodeOK_start start goal) n hn
  exact ⟨hok.timed, by rw [hok.last]; simpa [stSpace] using hgoal⟩

/-! ## Completeness -/

/-- The coordinates and times of the grid fit the 12-bit fields of the keys. -/
def Grid.FitsKey (g : Grid) : Prop := g.horizonTicks ≤ 4096

/-- The states a search inside the grid can visit. -/
def StDomain (g : Grid) (s : Cell × ℕ) : Prop := g.InBounds s.1 ∧ s.2 < g.horizonTicks

theorem nodeKey_injOn (hfit : g.FitsKey) {s s' : Cell × ℕ} (hs : StDomain g s)
    (hs' : StDomain g s') (h : nodeKey s.1 s.2 = nodeKey s'.1 s'.2) : s = s' := by
  obtain ⟨⟨x, y⟩, t⟩ := s
  obtain ⟨⟨x', y'⟩, t'⟩ := s'
  simp only [StDomain, Grid.InBounds, Grid.FitsKey, Grid.horizonTicks] at hs hs' hfit h
  rw [nodeKey_eq (by simp only; omega) (by omega), nodeKey_eq (by simp only; omega) (by omega)] at h
  simp only at h
  simp only [Prod.mk.injEq, Cell.mk.injEq]
  omega

variable (r amrId) in
theorem stSpace_domain (hfit : g.FitsKey) (goal : Cell) :
    (stSpace g r amrId goal).Domain (StDomain g) where
  children_mem n _ m hm := by
    obtain ⟨hlt, hmove, hm⟩ := mem_stChildren.mp hm
    have ht : m.t = n.t + 1 := by rw [hm]; rfl
    exact ⟨hmove.2.1, show m.t < _ by omega⟩
  key_inj _ _ hs hs' h := nodeKey_injOn hfit hs hs' h

variable (g r amrId) in
theorem stSpace_stateDetermined (goal : Cell) :
    (stSpace g r amrId goal).StateDetermined := by
  intro n n' m hst hm
  obtain ⟨hlt, hmove, hm⟩ := mem_stChildren.mp hm
  obtain ⟨hcell, ht⟩ : n.cell = n'.cell ∧ n.t = n'.t := by simpa [stSpace] using hst
  refine ⟨.move m.cell (n'.t + 1) (manhattan goal m.cell) n', ?_, ?_⟩
  · refine mem_stChildren.mpr ⟨ht ▸ hlt, ?_, rfl⟩
    rw [← hcell, ← ht]
    exact hmove
  · rw [hm]
    show (m.cell, n'.t + 1) = (m.cell, n.t + 1)
    rw [ht]

theorem edge_of_legalMove {goal c c' : Cell} {t : ℕ} (ht : t + 1 < g.horizonTicks)
    (h : LegalMove g r amrId c c' t) :
    (stSpace g r amrId goal).Edge (c, t) (c', t + 1) :=
  ⟨.move c t 0 (.start c 0), .move c' (t + 1) (manhattan goal c') (.move c t 0 (.start c 0)),
    rfl, mem_stChildren.mpr ⟨ht, h, rfl⟩, rfl⟩

/-- The states a timed path goes through. -/
def pathStates : ℕ → List Cell → List (Cell × ℕ)
  | _, [] => []
  | t, c :: p => (c, t + 1) :: pathStates (t + 1) p

theorem isChain_pathStates (goal : Cell) {c : Cell} {t : ℕ} {p : List Cell}
    (h : TimedPath g r amrId c t p) :
    List.IsChain (stSpace g r amrId goal).Edge ((c, t) :: pathStates t p) := by
  induction p generalizing c t with
  | nil => simp [pathStates]
  | cons c' p ih =>
    obtain ⟨hlt, hmove, hrest⟩ := h
    rw [pathStates, List.isChain_cons_cons]
    exact ⟨edge_of_legalMove hlt hmove, ih hrest⟩

theorem getLast_pathStates (c : Cell) (t : ℕ) (p : List Cell) :
    (((c, t) :: pathStates t p).getLast (by simp)).1 = pathEnd c p := by
  induction p generalizing c t with
  | nil => rfl
  | cons c' p ih =>
    simp only [pathStates, List.getLast_cons_cons]
    exact ih c' (t + 1)

/-- Along a timed path to the goal, time plus distance never exceeds the
arrival time. -/
theorem manhattan_le_of_mem_pathStates {goal c : Cell} {t : ℕ} {p : List Cell}
    (h : TimedPath g r amrId c t p) (hlast : pathEnd c p = goal) :
    ∀ s ∈ (c, t) :: pathStates t p, s.2 + manhattan goal s.1 ≤ t + p.length := by
  induction p generalizing c t with
  | nil =>
    intro s hs
    obtain rfl : s = (c, t) := by simpa [pathStates] using hs
    exact Nat.add_le_add_left (h.manhattan_le hlast) t
  | cons c' p ih =>
    intro s hs
    rcases List.mem_cons.mp hs with rfl | hs
    · exact Nat.add_le_add_left (h.manhattan_le hlast) t
    · have := ih h.2.2 hlast s hs
      rw [List.length_cons]
      omega

/-- The keys of the domain. -/
def stKeys (g : Grid) : Finset ℕ :=
  (Finset.range g.gridCols ×ˢ Finset.range g.gridRows ×ˢ Finset.range g.horizonTicks).image
    fun p => nodeKey ⟨p.1, p.2.1⟩ p.2.2

theorem nodeKey_mem_stKeys {s : Cell × ℕ} (hs : StDomain g s) : nodeKey s.1 s.2 ∈ stKeys g := by
  obtain ⟨⟨x, y⟩, t⟩ := s
  simp only [StDomain, Grid.InBounds] at hs
  refine Finset.mem_image.mpr ⟨(x.toNat, y.toNat, t), ?_, ?_⟩
  · simp only [Finset.mem_product, Finset.mem_range]
    omega
  · simp only [Int.toNat_of_nonneg hs.1.1, Int.toNat_of_nonneg hs.1.2.2.1]

theorem card_stKeys_le (g : Grid) :
    (stKeys g).card ≤ g.gridCols * g.gridRows * g.horizonTicks := by
  refine Finset.card_image_le.trans ?_
  rw [Finset.card_product, Finset.card_product, Finset.card_range, Finset.card_range,
    Finset.card_range, Nat.mul_assoc]

theorem length_stChildren_le (goal : Cell) (n : STNode) :
    (stChildren g r amrId goal n).length ≤ 5 := by
  unfold stChildren
  split
  · simp
  · exact (List.length_filterMap_le _ _).trans (by simp [dirs])

/-- **If a timed path to the goal exists, the planner returns one that arrives no
later.** -/
theorem spaceTimeAStar_complete (hfit : g.FitsKey) (pq : PriorityQueue STNode STNode.Le)
    {start goal : Cell} (hstart : g.InBounds start) {p : List Cell}
    (hp : TimedPath g r amrId start 0 p) (hlast : pathEnd start p = goal) :
    ∃ q, spaceTimeAStar g r amrId pq start goal = some q ∧ q.length ≤ p.length := by
  have hD := stSpace_domain r amrId hfit goal
  have hdet := stSpace_stateDetermined g r amrId goal
  have hs₀ : StDomain g (start, 0) := ⟨hstart, by simp [Grid.horizonTicks]⟩
  have hchain := isChain_pathStates goal hp
  have hgoal : (stSpace g r amrId goal).isGoal
      (((start, 0) :: pathStates 0 p).getLast (by simp)) = true := by
    simpa [stSpace, getLast_pathStates] using hlast
  have hF := SearchSpace.Frontier.init (P := stSpace g r amrId goal)
    (n := .start start (manhattan goal start)) hs₀
  have hfuel : SearchSpace.effort 5 (stKeys g) [STNode.start start (manhattan goal start)] []
      < stFuel g := by
    have := card_stKeys_le g
    simp [SearchSpace.effort, stFuel]
    omega
  have hsome := SearchSpace.search_isSome pq hD hdet (length_stChildren_le goal)
    (fun s hs => nodeKey_mem_stKeys hs) hs₀ hchain hgoal _ _ _ hF hfuel
  obtain ⟨n, hn⟩ := Option.isSome_iff_exists.mp hsome
  have hinit : ∀ m ∈ [STNode.start start (manhattan goal start)],
      NodeOK g r amrId start goal m := by simpa using nodeOK_start start goal
  obtain ⟨hok, hng⟩ := (stSpace g r amrId goal).search_sound pq
    (I := NodeOK g r amrId start goal) (fun _ hm => hm.child) _ _ _ hinit n hn
  obtain ⟨m, hm, hmem, hle⟩ := SearchSpace.search_least pq
    (I := NodeOK g r amrId start goal) (fun _ hm => hm.child) hD hdet hs₀
    hchain hgoal _ _ _ hinit hF n hn
  refine ⟨n.reconstructPath, by rw [spaceTimeAStar, hn]; rfl, ?_⟩
  have hbound := manhattan_le_of_mem_pathStates hp hlast _ hmem
  have hcell : n.cell = goal := by simpa [stSpace] using hng
  have hh := hok.h_eq
  have hmh := hm.h_eq
  have hlen := hok.length
  simp only [STNode.Le, STNode.f] at hle
  simp only [stSpace] at hbound
  rw [hcell] at hh
  simp only [manhattan, sub_self, Int.natAbs_zero, Nat.add_zero] at hh
  omega

/-- The planner answers the empty path exactly when start and goal coincide. -/
theorem spaceTimeAStar_self (pq : PriorityQueue STNode STNode.Le) (c : Cell) :
    spaceTimeAStar g r amrId pq c c = some [] := by
  have hpoll : pq.poll [STNode.start c (manhattan c c)]
      = some (.start c (manhattan c c), []) := by
    obtain ⟨⟨a, rest⟩, h⟩ := Option.isSome_iff_exists.mp
      (pq.poll_isSome [STNode.start c (manhattan c c)] (by simp))
    have hperm := pq.poll_perm _ a rest h
    obtain ⟨rfl, rfl⟩ : a = STNode.start c (manhattan c c) ∧ rest = [] := by
      simpa using (List.singleton_perm.mp hperm).symm
    exact h
  rw [spaceTimeAStar, stFuel, SearchSpace.search, hpoll]
  simp [stSpace, STNode.cell, STNode.reconstructPath]

end Planner

end MatrixFactory
