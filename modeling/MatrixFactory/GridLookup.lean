/-
# Lookups in the property tables

The three index searches of `_numba_ops_core.pyx` over the same grids: the weights that are shared
between tables, the bilinear interpolation of one table, and the enthalpy of a mixture.

The first and the last clamp the query to the grid.  `bilinear_interp_jit` clamps the cell only: its
weights are those of the query itself, and outside of the grid it goes on along the outermost cell.
-/
import MatrixFactory.Lib.Polygon
import MatrixFactory.Lib.Numerals

namespace MatrixFactory

open Polygon
open scoped Numerals

namespace NumbaOps

/-! ## The code -/

section code

variable {K : Type} [Field K] [LinearOrder K]

/-- The loop of `_bisect_left`. -/
def bisectLoop (arr : List K) (val : K) (lo hi : ℕ) : Option ℕ :=
  if lo < hi then
    arr[(lo + hi) / 2]?.bind fun a =>
      if a < val then bisectLoop arr val ((lo + hi) / 2 + 1) hi
      else bisectLoop arr val lo ((lo + hi) / 2)
  else some lo
termination_by hi - lo

def bisectLeft (arr : List K) (val : K) (n : ℕ) : Option ℕ := bisectLoop arr val 0 n

/-- An entry of a table. -/
def entry (data : List (List K)) (i j : ℕ) : Option K := data[i]?.bind (·[j]?)

/-- One axis of `get_interp_weights_jit`: the cell and the weight of its right end. -/
def axisWeight (grid : List K) (x : K) : Option (ℕ × K) := do
  let first ← grid[0]?
  let last ← grid[grid.length - 1]?
  if x ≤ first then
    pure (0, 0)
  else if x ≥ last then
    pure (grid.length - 2, 1)
  else
    let ix := (← bisectLeft grid x grid.length) - 1
    let x0 ← grid[ix]?
    let x1 ← grid[ix + 1]?
    pure (ix, (x - x0) / (x1 - x0))

def getInterpWeightsJit (grid_x grid_y : List K) (x y : K) : Option (ℕ × ℕ × K × K) := do
  let (ix, wx) ← axisWeight grid_x x
  let (iy, wy) ← axisWeight grid_y y
  pure (ix, iy, wx, wy)

def interpFromWeightsJit (data : List (List K)) (ix iy : ℕ) (wx wy : K) : Option K := do
  let f00 ← entry data ix iy
  let f10 ← entry data (ix + 1) iy
  let f01 ← entry data ix (iy + 1)
  let f11 ← entry data (ix + 1) (iy + 1)
  pure ((1 - wx) * (1 - wy) * f00 + wx * (1 - wy) * f10 + (1 - wx) * wy * f01 + wx * wy * f11)

/-- One axis of `bilinear_interp_jit`: the right end of the cell. -/
def axisIndex (grid : List K) (x : K) : Option ℕ := do
  let first ← grid[0]?
  let last ← grid[grid.length - 1]?
  if x ≤ first then
    pure 1
  else if x ≥ last then
    pure (grid.length - 1)
  else
    let ix ← bisectLeft grid x grid.length
    pure (if ix = 0 then 1 else ix)

def bilinearInterpJit (grid_x grid_y : List K) (data : List (List K)) (x y : K) : Option K := do
  let ix ← axisIndex grid_x x
  let iy ← axisIndex grid_y y
  let x0 ← grid_x[ix - 1]?
  let x1 ← grid_x[ix]?
  let y0 ← grid_y[iy - 1]?
  let y1 ← grid_y[iy]?
  let q00 ← entry data (ix - 1) (iy - 1)
  let q01 ← entry data (ix - 1) iy
  let q10 ← entry data ix (iy - 1)
  let q11 ← entry data ix iy
  let dx := x1 - x0
  let dy := y1 - y0
  let wx := if dx = 0 then 0 else (x - x0) / dx
  let wy := if dy = 0 then 0 else (y - y0) / dy
  pure (q00 * (1 - wx) * (1 - wy) + q10 * wx * (1 - wy) + q01 * (1 - wx) * wy + q11 * wx * wy)

/-- The query of `get_mixture_enthalpy_fast`, clamped to the grid. -/
def lookupPoint (grid : List K) (x : K) : Option K := do
  let first ← grid[0]?
  let last ← grid[grid.length - 1]?
  pure (if x < first then first else if x > last then last else x)

/-- One axis of `get_mixture_enthalpy_fast`: the right end of the cell. -/
def lookupIndex (grid : List K) (lookup : K) : Option ℕ := do
  let ix ← bisectLeft grid lookup grid.length
  pure (if ix = 0 then 1 else if ix ≥ grid.length then grid.length - 1 else ix)

def getMixtureEnthalpyFast (stacked_H : List (List (List K))) (P_grid T_grid mass_fracs : List K)
    (P_sys T_k : K) : Option K := do
  let P_lookup ← lookupPoint P_grid P_sys
  let T_lookup ← lookupPoint T_grid T_k
  let ix ← lookupIndex P_grid P_lookup
  let iy ← lookupIndex T_grid T_lookup
  let p0 ← P_grid[ix - 1]?
  let p1 ← P_grid[ix]?
  let t0 ← T_grid[iy - 1]?
  let t1 ← T_grid[iy]?
  let wp := if p1 ≠ p0 then (P_lookup - p0) / (p1 - p0) else 0
  let wt := if t1 ≠ t0 then (T_lookup - t0) / (t1 - t0) else 0
  (List.range mass_fracs.length).foldlM (fun h_mix i => do
    let w_i ← mass_fracs[i]?
    if w_i < 1 / 10 ^ 12 then
      pure h_mix
    else
      let H_table ← stacked_H[i]?
      let q00 ← entry H_table (ix - 1) (iy - 1)
      let q01 ← entry H_table (ix - 1) iy
      let q10 ← entry H_table ix (iy - 1)
      let q11 ← entry H_table ix iy
      let h_i := q00 * (1 - wp) * (1 - wt) + q10 * wp * (1 - wt) + q01 * (1 - wp) * wt +
        q11 * wp * wt
      pure (h_mix + w_i * h_i)) 0

end code

/-! ## Grids and tables -/

variable {K : Type} [LinearOrder K]

/-- A grid has two points or more, in their order. -/
structure LookupGrid (K : Type) [LT K] where
  points : List K
  two_le : 2 ≤ points.length
  increasing : points.Pairwise (· < ·)

/-- A table has a row for each point of one grid, and in it an entry for each point of another. -/
structure LookupTable (gx gy : LookupGrid K) where
  rows : List (List K)
  length_rows : rows.length = gx.points.length
  length_row : ∀ row ∈ rows, row.length = gy.points.length

namespace LookupGrid

variable (g : LookupGrid K)

theorem points_ne_nil : g.points ≠ [] :=
  List.ne_nil_of_length_pos (Nat.lt_of_lt_of_le Nat.zero_lt_two g.two_le)

def first : K := g.points.head g.points_ne_nil

def last : K := g.points.getLast g.points_ne_nil

/-- The nearest point of the grid's range. -/
def clamp (x : K) : K := max g.first (min g.last x)

/-- The point lies in the range of the grid. -/
def InRange (x : K) : Prop := g.first ≤ x ∧ x ≤ g.last

/-- A cell of the grid in which the point lies. -/
structure CellAt (i : ℕ) (a b x : K) : Prop where
  cell : Next g.points i a b
  lower : a ≤ x
  upper : x ≤ b

variable {g} {i j : ℕ} {a b x : K}

theorem getElem?_zero : g.points[0]? = some g.first := by
  rw [first, List.head_eq_getElem, List.getElem?_eq_getElem]

theorem getElem?_last : g.points[g.points.length - 1]? = some g.last := by
  rw [last, List.getLast_eq_getElem, List.getElem?_eq_getElem]

theorem exists_point (h : i < g.points.length) : ∃ a, g.points[i]? = some a :=
  ⟨g.points[i], List.getElem?_eq_getElem h⟩

theorem lt_length (h : g.points[i]? = some a) : i < g.points.length :=
  (List.getElem?_eq_some_iff.mp h).1

theorem lt_of_lt (h : i < j) (ha : g.points[i]? = some a) (hb : g.points[j]? = some b) : a < b := by
  obtain ⟨hi, rfl⟩ := List.getElem?_eq_some_iff.mp ha
  obtain ⟨hj, rfl⟩ := List.getElem?_eq_some_iff.mp hb
  exact List.pairwise_iff_getElem.mp g.increasing i j hi hj h

theorem le_of_le (h : i ≤ j) (ha : g.points[i]? = some a) (hb : g.points[j]? = some b) : a ≤ b := by
  rcases Nat.lt_or_eq_of_le h with hlt | rfl
  · exact (lt_of_lt hlt ha hb).le
  · exact (Option.some.inj (ha.symm.trans hb)).le

theorem first_le_last : g.first ≤ g.last := le_of_le (Nat.zero_le _) getElem?_zero getElem?_last

theorem clamp_of_inRange (h : g.InRange x) : g.clamp x = x := by
  rw [clamp, min_eq_right h.2, max_eq_right h.1]

theorem clamp_of_le_first (h : x ≤ g.first) : g.clamp x = g.first := by
  rw [clamp, max_eq_left ((min_le_right _ _).trans h)]

theorem clamp_of_last_le (h : g.last ≤ x) : g.clamp x = g.last := by
  rw [clamp, min_eq_left h, max_eq_right first_le_last]

theorem clamp_inRange (x : K) : g.InRange (g.clamp x) :=
  ⟨le_max_left _ _, max_le first_le_last (min_le_left _ _)⟩

/-- A point that stays where it is lies in the range. -/
theorem clamp_eq_iff : g.clamp x = x ↔ g.InRange x :=
  ⟨fun h => h ▸ clamp_inRange x, clamp_of_inRange⟩

/-- The first cell. -/
theorem cellAt_first (h : x ≤ g.first) : ∃ b, g.CellAt 0 g.first b (g.clamp x) := by
  obtain ⟨b, hb⟩ := exists_point (g := g) (i := 1) g.two_le
  refine ⟨b, ⟨getElem?_zero, hb⟩, ?_, ?_⟩
  · rw [clamp_of_le_first h]
  · rw [clamp_of_le_first h]
    exact (lt_of_lt Nat.zero_lt_one getElem?_zero hb).le

/-- The last cell. -/
theorem cellAt_last (h : g.last ≤ x) :
    ∃ a, g.CellAt (g.points.length - 2) a g.last (g.clamp x) := by
  have htwo := g.two_le
  have hnext : g.points.length - 2 + 1 = g.points.length - 1 := by omega
  obtain ⟨a, ha⟩ := exists_point (g := g) (i := g.points.length - 2) (by omega)
  have hlast : g.points[g.points.length - 2 + 1]? = some g.last := hnext ▸ getElem?_last
  refine ⟨a, ⟨ha, hlast⟩, ?_, ?_⟩
  · rw [clamp_of_last_le h]
    exact (lt_of_lt (Nat.lt_succ_self _) ha hlast).le
  · rw [clamp_of_last_le h]

end LookupGrid

/-! ## The index searches -/

variable {g : LookupGrid K} {x : K}

/-- **The binary search** finds the place of the value among the points. -/
theorem bisectLoop_spec (g : LookupGrid K) (val : K) {lo hi : ℕ} (hlo : lo ≤ hi)
    (hhi : hi ≤ g.points.length)
    (hbelow : ∀ i a, i < lo → g.points[i]? = some a → a < val)
    (habove : ∀ i a, hi ≤ i → g.points[i]? = some a → val ≤ a) :
    ∃ k, bisectLoop g.points val lo hi = some k ∧ k ≤ g.points.length ∧
      (∀ i a, i < k → g.points[i]? = some a → a < val) ∧
        ∀ i a, k ≤ i → g.points[i]? = some a → val ≤ a := by
  induction hn : hi - lo using Nat.strong_induction_on generalizing lo hi with
  | _ n ih =>
    rw [bisectLoop]
    split_ifs with hlt
    · obtain ⟨a, ha⟩ := LookupGrid.exists_point (g := g) (i := (lo + hi) / 2) (by omega)
      rw [ha, Option.bind_some]
      split_ifs with hval
      · refine ih (hi - ((lo + hi) / 2 + 1)) (by omega) (by omega) hhi (fun i b hib hb => ?_)
          habove rfl
        exact (LookupGrid.le_of_le (Nat.le_of_lt_succ hib) hb ha).trans_lt hval
      · refine ih ((lo + hi) / 2 - lo) (by omega) (by omega) (by omega) hbelow
          (fun i b hib hb => ?_) rfl
        exact (not_lt.mp hval).trans (LookupGrid.le_of_le hib ha hb)
    · obtain rfl := Nat.le_antisymm hlo (not_lt.mp hlt)
      exact ⟨lo, rfl, hhi, hbelow, habove⟩

/-- A value behind the first point and not behind the last has its place at the right end of its
cell. -/
theorem bisectLeft_spec (hfirst : g.first < x) (hlast : x ≤ g.last) :
    ∃ i a b, g.CellAt i a b x ∧ bisectLeft g.points x g.points.length = some (i + 1) := by
  obtain ⟨k, hk, hlength, hbelow, habove⟩ := bisectLoop_spec g x (Nat.zero_le _) le_rfl
    (fun i a hi => absurd hi (Nat.not_lt_zero i))
    (fun i a hi ha => absurd (LookupGrid.lt_length ha) hi.not_gt)
  have hpos : k ≠ 0 := by
    rintro rfl
    exact (habove 0 _ le_rfl LookupGrid.getElem?_zero).not_gt hfirst
  have hlt : k < g.points.length := by
    refine lt_of_le_of_ne hlength fun heq => ?_
    have htwo := g.two_le
    exact (hbelow _ _ (by omega) LookupGrid.getElem?_last).not_ge hlast
  obtain ⟨i, rfl⟩ := Nat.exists_eq_succ_of_ne_zero hpos
  obtain ⟨a, ha⟩ := LookupGrid.exists_point (g := g) (i := i) (Nat.lt_of_succ_lt hlt)
  obtain ⟨b, hb⟩ := LookupGrid.exists_point hlt
  exact ⟨i, a, b, ⟨⟨ha, hb⟩, (hbelow i a (Nat.lt_succ_self i) ha).le, habove _ b le_rfl hb⟩, hk⟩

/-- `bilinear_interp_jit` finds a cell of the clamped query. -/
theorem axisIndex_spec (g : LookupGrid K) (x : K) : ∃ i a b, g.CellAt i a b (g.clamp x) ∧
    axisIndex g.points x = some (i + 1) := by
  simp only [axisIndex, LookupGrid.getElem?_zero, LookupGrid.getElem?_last, Option.bind_eq_bind,
    Option.bind_some, Option.pure_def]
  split_ifs with hfirst hlast
  · obtain ⟨b, hcell⟩ := LookupGrid.cellAt_first hfirst
    exact ⟨0, g.first, b, hcell, rfl⟩
  · obtain ⟨a, hcell⟩ := LookupGrid.cellAt_last hlast
    refine ⟨g.points.length - 2, a, g.last, hcell, ?_⟩
    have htwo := g.two_le
    rw [show g.points.length - 2 + 1 = g.points.length - 1 by omega]
  · obtain ⟨i, a, b, hcell, hbisect⟩ :=
      bisectLeft_spec (not_le.mp hfirst) (not_le.mp hlast).le
    have hclamp : g.clamp x = x :=
      LookupGrid.clamp_of_inRange ⟨(not_le.mp hfirst).le, (not_le.mp hlast).le⟩
    refine ⟨i, a, b, hclamp.symm ▸ hcell, ?_⟩
    rw [hbisect, Option.bind_some, if_neg (Nat.succ_ne_zero i)]

theorem lookupPoint_eq (g : LookupGrid K) (x : K) :
    lookupPoint g.points x = some (g.clamp x) := by
  simp only [lookupPoint, LookupGrid.getElem?_zero, LookupGrid.getElem?_last, Option.bind_eq_bind,
    Option.bind_some, Option.pure_def]
  split_ifs with hfirst hlast
  · rw [LookupGrid.clamp_of_le_first hfirst.le]
  · rw [LookupGrid.clamp_of_last_le hlast.le]
  · rw [LookupGrid.clamp_of_inRange ⟨not_lt.mp hfirst, not_lt.mp hlast⟩]

/-- `get_mixture_enthalpy_fast` finds a cell of the clamped query. -/
theorem lookupIndex_spec (g : LookupGrid K) (x : K) : ∃ i a b, g.CellAt i a b (g.clamp x) ∧
    lookupIndex g.points (g.clamp x) = some (i + 1) := by
  obtain ⟨hfirst, hlast⟩ := LookupGrid.clamp_inRange (g := g) x
  simp only [lookupIndex, Option.bind_eq_bind, Option.pure_def]
  rcases hfirst.lt_or_eq with hlt | heq
  · obtain ⟨i, a, b, hcell, hbisect⟩ := bisectLeft_spec hlt hlast
    have hlength := LookupGrid.lt_length hcell.cell.right
    refine ⟨i, a, b, hcell, ?_⟩
    rw [hbisect, Option.bind_some, if_neg (Nat.succ_ne_zero i), if_neg hlength.not_ge]
  · -- the search stops at the first point
    obtain ⟨k, hk, -, hbelow, -⟩ := bisectLoop_spec g (g.clamp x) (Nat.zero_le _) le_rfl
      (fun i a hi => absurd hi (Nat.not_lt_zero i))
      (fun i a hi ha => absurd (LookupGrid.lt_length ha) hi.not_gt)
    have hzero : k = 0 := by
      by_contra hne
      exact (hbelow 0 _ (Nat.pos_of_ne_zero hne) LookupGrid.getElem?_zero).ne heq
    obtain ⟨b, hcell⟩ := LookupGrid.cellAt_first (g := g) (x := g.first) le_rfl
    rw [LookupGrid.clamp_of_le_first le_rfl, heq] at hcell
    refine ⟨0, g.first, b, heq ▸ hcell, ?_⟩
    rw [bisectLeft, hk, hzero, Option.bind_some, if_pos rfl]

variable [Field K]

/-- `get_interp_weights_jit` finds a cell of the clamped query and its weight there. -/
theorem axisWeight_spec (g : LookupGrid K) (x : K) : ∃ i a b, g.CellAt i a b (g.clamp x) ∧
    axisWeight g.points x = some (i, (g.clamp x - a) / (b - a)) := by
  simp only [axisWeight, LookupGrid.getElem?_zero, LookupGrid.getElem?_last, Option.bind_eq_bind,
    Option.bind_some, Option.pure_def]
  split_ifs with hfirst hlast
  · obtain ⟨b, hcell⟩ := LookupGrid.cellAt_first hfirst
    refine ⟨0, g.first, b, hcell, ?_⟩
    rw [LookupGrid.clamp_of_le_first hfirst, sub_self, zero_div]
  · obtain ⟨a, hcell⟩ := LookupGrid.cellAt_last hlast
    refine ⟨g.points.length - 2, a, g.last, hcell, ?_⟩
    rw [LookupGrid.clamp_of_last_le hlast,
      div_self (sub_ne_zero.mpr (lt_of_next g.increasing hcell.cell).ne')]
  · obtain ⟨i, a, b, hcell, hbisect⟩ :=
      bisectLeft_spec (not_le.mp hfirst) (not_le.mp hlast).le
    have hclamp : g.clamp x = x :=
      LookupGrid.clamp_of_inRange ⟨(not_le.mp hfirst).le, (not_le.mp hlast).le⟩
    refine ⟨i, a, b, hclamp.symm ▸ hcell, ?_⟩
    simp only [hbisect, Option.bind_some, Nat.add_sub_cancel, hcell.cell.left, hcell.cell.right,
      hclamp]

/-! ## The interpolations -/

variable {gx gy : LookupGrid K}

/-- The bilinear interpolant at the clamped query. -/
def interpolant (data : LookupTable gx gy) (x y : K) : K :=
  surface gx.points gy.points data.rows (gx.clamp x) (gy.clamp y)

/-- The table of a function of the points. -/
def tabulate (gx gy : LookupGrid K) (f : K → K → K) : LookupTable gx gy where
  rows := gx.points.map fun a => gy.points.map (f a)
  length_rows := List.length_map _
  length_row := by
    intro row hrow
    obtain ⟨a, -, rfl⟩ := List.mem_map.mp hrow
    exact List.length_map _

omit [Field K] in
theorem entry_tabulate {f : K → K → K} {i j : ℕ} {a c : K} (ha : gx.points[i]? = some a)
    (hc : gy.points[j]? = some c) : entry (tabulate gx gy f).rows i j = some (f a c) := by
  simp only [entry, tabulate, List.getElem?_map, ha, hc, Option.map_some, Option.bind_some]

/-- The four entries at the corners of a cell. -/
structure Corners (data : LookupTable gx gy) (i j : ℕ) (q₀₀ q₀₁ q₁₀ q₁₁ : K) : Prop where
  q₀₀ : entry data.rows i j = some q₀₀
  q₀₁ : entry data.rows i (j + 1) = some q₀₁
  q₁₀ : entry data.rows (i + 1) j = some q₁₀
  q₁₁ : entry data.rows (i + 1) (j + 1) = some q₁₁

omit [Field K] in
theorem exists_corners (data : LookupTable gx gy) {i j : ℕ} {a b c d : K}
    (hx : Next gx.points i a b) (hy : Next gy.points j c d) :
    ∃ q₀₀ q₀₁ q₁₀ q₁₁, Corners data i j q₀₀ q₀₁ q₁₀ q₁₁ := by
  have hentry : ∀ {i j : ℕ} {a c : K}, gx.points[i]? = some a → gy.points[j]? = some c →
      ∃ q, entry data.rows i j = some q := by
    intro i j a c ha hc
    have hi : i < data.rows.length := data.length_rows ▸ LookupGrid.lt_length ha
    have hj : j < data.rows[i].length :=
      data.length_row _ (List.getElem_mem hi) ▸ LookupGrid.lt_length hc
    refine ⟨data.rows[i][j], ?_⟩
    rw [entry, List.getElem?_eq_getElem hi, Option.bind_some, List.getElem?_eq_getElem hj]
  obtain ⟨q₀₀, h₀₀⟩ := hentry hx.left hy.left
  obtain ⟨q₀₁, h₀₁⟩ := hentry hx.left hy.right
  obtain ⟨q₁₀, h₁₀⟩ := hentry hx.right hy.left
  obtain ⟨q₁₁, h₁₁⟩ := hentry hx.right hy.right
  exact ⟨q₀₀, q₀₁, q₁₀, q₁₁, h₀₀, h₀₁, h₁₀, h₁₁⟩

/-- **The interpolant over a cell** of the clamped query. -/
theorem interpolant_eq (data : LookupTable gx gy) {i j : ℕ} {a b c d x y q₀₀ q₀₁ q₁₀ q₁₁ : K}
    (hx : gx.CellAt i a b (gx.clamp x)) (hy : gy.CellAt j c d (gy.clamp y))
    (hq : Corners data i j q₀₀ q₀₁ q₁₀ q₁₁) : interpolant data x y =
      line a (line c q₀₀ d q₀₁ (gy.clamp y)) b (line c q₁₀ d q₁₁ (gy.clamp y)) (gx.clamp x) := by
  obtain ⟨r, hr, h₀₀⟩ := Option.bind_eq_some_iff.mp hq.q₀₀
  obtain ⟨r', hr', h₁₀⟩ := Option.bind_eq_some_iff.mp hq.q₁₀
  have h₀₁ : r[j + 1]? = some q₀₁ := by
    have h := hq.q₀₁
    rwa [entry, hr, Option.bind_some] at h
  have h₁₁ : r'[j + 1]? = some q₁₁ := by
    have h := hq.q₁₁
    rwa [entry, hr', Option.bind_some] at h
  exact surface_next gx.increasing gy.increasing hx.cell hy.cell ⟨hr, hr'⟩ ⟨h₀₀, h₀₁⟩
    ⟨h₁₀, h₁₁⟩ hx.lower hx.upper hy.lower hy.upper

/-- The pair of shared weights and their use on a table. -/
def interpByWeights (gx gy : LookupGrid K) (data : LookupTable gx gy) (x y : K) : Option K :=
  (getInterpWeightsJit gx.points gy.points x y).bind fun (ix, iy, wx, wy) =>
    interpFromWeightsJit data.rows ix iy wx wy

/-- **The shared weights** are those of the clamped query. -/
theorem interpByWeights_eq (data : LookupTable gx gy) (x y : K) :
    interpByWeights gx gy data x y = some (interpolant data x y) := by
  obtain ⟨i, a, b, hx, hix⟩ := axisWeight_spec gx x
  obtain ⟨j, c, d, hy, hiy⟩ := axisWeight_spec gy y
  obtain ⟨q₀₀, q₀₁, q₁₀, q₁₁, hq⟩ := exists_corners data hx.cell hy.cell
  simp only [interpByWeights, getInterpWeightsJit, hix, hiy, interpFromWeightsJit, hq.q₀₀, hq.q₀₁,
    hq.q₁₀, hq.q₁₁, Option.bind_eq_bind, Option.bind_some, Option.pure_def, Option.some_inj]
  rw [interpolant_eq data hx hy hq]
  unfold line
  ring

/-- **The bilinear interpolation** goes on along the cell of the clamped query. -/
theorem bilinearInterpJit_spec (gx gy : LookupGrid K) (x y : K) : ∃ i a b j c d,
    gx.CellAt i a b (gx.clamp x) ∧ gy.CellAt j c d (gy.clamp y) ∧
      ∀ data : LookupTable gx gy, ∀ q₀₀ q₀₁ q₁₀ q₁₁, Corners data i j q₀₀ q₀₁ q₁₀ q₁₁ →
        bilinearInterpJit gx.points gy.points data.rows x y =
          some (line a (line c q₀₀ d q₀₁ y) b (line c q₁₀ d q₁₁ y) x) := by
  obtain ⟨i, a, b, hx, hix⟩ := axisIndex_spec gx x
  obtain ⟨j, c, d, hy, hiy⟩ := axisIndex_spec gy y
  refine ⟨i, a, b, j, c, d, hx, hy, fun data q₀₀ q₀₁ q₁₀ q₁₁ hq => ?_⟩
  have hab : b - a ≠ 0 := sub_ne_zero.mpr (lt_of_next gx.increasing hx.cell).ne'
  have hcd : d - c ≠ 0 := sub_ne_zero.mpr (lt_of_next gy.increasing hy.cell).ne'
  simp only [bilinearInterpJit, hix, hiy, Nat.add_sub_cancel, hx.cell.left, hx.cell.right,
    hy.cell.left, hy.cell.right, hq.q₀₀, hq.q₀₁, hq.q₁₀, hq.q₁₁, Option.bind_eq_bind,
    Option.bind_some, Option.pure_def, Option.some_inj, if_neg hab, if_neg hcd]
  unfold line
  ring

variable [IsStrictOrderedRing K]

/-- **The enthalpy of one component** is the interpolant. -/
theorem getMixtureEnthalpyFast_eq (data : LookupTable gx gy) (x y : K) :
    getMixtureEnthalpyFast [data.rows] gx.points gy.points [1] x y =
      some (interpolant data x y) := by
  obtain ⟨i, a, b, hx, hix⟩ := lookupIndex_spec gx x
  obtain ⟨j, c, d, hy, hiy⟩ := lookupIndex_spec gy y
  obtain ⟨q₀₀, q₀₁, q₁₀, q₁₁, hq⟩ := exists_corners data hx.cell hy.cell
  have hab : b ≠ a := (lt_of_next gx.increasing hx.cell).ne'
  have hcd : d ≠ c := (lt_of_next gy.increasing hy.cell).ne'
  have hone : ¬(1 : K) < 1 / 10 ^ 12 := by norm_num
  have hrange : List.range [(1 : K)].length = [0] := rfl
  unfold getMixtureEnthalpyFast
  rw [lookupPoint_eq, lookupPoint_eq, hrange]
  dsimp only [Option.bind_eq_bind, Option.bind_some]
  rw [hix, hiy]
  dsimp only [Option.bind_some]
  rw [Nat.add_sub_cancel, Nat.add_sub_cancel, hx.cell.left, hx.cell.right, hy.cell.left, hy.cell.right]
  dsimp only [Option.bind_some]
  rw [if_pos hab, if_pos hcd]
  simp only [List.foldlM_cons, List.foldlM_nil, List.getElem?_cons_zero, hq.q₀₀, hq.q₀₁, hq.q₁₀,
    hq.q₁₁, Option.bind_eq_bind, Option.bind_some, Option.pure_def, Option.some_inj, if_neg hone]
  rw [interpolant_eq data hx hy hq]
  unfold line
  ring

/-- The interpolant stays within bounds of the entries. -/
theorem interpolant_mem (data : LookupTable gx gy) {lo hi : K}
    (h : ∀ row ∈ data.rows, ∀ q ∈ row, lo ≤ q ∧ q ≤ hi) (x y : K) :
    lo ≤ interpolant data x y ∧ interpolant data x y ≤ hi := by
  obtain ⟨i, a, b, hx, -⟩ := axisIndex_spec gx x
  obtain ⟨j, c, d, hy, -⟩ := axisIndex_spec gy y
  obtain ⟨q₀₀, q₀₁, q₁₀, q₁₁, hq⟩ := exists_corners data hx.cell hy.cell
  have hab := lt_of_next gx.increasing hx.cell
  have hcd := lt_of_next gy.increasing hy.cell
  have hentry : ∀ {i j q}, entry data.rows i j = some q → lo ≤ q ∧ q ≤ hi := by
    intro i j q hq
    obtain ⟨row, hrow, hq⟩ := Option.bind_eq_some_iff.mp hq
    exact h row (List.mem_of_getElem? hrow) q (List.mem_of_getElem? hq)
  have hleft := line_mem hcd hy.lower hy.upper (hentry hq.q₀₀) (hentry hq.q₀₁)
  have hright := line_mem hcd hy.lower hy.upper (hentry hq.q₁₀) (hentry hq.q₁₁)
  rw [interpolant_eq data hx hy hq]
  exact line_mem hab hx.lower hx.upper hleft hright

omit [Field K] [IsStrictOrderedRing K] in
theorem inRange_of_point {g : LookupGrid K} {i : ℕ} {a : K} (h : g.points[i]? = some a) :
    g.InRange a :=
  ⟨LookupGrid.le_of_le (Nat.zero_le i) LookupGrid.getElem?_zero h,
    LookupGrid.le_of_le (Nat.le_sub_one_of_lt (LookupGrid.lt_length h)) h LookupGrid.getElem?_last⟩

omit [IsStrictOrderedRing K] in
/-- The interpolant is exact at the nodes. -/
theorem interpolant_node (data : LookupTable gx gy) {i j : ℕ} {a c q : K}
    (ha : gx.points[i]? = some a) (hc : gy.points[j]? = some c)
    (hq : entry data.rows i j = some q) : interpolant data a c = q := by
  obtain ⟨row, hrow, hq⟩ := Option.bind_eq_some_iff.mp hq
  rw [interpolant, LookupGrid.clamp_of_inRange (inRange_of_point ha),
    LookupGrid.clamp_of_inRange (inRange_of_point hc)]
  exact surface_node gx.increasing gy.increasing ha hc hrow hq

/-- What the three lookups of a table are to give at a query. -/
structure LookupRight (data : LookupTable gx gy) (x y : K) : Prop where
  bilinear : bilinearInterpJit gx.points gy.points data.rows x y = some (interpolant data x y)
  weights : interpByWeights gx gy data x y = some (interpolant data x y)
  mixture : getMixtureEnthalpyFast [data.rows] gx.points gy.points [1] x y =
    some (interpolant data x y)
  bounds : ∀ lo hi, (∀ row ∈ data.rows, ∀ q ∈ row, lo ≤ q ∧ q ≤ hi) →
    lo ≤ interpolant data x y ∧ interpolant data x y ≤ hi
  nodes : ∀ i j q, gx.points[i]? = some x → gy.points[j]? = some y →
    entry data.rows i j = some q → interpolant data x y = q

/-- **The three lookups** agree on every table iff the query lies in the rectangle of the grids. -/
theorem lookupRight_iff (gx gy : LookupGrid K) (x y : K) :
    (∀ data : LookupTable gx gy, LookupRight data x y) ↔ gx.InRange x ∧ gy.InRange y := by
  obtain ⟨i, a, b, j, c, d, hx, hy, hbilinear⟩ := bilinearInterpJit_spec gx gy x y
  have hab : a ≠ b := (lt_of_next gx.increasing hx.cell).ne
  have hcd : c ≠ d := (lt_of_next gy.increasing hy.cell).ne
  constructor
  · intro h
    -- outside of the grids the tables of the coordinates tell the query from the clamped one
    have hcoordinate : ∀ f : K → K → K,
        line a (line c (f a c) d (f a d) y) b (line c (f b c) d (f b d) y) x =
          line a (line c (f a c) d (f a d) (gy.clamp y)) b
            (line c (f b c) d (f b d) (gy.clamp y)) (gx.clamp x) := by
      intro f
      have hq : Corners (tabulate gx gy f) i j (f a c) (f a d) (f b c) (f b d) :=
        ⟨entry_tabulate hx.cell.left hy.cell.left, entry_tabulate hx.cell.left hy.cell.right,
          entry_tabulate hx.cell.right hy.cell.left, entry_tabulate hx.cell.right hy.cell.right⟩
      have hright := (h (tabulate gx gy f)).bilinear
      rw [hbilinear _ _ _ _ _ hq, interpolant_eq _ hx hy hq] at hright
      exact Option.some.inj hright
    constructor
    · have hfirst := hcoordinate fun a _ => a
      simp only [line_const, line_self hab] at hfirst
      exact LookupGrid.clamp_eq_iff.mp hfirst.symm
    · have hsecond := hcoordinate fun _ c => c
      simp only [line_const, line_self hcd] at hsecond
      exact LookupGrid.clamp_eq_iff.mp hsecond.symm
  · rintro ⟨hrx, hry⟩ data
    refine ⟨?_, interpByWeights_eq data x y, getMixtureEnthalpyFast_eq data x y,
      fun lo hi hdata => interpolant_mem data hdata x y,
      fun i j q hi hj hq => interpolant_node data hi hj hq⟩
    obtain ⟨q₀₀, q₀₁, q₁₀, q₁₁, hq⟩ := exists_corners data hx.cell hy.cell
    rw [hbilinear data _ _ _ _ hq, interpolant_eq data hx hy hq, LookupGrid.clamp_of_inRange hrx,
      LookupGrid.clamp_of_inRange hry]

/-- The grid of 0 and 1. -/
def unitGrid : LookupGrid ℚ := ⟨[0, 1], le_rfl, by decide⟩

/-- A query inside of the unit square. -/
theorem lookupRight_iff_inside :
    LookupRight (tabulate unitGrid unitGrid fun a _ => a) (1 / 2) (1 / 3) := by
  refine (lookupRight_iff unitGrid unitGrid (1 / 2) (1 / 3)).mpr ⟨⟨?_, ?_⟩, ?_, ?_⟩ _ <;>
    simp only [unitGrid, LookupGrid.first, LookupGrid.last] <;> norm_num

/-- To the right of the unit square the table of the first coordinate is continued. -/
theorem not_lookupRight : ¬LookupRight (tabulate unitGrid unitGrid fun a _ => a) 2 0 := by
  intro h
  have hcode : bilinearInterpJit unitGrid.points unitGrid.points
      (tabulate unitGrid unitGrid fun a _ => a).rows 2 0 = some 2 := by decide +kernel
  have hvalue : interpolant (tabulate unitGrid unitGrid fun a _ => a) 2 0 = 1 := by decide +kernel
  have hright := h.bilinear
  rw [hcode, hvalue] at hright
  exact absurd hright (by decide)

end NumbaOps

end MatrixFactory
