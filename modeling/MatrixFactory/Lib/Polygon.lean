/-
# Interpolation between nodes

The polygon through given nodes, and the surface through the nodes of a rectangular grid: the
polygon, along one axis, of the polygons along the other.

Over every cell the polygon is the line through the cell's two nodes, so it takes the values at the
nodes and stays between the smallest and the largest of them.
-/
import Mathlib.Algebra.Order.Field.Basic
import Mathlib.Tactic.Linarith
import Mathlib.Tactic.Ring

namespace Polygon

variable {K : Type*} [Field K]

/-- The line through two points. -/
def line (a fa b fb x : K) : K := fa + (x - a) / (b - a) * (fb - fa)

section line

variable {a b fa fb : K}

@[simp] theorem line_left : line a fa b fb a = fa := by
  rw [line, sub_self, zero_div, zero_mul, add_zero]

theorem line_right (h : a ≠ b) : line a fa b fb b = fb := by
  rw [line, div_self (sub_ne_zero.mpr h.symm), one_mul, add_sub_cancel]

theorem line_const (x : K) : line a fa b fa x = fa := by
  rw [line, sub_self, mul_zero, add_zero]

/-- The line with the nodes for values is the diagonal. -/
theorem line_self (h : a ≠ b) (x : K) : line a a b b x = x := by
  rw [line, div_mul_cancel₀ _ (sub_ne_zero.mpr h.symm), add_sub_cancel]

end line

variable [LinearOrder K]

/-- The polygon through the nodes `xs` with the values `fs`. -/
def polygon : List K → List K → K → K
  | a :: b :: xs, fa :: fb :: fs, x =>
    if x ≤ b then line a fa b fb x else polygon (b :: xs) (fb :: fs) x
  | _, fa :: _, _ => fa
  | _, [], _ => 0

/-- The surface through the nodes of a grid, with one row of values for each node of `xs`. -/
def surface (xs ys : List K) (rows : List (List K)) (x y : K) : K :=
  polygon xs (rows.map fun row => polygon ys row y) x

/-- Two neighbours in a list. -/
structure Next {α : Type*} (xs : List α) (i : ℕ) (a b : α) : Prop where
  left : xs[i]? = some a
  right : xs[i + 1]? = some b

variable {xs ys fs : List K} {i j : ℕ} {a b c d fa fb x y lo hi : K}

omit [Field K] in
theorem lt_of_next (hxs : xs.Pairwise (· < ·)) (h : Next xs i a b) : a < b := by
  obtain ⟨hi, rfl⟩ := List.getElem?_eq_some_iff.mp h.left
  obtain ⟨hj, rfl⟩ := List.getElem?_eq_some_iff.mp h.right
  exact List.pairwise_iff_getElem.mp hxs i (i + 1) hi hj (Nat.lt_succ_self i)

section bounds

variable [IsStrictOrderedRing K]

/-- **Between its nodes** a line stays between their values. -/
theorem line_mem (h : a < b) (hax : a ≤ x) (hxb : x ≤ b) (hfa : lo ≤ fa ∧ fa ≤ hi)
    (hfb : lo ≤ fb ∧ fb ≤ hi) : lo ≤ line a fa b fb x ∧ line a fa b fb x ≤ hi := by
  have hlength : 0 < b - a := sub_pos.mpr h
  have hw : 0 ≤ (x - a) / (b - a) := div_nonneg (sub_nonneg.mpr hax) hlength.le
  have hw' : (x - a) / (b - a) ≤ 1 := (div_le_one hlength).mpr (by linarith)
  have hline : line a fa b fb x =
      (1 - (x - a) / (b - a)) * fa + (x - a) / (b - a) * fb := by
    rw [line]
    ring
  have hv : 0 ≤ 1 - (x - a) / (b - a) := sub_nonneg.mpr hw'
  rw [hline]
  constructor
  · have h₁ := mul_le_mul_of_nonneg_left hfa.1 hv
    have h₂ := mul_le_mul_of_nonneg_left hfb.1 hw
    linarith
  · have h₁ := mul_le_mul_of_nonneg_left hfa.2 hv
    have h₂ := mul_le_mul_of_nonneg_left hfb.2 hw
    linarith

end bounds

/-- **Over a cell** the polygon is the line through its nodes. -/
theorem polygon_next (hxs : xs.Pairwise (· < ·)) (hcell : Next xs i a b) (hvalues : Next fs i fa fb)
    (hax : a ≤ x) (hxb : x ≤ b) : polygon xs fs x = line a fa b fb x := by
  induction i generalizing xs fs with
  | zero =>
    obtain ⟨hleft, hright⟩ := hcell
    obtain ⟨hfleft, hfright⟩ := hvalues
    match xs, fs with
    | a' :: b' :: xs, fa' :: fb' :: fs =>
      cases hleft
      cases hright
      cases hfleft
      cases hfright
      rw [polygon, if_pos hxb]
  | succ i ih =>
    obtain ⟨hleft, hright⟩ := hcell
    obtain ⟨hfleft, hfright⟩ := hvalues
    match xs, fs with
    | a' :: b' :: xs, fa' :: fb' :: fs =>
      have htail := (List.pairwise_cons.mp hxs).2
      have hrest := ih htail ⟨hleft, hright⟩ ⟨hfleft, hfright⟩
      rw [polygon]
      split_ifs with hx
      · -- the point is the left node of the second cell
        have hab : a' < b' := (List.pairwise_cons.mp hxs).1 b' List.mem_cons_self
        cases i with
        | zero =>
          cases hleft
          cases hfleft
          rw [le_antisymm hx hax, line_right hab.ne, line_left]
        | succ i =>
          have hlt : b' < a := (List.pairwise_cons.mp htail).1 a (List.mem_of_getElem? hleft)
          exact absurd (hlt.trans_le hax) hx.not_gt
      · exact hrest

/-- The polygon takes the values at its nodes. -/
theorem polygon_node (hxs : xs.Pairwise (· < ·)) (hx : xs[i]? = some a) (hf : fs[i]? = some fa) :
    polygon xs fs a = fa := by
  induction i generalizing xs fs with
  | zero =>
    match xs, fs with
    | [a'], fa' :: fs =>
      cases hx
      cases hf
      rw [polygon]
      exact nofun
    | a' :: b' :: xs, [fa'] =>
      cases hf
      rw [polygon]
      exact nofun
    | a' :: b' :: xs, fa' :: fb' :: fs =>
      cases hx
      cases hf
      rw [polygon, if_pos ((List.pairwise_cons.mp hxs).1 b' List.mem_cons_self).le, line_left]
  | succ i ih =>
    match xs, fs with
    | [_], _ => cases hx
    | _ :: _ :: _, [_] => cases hf
    | a' :: b' :: xs, fa' :: fb' :: fs =>
      have htail := (List.pairwise_cons.mp hxs).2
      have hrest := ih htail hx hf
      rw [polygon]
      split_ifs with hle
      · have hab : a' < b' := (List.pairwise_cons.mp hxs).1 b' List.mem_cons_self
        cases i with
        | zero =>
          cases hx
          cases hf
          exact line_right hab.ne
        | succ i =>
          have hlt : b' < a := (List.pairwise_cons.mp htail).1 a (List.mem_of_getElem? hx)
          exact absurd hlt hle.not_gt
      · exact hrest

/-- Over a cell of the grid. -/
theorem surface_next {rows : List (List K)} {r r' : List K} {q₀₀ q₀₁ q₁₀ q₁₁ : K}
    (hxs : xs.Pairwise (· < ·)) (hys : ys.Pairwise (· < ·)) (hcell : Next xs i a b)
    (hcell' : Next ys j c d) (hrows : Next rows i r r') (hr : Next r j q₀₀ q₀₁)
    (hr' : Next r' j q₁₀ q₁₁) (hax : a ≤ x) (hxb : x ≤ b) (hcy : c ≤ y) (hyd : y ≤ d) :
    surface xs ys rows x y = line a (line c q₀₀ d q₀₁ y) b (line c q₁₀ d q₁₁ y) x := by
  have hvalues : Next (rows.map fun row => polygon ys row y) i (polygon ys r y)
      (polygon ys r' y) := by
    constructor
    · rw [List.getElem?_map, hrows.left, Option.map_some]
    · rw [List.getElem?_map, hrows.right, Option.map_some]
  rw [surface, polygon_next hxs hcell hvalues hax hxb, polygon_next hys hcell' hr hcy hyd,
    polygon_next hys hcell' hr' hcy hyd]

/-- The surface takes the values at its nodes. -/
theorem surface_node {rows : List (List K)} {r : List K} {q : K} (hxs : xs.Pairwise (· < ·))
    (hys : ys.Pairwise (· < ·)) (hx : xs[i]? = some a) (hy : ys[j]? = some c)
    (hrow : rows[i]? = some r) (hq : r[j]? = some q) : surface xs ys rows a c = q := by
  have hvalue : (rows.map fun row => polygon ys row c)[i]? = some (polygon ys r c) := by
    rw [List.getElem?_map, hrow, Option.map_some]
  rw [surface, polygon_node hxs hx hvalue, polygon_node hys hy hq]

end Polygon
