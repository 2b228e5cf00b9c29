/-
# Two samples

The mean of a sample and its squared deviations, and the pairs that one sample wins against
another: a pair counts 1 for the side of the greater value, and half for both where the values are
the same.
-/
import MatrixFactory.Lib.Numerals
import Mathlib.Algebra.Field.Basic
import Mathlib.Algebra.Order.BigOperators.Group.List
import Mathlib.Algebra.Order.Field.Basic
import Mathlib.Tactic.FieldSimp
import Mathlib.Tactic.LinearCombination
import Mathlib.Tactic.NormNum
import Mathlib.Tactic.Positivity
import Mathlib.Tactic.Ring

namespace TwoSamples

open scoped Numerals

variable {K : Type*} [Field K]

/-! ## Means and squared deviations -/

/-- The mean. -/
def mean (xs : List K) : K := xs.sum / xs.length

/-- The squared deviations from the mean, added up. -/
def squares (xs : List K) : K := (xs.map fun x => (x - mean xs) ^ 2).sum

/-- All values are the same. -/
def Constant (xs : List K) : Prop := ∀ x ∈ xs, ∀ y ∈ xs, x = y

/-- Every value of the first sample exceeds every value of the second. -/
def Above [LT K] (xs ys : List K) : Prop := ∀ x ∈ xs, ∀ y ∈ ys, y < x

variable [LinearOrder K] [IsStrictOrderedRing K] {xs ys : List K} {c : K}

omit [LinearOrder K] [IsStrictOrderedRing K] in
theorem sum_map_const (xs : List K) (c : K) : (xs.map fun _ => c).sum = xs.length * c := by
  rw [List.map_const', List.sum_replicate, nsmul_eq_mul]

theorem lt_mean (hne : xs ≠ []) (h : ∀ x ∈ xs, c < x) : c < mean xs := by
  have hlen : (0 : K) < xs.length := Nat.cast_pos.mpr (List.length_pos_of_ne_nil hne)
  have hsum := List.sum_lt_sum_of_ne_nil hne (fun _ => c) id h
  rw [sum_map_const, List.map_id, mul_comm] at hsum
  exact (lt_div_iff₀ hlen).mpr hsum

theorem mean_lt (hne : xs ≠ []) (h : ∀ x ∈ xs, x < c) : mean xs < c := by
  have hlen : (0 : K) < xs.length := Nat.cast_pos.mpr (List.length_pos_of_ne_nil hne)
  have hsum := List.sum_lt_sum_of_ne_nil hne id (fun _ => c) h
  rw [sum_map_const, List.map_id, mul_comm] at hsum
  exact (div_lt_iff₀ hlen).mpr hsum

/-- Of two samples the one above has the greater mean. -/
theorem mean_lt_mean (hxs : xs ≠ []) (hys : ys ≠ []) (h : Above xs ys) : mean ys < mean xs :=
  mean_lt hys fun y hy => lt_mean hxs fun x hx => h x hx y hy

theorem squares_nonneg (xs : List K) : 0 ≤ squares xs := by
  apply List.sum_nonneg
  intro q hq
  obtain ⟨x, -, rfl⟩ := List.mem_map.mp hq
  exact sq_nonneg _

theorem Constant.mean_eq (h : Constant xs) {x : K} (hx : x ∈ xs) : mean xs = x := by
  have hlen : (xs.length : K) ≠ 0 := Nat.cast_ne_zero.mpr (List.length_pos_of_mem hx).ne'
  have hsum : xs.sum = xs.length * x := by
    rw [List.sum_eq_card_nsmul xs x fun y hy => h y hy x hx, nsmul_eq_mul]
  rw [mean, hsum, mul_div_cancel_left₀ _ hlen]

/-- Nothing deviates from the mean iff the sample is constant. -/
theorem squares_eq_zero_iff : squares xs = 0 ↔ Constant xs := by
  constructor
  · intro h
    have hmean : ∀ x ∈ xs, x = mean xs := by
      intro x hx
      have hnonneg : ∀ q ∈ xs.map fun x => (x - mean xs) ^ 2, 0 ≤ q := by
        intro q hq
        obtain ⟨x, -, rfl⟩ := List.mem_map.mp hq
        exact sq_nonneg _
      have hzero := List.all_zero_of_le_zero_le_of_sum_eq_zero hnonneg h
        (List.mem_map_of_mem hx)
      exact sub_eq_zero.mp (pow_eq_zero_iff two_ne_zero |>.mp hzero)
    intro x hx y hy
    rw [hmean x hx, hmean y hy]
  · intro h
    have hzero : (xs.map fun x => (x - mean xs) ^ 2) = xs.map fun _ => 0 := by
      apply List.map_congr_left
      intro x hx
      rw [h.mean_eq hx, sub_self, zero_pow two_ne_zero]
    rw [squares, hzero, sum_map_const, mul_zero]

/-! ## Won pairs -/

/-- What a value gets against another. -/
def point (x y : K) : K := if y < x then 1 else if x = y then 1 / 2 else 0

/-- What a sample gets against another, over all pairs. -/
def points (xs ys : List K) : K := (xs.map fun x => (ys.map fun y => point x y).sum).sum

theorem point_add_point (x y : K) : point x y + point y x = 1 := by
  rcases lt_trichotomy x y with h | rfl | h
  · rw [point, if_neg h.not_gt, if_neg h.ne, point, if_pos h, zero_add]
  · rw [point, if_neg (lt_irrefl x), if_pos rfl, add_halves]
  · rw [point, if_pos h, point, if_neg h.not_gt, if_neg h.ne, add_zero]

omit [IsStrictOrderedRing K] in
theorem points_cons_right (xs : List K) (y : K) (ys : List K) :
    points xs (y :: ys) = (xs.map fun x => point x y).sum + points xs ys := by
  induction xs with
  | nil => exact (add_zero 0).symm
  | cons x xs ih =>
    show ((y :: ys).map fun y => point x y).sum + points xs (y :: ys) =
      _ + ((ys.map fun y => point x y).sum + points xs ys)
    rw [ih, List.map_cons, List.sum_cons, List.map_cons, List.sum_cons]
    ring

/-- **Every pair is given away once.** -/
theorem points_add_points (xs ys : List K) :
    points xs ys + points ys xs = xs.length * ys.length := by
  induction xs with
  | nil =>
    rw [points, List.map_nil, List.sum_nil, points]
    simp
  | cons x xs ih =>
    have hpair : (ys.map fun y => point x y).sum + (ys.map fun y => point y x).sum = ys.length := by
      rw [← List.sum_map_add]
      simp only [point_add_point]
      rw [sum_map_const, mul_one]
    rw [points_cons_right]
    show _ + points xs ys + _ = _
    rw [List.length_cons]
    push_cast
    linear_combination hpair + ih

omit [IsStrictOrderedRing K] in
/-- The sample above wins every pair. -/
theorem points_of_above (h : Above xs ys) : points xs ys = xs.length * ys.length := by
  have hpoint : (xs.map fun x => (ys.map fun y => point x y).sum) =
      xs.map fun _ => (ys.length : K) := by
    apply List.map_congr_left
    intro x hx
    have hone : (ys.map fun y => point x y) = ys.map fun _ => 1 :=
      List.map_congr_left fun y hy => if_pos (h x hx y hy)
    rw [hone, sum_map_const, mul_one]
  rw [points, hpoint, sum_map_const]

end TwoSamples
