/-
# Relaxation towards a target

A step of a first-order relaxation moves a value by a share of its distance to a target, and the
share may differ for a value below the target and for one above.  With shares between 0 and 1 a
step does not pass the target, keeps the order of two values and of two targets, and shortens the
distance by the smaller share at least.
-/
import Mathlib.Algebra.Order.Field.Basic
import Mathlib.Tactic.Linarith
import Mathlib.Tactic.Ring

namespace Relaxation

variable {K : Type*} [Field K] [LinearOrder K] [IsStrictOrderedRing K]

/-- One step: the share `up` for a value below the target, `down` for the others. -/
def relax (up down target x : K) : K := x + (if x < target then up else down) * (target - x)

/-- A share of the distance. -/
def IsShare (r : K) : Prop := 0 ≤ r ∧ r ≤ 1

variable {up down target target' x y : K}

/-- A step from below ends between the value and the target. -/
theorem relax_of_lt (hup : IsShare up) (h : x < target) :
    x ≤ relax up down target x ∧ relax up down target x ≤ target := by
  have hpos := sub_pos.mpr h
  rw [relax, if_pos h]
  constructor
  · have := mul_nonneg hup.1 hpos.le
    linarith
  · have := mul_le_mul_of_nonneg_right hup.2 hpos.le
    linarith

/-- A step from above ends between the target and the value. -/
theorem relax_of_le (hdown : IsShare down) (h : target ≤ x) :
    target ≤ relax up down target x ∧ relax up down target x ≤ x := by
  have hneg := sub_nonneg.mpr h
  rw [relax, if_neg (not_lt.mpr h)]
  constructor
  · have := mul_le_mul_of_nonneg_right hdown.2 hneg
    linarith
  · have := mul_nonneg hdown.1 hneg
    linarith

/-- **A step does not pass the target.** -/
theorem relax_mem (hup : IsShare up) (hdown : IsShare down) :
    min x target ≤ relax up down target x ∧ relax up down target x ≤ max x target := by
  rcases lt_or_ge x target with h | h
  · have hstep : x ≤ relax up down target x ∧ relax up down target x ≤ target :=
      relax_of_lt hup h
    exact ⟨(min_le_left _ _).trans hstep.1, hstep.2.trans (le_max_right _ _)⟩
  · have hstep : target ≤ relax up down target x ∧ relax up down target x ≤ x :=
      relax_of_le hdown h
    exact ⟨(min_le_right _ _).trans hstep.1, hstep.2.trans (le_max_left _ _)⟩

/-- **A step keeps the order** of the values. -/
theorem relax_le_relax (hup : IsShare up) (hdown : IsShare down) (hxy : x ≤ y) :
    relax up down target x ≤ relax up down target y := by
  rcases lt_or_ge x target with hx | hx
  · rcases lt_or_ge y target with hy | hy
    · have := mul_nonneg (sub_nonneg.mpr hup.2) (sub_nonneg.mpr hxy)
      rw [relax, relax, if_pos hx, if_pos hy]
      linarith
    · exact (relax_of_lt hup hx).2.trans (relax_of_le hdown hy).1
  · have hy := hx.trans hxy
    have := mul_nonneg (sub_nonneg.mpr hdown.2) (sub_nonneg.mpr hxy)
    rw [relax, relax, if_neg (not_lt.mpr hx), if_neg (not_lt.mpr hy)]
    linarith

/-- **A step keeps the order** of the targets. -/
theorem relax_le_of_target_le (hup : IsShare up) (hdown : IsShare down) (h : target ≤ target') :
    relax up down target x ≤ relax up down target' x := by
  rcases lt_or_ge x target with hx | hx
  · have := mul_le_mul_of_nonneg_left h hup.1
    rw [relax, relax, if_pos hx, if_pos (hx.trans_le h)]
    linarith
  · rcases lt_or_ge x target' with hx' | hx'
    · exact (relax_of_le hdown hx).2.trans (relax_of_lt hup hx').1
    · have := mul_le_mul_of_nonneg_left h hdown.1
      rw [relax, relax, if_neg (not_lt.mpr hx), if_neg (not_lt.mpr hx')]
      linarith

/-- **A step shortens the distance** by the smaller share at least. -/
theorem abs_relax_sub_le {r : K} (hup : IsShare up) (hdown : IsShare down) (hru : r ≤ up)
    (hrd : r ≤ down) : |relax up down target x - target| ≤ (1 - r) * |x - target| := by
  have hfactor : relax up down target x - target =
      (1 - if x < target then up else down) * (x - target) := by
    rw [relax]
    ring
  have hshare : 0 ≤ 1 - (if x < target then up else down) ∧
      1 - (if x < target then up else down) ≤ 1 - r := by
    split_ifs
    · exact ⟨sub_nonneg.mpr hup.2, by linarith⟩
    · exact ⟨sub_nonneg.mpr hdown.2, by linarith⟩
  rw [hfactor, abs_mul, abs_of_nonneg hshare.1]
  exact mul_le_mul_of_nonneg_right hshare.2 (abs_nonneg _)

/-! ## Iterated steps -/

theorem iterate_mem (hup : IsShare up) (hdown : IsShare down) (n : ℕ) :
    min x target ≤ (relax up down target)^[n] x ∧
      (relax up down target)^[n] x ≤ max x target := by
  induction n with
  | zero => exact ⟨min_le_left _ _, le_max_left _ _⟩
  | succ n ih =>
    rw [Function.iterate_succ_apply']
    obtain ⟨hlo, hhi⟩ := relax_mem (x := (relax up down target)^[n] x) hup hdown
    exact ⟨(le_min ih.1 (min_le_right _ _)).trans hlo,
      hhi.trans (max_le ih.2 (le_max_right _ _))⟩

/-- **Iterated steps approach the target** geometrically. -/
theorem abs_iterate_sub_le {r : K} (hup : IsShare up) (hdown : IsShare down) (hru : r ≤ up)
    (hrd : r ≤ down) (n : ℕ) :
    |(relax up down target)^[n] x - target| ≤ (1 - r) ^ n * |x - target| := by
  have hr : 0 ≤ 1 - r := sub_nonneg.mpr (hru.trans hup.2)
  induction n with
  | zero => rw [pow_zero, one_mul, Function.iterate_zero_apply]
  | succ n ih =>
    rw [Function.iterate_succ_apply', pow_succ', mul_assoc]
    exact (abs_relax_sub_le hup hdown hru hrd).trans (mul_le_mul_of_nonneg_left ih hr)

end Relaxation
