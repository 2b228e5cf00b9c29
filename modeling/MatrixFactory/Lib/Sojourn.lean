/-
# Sojourn times and the number present

Visits begin and end at real times.  Over a period that contains them all, the integral of the
number of visits that are under way is the sum of their lengths.
-/
import Mathlib.MeasureTheory.Integral.IntervalIntegral.Basic

namespace Sojourn

open MeasureTheory

/-- The number of visits, given by their beginning and their end, that are under way at a time. -/
noncomputable def present (visits : List (ℝ × ℝ)) (t : ℝ) : ℝ :=
  (visits.map fun v => Set.indicator (Set.Ioc v.1 v.2) (fun _ => (1 : ℝ)) t).sum

theorem present_cons (v : ℝ × ℝ) (visits : List (ℝ × ℝ)) (t : ℝ) :
    present (v :: visits) t =
      Set.indicator (Set.Ioc v.1 v.2) (fun _ => (1 : ℝ)) t + present visits t := by
  rw [present, List.map_cons, List.sum_cons]
  rfl

theorem integrable_visit (v : ℝ × ℝ) (a b : ℝ) :
    IntervalIntegrable (Set.indicator (Set.Ioc v.1 v.2) fun _ => (1 : ℝ)) volume a b :=
  ⟨(integrable_const 1).indicator measurableSet_Ioc,
    (integrable_const 1).indicator measurableSet_Ioc⟩

/-- One visit counts for its length. -/
theorem integral_visit {v : ℝ × ℝ} {T : ℝ} (h0 : 0 ≤ v.1) (hv : v.1 ≤ v.2) (hT : v.2 ≤ T) :
    ∫ t in (0 : ℝ)..T, Set.indicator (Set.Ioc v.1 v.2) (fun _ => (1 : ℝ)) t = v.2 - v.1 := by
  have hsub : Set.Ioc v.1 v.2 ⊆ Set.Ioc 0 T := Set.Ioc_subset_Ioc h0 hT
  rw [intervalIntegral.integral_of_le (h0.trans (hv.trans hT)),
    setIntegral_indicator measurableSet_Ioc, Set.inter_eq_right.mpr hsub, setIntegral_const,
    Real.volume_real_Ioc_of_le hv, smul_eq_mul, mul_one]

theorem integrable_present (visits : List (ℝ × ℝ)) (a b : ℝ) :
    IntervalIntegrable (present visits) volume a b := by
  induction visits with
  | nil => exact intervalIntegrable_const
  | cons v visits ih =>
    rw [show present (v :: visits) = _ from funext (present_cons v visits)]
    exact (integrable_visit v a b).add ih

/-- **The integral of the number present** is the sum of the sojourn times. -/
theorem integral_present {visits : List (ℝ × ℝ)} {T : ℝ}
    (h : ∀ v ∈ visits, 0 ≤ v.1 ∧ v.1 ≤ v.2 ∧ v.2 ≤ T) :
    ∫ t in (0 : ℝ)..T, present visits t = (visits.map fun v => v.2 - v.1).sum := by
  induction visits with
  | nil => simp [present]
  | cons v visits ih =>
    obtain ⟨h0, hv, hT⟩ := h v List.mem_cons_self
    simp only [present_cons]
    rw [intervalIntegral.integral_add (integrable_visit v 0 T) (integrable_present visits 0 T),
      integral_visit h0 hv hT, ih fun w hw => h w (List.mem_cons_of_mem _ hw), List.map_cons,
      List.sum_cons]

end Sojourn
