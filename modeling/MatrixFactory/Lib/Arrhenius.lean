/-
# Arrhenius factors

The factor by which a rate at a temperature differs from the rate at a reference.  It grows with
the temperature, its reciprocal does not fall fast, and an overpotential over such a rate is linear
in the temperature.
-/
import Mathlib.Analysis.SpecialFunctions.Log.Basic
import Mathlib.Tactic.FieldSimp
import Mathlib.Tactic.Positivity

namespace MatrixFactory

/-- The factor at the temperature `t` for the reference `u`; `b` is the activation energy as a
temperature. -/
noncomputable def arrhenius (b u t : ℝ) : ℝ := Real.exp (b * (1 / u - 1 / t))

variable {b u s t lo x c : ℝ}

theorem arrhenius_pos : 0 < arrhenius b u t := Real.exp_pos _

/-- The factor grows with the temperature. -/
theorem arrhenius_le (hb : 0 ≤ b) (hs : 0 < s) (hst : s ≤ t) :
    arrhenius b u s ≤ arrhenius b u t := by
  apply Real.exp_le_exp.mpr
  have hinv : 1 / t ≤ 1 / s := one_div_le_one_div_of_le hs hst
  exact mul_le_mul_of_nonneg_left (sub_le_sub_left hinv _) hb

/-- The reciprocal of the factor does not fall faster than `b / lo ^ 2` of itself. -/
theorem inv_arrhenius_sub_le (hb : 0 ≤ b) (hlo : 0 < lo) (hs : lo ≤ s) (hst : s ≤ t) :
    (arrhenius b u s)⁻¹ - (arrhenius b u t)⁻¹ ≤
      (arrhenius b u s)⁻¹ * (b / lo ^ 2 * (t - s)) := by
  have hspos : 0 < s := hlo.trans_le hs
  have htpos : 0 < t := hspos.trans_le hst
  have hratio : (arrhenius b u t)⁻¹ =
      (arrhenius b u s)⁻¹ * Real.exp (-(b * (1 / s - 1 / t))) := by
    unfold arrhenius
    rw [← Real.exp_neg, ← Real.exp_neg, ← Real.exp_add]
    congr 1
    ring
  -- the exponential is above its tangent
  have htangent := Real.add_one_le_exp (-(b * (1 / s - 1 / t)))
  have hdiff : 1 / s - 1 / t ≤ (t - s) / lo ^ 2 := by
    have hfrac : 1 / s - 1 / t = (t - s) / (s * t) := by
      field_simp
    rw [hfrac]
    apply div_le_div_of_nonneg_left (sub_nonneg.mpr hst) (by positivity)
    rw [sq]
    exact mul_le_mul hs (hs.trans hst) hlo.le hspos.le
  have hbound : b * (1 / s - 1 / t) ≤ b / lo ^ 2 * (t - s) := by
    calc b * (1 / s - 1 / t) ≤ b * ((t - s) / lo ^ 2) := mul_le_mul_of_nonneg_left hdiff hb
      _ = b / lo ^ 2 * (t - s) := by ring
  calc (arrhenius b u s)⁻¹ - (arrhenius b u t)⁻¹
      = (arrhenius b u s)⁻¹ * (1 - Real.exp (-(b * (1 / s - 1 / t)))) := by
        rw [hratio]
        ring
    _ ≤ (arrhenius b u s)⁻¹ * (b / lo ^ 2 * (t - s)) := by
        apply mul_le_mul_of_nonneg_left _ (inv_nonneg.mpr arrhenius_pos.le)
        linarith

/-- The logarithm over an Arrhenius rate, times the temperature, is linear in the temperature. -/
theorem mul_log_div_arrhenius (hx : 0 < x) (hc : 0 < c) (ht : t ≠ 0) :
    t * Real.log (x / (c * arrhenius b u t)) = b + t * (Real.log (x / c) - b / u) := by
  have hsplit : x / (c * arrhenius b u t) = x / c / arrhenius b u t := (div_div _ _ _).symm
  rw [hsplit, Real.log_div (div_pos hx hc).ne' arrhenius_pos.ne', arrhenius, Real.log_exp]
  field_simp
  ring

end MatrixFactory
