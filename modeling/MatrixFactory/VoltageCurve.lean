/-
# The polarization curve and its slope

`calculate_pemfc_voltage` as a function of the current density, and `newton_raphson_solver`, which
finds the current density of a voltage with an analytic derivative.

Over the real numbers the curve is continuous and strictly decreasing, across the patch of the
concentration loss at 99 % of the limiting current.  The patch has the slope of the loss only where
the limiting current is 1: its factor is that of a slope over the ratio of the currents, but the
ratio's own factor is applied to it too.
-/
import MatrixFactory.RealKernel
import MatrixFactory.Lib.Numerals
import Mathlib

namespace MatrixFactory

open scoped Numerals

namespace BatchKernel

/-- The arguments of the solver, but for the voltage it looks for. -/
structure CellInput (V : Type) where
  t : V
  aH2 : V
  aO2 : V
  rInternal : V
  nCells : V
  ecsaRatio : V
  lambdaMem : V
  jLim : V

namespace NumLib

variable {V : Type} [Add V] [Sub V] [Mul V] [Div V] [Neg V] [LT V] [LE V] [DecidableLT V]
  [DecidableLE V] [DecidableEq V] (lib : NumLib V)

/-- The voltage at a current density. -/
def cellVoltage (c : CellInput V) (j : V) : Option (PemfcVoltage V) :=
  lib.calculatePemfcVoltage j c.t c.aH2 c.aO2 c.rInternal c.nCells c.ecsaRatio c.lambdaMem c.jLim

/-- The derivative of the concentration overpotential, as the solver has it. -/
def concentrationSlope (jLim j : V) : Option V :=
  (lib.divide j jLim).bind fun ratio =>
  (lib.divide (lib.lit 0.05) (jLim * lib.lit 0.01)).bind fun penaltySlope =>
    if ratio ≤ lib.lit 0.99 then lib.divide (lib.lit 0.05) (jLim - j)
    else lib.divide penaltySlope jLim

/-- The derivative of the voltage, as the solver has it. -/
def voltageSlope (c : CellInput V) (j : V) : Option V :=
  let jSafe := pyMax j (lib.lit 1e-10)
  (lib.divide (lib.lit 8.314462618 * c.t)
    (lib.lit 0.5 * lib.lit 4 * lib.lit 96485.33212 * jSafe)).bind fun detaAct =>
  (lib.computeMembraneResistance c.lambdaMem c.t (lib.lit 0.005)).bind fun rMem =>
  (lib.concentrationSlope c.jLim j).map fun detaConc =>
    c.nCells * (-detaAct - (c.rInternal + rMem) - detaConc)

/-- The iterations of `newton_raphson_solver`. -/
def newtonLoop (c : CellInput V) (vTarget : V) : ℕ → V → Option (V × Bool)
  | 0, j => some (j, false)
  | n + 1, j =>
    (lib.cellVoltage c j).bind fun v =>
      let residual := v.vStack - vTarget
      if lib.abs residual < lib.lit 1e-4 then some (j, true)
      else
        (lib.voltageSlope c j).bind fun slope =>
          if lib.abs slope < lib.lit 1e-20 then some (j, false)
          else
            (lib.divide residual slope).bind fun step =>
              newtonLoop c vTarget n (pyMax (lib.lit 1e-10) (pyMin (j - step)
                (lib.lit 0.999 * c.jLim)))

/-- `newton_raphson_solver`: 50 iterations from the middle of the range. -/
def newtonRaphsonSolver (c : CellInput V) (vTarget : V) : Option (V × Bool) :=
  (lib.effectiveJ0 (lib.lit 2.5e-8) c.ecsaRatio c.t (lib.lit 68500) (lib.lit 353.15)).bind fun _ =>
    newtonLoop lib c vTarget 50 (lib.lit 0.5 * c.jLim)

end NumLib

open NumLib

variable {fluid : FluidData ℝ}

/-- The voltage of the stack as a function of the current density. -/
noncomputable def stackVoltage (fluid : FluidData ℝ) (c : CellInput ℝ) (j : ℝ) : ℝ :=
  (((realLib fluid).cellVoltage c j).map (·.vStack)).getD 0

/-- What the code checks of the arguments of a cell, and what is physical about them. -/
structure CellInput.Valid (c : CellInput ℝ) : Prop where
  t : 0 < c.t
  aH2 : ActivityBounds c.aH2
  aO2 : ActivityBounds c.aO2
  jLim : 0 < c.jLim

/-! ## The concentration loss -/

/-- The two branches of the loss in one formula. -/
theorem concentrationLoss_eq (jLim j : ℝ) : concentrationLoss jLim j =
    -0.05 * Real.log (max (1 - j / jLim) 0.01) +
      0.05 / (jLim * 0.01) * max (j / jLim - 0.99) 0 := by
  unfold concentrationLoss
  split_ifs with h
  · rw [max_eq_left (by linarith), max_eq_right (by linarith), mul_zero, add_zero]
  · rw [max_eq_right (by linarith), max_eq_left (by linarith)]

theorem continuous_concentrationLoss (jLim : ℝ) : Continuous (concentrationLoss jLim) := by
  have hratio : Continuous fun j : ℝ => j / jLim := continuous_id.div_const jLim
  have hlog : Continuous fun j : ℝ => Real.log (max (1 - j / jLim) 0.01) := by
    apply ((continuous_const.sub hratio).max continuous_const).log
    intro j
    have hpos : (0 : ℝ) < max (1 - j / jLim) 0.01 := lt_max_of_lt_right (by norm_num)
    exact hpos.ne'
  have hpatch : Continuous fun j : ℝ => max (j / jLim - 0.99) 0 :=
    (hratio.sub continuous_const).max continuous_const
  rw [funext (concentrationLoss_eq jLim)]
  exact (continuous_const.mul hlog).add (continuous_const.mul hpatch)

theorem concentrationLoss_mono {jLim : ℝ} (hjLim : 0 < jLim) :
    Monotone (concentrationLoss jLim) := by
  intro j k hjk
  have hratio : j / jLim ≤ k / jLim := div_le_div_of_nonneg_right hjk hjLim.le
  have hpos : (0 : ℝ) < max (1 - k / jLim) 0.01 := lt_max_of_lt_right (by norm_num)
  have hlog : Real.log (max (1 - k / jLim) 0.01) ≤ Real.log (max (1 - j / jLim) 0.01) := by
    apply Real.log_le_log hpos
    exact max_le_max_right _ (sub_le_sub_left hratio _)
  have hpatch : 0.05 / (jLim * 0.01) * max (j / jLim - 0.99) 0 ≤
      0.05 / (jLim * 0.01) * max (k / jLim - 0.99) 0 := by
    apply mul_le_mul_of_nonneg_left _ (by positivity)
    exact max_le_max_right _ (sub_le_sub_right hratio _)
  rw [concentrationLoss_eq, concentrationLoss_eq]
  linarith

/-! ## The curve -/

variable (fluid) in
/-- The curve in closed form, with the resistance of the membrane. -/
theorem stackVoltage_eq {c : CellInput ℝ} (hc : c.Valid) : ∃ e j0 rMem : ℝ, 0 < j0 ∧ 0 < rMem ∧
    (realLib fluid).computeMembraneResistance c.lambdaMem c.t ((realLib fluid).lit 0.005) =
      some rMem ∧
    (∀ j, ((realLib fluid).cellVoltage c j).isSome) ∧
    stackVoltage fluid c = fun j => c.nCells * (e -
      tafelFactor c.t * Real.log (max j 1e-10 / j0) - j * (c.rInternal + rMem) -
        concentrationLoss c.jLim j) := by
  obtain ⟨e, j0, rMem, hj0, hrMem, hmem, hvoltage⟩ := calculatePemfcVoltage_real fluid
    hc.t hc.aH2 hc.aO2 hc.jLim c.rInternal c.nCells c.ecsaRatio c.lambdaMem
  refine ⟨e, j0, rMem, hj0, hrMem, hmem, fun j => ?_, funext fun j => ?_⟩
  · rw [cellVoltage, hvoltage]
    rfl
  · rw [stackVoltage, cellVoltage, hvoltage]
    rfl

/-- **The polarization curve** is computed at every current density, and from `1e-10` on it is
continuous and strictly decreasing. -/
theorem stackVoltage_strictAntiOn (fluid : FluidData ℝ) {c : CellInput ℝ} (ht : 0 < c.t)
    (hH2 : 0.5 ≤ c.aH2 ∧ c.aH2 ≤ 10) (hO2 : 0.5 ≤ c.aO2 ∧ c.aO2 ≤ 10) (hrInternal : 0 ≤ c.rInternal)
    (hjLim : 0 < c.jLim) (hnCells : 1 ≤ c.nCells) :
    (∀ j, ((realLib fluid).cellVoltage c j).isSome) ∧
      ContinuousOn (stackVoltage fluid c) (Set.Ici 1e-10) ∧
      StrictAntiOn (stackVoltage fluid c) (Set.Ici 1e-10) := by
  obtain ⟨e, j0, rMem, hj0, hrMem, -, hsome, hcurve⟩ :=
    stackVoltage_eq fluid (c := c) ⟨ht, hH2, hO2, hjLim⟩
  have hsafe : ∀ j : ℝ, 0 < max j 1e-10 := fun j => lt_max_of_lt_right (by norm_num)
  refine ⟨hsome, ?_, ?_⟩
  · rw [hcurve]
    apply Continuous.continuousOn
    have hlog : Continuous fun j : ℝ => Real.log (max j 1e-10 / j0) := by
      apply ((continuous_id.max continuous_const).div_const j0).log
      intro j
      exact (div_pos (hsafe j) hj0).ne'
    apply continuous_const.mul
    exact ((continuous_const.sub (continuous_const.mul hlog)).sub
      (continuous_id.mul continuous_const)).sub (continuous_concentrationLoss c.jLim)
  · rw [hcurve]
    intro j hj k hk hjk
    have hlt : max j 1e-10 < max k 1e-10 := by
      rw [max_eq_left (Set.mem_Ici.mp hj), max_eq_left (Set.mem_Ici.mp hk)]
      exact hjk
    have hact : tafelFactor c.t * Real.log (max j 1e-10 / j0) <
        tafelFactor c.t * Real.log (max k 1e-10 / j0) := by
      apply mul_lt_mul_of_pos_left _ (tafelFactor_pos ht)
      exact Real.log_lt_log (div_pos (hsafe j) hj0) (div_lt_div_of_pos_right hlt hj0)
    have hohm : j * (c.rInternal + rMem) ≤ k * (c.rInternal + rMem) :=
      mul_le_mul_of_nonneg_right hjk.le (add_nonneg hrInternal hrMem.le)
    have hconc := concentrationLoss_mono hjLim hjk.le
    apply mul_lt_mul_of_pos_left _ (lt_of_lt_of_le one_pos hnCells)
    linarith

/-- A stack of ten cells at the operating point of the code's tests. -/
noncomputable def testCell : CellInput ℝ where
  t := 353.15
  aH2 := 1.5
  aO2 := 1
  rInternal := 0.1
  nCells := 10
  ecsaRatio := 1
  lambdaMem := 14
  jLim := 2.5

/-- The curve of that stack. -/
theorem stackVoltage_strictAntiOn_test :
    (∀ j, ((realLib noFluids).cellVoltage testCell j).isSome) ∧
      ContinuousOn (stackVoltage noFluids testCell) (Set.Ici 1e-10) ∧
      StrictAntiOn (stackVoltage noFluids testCell) (Set.Ici 1e-10) := by
  apply stackVoltage_strictAntiOn noFluids
  all_goals
    simp only [testCell]
    norm_num

/-! ## The slope of the concentration loss -/

/-- The slope of the loss up to 99 % of the limiting current, and from there on. -/
noncomputable def lossSlope (jLim j : ℝ) : ℝ :=
  if j / jLim ≤ 0.99 then 0.05 / (jLim - j) else 0.05 / (jLim * 0.01) / jLim

/-- The loss below the joint. -/
noncomputable def logarithmicLoss (jLim j : ℝ) : ℝ := -0.05 * Real.log (1 - j / jLim)

/-- The loss above the joint. -/
noncomputable def linearLoss (jLim j : ℝ) : ℝ :=
  -0.05 * Real.log 0.01 + 0.05 / (jLim * 0.01) * (j / jLim - 0.99)

variable {jLim : ℝ}

theorem div_le_iff_joint (hjLim : 0 < jLim) (j : ℝ) : j / jLim ≤ 0.99 ↔ j ≤ 0.99 * jLim :=
  div_le_iff₀ hjLim

theorem concentrationLoss_below (hjLim : 0 < jLim) {j : ℝ} (hj : j ≤ 0.99 * jLim) :
    concentrationLoss jLim j = logarithmicLoss jLim j :=
  if_pos ((div_le_iff_joint hjLim j).mpr hj)

/-- At the joint both branches have the same value. -/
theorem concentrationLoss_above (hjLim : 0 < jLim) {j : ℝ} (hj : 0.99 * jLim ≤ j) :
    concentrationLoss jLim j = linearLoss jLim j := by
  rcases hj.eq_or_lt with rfl | hlt
  · have hjoint : 0.99 * jLim / jLim = 0.99 := mul_div_cancel_right₀ _ hjLim.ne'
    rw [concentrationLoss_below hjLim le_rfl, logarithmicLoss, linearLoss, hjoint, sub_self,
      mul_zero, add_zero]
    norm_num
  · exact if_neg fun hle => absurd ((div_le_iff_joint hjLim j).mp hle) (not_le.mpr hlt)

theorem hasDerivAt_logarithmicLoss (hjLim : 0 < jLim) {j : ℝ} (hj : j < jLim) :
    HasDerivAt (logarithmicLoss jLim) (0.05 / (jLim - j)) j := by
  have hpos : 0 < 1 - j / jLim := by
    rw [sub_pos, div_lt_one hjLim]
    exact hj
  have hratio : HasDerivAt (fun j : ℝ => 1 - j / jLim) (-(1 / jLim)) j :=
    ((hasDerivAt_id j).div_const jLim).const_sub 1
  have hlog := (hratio.log hpos.ne').const_mul (-0.05)
  have hslope : -0.05 * (-(1 / jLim) / (1 - j / jLim)) = 0.05 / (jLim - j) := by
    have hne : jLim - j ≠ 0 := (sub_pos.mpr hj).ne'
    have hscale : jLim * (1 - j / jLim) = jLim - j := by
      field_simp
    rw [← hscale]
    field_simp
  rw [hslope] at hlog
  exact hlog

theorem hasDerivAt_linearLoss (jLim j : ℝ) :
    HasDerivAt (linearLoss jLim) (0.05 / (jLim * 0.01) / jLim) j := by
  have hratio : HasDerivAt (fun j : ℝ => j / jLim - 0.99) (1 / jLim) j :=
    ((hasDerivAt_id j).div_const jLim).sub_const 0.99
  have hline := (hratio.const_mul (0.05 / (jLim * 0.01))).const_add (-0.05 * Real.log 0.01)
  rw [mul_one_div] at hline
  exact hline

/-- The slopes on the two sides of the joint. -/
theorem hasDerivWithinAt_joint (hjLim : 0 < jLim) :
    HasDerivWithinAt (concentrationLoss jLim) (0.05 / (jLim - 0.99 * jLim))
        (Set.Iic (0.99 * jLim)) (0.99 * jLim) ∧
      HasDerivWithinAt (concentrationLoss jLim) (0.05 / (jLim * 0.01) / jLim)
        (Set.Ici (0.99 * jLim)) (0.99 * jLim) := by
  have hlt : 0.99 * jLim < jLim := by linarith
  constructor
  · apply (hasDerivAt_logarithmicLoss hjLim hlt).hasDerivWithinAt.congr
    · exact fun j hj => concentrationLoss_below hjLim hj
    · exact concentrationLoss_below hjLim le_rfl
  · apply (hasDerivAt_linearLoss jLim (0.99 * jLim)).hasDerivWithinAt.congr
    · exact fun j hj => concentrationLoss_above hjLim hj
    · exact concentrationLoss_above hjLim le_rfl

/-- **The loss has a slope at the joint** only if the limiting current is 1. -/
theorem jLim_eq_one (hjLim : 0 < jLim)
    (h : DifferentiableAt ℝ (concentrationLoss jLim) (0.99 * jLim)) : jLim = 1 := by
  obtain ⟨hbelow, habove⟩ := hasDerivWithinAt_joint hjLim
  have hderiv := h.hasDerivAt
  have hleft := (uniqueDiffWithinAt_Iic (0.99 * jLim)).eq_deriv _ hderiv.hasDerivWithinAt hbelow
  have hright := (uniqueDiffWithinAt_Ici (0.99 * jLim)).eq_deriv _ hderiv.hasDerivWithinAt habove
  have hslopes : 0.05 / (jLim - 0.99 * jLim) = 0.05 / (jLim * 0.01) / jLim :=
    hleft.symm.trans hright
  have hwidth : jLim - 0.99 * jLim = jLim * 0.01 := by ring
  rw [hwidth] at hslopes
  have hpos : (0.05 : ℝ) / (jLim * 0.01) ≠ 0 := by positivity
  rw [eq_comm, div_eq_iff hjLim.ne'] at hslopes
  exact mul_left_cancel₀ hpos (by rw [← hslopes, mul_one])

/-- The slope of the loss, everywhere but at the joint, and there too if the limiting current
is 1. -/
theorem hasDerivAt_concentrationLoss (hjLim : 0 < jLim) {j : ℝ} (h : j ≠ 0.99 * jLim ∨ jLim = 1) :
    HasDerivAt (concentrationLoss jLim) (lossSlope jLim j) j := by
  rcases lt_trichotomy j (0.99 * jLim) with hlt | rfl | hgt
  · have hslope : lossSlope jLim j = 0.05 / (jLim - j) :=
      if_pos ((div_le_iff_joint hjLim j).mpr hlt.le)
    rw [hslope]
    apply (hasDerivAt_logarithmicLoss hjLim (by linarith)).congr_of_eventuallyEq
    filter_upwards [Iio_mem_nhds hlt] with k hk
    exact concentrationLoss_below hjLim (le_of_lt hk)
  · obtain rfl : jLim = 1 := h.resolve_left fun hne => hne rfl
    obtain ⟨hbelow, habove⟩ := hasDerivWithinAt_joint hjLim
    have hslope : lossSlope 1 (0.99 * 1) = 0.05 / (1 - 0.99 * 1) :=
      if_pos ((div_le_iff_joint hjLim _).mpr le_rfl)
    have hsame : (0.05 : ℝ) / (1 * 0.01) / 1 = 0.05 / (1 - 0.99 * 1) := by norm_num
    rw [hsame] at habove
    rw [hslope, ← hasDerivWithinAt_univ, ← Set.Iic_union_Ici]
    exact hbelow.union habove
  · have hslope : lossSlope jLim j = 0.05 / (jLim * 0.01) / jLim :=
      if_neg fun hle => absurd ((div_le_iff_joint hjLim j).mp hle) (not_le.mpr hgt)
    rw [hslope]
    apply (hasDerivAt_linearLoss jLim j).congr_of_eventuallyEq
    filter_upwards [Ioi_mem_nhds hgt] with k hk
    exact concentrationLoss_above hjLim (le_of_lt hk)

/-- With a limiting current of 1 the loss is continuously differentiable. -/
theorem contDiff_concentrationLoss : ContDiff ℝ 1 (concentrationLoss 1) := by
  have hderiv : ∀ j, HasDerivAt (concentrationLoss 1) (lossSlope 1 j) j :=
    fun j => hasDerivAt_concentrationLoss one_pos (.inr rfl)
  have hslope : lossSlope 1 = fun j => 0.05 / max (1 - j) 0.01 := by
    funext j
    unfold lossSlope
    split_ifs with h
    · rw [div_one] at h
      rw [max_eq_left (by linarith)]
    · rw [div_one] at h
      rw [max_eq_right (by linarith)]
      norm_num
  rw [contDiff_one_iff_deriv]
  refine ⟨fun j => (hderiv j).differentiableAt, ?_⟩
  have heq : deriv (concentrationLoss 1) = fun j => 0.05 / max (1 - j) 0.01 := by
    rw [← hslope]
    exact funext fun j => (hderiv j).deriv
  rw [heq]
  apply continuous_const.div ((continuous_const.sub continuous_id).max continuous_const)
  intro j
  have hpos : (0 : ℝ) < max (1 - j) 0.01 := lt_max_of_lt_right (by norm_num)
  exact hpos.ne'

/-! ## The derivative of the solver -/

/-- The concentration loss as a function of the current density. -/
noncomputable def stackLoss (fluid : FluidData ℝ) (c : CellInput ℝ) (j : ℝ) : ℝ :=
  (((realLib fluid).cellVoltage c j).map (·.etaConc)).getD 0

theorem stackLoss_eq {c : CellInput ℝ} (hc : c.Valid) :
    stackLoss fluid c = concentrationLoss c.jLim := by
  obtain ⟨e, j0, rMem, -, -, -, hvoltage⟩ := calculatePemfcVoltage_real fluid
    hc.t hc.aH2 hc.aO2 hc.jLim c.rInternal c.nCells c.ecsaRatio c.lambdaMem
  funext j
  rw [stackLoss, cellVoltage, hvoltage]
  rfl

/-- The slope of the loss in the solver. -/
theorem concentrationSlope_eq (hjLim : 0 < jLim) {j : ℝ} (hj : j < jLim) :
    (realLib fluid).concentrationSlope jLim j = some (lossSlope jLim j) := by
  have hscale : jLim * 0.01 ≠ 0 := by positivity
  have hlit : (realLib fluid).lit 0.05 = 0.05 ∧ (realLib fluid).lit 0.01 = 0.01 ∧
      (realLib fluid).lit 0.99 = 0.99 := by
    simp only [realLib]
    push_cast
    exact ⟨rfl, rfl, rfl⟩
  simp only [concentrationSlope, hlit, divide_real hjLim.ne', divide_real hscale,
    Option.bind_some, divide_real (sub_pos.mpr hj).ne', lossSlope]
  split_ifs
  · rfl
  · rfl

/-- The derivative of the solver in closed form. -/
theorem voltageSlope_eq {c : CellInput ℝ} (hc : c.Valid) {rMem j : ℝ}
    (hmem : (realLib fluid).computeMembraneResistance c.lambdaMem c.t ((realLib fluid).lit 0.005) =
      some rMem) (hj : 1e-10 < j) (hhi : j < c.jLim) :
    (realLib fluid).voltageSlope c j = some (c.nCells *
      (-(tafelFactor c.t / j) - (c.rInternal + rMem) - lossSlope c.jLim j)) := by
  have hjpos : 0 < j := lt_trans (by norm_num) hj
  have hsafe : max j 1e-10 = j := max_eq_left hj.le
  have hcharge : 0.5 * 4 * 96485.33212 * j ≠ 0 := by positivity
  have hlit : (realLib fluid).lit 1e-10 = 1e-10 ∧ (realLib fluid).lit 8.314462618 = 8.314462618 ∧
      (realLib fluid).lit 0.5 = 0.5 ∧ (realLib fluid).lit 4 = 4 ∧
      (realLib fluid).lit 96485.33212 = 96485.33212 := by
    simp only [realLib]
    push_cast
    exact ⟨rfl, rfl, rfl, rfl, rfl⟩
  have hact : 8.314462618 * c.t / (0.5 * 4 * 96485.33212 * j) = tafelFactor c.t / j := by
    rw [tafelFactor, div_div]
  simp only [voltageSlope, hlit, pyMax_real, hsafe, divide_real hcharge, Option.bind_some, hmem,
    concentrationSlope_eq hc.jLim hhi, Option.map_some, hact]

/-- The derivative of the voltage, where the loss has one. -/
theorem hasDerivAt_stackVoltage {c : CellInput ℝ} (hc : c.Valid) {j : ℝ} (hj : 1e-10 < j)
    (hhi : j < c.jLim) (h : j ≠ 0.99 * c.jLim ∨ c.jLim = 1) :
    ∃ d, (realLib fluid).voltageSlope c j = some d ∧ HasDerivAt (stackVoltage fluid c) d j := by
  obtain ⟨e, j0, rMem, hj0, -, hmem, -, hcurve⟩ := stackVoltage_eq fluid hc
  refine ⟨_, voltageSlope_eq hc hmem hj hhi, ?_⟩
  have hjpos : 0 < j := lt_trans (by norm_num) hj
  have hlog : HasDerivAt (fun j : ℝ => Real.log (max j 1e-10 / j0)) (1 / j) j := by
    have hplain : HasDerivAt (fun j : ℝ => Real.log (j / j0)) (1 / j0 / (j / j0)) j :=
      ((hasDerivAt_id j).div_const j0).log (div_pos hjpos hj0).ne'
    have hslope : 1 / j0 / (j / j0) = 1 / j := by
      rw [div_div_div_cancel_right₀ hj0.ne']
    rw [hslope] at hplain
    apply hplain.congr_of_eventuallyEq
    filter_upwards [Ioi_mem_nhds hj] with k hk
    rw [max_eq_left (le_of_lt hk)]
  have hact := hlog.const_mul (tafelFactor c.t)
  rw [mul_one_div] at hact
  have hohm := (hasDerivAt_id j).mul_const (c.rInternal + rMem)
  have hconc := hasDerivAt_concentrationLoss hc.jLim h
  have hvoltage := (((hact.const_sub e).sub hohm).sub hconc).const_mul c.nCells
  rw [one_mul] at hvoltage
  rw [hcurve]
  exact hvoltage

/-- **The patch is smooth and the solver's derivative is the derivative of the voltage** iff the
limiting current is 1. -/
theorem smooth_iff (fluid : FluidData ℝ) {c : CellInput ℝ} (ht : 0 < c.t)
    (hH2 : 0.5 ≤ c.aH2 ∧ c.aH2 ≤ 10) (hO2 : 0.5 ≤ c.aO2 ∧ c.aO2 ≤ 10) (hjLim : 0 < c.jLim) :
    (ContDiffAt ℝ 1 (stackLoss fluid c) (0.99 * c.jLim) ∧
      ∀ j, 1e-10 < j → j < 0.999 * c.jLim →
        ∃ d, (realLib fluid).voltageSlope c j = some d ∧ HasDerivAt (stackVoltage fluid c) d j) ↔
      c.jLim = 1 := by
  have hc : c.Valid := ⟨ht, hH2, hO2, hjLim⟩
  rw [stackLoss_eq hc]
  constructor
  · rintro ⟨hsmooth, -⟩
    exact jLim_eq_one hjLim (hsmooth.differentiableAt one_ne_zero)
  · intro hone
    constructor
    · rw [hone]
      exact contDiff_concentrationLoss.contDiffAt
    · intro j hj hhi
      exact hasDerivAt_stackVoltage hc hj (by linarith) (.inr hone)

/-- The code's test stack, with a limiting current of 1. -/
theorem smooth_one :
    ContDiffAt ℝ 1 (stackLoss noFluids { testCell with jLim := 1 }) (0.99 * 1) ∧
      ∀ j, 1e-10 < j → j < 0.999 * 1 → ∃ d,
        (realLib noFluids).voltageSlope { testCell with jLim := 1 } j = some d ∧
          HasDerivAt (stackVoltage noFluids { testCell with jLim := 1 }) d j := by
  apply (smooth_iff noFluids (c := { testCell with jLim := 1 }) _ _ _ _).mpr rfl
  all_goals
    simp only [testCell]
    norm_num

/-- With the default limiting current the patch is not smooth. -/
theorem not_smooth : ¬ContDiffAt ℝ 1 (stackLoss noFluids testCell) (0.99 * testCell.jLim) := by
  intro hsmooth
  have hactivity : ActivityBounds testCell.aH2 ∧ ActivityBounds testCell.aO2 := by
    simp only [testCell, ActivityBounds]
    norm_num
  have hpos : 0 < testCell.t ∧ 0 < testCell.jLim := by
    simp only [testCell]
    norm_num
  have hc : testCell.Valid := ⟨hpos.1, hactivity.1, hactivity.2, hpos.2⟩
  rw [stackLoss_eq hc] at hsmooth
  have hone := jLim_eq_one hc.jLim (hsmooth.differentiableAt one_ne_zero)
  simp only [testCell] at hone
  norm_num at hone

end BatchKernel

end MatrixFactory
