/-
# The solver of the polarization curve

`newton_raphson_solver` looks for the current density of a voltage: at most 50 Newton steps, each of
them clamped to a bracket, until the voltage is met with a tolerance.

At a positive temperature and with activities in their bounds the solver always answers: the slope
is never near zero, so the guard against it is not in use, and the answer is the first of the
clamped iterates within the tolerance, or the last one if there is none.  The curve falls at a
rate of its resistances at least, and so the tolerance in the voltage is one in the current.
-/
import MatrixFactory.VoltageCurve
import Mathlib.Analysis.Complex.ExponentialBounds

namespace MatrixFactory

namespace BatchKernel

open NumLib

variable {fluid : FluidData ℝ} {c : CellInput ℝ}

/-! ## The slope -/

/-- The membrane's resistance is not small at any temperature and water content. -/
theorem membraneResistance_ge {lambdaVal t rMem : ℝ}
    (h : (realLib fluid).computeMembraneResistance lambdaVal t ((realLib fluid).lit 0.005) =
      some rMem) : 0.005 ≤ rMem := by
  have hsigma := @springer_pos_real fluid lambdaVal t
  have hle : (realLib fluid).springerMembraneConductivity lambdaVal t ≤ 1 := by
    simp only [springerMembraneConductivity, pyMax_real, pyMin_real, realLib]
    push_cast
    set l : ℝ := max 1 (min 14 lambdaVal)
    set u : ℝ := max 250 (min 420 t)
    have hl : l ≤ 14 := max_le (by norm_num) (min_le_left _ _)
    have hu : 0 < u ∧ u ≤ 420 :=
      ⟨lt_max_of_lt_left (by norm_num), max_le (by norm_num) (min_le_left _ _)⟩
    have hcond : max 1e-4 (0.005139 * l - 0.00326) ≤ 0.07 := by
      apply max_le
      · norm_num
      · linarith
    have hexponent : 1268 * (1 / 303.15 - 1 / u) ≤ 2 := by
      have hinv : 1 / 420 ≤ 1 / u := one_div_le_one_div_of_le hu.1 hu.2
      linarith
    have hexp : Real.exp (1268 * (1 / 303.15 - 1 / u)) ≤ 8 := by
      have htwo : Real.exp 2 = Real.exp 1 * Real.exp 1 := by
        rw [← Real.exp_add]
        norm_num
      have hone := Real.exp_one_lt_d9
      calc Real.exp (1268 * (1 / 303.15 - 1 / u)) ≤ Real.exp 2 := Real.exp_le_exp.mpr hexponent
        _ = Real.exp 1 * Real.exp 1 := htwo
        _ ≤ 8 := by nlinarith [Real.exp_pos 1]
    calc max 1e-4 (0.005139 * l - 0.00326) * Real.exp (1268 * (1 / 303.15 - 1 / u))
        ≤ 0.07 * 8 := mul_le_mul hcond hexp (Real.exp_pos _).le (by norm_num)
      _ ≤ 1 := by norm_num
  rw [computeMembraneResistance, divide_real hsigma.ne', Option.some.injEq] at h
  rw [← h, le_div_iff₀ hsigma]
  have hlit : (realLib fluid).lit 0.005 = 0.005 := by
    simp only [realLib]
    norm_num
  rw [hlit]
  linarith

theorem lossSlope_nonneg {jLim j : ℝ} (hjLim : 0 < jLim) (hj : j < jLim) :
    0 ≤ lossSlope jLim j := by
  have hpos := sub_pos.mpr hj
  unfold lossSlope
  split_ifs <;> positivity

/-- The solver has a slope everywhere in its bracket, and it is that of the resistances at least. -/
theorem voltageSlope_le (hc : c.Valid) (hn : 0 ≤ c.nCells) {rMem j : ℝ}
    (hmem : (realLib fluid).computeMembraneResistance c.lambdaMem c.t ((realLib fluid).lit 0.005) =
      some rMem) (hhi : j < c.jLim) :
    ∃ d, (realLib fluid).voltageSlope c j = some d ∧ d ≤ -(c.nCells * (c.rInternal + rMem)) := by
  have hsafe : 0 < pyMax j ((realLib fluid).lit 1e-10) := by
    rw [pyMax_real]
    apply lt_max_of_lt_right
    simp only [realLib]
    norm_num
  have hcharge : 0 < (realLib fluid).lit 0.5 * (realLib fluid).lit 4 *
      (realLib fluid).lit 96485.33212 * pyMax j ((realLib fluid).lit 1e-10) := by
    apply mul_pos _ hsafe
    simp only [realLib]
    norm_num
  have hgas : 0 ≤ (realLib fluid).lit 8.314462618 * c.t := by
    apply mul_nonneg _ hc.t.le
    simp only [realLib]
    norm_num
  have hact := div_nonneg hgas hcharge.le
  have hloss := lossSlope_nonneg hc.jLim hhi
  set act := (realLib fluid).lit 8.314462618 * c.t / ((realLib fluid).lit 0.5 *
    (realLib fluid).lit 4 * (realLib fluid).lit 96485.33212 *
      pyMax j ((realLib fluid).lit 1e-10))
  have hslope : (realLib fluid).voltageSlope c j =
      some (c.nCells * (-act - (c.rInternal + rMem) - lossSlope c.jLim j)) := by
    simp only [voltageSlope, divide_real hcharge.ne', Option.bind_some, hmem,
      concentrationSlope_eq hc.jLim hhi, Option.map_some]
    rfl
  refine ⟨_, hslope, ?_⟩
  rw [← mul_neg]
  exact mul_le_mul_of_nonneg_left (by linarith) hn

/-! ## The fall of the curve -/

/-- Between two current densities the voltage falls by what the resistances take at least. -/
theorem resistance_le_fall (hc : c.Valid) (hn : 0 ≤ c.nCells) {rMem : ℝ}
    (hmem : (realLib fluid).computeMembraneResistance c.lambdaMem c.t ((realLib fluid).lit 0.005) =
      some rMem) {j k : ℝ} (hjk : j ≤ k) :
    (k - j) * (c.nCells * (c.rInternal + rMem)) ≤
      stackVoltage fluid c j - stackVoltage fluid c k := by
  obtain ⟨e, j0, rMem', hj0, -, hmem', -, hcurve⟩ := stackVoltage_eq fluid hc
  obtain rfl : rMem' = rMem := Option.some.inj (hmem'.symm.trans hmem)
  have hpos : (0 : ℝ) < max j 1e-10 := lt_max_of_lt_right (by norm_num)
  have hlog : Real.log (max j 1e-10 / j0) ≤ Real.log (max k 1e-10 / j0) :=
    Real.log_le_log (div_pos hpos hj0)
      (div_le_div_of_nonneg_right (max_le_max_right _ hjk) hj0.le)
  have hact := mul_le_mul_of_nonneg_left hlog (tafelFactor_pos hc.t).le
  have hconc := concentrationLoss_mono hc.jLim hjk
  rw [hcurve]
  calc (k - j) * (c.nCells * (c.rInternal + rMem'))
      = c.nCells * ((k - j) * (c.rInternal + rMem')) := by ring
    _ ≤ c.nCells * ((e - tafelFactor c.t * Real.log (max j 1e-10 / j0) -
          j * (c.rInternal + rMem') - concentrationLoss c.jLim j) -
        (e - tafelFactor c.t * Real.log (max k 1e-10 / j0) -
          k * (c.rInternal + rMem') - concentrationLoss c.jLim k)) :=
        mul_le_mul_of_nonneg_left (by linarith) hn
    _ = _ := mul_sub _ _ _

/-- The tolerance in the voltage is one in the current. -/
theorem distance_le_residual (hc : c.Valid) (hn : 0 ≤ c.nCells) {rMem : ℝ}
    (hmem : (realLib fluid).computeMembraneResistance c.lambdaMem c.t ((realLib fluid).lit 0.005) =
      some rMem) (j k : ℝ) :
    |j - k| * (c.nCells * (c.rInternal + rMem)) ≤
      |stackVoltage fluid c j - stackVoltage fluid c k| := by
  rcases le_total j k with hjk | hkj
  · rw [abs_sub_comm j k, abs_of_nonneg (sub_nonneg.mpr hjk)]
    exact (resistance_le_fall hc hn hmem hjk).trans (le_abs_self _)
  · rw [abs_of_nonneg (sub_nonneg.mpr hkj), abs_sub_comm (stackVoltage fluid c j)]
    exact (resistance_le_fall hc hn hmem hkj).trans (le_abs_self _)

/-! ## The iterates -/

/-- The bracket of the solver. -/
def CellInput.InBracket (c : CellInput ℝ) (j : ℝ) : Prop := 1e-10 ≤ j ∧ j ≤ 0.999 * c.jLim

/-- A Newton step, clamped to the bracket. -/
noncomputable def newtonNext (fluid : FluidData ℝ) (c : CellInput ℝ) (vTarget j : ℝ) : ℝ :=
  max 1e-10 (min (j - (stackVoltage fluid c j - vTarget) /
    (((realLib fluid).voltageSlope c j).getD 0)) (0.999 * c.jLim))

theorem newtonNext_inBracket (h : 1e-10 ≤ 0.999 * c.jLim) (vTarget j : ℝ) :
    c.InBracket (newtonNext fluid c vTarget j) :=
  ⟨le_max_left _ _, max_le h (min_le_right _ _)⟩

/-- The voltage misses the target. -/
def Misses (fluid : FluidData ℝ) (c : CellInput ℝ) (vTarget j : ℝ) : Prop :=
  1e-4 ≤ |stackVoltage fluid c j - vTarget|

/-- **One iteration** answers within the tolerance, and else takes the clamped step: the guard
against a small slope is not in use. -/
theorem newtonLoop_succ (hc : c.Valid) (hr : 0 ≤ c.rInternal) (hn : 1 ≤ c.nCells) (vTarget : ℝ)
    (n : ℕ) {j : ℝ} (hj : j < c.jLim) :
    (realLib fluid).newtonLoop c vTarget (n + 1) j =
      open Classical in
      if Misses fluid c vTarget j then
        (realLib fluid).newtonLoop c vTarget n (newtonNext fluid c vTarget j)
      else some (j, true) := by
  obtain ⟨e, j0, rMem, -, -, hmem, hsome, -⟩ := stackVoltage_eq fluid hc
  obtain ⟨v, hv⟩ := Option.isSome_iff_exists.mp (hsome j)
  obtain ⟨d, hd, hle⟩ := voltageSlope_le hc (zero_le_one.trans hn) hmem hj
  have hvoltage : stackVoltage fluid c j = v.vStack := by
    rw [stackVoltage, hv]
    rfl
  have hlit : (realLib fluid).lit 1e-4 = 1e-4 ∧ (realLib fluid).lit 1e-20 = 1e-20 ∧
      (realLib fluid).lit 1e-10 = 1e-10 ∧ (realLib fluid).lit 0.999 = 0.999 := by
    simp only [realLib]
    push_cast
    exact ⟨rfl, rfl, rfl, rfl⟩
  have hsteep : d ≤ -0.005 := by
    have hresistance : 0.005 ≤ c.rInternal + rMem :=
      (membraneResistance_ge hmem).trans (le_add_of_nonneg_left hr)
    have hscaled : 1 * (0.005 : ℝ) ≤ c.nCells * (c.rInternal + rMem) :=
      mul_le_mul hn hresistance (by norm_num) (zero_le_one.trans hn)
    linarith
  have hguard : ¬|d| < 1e-20 := by
    rw [abs_of_neg (by linarith)]
    linarith
  have hne : d ≠ 0 := by linarith
  have hmiss : |v.vStack - vTarget| < 1e-4 ↔ ¬Misses fluid c vTarget j := by
    rw [Misses, hvoltage, not_le]
  have hnext : newtonNext fluid c vTarget j =
      max 1e-10 (min (j - (v.vStack - vTarget) / d) (0.999 * c.jLim)) := by
    rw [newtonNext, hd, hvoltage, Option.getD_some]
  have habs : ∀ x : ℝ, (realLib fluid).abs x = |x| := fun _ => rfl
  simp only [newtonLoop, hv, Option.bind_some, hlit, hd, habs, if_neg hguard, divide_real hne,
    pyMax_real, pyMin_real, hnext]
  by_cases h : Misses fluid c vTarget j
  · rw [if_pos h, if_neg (mt hmiss.mp (not_not.mpr h))]
  · rw [if_neg h, if_pos (hmiss.mpr h)]

/-- **The loop** answers with the first of the iterates within the tolerance, or with the last one
if there is none. -/
theorem newtonLoop_spec (hc : c.Valid) (hr : 0 ≤ c.rInternal) (hn : 1 ≤ c.nCells)
    (hbracket : 1e-10 ≤ 0.999 * c.jLim) (vTarget : ℝ) (n : ℕ) {j : ℝ} (hj : c.InBracket j) :
    ∃ i ≤ n, (realLib fluid).newtonLoop c vTarget n j =
        some ((newtonNext fluid c vTarget)^[i] j, decide (i < n)) ∧
      c.InBracket ((newtonNext fluid c vTarget)^[i] j) ∧
      (∀ k < i, Misses fluid c vTarget ((newtonNext fluid c vTarget)^[k] j)) ∧
      (i < n → ¬Misses fluid c vTarget ((newtonNext fluid c vTarget)^[i] j)) := by
  -- induction on the iterations that are left
  induction n generalizing j with
  | zero =>
    exact ⟨0, le_rfl, rfl, hj, fun _ h => absurd h (Nat.not_lt_zero _),
      fun h => absurd h (Nat.not_lt_zero _)⟩
  | succ n ih =>
    have hlt : j < c.jLim := by
      have hpos := hc.jLim
      have hhi := hj.2
      linarith
    rw [newtonLoop_succ hc hr hn vTarget n hlt]
    split_ifs with h
    · obtain ⟨i, hi, heq, hin, hbefore, hafter⟩ :=
        ih (newtonNext_inBracket hbracket vTarget j)
      refine ⟨i + 1, Nat.succ_le_succ hi, ?_, hin, fun k hk => ?_, fun hlt => ?_⟩
      · rw [heq, Function.iterate_succ_apply]
        simp only [Nat.add_lt_add_iff_right]
      · cases k with
        | zero => exact h
        | succ k => exact hbefore k (Nat.lt_of_succ_lt_succ hk)
      · exact hafter (Nat.lt_of_succ_lt_succ hlt)
    · exact ⟨0, Nat.zero_le _, rfl, hj, fun _ hk => absurd hk (Nat.not_lt_zero _), fun _ => h⟩

/-- **The solver always answers, and rightly.**  The current density is in the bracket.  If it is
marked as converged, its voltage meets the target with the tolerance, and it is as near to the
density of the target as the resistances of the stack tell; if it is not, all 50 iterates miss the
target. -/
theorem newton_solver (fluid : FluidData ℝ) {c : CellInput ℝ} (ht : 0 < c.t)
    (hH2 : 0.5 ≤ c.aH2 ∧ c.aH2 ≤ 10) (hO2 : 0.5 ≤ c.aO2 ∧ c.aO2 ≤ 10) (hr : 0 ≤ c.rInternal)
    (hjLim : 2e-10 ≤ c.jLim) (hn : 1 ≤ c.nCells) (vTarget : ℝ) :
    ∃ j converged, (realLib fluid).newtonRaphsonSolver c vTarget = some (j, converged) ∧
      (1e-10 ≤ j ∧ j ≤ 0.999 * c.jLim) ∧
      (converged = true → |stackVoltage fluid c j - vTarget| < 1e-4 ∧
        ∀ k, stackVoltage fluid c k = vTarget →
          |j - k| * (c.nCells * (c.rInternal + 0.005)) < 1e-4) ∧
      (converged = false → ∀ i < 50,
        1e-4 ≤ |stackVoltage fluid c ((newtonNext fluid c vTarget)^[i] (0.5 * c.jLim)) -
          vTarget|) := by
  have hc : c.Valid := ⟨ht, hH2, hO2, by linarith⟩
  have hstart : c.InBracket (0.5 * c.jLim) := by
    constructor <;> linarith
  obtain ⟨i, hi, heq, hin, hbefore, hafter⟩ :=
    @newtonLoop_spec fluid c hc hr hn (by linarith) vTarget 50 _ hstart
  obtain ⟨j0, -, hj0⟩ := @effectiveJ0_real fluid _ ht c.ecsaRatio
  have hlit : (realLib fluid).lit 0.5 = 0.5 := by
    simp only [realLib]
    norm_num
  refine ⟨_, decide (i < 50), ?_, hin, fun hconverged => ?_, fun hfailed => ?_⟩
  · rw [newtonRaphsonSolver, hj0, Option.bind_some, hlit, heq]
  · have hmet := hafter (of_decide_eq_true hconverged)
    rw [Misses, not_le] at hmet
    refine ⟨hmet, fun k hk => ?_⟩
    obtain ⟨e, j0, rMem, -, -, hmem, -⟩ := stackVoltage_eq fluid hc
    have hdistance := distance_le_residual hc (zero_le_one.trans hn) hmem
      ((newtonNext fluid c vTarget)^[i] (0.5 * c.jLim)) k
    rw [hk] at hdistance
    refine lt_of_le_of_lt ?_ (hdistance.trans_lt hmet)
    have hres := membraneResistance_ge hmem
    exact mul_le_mul_of_nonneg_left
      (mul_le_mul_of_nonneg_left (by linarith) (zero_le_one.trans hn)) (abs_nonneg _)
  · have hlast : i = 50 := le_antisymm hi (not_lt.mp (of_decide_eq_false hfailed))
    rw [hlast] at hbefore
    exact hbefore

/-- The code's test stack at 6 V. -/
theorem newton_solver_test : ∃ j converged,
    (realLib noFluids).newtonRaphsonSolver testCell 6 = some (j, converged) ∧
      (1e-10 ≤ j ∧ j ≤ 0.999 * testCell.jLim) := by
  obtain ⟨j, converged, heq, hin, -⟩ :=
    newton_solver noFluids (c := testCell) (by simp only [testCell]; norm_num)
      (by simp only [testCell]; norm_num) (by simp only [testCell]; norm_num)
      (by simp only [testCell]; norm_num) (by simp only [testCell]; norm_num)
      (by simp only [testCell]; norm_num) 6
  exact ⟨j, converged, heq, hin⟩

end BatchKernel

end MatrixFactory
