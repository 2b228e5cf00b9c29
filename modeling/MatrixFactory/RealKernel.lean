/-
# The kernels over the real numbers

The numbers of the kernels are reals here.  At a positive temperature and with activities in their
bounds the voltage of the stack is computed at every current density, and as a function of it it
has the usual form: a constant less a logarithm, a linear term and the concentration loss.
-/
import MatrixFactory.BatchKernel
import MatrixFactory.Lib.Numerals
import Mathlib.Analysis.SpecialFunctions.Log.Basic
import Mathlib.Tactic.Linarith
import Mathlib.Tactic.NormNum
import Mathlib.Tactic.Positivity

namespace MatrixFactory

open scoped Numerals

namespace BatchKernel

/-- The numerical library on the real numbers. -/
noncomputable def realLib (fluid : FluidData ℝ) : NumLib ℝ where
  lit q := q
  exp := Real.exp
  log := Real.log
  sqrt := Real.sqrt
  abs x := |x|
  saturation := fluid.saturation
  compressibility := fluid.compressibility

/-- A fluid library that is not there: the code falls back to an ideal gas. -/
def noFluids : FluidData ℝ where
  saturation _ := none
  compressibility _ _ _ := none

variable {fluid : FluidData ℝ}

theorem divide_real {x y : ℝ} (hy : y ≠ 0) : (realLib fluid).divide x y = some (x / y) := by
  have hzero : y ≠ (realLib fluid).lit 0 := by
    show y ≠ ((0 : ℚ) : ℝ)
    rwa [Rat.cast_zero]
  exact if_neg hzero

theorem lit_ne_zero_real : (realLib fluid).lit 2.5 ≠ (realLib fluid).lit 0 ∧
    (realLib fluid).lit 2.5 * (realLib fluid).lit 0.01 ≠ (realLib fluid).lit 0 := by
  simp only [realLib]
  norm_num

/-! ## Comparisons -/

theorem pyMax_real (x y : ℝ) : pyMax x y = max x y := by
  unfold pyMax
  split_ifs with h
  · exact (max_eq_right h.le).symm
  · exact (max_eq_left (not_lt.mp h)).symm

theorem pyMin_real (x y : ℝ) : pyMin x y = min x y := by
  unfold pyMin
  split_ifs with h
  · exact (min_eq_right h.le).symm
  · exact (min_eq_left (not_lt.mp h)).symm

theorem npClip_mem {x lo hi : ℝ} (h : lo ≤ hi) : lo ≤ npClip x lo hi ∧ npClip x lo hi ≤ hi := by
  unfold npClip
  split_ifs with hlo hhi
  · exact ⟨le_rfl, h⟩
  · exact ⟨h, le_rfl⟩
  · exact ⟨not_lt.mp hlo, not_lt.mp hhi⟩

theorem npClip_mono {x y lo hi : ℝ} (h : lo ≤ hi) (hxy : x ≤ y) :
    npClip x lo hi ≤ npClip y lo hi := by
  obtain ⟨hylo, hyhi⟩ := npClip_mem (x := y) h
  unfold npClip at hylo hyhi ⊢
  split_ifs at hylo hyhi ⊢ with hx hx' hy hy'
  all_goals linarith

/-! ## The voltage -/

/-- The activities that the Nernst potential lets pass. -/
def ActivityBounds (a : ℝ) : Prop := 0.5 ≤ a ∧ a ≤ 10

/-- The membrane conducts at every temperature and water content. -/
theorem springer_pos_real (lambdaVal t : ℝ) :
    0 < (realLib fluid).springerMembraneConductivity lambdaVal t := by
  simp only [NumLib.springerMembraneConductivity, pyMax_real, pyMin_real, realLib]
  apply mul_pos _ (Real.exp_pos _)
  apply lt_max_of_lt_left
  norm_num

theorem effectiveJ0_real {t : ℝ} (ht : 0 < t) (ecsaRatio : ℝ) :
    ∃ j0 : ℝ, 0 < j0 ∧ (realLib fluid).effectiveJ0 ((realLib fluid).lit 2.5e-8) ecsaRatio t
      ((realLib fluid).lit 68500) ((realLib fluid).lit 353.15) = some j0 := by
  have hgas : (realLib fluid).lit 8.314462618 * t ≠ 0 := by
    simp only [realLib]
    positivity
  have hecsa : 0 < pyMax ((realLib fluid).lit 1e-4) ecsaRatio := by
    rw [pyMax_real]
    apply lt_max_of_lt_left
    simp only [realLib]
    norm_num
  have href : 0 < (realLib fluid).lit 2.5e-8 := by
    simp only [realLib]
    norm_num
  rw [NumLib.effectiveJ0, divide_real hgas]
  refine ⟨_, ?_, rfl⟩
  exact mul_pos (mul_pos href hecsa) (Real.exp_pos _)

theorem calculateNernstPotential_real (t : ℝ) {aH2 aO2 : ℝ} (hH2 : ActivityBounds aH2)
    (hO2 : ActivityBounds aO2) :
    ∃ e, (realLib fluid).calculateNernstPotential t aH2 aO2 = some e := by
  obtain ⟨hlo, hhi⟩ := hH2
  obtain ⟨hlo', hhi'⟩ := hO2
  simp only [NumLib.calculateNernstPotential, realLib]
  push_cast
  rw [if_neg (not_not.mpr ⟨hlo, hhi⟩), if_neg (not_not.mpr ⟨hlo', hhi'⟩)]
  exact ⟨_, rfl⟩

/-- The factor before the logarithm of the activation overpotential. -/
noncomputable def tafelFactor (t : ℝ) : ℝ := 8.314462618 * t / (0.5 * 4 * 96485.33212)

theorem tafelFactor_pos {t : ℝ} (ht : 0 < t) : 0 < tafelFactor t := by
  unfold tafelFactor
  positivity

/-- The concentration loss at a current density. -/
noncomputable def concentrationLoss (jLim j : ℝ) : ℝ :=
  if j / jLim ≤ 0.99 then -0.05 * Real.log (1 - j / jLim)
  else -0.05 * Real.log 0.01 + 0.05 / (jLim * 0.01) * (j / jLim - 0.99)

variable (fluid) in
/-- **The voltage of the stack** as a function of the current density. -/
theorem calculatePemfcVoltage_real {t jLim aH2 aO2 : ℝ} (ht : 0 < t) (hH2 : ActivityBounds aH2)
    (hO2 : ActivityBounds aO2) (hjLim : 0 < jLim) (rInternal nCells ecsaRatio lambdaMem : ℝ) :
    ∃ e j0 rMem : ℝ, 0 < j0 ∧ 0 < rMem ∧
      (realLib fluid).computeMembraneResistance lambdaMem t ((realLib fluid).lit 0.005) =
        some rMem ∧
      ∀ j, (realLib fluid).calculatePemfcVoltage j t aH2 aO2 rInternal nCells ecsaRatio lambdaMem
        jLim = some ⟨nCells * (e - tafelFactor t * Real.log (max j 1e-10 / j0) -
          j * (rInternal + rMem) - concentrationLoss jLim j),
          tafelFactor t * Real.log (max j 1e-10 / j0), j * (rInternal + rMem),
          concentrationLoss jLim j, e⟩ := by
  obtain ⟨j0, hj0, hj0eq⟩ : ∃ j0 : ℝ, 0 < j0 ∧ (realLib fluid).effectiveJ0
      ((realLib fluid).lit 2.5e-8) ecsaRatio t ((realLib fluid).lit 68500)
      ((realLib fluid).lit 353.15) = some j0 := effectiveJ0_real ht ecsaRatio
  obtain ⟨e, he⟩ : ∃ e, (realLib fluid).calculateNernstPotential t aH2 aO2 = some e :=
    calculateNernstPotential_real t hH2 hO2
  have hsigma : 0 < (realLib fluid).springerMembraneConductivity lambdaMem t :=
    springer_pos_real lambdaMem t
  have hthickness : 0 < (realLib fluid).lit 0.005 := by
    simp only [realLib]
    norm_num
  have hslope : jLim * 0.01 ≠ 0 := by positivity
  have hmem : (realLib fluid).computeMembraneResistance lambdaMem t ((realLib fluid).lit 0.005) =
      some ((realLib fluid).lit 0.005 / (realLib fluid).springerMembraneConductivity lambdaMem t) :=
    divide_real hsigma.ne'
  refine ⟨e, j0, _, hj0, div_pos hthickness hsigma, hmem, fun j => ?_⟩
  have hlit : (realLib fluid).lit 1e-10 = 1e-10 ∧ (realLib fluid).lit 0.05 = 0.05 ∧
      (realLib fluid).lit 0.01 = 0.01 ∧ (realLib fluid).lit 8.314462618 = 8.314462618 ∧
      (realLib fluid).lit 0.5 = 0.5 ∧ (realLib fluid).lit 4 = 4 ∧
      (realLib fluid).lit 96485.33212 = 96485.33212 ∧ (realLib fluid).lit 0.99 = 0.99 ∧
      (realLib fluid).lit 1 = 1 := by
    simp only [realLib]
    push_cast
    exact ⟨rfl, rfl, rfl, rfl, rfl, rfl, rfl, rfl, rfl⟩
  simp only [NumLib.calculatePemfcVoltage, hj0eq, he, hmem, divide_real hj0.ne',
    divide_real hjLim.ne', divide_real hslope, Option.bind_some, Option.map_some, pyMax_real,
    NumLib.etaConc, hlit]
  rfl

end BatchKernel

end MatrixFactory
