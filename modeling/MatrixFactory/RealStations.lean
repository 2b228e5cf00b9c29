/-
# The stations over the real numbers

The numbers of the station kernels are reals here, and so the kernels can be compared at different
arguments.  The cure of a membrane never goes back and ends below its cap; a coating that is further
from the nominal one is no better; a plate that is pressed harder, by a die that is more worn, is
damaged more; and the clamping of a stack does not depend on which bolt is the first.

No answer of the server leaves the bounds that the shop floor relies on.
-/
import MatrixFactory.StationKernel
import MatrixFactory.RealKernel
import MatrixFactory.StationSignal
import MatrixFactory.Lib.Numerals
import Mathlib.Analysis.SpecialFunctions.Pow.Real
import Mathlib.Analysis.SpecialFunctions.Trigonometric.Basic

namespace MatrixFactory

open scoped Numerals

namespace StationKernel

open BatchKernel

/-- The numerical library on the real numbers. -/
noncomputable def realStations : StationLib ℝ where
  lit q := q
  pi := Real.pi
  exp := Real.exp
  cos := Real.cos
  sqrt := Real.sqrt
  abs x := |x|
  pow x y := x ^ y

theorem lit_real (q : ℚ) : realStations.lit q = (q : ℝ) := rfl

theorem abs_real (x : ℝ) : realStations.abs x = |x| := rfl

/-! ## Station 1 -/

theorem arrhenius_pos {a : ℝ} (ha : 0 < a) (e tPressK : ℝ) :
    0 < realStations.arrhenius a e tPressK := mul_pos ha (Real.exp_pos _)

/-- The least rate of the cure, at its cap. -/
noncomputable def leastRate (k1 : ℝ) : ℝ := k1 * (1e-4 : ℝ) ^ (1.52 : ℝ)

theorem leastRate_pos {k1 : ℝ} (h : 0 < k1) : 0 < leastRate k1 :=
  mul_pos h (Real.rpow_pos_of_pos (by norm_num) _)

theorem leastRate_le_rate {k1 k2 : ℝ} (h1 : 0 ≤ k1) (h2 : 0 ≤ k2) (a : ℝ) :
    leastRate k1 ≤ realStations.rate k1 k2 a := by
  unfold StationLib.rate
  simp only [pyMax_real, pyMin_real, lit_real]
  set c : ℝ := max ((0 : ℚ) : ℝ) (min ((0.9999 : ℚ) : ℝ) a) with hc
  have hnonneg : 0 ≤ c := by
    rw [hc, Rat.cast_zero]
    exact le_max_left _ _
  have hcap : c ≤ 0.9999 := by
    rw [hc]
    exact max_le (by norm_num) ((min_le_left _ _).trans (by norm_num))
  have hterm : (0 : ℝ) ≤ if ((1e-6 : ℚ) : ℝ) < c then
      k2 * realStations.pow c ((0.48 : ℚ) : ℝ) else ((0 : ℚ) : ℝ) := by
    split
    · exact mul_nonneg h2 (Real.rpow_nonneg hnonneg _)
    · exact (Rat.cast_zero (α := ℝ)).ge
  have hpow : (1e-4 : ℝ) ^ (1.52 : ℝ) ≤
      realStations.pow (((1 : ℚ) : ℝ) - c) ((1.52 : ℚ) : ℝ) := by
    show (1e-4 : ℝ) ^ (1.52 : ℝ) ≤ (((1 : ℚ) : ℝ) - c) ^ ((1.52 : ℚ) : ℝ)
    have hexp : ((1.52 : ℚ) : ℝ) = 1.52 := by norm_num
    rw [hexp, Rat.cast_one]
    exact Real.rpow_le_rpow (by norm_num) (by linarith) (by norm_num)
  exact mul_le_mul (le_add_of_nonneg_right hterm) hpow (Real.rpow_nonneg (by norm_num) _)
    (add_nonneg h1 hterm)

/-- **A step of the cure** keeps the degree in its bounds, does not lower it, and raises it by the
least rate up to the cap. -/
theorem cureStep_spec {k1 k2 dt alpha : ℝ} (h1 : 0 ≤ k1) (h2 : 0 ≤ k2) (hdt : 0 ≤ dt)
    (hcap : alpha ≤ 0.9999) :
    alpha ≤ realStations.cureStep dt k1 k2 alpha ∧
      realStations.cureStep dt k1 k2 alpha ≤ 0.9999 ∧
      min 0.9999 (alpha + dt * leastRate k1) ≤ realStations.cureStep dt k1 k2 alpha := by
  have hrate := leastRate_le_rate h1 h2
  have hleast : 0 ≤ leastRate k1 := mul_nonneg h1 (Real.rpow_nonneg (by norm_num) _)
  unfold StationLib.cureStep
  simp only [pyMax_real, pyMin_real, lit_real]
  set r1 := realStations.rate k1 k2 alpha
  set r2 := realStations.rate k1 k2 (alpha + ((0.5 : ℚ) : ℝ) * dt * r1)
  set r3 := realStations.rate k1 k2 (alpha + ((0.5 : ℚ) : ℝ) * dt * r2)
  set r4 := realStations.rate k1 k2 (alpha + dt * r3)
  have hsum : 6 * leastRate k1 ≤ r1 + ((2 : ℚ) : ℝ) * r2 + ((2 : ℚ) : ℝ) * r3 + r4 := by
    have h₁ : leastRate k1 ≤ r1 := hrate _
    have h₂ : leastRate k1 ≤ r2 := hrate _
    have h₃ : leastRate k1 ≤ r3 := hrate _
    have h₄ : leastRate k1 ≤ r4 := hrate _
    push_cast
    linarith
  set sum := r1 + ((2 : ℚ) : ℝ) * r2 + ((2 : ℚ) : ℝ) * r3 + r4
  have hraise : alpha + dt * leastRate k1 ≤ alpha + dt / ((6 : ℚ) : ℝ) * sum := by
    have := mul_le_mul_of_nonneg_left hsum hdt
    push_cast
    linarith
  have hstay : alpha ≤ alpha + dt / ((6 : ℚ) : ℝ) * sum :=
    (le_add_of_nonneg_right (mul_nonneg hdt hleast)).trans hraise
  have hcapped : ((0.9999 : ℚ) : ℝ) = 0.9999 := by norm_num
  rw [hcapped]
  refine ⟨?_, ?_, ?_⟩
  · exact (le_min hcap hstay).trans (le_max_right _ _)
  · exact max_le (by norm_num) (min_le_left _ _)
  · exact (min_le_min_left _ hraise).trans (le_max_right _ _)

/-- The rates of the two reactions at a temperature. -/
noncomputable def cureRates (tPressK : ℝ) : ℝ × ℝ :=
  (realStations.arrhenius (realStations.lit 1.2e4) (realStations.lit 58.2e3) tPressK,
    realStations.arrhenius (realStations.lit 5.5e6) (realStations.lit 68.5e3) tPressK)

theorem cureRates_pos (tPressK : ℝ) : 0 < (cureRates tPressK).1 ∧ 0 < (cureRates tPressK).2 := by
  constructor
  · exact arrhenius_pos (by rw [lit_real]; norm_num) _ _
  · exact arrhenius_pos (by rw [lit_real]; norm_num) _ _

theorem cureAfter_zero (tPressK dwellTimeS : ℝ) (nSteps : ℕ) :
    realStations.cureAfter tPressK dwellTimeS nSteps 0 = 0 := by
  show realStations.lit 0 = 0
  rw [lit_real, Rat.cast_zero]

theorem cureAfter_succ (tPressK dwellTimeS : ℝ) (nSteps i : ℕ) :
    realStations.cureAfter tPressK dwellTimeS nSteps (i + 1) =
      realStations.cureStep (dwellTimeS / nSteps) (cureRates tPressK).1 (cureRates tPressK).2
        (realStations.cureAfter tPressK dwellTimeS nSteps i) := by
  have hlit : realStations.lit (nSteps : ℚ) = (nSteps : ℝ) := by
    rw [lit_real, Rat.cast_natCast]
  unfold StationLib.cureAfter
  rw [Function.iterate_succ_apply', hlit]
  rfl

/-- **The cure of a membrane after some steps** is in its bounds, and at least what the least rate
makes of the time. -/
theorem cureAfter_spec {tPressK dwellTimeS : ℝ} (hdwell : 0 ≤ dwellTimeS) (nSteps i : ℕ) :
    0 ≤ realStations.cureAfter tPressK dwellTimeS nSteps i ∧
      realStations.cureAfter tPressK dwellTimeS nSteps i ≤ 0.9999 ∧
      min 0.9999 (i * (dwellTimeS / nSteps * leastRate (cureRates tPressK).1)) ≤
        realStations.cureAfter tPressK dwellTimeS nSteps i := by
  obtain ⟨h1, h2⟩ := cureRates_pos tPressK
  have hdt : 0 ≤ dwellTimeS / nSteps := div_nonneg hdwell (Nat.cast_nonneg _)
  have hleast := mul_nonneg hdt (leastRate_pos h1).le
  induction i with
  | zero =>
    rw [cureAfter_zero, Nat.cast_zero, zero_mul]
    exact ⟨le_rfl, by norm_num, min_le_right _ _⟩
  | succ i ih =>
    obtain ⟨hnonneg, hcap, hleft⟩ := ih
    obtain ⟨hstay, hcap', hraise⟩ := cureStep_spec h1.le h2.le hdt hcap
    rw [cureAfter_succ]
    refine ⟨hnonneg.trans hstay, hcap', le_trans ?_ hraise⟩
    refine le_min (min_le_left _ _) ?_
    rcases le_total 0.9999 (i * (dwellTimeS / nSteps * leastRate (cureRates tPressK).1)) with h | h
    · rw [min_eq_left h] at hleft
      exact (min_le_left _ _).trans (hleft.trans (le_add_of_nonneg_right hleast))
    · rw [min_eq_right h] at hleft
      refine (min_le_right _ _).trans ?_
      rw [Nat.cast_succ, add_mul, one_mul]
      exact add_le_add_left hleft _

/-- A risk is the part of a quantity above zero, relative to a scale. -/
theorem risk_pos_iff {x c : ℝ} (hc : 0 < c) : 0 < max 0 x / c ↔ 0 < x := by
  rw [div_pos_iff_of_pos_right hc, lt_max_iff, or_iff_right (lt_irrefl 0)]

theorem risk_nonneg {x c : ℝ} (hc : 0 < c) : 0 ≤ max 0 x / c :=
  div_nonneg (le_max_left _ _) hc.le

theorem risk_eq_zero {x c : ℝ} (hx : x ≤ 0) : max 0 x / c = 0 := by
  rw [max_eq_left hx, zero_div]

/-- The response of Station 1, in the degree of the cure. -/
theorem stage1_real (tPressK dwellTimeS kTime : ℝ) :
    let r := realStations.simulateStage1MeaPrep tPressK dwellTimeS kTime
    r.alphaFinal = realStations.cureAfter tPressK dwellTimeS 100 100 ∧
      r.delaminationRisk = max 0 (0.85 - r.alphaFinal) / 0.85 ∧
      r.pinholeRisk = max 0 (r.alphaFinal - 0.98) / 0.02 ∧
      r.varRatio = 1 + 0.30 * r.delaminationRisk + 0.25 * r.pinholeRisk ∧
      (r.isDefective ↔ r.alphaFinal < 0.85 ∨ 0.98 < r.alphaFinal) := by
  simp only [StationLib.simulateStage1MeaPrep, StationLib.integrateKamalSourour,
    StationLib.response, pyMax_real, lit_real]
  norm_num

/-- **The cure of a membrane.**  At every temperature and after every dwell time: no step of the
integration lowers the degree of the cure, which ends in its bounds; of the two risks, which are
below 1, one is zero at least, and the membrane is defective iff the other is not; and a dwell time
that is long for the rate of the first reaction cures the membrane too far. -/
theorem station1_cure (tPressK kTime : ℝ) {dwellTimeS : ℝ} (hdwell : 0 < dwellTimeS) :
    (∀ i, realStations.cureAfter tPressK dwellTimeS 100 i ≤
        realStations.cureAfter tPressK dwellTimeS 100 (i + 1)) ∧
      let r := realStations.simulateStage1MeaPrep tPressK dwellTimeS kTime
      (0 ≤ r.alphaFinal ∧ r.alphaFinal ≤ 0.9999) ∧
      (0 ≤ r.delaminationRisk ∧ r.delaminationRisk ≤ 1) ∧
      (0 ≤ r.pinholeRisk ∧ r.pinholeRisk < 1) ∧
      (r.delaminationRisk = 0 ∨ r.pinholeRisk = 0) ∧
      (r.isDefective ↔ 0 < r.delaminationRisk ∨ 0 < r.pinholeRisk) ∧
      (1 ≤ r.varRatio ∧ r.varRatio ≤ 1.3) ∧
      (0.98 < dwellTimeS * leastRate (cureRates tPressK).1 → 0 < r.pinholeRisk) := by
  have hstep : ∀ i, realStations.cureAfter tPressK dwellTimeS 100 i ≤
      realStations.cureAfter tPressK dwellTimeS 100 (i + 1) := by
    intro i
    obtain ⟨h1, h2⟩ := cureRates_pos tPressK
    rw [cureAfter_succ]
    exact (cureStep_spec h1.le h2.le (div_nonneg hdwell.le (Nat.cast_nonneg _))
      (cureAfter_spec hdwell.le 100 i).2.1).1
  refine ⟨hstep, ?_⟩
  intro r
  obtain ⟨halpha, hdelamination, hpinhole, hvar, hdefective⟩ :=
    stage1_real tPressK dwellTimeS kTime
  obtain ⟨hnonneg, hcap, hleft⟩ := @cureAfter_spec tPressK _ hdwell.le 100 100
  rw [← halpha] at hnonneg hcap hleft
  have hscale : (0 : ℝ) < 0.85 ∧ (0 : ℝ) < 0.02 := by norm_num
  have hdelaminated : r.delaminationRisk ≤ 1 := by
    rw [hdelamination, div_le_one hscale.1]
    exact max_le (by norm_num) (by linarith)
  have hpinholed : r.pinholeRisk < 1 := by
    rw [hpinhole, div_lt_one hscale.2]
    exact max_lt (by norm_num) (by linarith)
  have hdelaminates : 0 ≤ r.delaminationRisk := by
    rw [hdelamination]
    exact risk_nonneg hscale.1
  have hpinholes : 0 ≤ r.pinholeRisk := by
    rw [hpinhole]
    exact risk_nonneg hscale.2
  have hone : r.delaminationRisk = 0 ∨ r.pinholeRisk = 0 := by
    rcases le_total r.alphaFinal 0.98 with h | h
    · exact Or.inr (hpinhole.trans (risk_eq_zero (by linarith)))
    · exact Or.inl (hdelamination.trans (risk_eq_zero (by linarith)))
  refine ⟨⟨hnonneg, hcap⟩, ⟨hdelaminates, hdelaminated⟩, ⟨hpinholes, hpinholed⟩, hone, ?_, ?_,
    fun hlong => ?_⟩
  · rw [hdefective, hdelamination, hpinhole, risk_pos_iff hscale.1, risk_pos_iff hscale.2, sub_pos,
      sub_pos]
  · rw [hvar]
    rcases hone with h | h
    · rw [h]
      constructor <;> linarith
    · rw [h]
      constructor <;> linarith
  · have htime : ((100 : ℕ) : ℝ) * (dwellTimeS / ((100 : ℕ) : ℝ) *
        leastRate (cureRates tPressK).1) = dwellTimeS * leastRate (cureRates tPressK).1 := by
      push_cast
      ring
    rw [htime] at hleft
    rw [hpinhole, risk_pos_iff hscale.2, sub_pos]
    exact (lt_min (by norm_num) hlong).trans_le hleft

/-- The nominal hot press, for three minutes. -/
theorem station1_cure_nominal :
    let r := realStations.simulateStage1MeaPrep 433.15 180 1
    (r.delaminationRisk = 0 ∨ r.pinholeRisk = 0) ∧ 0 ≤ r.alphaFinal := by
  obtain ⟨-, ⟨hnonneg, -⟩, -, -, hone, -⟩ :=
    station1_cure 433.15 1 (show (0 : ℝ) < 180 by norm_num)
  exact ⟨hone, hnonneg⟩

/-! ## Station 2 -/

/-- The deviations of a coating from the nominal speed and viscosity. -/
noncomputable def vDev (vCoatMS : ℝ) : ℝ := |vCoatMS - 0.15| / 0.15

noncomputable def muDev (muSlurryPaS : ℝ) : ℝ := |muSlurryPaS - 0.050| / 0.050

/-- `loading_variance` in the deviations. -/
noncomputable def unevenness (v mu : ℝ) : ℝ := 0.35 * (v * v) + 0.25 * (mu * mu) + 0.15 * v * mu

/-- The response of Station 2, in the deviations. -/
theorem stage2_real (vCoatMS muSlurryPaS kTime : ℝ) :
    let r := realStations.simulateStage2CatalystDeposition vCoatMS muSlurryPaS kTime
    let v := vDev vCoatMS
    let mu := muDev muSlurryPaS
    r.ecsaRatio = max 0.1 (min 1 (1 - 0.45 * unevenness v mu - 0.20 * v)) ∧
      r.procTimeS = kTime * 12 * (1 + 0.12 * v + 0.10 * mu) ∧
      r.varRatio = 1 + 0.40 * unevenness v mu ∧
      (r.isDefective ↔ r.ecsaRatio < 0.70 ∨ 0.30 < unevenness v mu) := by
  simp only [StationLib.simulateStage2CatalystDeposition, StationLib.response,
    StationLib.loadingVariance, unevenness, vDev, muDev, pyMax_real, pyMin_real, realStations]
  norm_num

theorem vDev_nonneg (vCoatMS : ℝ) : 0 ≤ vDev vCoatMS := div_nonneg (abs_nonneg _) (by norm_num)

theorem muDev_nonneg (muSlurryPaS : ℝ) : 0 ≤ muDev muSlurryPaS :=
  div_nonneg (abs_nonneg _) (by norm_num)

theorem unevenness_mono {v v' mu mu' : ℝ} (hv : 0 ≤ v) (hmu : 0 ≤ mu) (hvv : v ≤ v')
    (hmm : mu ≤ mu') : unevenness v mu ≤ unevenness v' mu' := by
  have hv' := hv.trans hvv
  have h₁ : v * v ≤ v' * v' := mul_le_mul hvv hvv hv hv'
  have h₂ : mu * mu ≤ mu' * mu' := mul_le_mul hmm hmm hmu (hmu.trans hmm)
  have h₃ : v * mu ≤ v' * mu' := mul_le_mul hvv hmm hmu hv'
  unfold unevenness
  linarith

theorem unevenness_nonneg {v mu : ℝ} (hv : 0 ≤ v) (hmu : 0 ≤ mu) : 0 ≤ unevenness v mu := by
  unfold unevenness
  positivity

/-- **The coating of a catalyst.**  The ECSA ratio is in its bounds, and it is 1 at the nominal
coating only; and a coating that is no nearer to the nominal one has no greater ratio, takes no less
time and is defective if the nearer one is. -/
theorem station2_coating {vCoatMS vCoatMS' muSlurryPaS muSlurryPaS' kTime : ℝ} (htime : 0 ≤ kTime)
    (hv : vDev vCoatMS ≤ vDev vCoatMS') (hmu : muDev muSlurryPaS ≤ muDev muSlurryPaS') :
    let r := realStations.simulateStage2CatalystDeposition vCoatMS muSlurryPaS kTime
    let r' := realStations.simulateStage2CatalystDeposition vCoatMS' muSlurryPaS' kTime
    (0.1 ≤ r.ecsaRatio ∧ r.ecsaRatio ≤ 1) ∧
      (r.ecsaRatio = 1 ↔ vCoatMS = 0.15 ∧ muSlurryPaS = 0.050) ∧
      r'.ecsaRatio ≤ r.ecsaRatio ∧ r.procTimeS ≤ r'.procTimeS ∧ r.varRatio ≤ r'.varRatio ∧
      (r.isDefective → r'.isDefective) := by
  intro r r'
  obtain ⟨hecsa, hproc, hvar, hdefective⟩ := stage2_real vCoatMS muSlurryPaS kTime
  obtain ⟨hecsa', hproc', hvar', hdefective'⟩ := stage2_real vCoatMS' muSlurryPaS' kTime
  have hscale : (0 : ℝ) < 0.15 ∧ (0 : ℝ) < 0.050 := by norm_num
  have hvpos := vDev_nonneg vCoatMS
  have hmupos := muDev_nonneg muSlurryPaS
  have huneven := unevenness_mono hvpos hmupos hv hmu
  have heven := unevenness_nonneg hvpos hmupos
  have hratio : r'.ecsaRatio ≤ r.ecsaRatio := by
    rw [hecsa, hecsa']
    exact max_le_max_left _ (min_le_min_left _ (by linarith))
  refine ⟨?_, ?_, hratio, ?_, ?_, fun hdef => ?_⟩
  · rw [hecsa]
    exact ⟨le_max_left _ _, max_le (by norm_num) (min_le_left _ _)⟩
  · have hdev : r.ecsaRatio = 1 ↔ vDev vCoatMS = 0 ∧ muDev muSlurryPaS = 0 := by
      rw [hecsa]
      constructor
      · intro h
        have hraw : 1 ≤ 1 - 0.45 * unevenness (vDev vCoatMS) (muDev muSlurryPaS) -
            0.20 * vDev vCoatMS := by
          by_contra hlt
          have hlow := max_lt (show (0.1 : ℝ) < 1 by norm_num)
            ((min_le_right 1 _).trans_lt (not_le.mp hlt))
          exact hlow.ne h
        have hv0 : vDev vCoatMS = 0 := by linarith
        rw [hv0] at hraw
        unfold unevenness at hraw
        exact ⟨hv0, mul_self_eq_zero.mp (by nlinarith [mul_self_nonneg (muDev muSlurryPaS)])⟩
      · rintro ⟨hv0, hmu0⟩
        rw [hv0, hmu0]
        unfold unevenness
        norm_num
    rw [hdev, vDev, muDev, div_eq_zero_iff, div_eq_zero_iff, or_iff_left hscale.1.ne',
      or_iff_left hscale.2.ne', abs_eq_zero, abs_eq_zero, sub_eq_zero, sub_eq_zero]
  · rw [hproc, hproc']
    exact mul_le_mul_of_nonneg_left (by linarith) (by linarith)
  · rw [hvar, hvar']
    linarith
  · rw [hdefective] at hdef
    rw [hdefective']
    exact hdef.imp (fun h => hratio.trans_lt h) fun h => h.trans_le huneven

/-- Twice the nominal speed, and the nominal one. -/
theorem station2_coating_fast :
    let r := realStations.simulateStage2CatalystDeposition 0.15 0.050 1
    let r' := realStations.simulateStage2CatalystDeposition 0.30 0.050 1
    r.ecsaRatio = 1 ∧ r'.ecsaRatio ≤ r.ecsaRatio := by
  obtain ⟨-, hone, hratio, -⟩ :=
    @station2_coating 0.15 0.30 0.050 0.050 1 zero_le_one (by norm_num [vDev]) le_rfl
  exact ⟨hone.mpr ⟨rfl, rfl⟩, hratio⟩

/-! ## Station 3 -/

/-- `k_wear`. -/
noncomputable def kWear (useDuplexCoating : Bool) : ℝ :=
  if useDuplexCoating then 1.47e-10 else 3.50e-6

theorem kWear_pos (useDuplexCoating : Bool) : 0 < kWear useDuplexCoating := by
  unfold kWear
  split <;> norm_num

theorem kWear_mono {dup dup' : Bool} (h : dup' → dup) : kWear dup ≤ kWear dup' := by
  unfold kWear
  split_ifs with h1 h2 h2
  · exact le_rfl
  · norm_num
  · exact absurd (h h2) h1
  · exact le_rfl

theorem wearRatio_real (pressForceKn : ℝ) (dieStrokeCount : ℤ) (w0 : ℝ) (dup : Bool) :
    realStations.wearRatio pressForceKn dieStrokeCount w0 dup =
      min 0.99999
        (max 0 (w0 + kWear dup * dieStrokeCount * (pressForceKn / 120) ^ (1.35 : ℝ))) := by
  simp only [StationLib.wearRatio, kWear, pyMax_real, pyMin_real, realStations]
  norm_num

/-- A die that is pressed no less often and no less hard is no less worn. -/
theorem wearRatio_mono {f f' : ℝ} {n n' : ℤ} {w w' : ℝ} {dup dup' : Bool} (hf : 0 ≤ f)
    (hff : f ≤ f') (hn : 0 ≤ n) (hnn : n ≤ n') (hww : w ≤ w') (hdup : dup' → dup) :
    realStations.wearRatio f n w dup ≤ realStations.wearRatio f' n' w' dup' := by
  rw [wearRatio_real, wearRatio_real]
  have hpow : (f / 120) ^ (1.35 : ℝ) ≤ (f' / 120) ^ (1.35 : ℝ) :=
    Real.rpow_le_rpow (by positivity) (div_le_div_of_nonneg_right hff (by norm_num)) (by norm_num)
  have hn₀ : (0 : ℝ) ≤ n := by exact_mod_cast hn
  have hnn₀ : (n : ℝ) ≤ n' := by exact_mod_cast hnn
  have hstrokes : kWear dup * n ≤ kWear dup' * n' :=
    mul_le_mul (kWear_mono hdup) hnn₀ hn₀ (kWear_pos dup').le
  have hpow₀ : 0 ≤ (f / 120) ^ (1.35 : ℝ) := Real.rpow_nonneg (by positivity) _
  have hraw : kWear dup * n * (f / 120) ^ (1.35 : ℝ) ≤
      kWear dup' * n' * (f' / 120) ^ (1.35 : ℝ) :=
    mul_le_mul hstrokes hpow hpow₀ (mul_nonneg (kWear_pos dup').le (hn₀.trans hnn₀))
  exact min_le_min_left _ (max_le_max_left _ (add_le_add hww hraw))

theorem wearRatio_mem (f : ℝ) (n : ℤ) (w : ℝ) (dup : Bool) :
    0 ≤ realStations.wearRatio f n w dup ∧ realStations.wearRatio f n w dup < 1 := by
  rw [wearRatio_real]
  exact ⟨le_min (by norm_num) (le_max_left _ _), (min_le_left _ _).trans_lt (by norm_num)⟩

/-- The plastic strain of a plate. -/
noncomputable def epsP (pressForceKn : ℝ) : ℝ := 0.1456 * (pressForceKn / 120)

theorem epsP_mono {f f' : ℝ} (h : f ≤ f') : epsP f ≤ epsP f' := by
  unfold epsP
  linarith

/-- `sigma_1_mpa`. -/
noncomputable def stress (pressForceKn w : ℝ) : ℝ :=
  pressForceKn * 1000 / 0.0012 / 1e6 *
      Real.exp ((0.12 + 0.45 * w) * (10 * (Real.pi / 180))) +
    1280 * max (epsP pressForceKn) 1e-6 ^ (0.43 : ℝ)

theorem stress_nonneg {f w : ℝ} (hf : 0 ≤ f) : 0 ≤ stress f w := by
  unfold stress
  positivity

theorem stress_mono {f f' w w' : ℝ} (hf : 0 ≤ f) (hff : f ≤ f') (hww : w ≤ w') :
    stress f w ≤ stress f' w' := by
  have hmembrane : f * 1000 / 0.0012 / 1e6 ≤ f' * 1000 / 0.0012 / 1e6 := by
    have := mul_le_mul_of_nonneg_right hff (show (0 : ℝ) ≤ 1000 by norm_num)
    exact div_le_div_of_nonneg_right (div_le_div_of_nonneg_right this (by norm_num)) (by norm_num)
  have hfriction : (0.12 + 0.45 * w) * (10 * (Real.pi / 180)) ≤
      (0.12 + 0.45 * w') * (10 * (Real.pi / 180)) := by
    have hpi := Real.pi_pos
    exact mul_le_mul_of_nonneg_right (by linarith) (by positivity)
  have hflow : max (epsP f) 1e-6 ^ (0.43 : ℝ) ≤ max (epsP f') 1e-6 ^ (0.43 : ℝ) :=
    Real.rpow_le_rpow (le_max_of_le_right (by norm_num)) (max_le_max_right _ (epsP_mono hff))
      (by norm_num)
  have hf' := hf.trans hff
  refine add_le_add (mul_le_mul hmembrane (Real.exp_le_exp.mpr hfriction) (Real.exp_pos _).le ?_)
    (mul_le_mul_of_nonneg_left hflow (by norm_num))
  positivity

/-- `damage_ncl`. -/
noncomputable def damageNcl (f w : ℝ) : ℝ :=
  if 1e-4 < epsP f then stress f w / 1280 * epsP f ^ (0.57 : ℝ) / 0.57 / 0.35 else 0

theorem damageIndex_real (f w : ℝ) :
    realStations.damageIndex f w = min 2 (max 0 (damageNcl f w)) := by
  simp only [StationLib.damageIndex, StationLib.sigma1Mpa, StationLib.aTotalChannelsM2, damageNcl,
    stress, epsP, pyMax_real, pyMin_real, realStations]
  norm_num

theorem damageNcl_mono {f f' w w' : ℝ} (hf : 0 ≤ f) (hff : f ≤ f') (hww : w ≤ w') :
    damageNcl f w ≤ damageNcl f' w' := by
  have heps : 0 ≤ epsP f := by
    unfold epsP
    positivity
  have hpow : epsP f ^ (0.57 : ℝ) ≤ epsP f' ^ (0.57 : ℝ) :=
    Real.rpow_le_rpow heps (epsP_mono hff) (by norm_num)
  have hstress := stress_nonneg (w := w') (hf.trans hff)
  unfold damageNcl
  split_ifs with h h' h'
  · refine div_le_div_of_nonneg_right (div_le_div_of_nonneg_right ?_ (by norm_num)) (by norm_num)
    exact mul_le_mul (div_le_div_of_nonneg_right (stress_mono hf hff hww) (by norm_num)) hpow
      (Real.rpow_nonneg heps _) (by positivity)
  · exact absurd (h.trans_le (epsP_mono hff)) h'
  · have := Real.rpow_nonneg (heps.trans (epsP_mono hff)) (0.57 : ℝ)
    positivity
  · exact le_rfl

/-- The response of Station 3, in the wear of the die. -/
theorem stage3_real (pressForceKn : ℝ) (dieStrokeCount : ℤ) (w0 : ℝ) (dup : Bool) (kTime : ℝ) :
    let r := realStations.simulateStage1Stamping pressForceKn dieStrokeCount w0 dup kTime
    let wear := realStations.wearRatio pressForceKn dieStrokeCount w0 dup
    r.damageIndex = realStations.damageIndex pressForceKn wear ∧
      r.procTimeS = kTime * 3 * (1 + 0.12 * (|pressForceKn - 120| / 120) + 0.18 * wear) ∧
      r.varRatio = 1 + 0.40 * wear + 0.30 * (r.damageIndex * r.damageIndex) ∧
      (r.isDefective ↔ 1 < r.damageIndex ∨ 0.75 ≤ wear) := by
  simp only [StationLib.simulateStage1Stamping, StationLib.response, realStations]
  norm_num

/-- **The stamping of a plate.**  The damage is in its bounds; and a plate that is pressed no less
hard, by a die that is pressed no less often and no less worn, is damaged no less, and is defective
if the other one is.  The duplex coating never makes it worse. -/
theorem station3_stamping {f f' : ℝ} {n n' : ℤ} {w w' : ℝ} {dup dup' : Bool} (hf : 0 ≤ f)
    (hff : f ≤ f') (hn : 0 ≤ n) (hnn : n ≤ n') (hww : w ≤ w') (hdup : dup' → dup) {kTime : ℝ}
    (htime : 0 ≤ kTime) :
    (realStations.simulateStage1Stamping f n w dup kTime).damageIndex ∈ Set.Icc 0 2 ∧
      let r := realStations.simulateStage1Stamping f n w dup kTime
      let r' := realStations.simulateStage1Stamping f' n' w' dup' kTime
      r.damageIndex ≤ r'.damageIndex ∧ r.varRatio ≤ r'.varRatio ∧
        (120 ≤ f → r.procTimeS ≤ r'.procTimeS) ∧ (r.isDefective → r'.isDefective) := by
  obtain ⟨hdamage, hproc, hvar, hdefective⟩ := stage3_real f n w dup kTime
  obtain ⟨hdamage', hproc', hvar', hdefective'⟩ := stage3_real f' n' w' dup' kTime
  have hwear := wearRatio_mono hf hff hn hnn hww hdup
  have hmem : (realStations.simulateStage1Stamping f n w dup kTime).damageIndex ∈ Set.Icc 0 2 := by
    rw [hdamage, damageIndex_real]
    exact ⟨le_min (by norm_num) (le_max_left _ _), min_le_left _ _⟩
  refine ⟨hmem, ?_⟩
  intro r r'
  have hmono : r.damageIndex ≤ r'.damageIndex := by
    rw [hdamage, hdamage', damageIndex_real, damageIndex_real]
    exact min_le_min_left _ (max_le_max_left _ (damageNcl_mono hf hff hwear))
  refine ⟨hmono, ?_, fun hnominal => ?_, fun hdef => ?_⟩
  · rw [hvar, hvar']
    have hsquare := mul_le_mul hmono hmono hmem.1 (hmem.1.trans hmono)
    linarith
  · rw [hproc, hproc', abs_of_nonneg (by linarith), abs_of_nonneg (by linarith)]
    refine mul_le_mul_of_nonneg_left ?_ (by linarith)
    have hdev : (f - 120) / 120 ≤ (f' - 120) / 120 :=
      div_le_div_of_nonneg_right (by linarith) (by norm_num)
    linarith
  · rw [hdefective] at hdef
    rw [hdefective']
    exact hdef.imp (fun h => h.trans_le hmono) fun h => h.trans hwear

/-- A thousand strokes of a coated die, and of one that is not coated. -/
theorem station3_stamping_duplex :
    (realStations.simulateStage1Stamping 120 1000 0 true 1).damageIndex ≤
      (realStations.simulateStage1Stamping 120 1000 0 false 1).damageIndex :=
  (station3_stamping (by norm_num) le_rfl (by norm_num) le_rfl le_rfl (by decide)
    zero_le_one).2.1

/-! ## Station 4 -/

theorem boltSum_real (f : Fin 4 → ℝ) : realStations.boltSum f = ∑ i, f i := by
  rw [Fin.sum_univ_four]
  show realStations.lit 0 + f 0 + f 1 + f 2 + f 3 = _
  rw [lit_real, Rat.cast_zero, zero_add]

/-- A sum over the bolts does not depend on which one is the first. -/
theorem sum_rotate (f : Fin 4 → ℝ) : ∑ i, f (i + 1) = ∑ i, f i :=
  Equiv.sum_comp (Equiv.addRight 1) f

/-- The friction coefficients when the second bolt is taken for the first. -/
def rotateFrictions (frictions : Fin 8 → ℝ) : Fin 8 → ℝ :=
  Fin.append (fun i : Fin 4 => frictions (Fin.castAdd 4 (i + 1)))
    fun i : Fin 4 => frictions (Fin.natAdd 4 (i + 1))

theorem fNomBolt_rotate (torques : Fin 4 → ℝ) (frictions : Fin 8 → ℝ) (i : Fin 4) :
    realStations.fNomBolt (fun i => torques (i + 1)) (rotateFrictions frictions) i =
      realStations.fNomBolt torques frictions (i + 1) := by
  simp only [StationLib.fNomBolt, rotateFrictions, Fin.append_left, Fin.append_right]

theorem fRealBolt_rotate (torques : Fin 4 → ℝ) (frictions : Fin 8 → ℝ) (i : Fin 4) :
    realStations.fRealBolt (fun i => torques (i + 1)) (rotateFrictions frictions) i =
      realStations.fRealBolt torques frictions (i + 1) := by
  simp only [StationLib.fRealBolt, fNomBolt_rotate, add_right_comm]

theorem pClampMpa_rotate (torques : Fin 4 → ℝ) (frictions : Fin 8 → ℝ) :
    realStations.pClampMpa (fun i => torques (i + 1)) (rotateFrictions frictions) =
      realStations.pClampMpa torques frictions := by
  simp only [StationLib.pClampMpa, boltSum_real, fRealBolt_rotate,
    sum_rotate fun i => pyMax (realStations.lit 0) (realStations.fRealBolt torques frictions i)]

theorem tauStdUnbiased_rotate (torques : Fin 4 → ℝ) :
    realStations.tauStdUnbiased (fun i => torques (i + 1)) =
      realStations.tauStdUnbiased torques := by
  simp only [StationLib.tauStdUnbiased, boltSum_real, sum_rotate torques]
  rw [sum_rotate fun i => (torques i - (∑ i, torques i) / realStations.lit 4) *
    (torques i - (∑ i, torques i) / realStations.lit 4)]

theorem pClampMpa_nonneg (torques : Fin 4 → ℝ) (frictions : Fin 8 → ℝ) :
    0 ≤ realStations.pClampMpa torques frictions := by
  simp only [StationLib.pClampMpa, boltSum_real, pyMax_real, lit_real, Rat.cast_zero]
  exact div_nonneg (div_nonneg (Finset.sum_nonneg fun i _ => le_max_left _ _) (by norm_num))
    (by norm_num)

/-- Torques that are all changed by a factor change the pressure by it. -/
theorem pClampMpa_scale {c : ℝ} (hc : 0 ≤ c) (torques : Fin 4 → ℝ) (frictions : Fin 8 → ℝ) :
    realStations.pClampMpa (fun i => c * torques i) frictions =
      c * realStations.pClampMpa torques frictions := by
  have hreal : ∀ i, realStations.fRealBolt (fun i => c * torques i) frictions i =
      c * realStations.fRealBolt torques frictions i := by
    intro i
    simp only [StationLib.fRealBolt, StationLib.fNomBolt]
    ring
  have hmax : ∀ x : ℝ, max 0 (c * x) = c * max 0 x := fun x => by
    rw [mul_max_of_nonneg _ _ hc, mul_zero]
  simp only [StationLib.pClampMpa, boltSum_real, pyMax_real, lit_real, Rat.cast_zero, hreal, hmax,
    ← Finset.mul_sum, mul_div_assoc]

/-- The part of its thickness that a layer loses. -/
noncomputable def compression (p : ℝ) : ℝ := p / (2.80 + 28.5 * p)

theorem compression_mem {p : ℝ} (hp : 0 ≤ p) : 0 ≤ compression p ∧ compression p < 2 / 57 := by
  have hpos : 0 < 2.80 + 28.5 * p := by linarith
  refine ⟨div_nonneg hp hpos.le, ?_⟩
  rw [compression, div_lt_iff₀ hpos]
  linarith

theorem compression_mono {p p' : ℝ} (hp : 0 ≤ p) (h : p ≤ p') : compression p ≤ compression p' := by
  have hpos : 0 < 2.80 + 28.5 * p := by linarith
  have hpos' : 0 < 2.80 + 28.5 * p' := by linarith
  rw [compression, compression, div_le_div_iff₀ hpos hpos']
  linarith

/-- No clamp of the porosity is ever in use. -/
theorem gdlPorosity_real {p : ℝ} (hp : 0 ≤ p) :
    realStations.gdlPorosity p = 1 - 0.22 / (1 - compression p) := by
  obtain ⟨hcomp, hcomp'⟩ := compression_mem hp
  have hpos : 0 < 1 - compression p := by linarith
  have hthick : max (210 * (1 - 0.78) + 1) (210 * (1 - compression p)) =
      210 * (1 - compression p) := max_eq_right (by norm_num; linarith)
  have hraw : 1 - 0.22 * (210 / (210 * (1 - compression p))) = 1 - 0.22 / (1 - compression p) := by
    field_simp
  have hle : 0.22 ≤ 0.22 / (1 - compression p) := by
    rw [le_div_iff₀ hpos]
    linarith
  have hlt : 0.22 / (1 - compression p) < 0.23 := by
    rw [div_lt_iff₀ hpos]
    linarith
  have hporosity : realStations.gdlPorosity p =
      max 0.01 (min 0.95 (1 - 0.22 * (210 /
        max (210 * (1 - 0.78) + 1) (210 * (1 - compression p))))) := by
    simp only [StationLib.gdlPorosity, StationLib.gdlPorosityRaw, compression, pyMax_real,
      pyMin_real, realStations]
    norm_num
  rw [hporosity, hthick, hraw, min_eq_right (by linarith), max_eq_right (by linarith)]

theorem gdlPorosity_mem {p : ℝ} (hp : 0 ≤ p) :
    0.77 < realStations.gdlPorosity p ∧ realStations.gdlPorosity p ≤ 0.78 := by
  obtain ⟨hcomp, hcomp'⟩ := compression_mem hp
  have hpos : 0 < 1 - compression p := by linarith
  rw [gdlPorosity_real hp]
  constructor
  · have : 0.22 / (1 - compression p) < 0.23 := by
      rw [div_lt_iff₀ hpos]
      linarith
    linarith
  · have : 0.22 ≤ 0.22 / (1 - compression p) := by
      rw [le_div_iff₀ hpos]
      linarith
    linarith

theorem gdlPorosity_anti {p p' : ℝ} (hp : 0 ≤ p) (h : p ≤ p') :
    realStations.gdlPorosity p' ≤ realStations.gdlPorosity p := by
  have hmono := compression_mono hp h
  have hlt := (compression_mem (hp.trans h)).2
  rw [gdlPorosity_real hp, gdlPorosity_real (hp.trans h)]
  exact sub_le_sub_left (div_le_div_of_nonneg_left (by norm_num) (by linarith) (by linarith)) _

theorem eTangentMpa_real (p : ℝ) :
    realStations.eTangentMpa p = 2.80 * ((1 + 28.5 / 2.80 * p) * (1 + 28.5 / 2.80 * p)) := by
  simp only [StationLib.eTangentMpa, realStations]
  norm_num

theorem eTangentMpa_mono {p p' : ℝ} (hp : 0 ≤ p) (h : p ≤ p') :
    realStations.eTangentMpa p ≤ realStations.eTangentMpa p' := by
  rw [eTangentMpa_real, eTangentMpa_real]
  have hle : 1 + 28.5 / 2.80 * p ≤ 1 + 28.5 / 2.80 * p' := by linarith
  have hpos : (0 : ℝ) ≤ 1 + 28.5 / 2.80 * p := by positivity
  exact mul_le_mul_of_nonneg_left (mul_le_mul hle hle hpos (hpos.trans hle)) (by norm_num)

/-- **The clamping of a stack.**  Which bolt is taken for the first makes no difference to the
answer.  The pressure is not negative and in proportion to the torques; the porosity is in a narrow
band that no clamp of the code touches, and a pressure that is no smaller makes the layer no more
porous and no softer. -/
theorem station4_clamping (torques : Fin 4 → ℝ) (frictions : Fin 8 → ℝ) (isStation4 : Bool)
    (kTime : ℝ) :
    realStations.simulateStage2Clamping (fun i => torques (i + 1)) (rotateFrictions frictions)
        isStation4 kTime =
        realStations.simulateStage2Clamping torques frictions isStation4 kTime ∧
      let r := realStations.simulateStage2Clamping torques frictions isStation4 kTime
      0 ≤ r.pClampMpa ∧ (0.77 < r.gdlPorosity ∧ r.gdlPorosity ≤ 0.78) ∧ 2.80 ≤ r.eTangentMpa ∧
      (∀ c, 0 ≤ c → (realStations.simulateStage2Clamping (fun i => c * torques i) frictions
        isStation4 kTime).pClampMpa = c * r.pClampMpa) ∧
      ∀ torques' frictions',
        let r' := realStations.simulateStage2Clamping torques' frictions' isStation4 kTime
        r.pClampMpa ≤ r'.pClampMpa →
          r'.gdlPorosity ≤ r.gdlPorosity ∧ r.eTangentMpa ≤ r'.eTangentMpa := by
  have hpressure := pClampMpa_nonneg torques frictions
  refine ⟨?_, hpressure, gdlPorosity_mem hpressure, ?_, fun c hc => pClampMpa_scale hc _ _,
    fun torques' frictions' h => ⟨gdlPorosity_anti hpressure h, eTangentMpa_mono hpressure h⟩⟩
  · simp only [StationLib.simulateStage2Clamping, pClampMpa_rotate, tauStdUnbiased_rotate]
  · have hsoft := eTangentMpa_mono le_rfl hpressure
    rw [eTangentMpa_real 0] at hsoft
    refine le_trans ?_ hsoft
    norm_num

/-! ## The answers of the server -/

/-- The station that parameters are for. -/
def StationParams.kind {V : Type} : StationParams V → ProcessKind
  | .station1 _ _ => .s1
  | .station2 _ _ => .s2
  | .station3 _ _ _ _ => .s3
  | .station4 _ _ => .s4

/-- The bounds of an answer. -/
structure Answer (kind : ProcessKind) (kTime : ℝ) (r : StationProcessResponse ℝ) : Prop where
  time : 0 < kTime → 0 < r.procTimeS
  variance : 1 ≤ r.varRatio
  ecsaRatio : kind = .s2 → 1 / 10 ≤ r.ecsaRatio ∧ r.ecsaRatio ≤ 1
  damageIndex : kind = .s3 → 0 ≤ r.damageIndex ∧ r.damageIndex ≤ 2
  clamping : kind = .s4 → 0 ≤ r.pClampMpa ∧ 1 / 100 ≤ r.gdlPorosity ∧ r.gdlPorosity ≤ 95 / 100

theorem answer_stage1 (tPressK dwellTimeS kTime : ℝ) :
    Answer .s1 kTime (realStations.simulateStage1MeaPrep tPressK dwellTimeS kTime) where
  time hk := by
    have h : (realStations.simulateStage1MeaPrep tPressK dwellTimeS kTime).procTimeS = kTime * 5 *
        (1 + 0.15 * (|tPressK - 433.15| / 433.15) + 0.10 * (|dwellTimeS - 180| / 180)) := by
      simp only [StationLib.simulateStage1MeaPrep, StationLib.response, realStations]
      norm_num
    rw [h]
    positivity
  variance := by
    obtain ⟨-, hdelamination, hpinhole, hvar, -⟩ := stage1_real tPressK dwellTimeS kTime
    have h₁ := risk_nonneg (x := 0.85 - (realStations.simulateStage1MeaPrep tPressK dwellTimeS
      kTime).alphaFinal) (show (0 : ℝ) < 0.85 by norm_num)
    have h₂ := risk_nonneg (x := (realStations.simulateStage1MeaPrep tPressK dwellTimeS
      kTime).alphaFinal - 0.98) (show (0 : ℝ) < 0.02 by norm_num)
    rw [hvar, hdelamination, hpinhole]
    linarith
  ecsaRatio h := nomatch h
  damageIndex h := nomatch h
  clamping h := nomatch h

theorem answer_stage2 (vCoatMS muSlurryPaS kTime : ℝ) :
    Answer .s2 kTime
      (realStations.simulateStage2CatalystDeposition vCoatMS muSlurryPaS kTime) := by
  obtain ⟨hecsa, hproc, hvar, -⟩ := stage2_real vCoatMS muSlurryPaS kTime
  have hv := vDev_nonneg vCoatMS
  have hmu := muDev_nonneg muSlurryPaS
  refine ⟨fun hk => ?_, ?_, fun _ => ?_, fun h => (nomatch h), fun h => (nomatch h)⟩
  · rw [hproc]
    positivity
  · have heven := unevenness_nonneg hv hmu
    rw [hvar]
    linarith
  · rw [hecsa]
    exact ⟨le_max_of_le_left (by norm_num), max_le (by norm_num) (min_le_left _ _)⟩

theorem answer_stage3 (f : ℝ) (n : ℤ) (w : ℝ) (dup : Bool) (kTime : ℝ) :
    Answer .s3 kTime (realStations.simulateStage1Stamping f n w dup kTime) := by
  obtain ⟨hdamage, hproc, hvar, -⟩ := stage3_real f n w dup kTime
  have hwear := (wearRatio_mem f n w dup).1
  refine ⟨fun hk => ?_, ?_, fun h => (nomatch h), fun _ => ?_, fun h => (nomatch h)⟩
  · rw [hproc]
    positivity
  · have hsquare := mul_self_nonneg
      (realStations.simulateStage1Stamping f n w dup kTime).damageIndex
    rw [hvar]
    linarith
  · rw [hdamage, damageIndex_real]
    exact ⟨le_min (by norm_num) (le_max_left _ _), min_le_left _ _⟩

theorem answer_stage4 (torques : Fin 4 → ℝ) (frictions : Fin 8 → ℝ) (isStation4 : Bool)
    (kTime : ℝ) :
    Answer .s4 kTime
      (realStations.simulateStage2Clamping torques frictions isStation4 kTime) := by
  have hpressure := pClampMpa_nonneg torques frictions
  have hstd : 0 ≤ realStations.tauStdUnbiased torques := Real.sqrt_nonneg _
  refine ⟨fun hk => ?_, ?_, fun h => (nomatch h), fun h => (nomatch h), fun _ => ?_⟩
  · have h : (realStations.simulateStage2Clamping torques frictions isStation4 kTime).procTimeS =
        kTime * (if isStation4 then 24 else 3) *
          (1 + 0.08 * realStations.tauStdUnbiased torques) := by
      simp only [StationLib.simulateStage2Clamping, StationLib.response, lit_real]
      norm_num
    rw [h]
    split <;> positivity
  · have h : (realStations.simulateStage2Clamping torques frictions isStation4 kTime).varRatio =
        1 + 0.35 * (|realStations.pClampMpa torques frictions - 4.25| / 4.25) +
          0.25 * realStations.tauStdUnbiased torques := by
      simp only [StationLib.simulateStage2Clamping, StationLib.response, lit_real, abs_real]
      norm_num
    rw [h]
    have hdev := abs_nonneg (realStations.pClampMpa torques frictions - 4.25)
    have := div_nonneg hdev (show (0 : ℝ) ≤ 4.25 by norm_num)
    linarith
  · obtain ⟨hlow, hhigh⟩ := gdlPorosity_mem hpressure
    refine ⟨hpressure, ?_, ?_⟩
    · exact le_trans (by norm_num) hlow.le
    · exact hhigh.trans (by norm_num)

/-- The time factor of a request; zero stands for 1. -/
noncomputable def kTimeOf (request : StationProcessRequest ℝ) : ℝ :=
  if request.kTime = realStations.lit 0 then realStations.lit 1 else request.kTime

theorem answer_safe1 {tPressK dwellTimeS kTime : ℝ} {r : StationProcessResponse ℝ}
    (h : realStations.simulateStage1MeaPrepSafe tPressK dwellTimeS kTime = .ok r) :
    Answer .s1 kTime r := by
  unfold StationLib.simulateStage1MeaPrepSafe at h
  split_ifs at h
  cases h
  exact answer_stage1 _ _ _

theorem answer_safe2 {vCoatMS muSlurryPaS kTime : ℝ} {r : StationProcessResponse ℝ}
    (h : realStations.simulateStage2CatalystDepositionSafe vCoatMS muSlurryPaS kTime = .ok r) :
    Answer .s2 kTime r := by
  unfold StationLib.simulateStage2CatalystDepositionSafe at h
  split_ifs at h
  cases h
  exact answer_stage2 _ _ _

theorem answer_safe3 {f : ℝ} {n : ℤ} {w : ℝ} {dup : Bool} {kTime : ℝ}
    {r : StationProcessResponse ℝ}
    (h : realStations.simulateStage1StampingSafe f n w dup kTime = .ok r) :
    Answer .s3 kTime r := by
  unfold StationLib.simulateStage1StampingSafe at h
  split_ifs at h
  cases h
  exact answer_stage3 _ _ _ _ _

theorem answer_safe4 {torques frictions : List ℝ} {isStation4 : Bool} {kTime : ℝ}
    {r : StationProcessResponse ℝ}
    (h : realStations.simulateStage2ClampingSafe torques frictions isStation4 kTime = .ok r) :
    Answer .s4 kTime r := by
  unfold StationLib.simulateStage2ClampingSafe at h
  split_ifs at h
  cases h
  exact answer_stage4 _ _ _ _

/-- An answer is that of the kernel of the request's parameters. -/
theorem answer_simulate {request : StationProcessRequest ℝ} {r : StationProcessResponse ℝ}
    (h : realStations.simulateStationProcess request = .ok r) :
    ∃ p, request.params = some p ∧ Answer p.kind (kTimeOf request) r := by
  obtain ⟨stationId, kTime, params⟩ := request
  rcases params with _ | p
  · cases h
  · refine ⟨p, rfl, ?_⟩
    unfold StationLib.simulateStationProcess at h
    cases p with
    | station1 tPressK dwellTimeS =>
      dsimp only at h
      split at h
      · exact answer_safe1 h
      · cases h
    | station2 vCoatMS muSlurryPaS =>
      dsimp only at h
      split at h
      · exact answer_safe2 h
      · cases h
    | station3 f n w dup =>
      dsimp only at h
      split at h
      · exact answer_safe3 h
      · cases h
    | station4 torques frictions =>
      dsimp only at h
      split at h
      · exact answer_safe4 h
      · cases h

/-- The response that the shop floor reads has the numbers of an answer. -/
def Agrees (r' : MatrixFactory.StationProcessResponse) (r : StationProcessResponse ℝ) : Prop :=
  (r'.procTimeS : ℝ) = r.procTimeS ∧ r'.isDefective = r.isDefective ∧
    (r'.ecsaRatio : ℝ) = r.ecsaRatio ∧ (r'.damageIndex : ℝ) = r.damageIndex ∧
    (r'.pClampMpa : ℝ) = r.pClampMpa ∧ (r'.gdlPorosity : ℝ) = r.gdlPorosity

/-- A request that has the parameters of its station, and sets none of them. -/
def bareRequest (kTime : ℝ) : ProcessKind → Option (StationProcessRequest ℝ)
  | .s1 => some ⟨"S1", kTime, some (.station1 none none)⟩
  | .s2 => some ⟨"S2", kTime, some (.station2 none none)⟩
  | .s3 => some ⟨"S3", kTime, some (.station3 none none none none)⟩
  | .s4 => some ⟨"S4", kTime, some (.station4 [] [])⟩
  | .other => none

end StationKernel

end MatrixFactory
