/-
# A damaged stack is not passed instead of a sound one

A penalty on the resistance raises the losses of a stack and with them its heat, and a warmer
membrane has less resistance at all later points of the sweep.  Over the real numbers the direct
effect dominates: a stack that is passed is also passed with a smaller penalty and a smaller
derating.

The sweep of a test bench has a closed form at each point.  The temperatures stay in bounds in
which no voltage rises, and the damaged stack stays ahead of the sound one in temperature by no more
than a share of its penalty.
-/
import MatrixFactory.RealKernel
import MatrixFactory.Lib.Arrhenius
import MatrixFactory.Lib.Numerals
import Mathlib.Analysis.Complex.ExponentialBounds

namespace MatrixFactory

open scoped Numerals

namespace BatchKernel

variable {fluid : FluidData ℝ}

/-! ## Closed forms -/

/-- The resistance of the membrane at its greatest water content. -/
noncomputable def rMem (t : ℝ) : ℝ := 0.005 / 0.068686 * (arrhenius 1268 303.15 t)⁻¹

/-- How the activation overpotential changes with the temperature. -/
noncomputable def tafelSlope (ecsaRatio j : ℝ) : ℝ :=
  8.314462618 / 192970.66424 * (Real.log (j / (2.5e-8 * ecsaRatio)) - 68500 / 8.314462618 / 353.15)

/-- The activation overpotential. -/
noncomputable def etaAct (ecsaRatio j t : ℝ) : ℝ :=
  68500 / 192970.66424 + t * tafelSlope ecsaRatio j

/-- The concentration overpotential. -/
noncomputable def etaConc (j : ℝ) : ℝ := -0.05 * Real.log (1 - j / 2.5)

/-- What the sweeps of the test bench have in common. -/
structure BenchInput (q : SweepInput ℝ) : Prop where
  nCells : q.nCells = 100
  lambdaMem : q.lambdaMem = 14
  dt : q.dt = 0.5
  tCoolant : q.tCoolant = 298.15
  jLim : q.jLim = 2.5
  cCore : q.model.cCore = 12500
  cSkin : q.model.cSkin = 12500
  hAInternal : q.model.hAInternal = 500
  hAExternal : q.model.hAExternal = 50
  rInternal : 0 ≤ q.rInternal
  aH2 : 0.5 ≤ q.aH2 ∧ q.aH2 ≤ 10
  aO2 : 0.5 ≤ q.aO2 ∧ q.aO2 ≤ 10

/-- The ohmic overpotential. -/
noncomputable def etaOhm (q : SweepInput ℝ) (j t : ℝ) : ℝ := j * (q.rInternal + rMem t)

/-- The open-circuit voltage. -/
noncomputable def eOcv (q : SweepInput ℝ) (t : ℝ) : ℝ :=
  1.229 - 0.85e-3 * (t - 298.15) +
    8.314462618 * t / 192970.66424 * Real.log (q.aH2 * Real.sqrt q.aO2)

/-- The voltage of the stack. -/
noncomputable def vStack (q : SweepInput ℝ) (j t : ℝ) : ℝ :=
  100 * (eOcv q t - etaAct q.ecsaRatio j t - etaOhm q j t - etaConc j)

/-- The heat of the stack. -/
noncomputable def heat (q : SweepInput ℝ) (j t : ℝ) : ℝ :=
  j * 100 * (etaAct q.ecsaRatio j t + etaOhm q j t)

/-- The temperatures after half a second. -/
noncomputable def step (q : SweepInput ℝ) (j core skin : ℝ) : ℝ × ℝ :=
  (core + (heat q j core - (core - skin) * 500) / 12500 * 0.5,
    skin + ((core - skin) * 500 - (skin - 298.15) * 50) / 12500 * 0.5)

variable {q : SweepInput ℝ} {j t core skin : ℝ}

/-- The water content of the membrane is at its greatest, and its temperature is not clamped. -/
theorem springer_eq (hlo : 298.15 ≤ t) (hhi : t ≤ 358.15) :
    (realLib fluid).springerMembraneConductivity 14 t = 0.068686 * arrhenius 1268 303.15 t := by
  have hclamp : pyMax (250 : ℝ) (pyMin 420 t) = t := by
    have hmin : pyMin (420 : ℝ) t = t := by
      unfold pyMin
      split_ifs with h
      · rfl
      · linarith
    rw [hmin]
    unfold pyMax
    split_ifs with h
    · rfl
    · linarith
  have hlambda : pyMax (1 : ℝ) (pyMin 14 14) = 14 := by
    norm_num [pyMax, pyMin]
  have hsigma : pyMax (1e-4 : ℝ) (0.005139 * 14 - 0.00326) = 0.068686 := by
    norm_num [pyMax]
  simp only [NumLib.springerMembraneConductivity, realLib]
  push_cast
  rw [hlambda, hclamp, hsigma]
  rfl

theorem arrhenius_membrane_pos : 0 < 0.068686 * arrhenius 1268 303.15 t :=
  mul_pos (by norm_num) arrhenius_pos

theorem computeMembraneResistance_eq (hlo : 298.15 ≤ t) (hhi : t ≤ 358.15) :
    (realLib fluid).computeMembraneResistance 14 t 0.005 = some (rMem t) := by
  rw [NumLib.computeMembraneResistance, springer_eq hlo hhi, divide_real arrhenius_membrane_pos.ne',
    rMem, div_mul_eq_div_div, ← div_eq_mul_inv]

/-- The exchange current density. -/
theorem effectiveJ0_eq {ecsaRatio : ℝ} (hecsa : 0.3 ≤ ecsaRatio) (hlo : 298.15 ≤ t) :
    (realLib fluid).effectiveJ0 2.5e-8 ecsaRatio t 68500 353.15 =
      some (2.5e-8 * ecsaRatio * arrhenius (68500 / 8.314462618) 353.15 t) := by
  have ht : t ≠ 0 := by
    rintro rfl
    norm_num at hlo
  have hgas : (8.314462618 : ℝ) * t ≠ 0 := mul_ne_zero (by norm_num) ht
  have hclamp : pyMax (1e-4 : ℝ) ecsaRatio = ecsaRatio := by
    unfold pyMax
    split_ifs with h
    · rfl
    · norm_num at h hecsa
      linarith
  have hexp : -(68500 / (8.314462618 * t)) * (1 - t / 353.15) =
      68500 / 8.314462618 * (1 / 353.15 - 1 / t) := by
    field_simp
    ring
  have hlit : (realLib fluid).lit 8.314462618 = 8.314462618 ∧ (realLib fluid).lit 1e-4 = 1e-4 ∧
      (realLib fluid).lit 1 = 1 := by
    simp only [realLib]
    push_cast
    exact ⟨rfl, rfl, rfl⟩
  simp only [NumLib.effectiveJ0, hlit, divide_real hgas, Option.map_some, hclamp, hexp]
  rfl

/-- The guard of the Nernst potential lets the activities of a test pass. -/
theorem calculateNernstPotential_eq (hq : BenchInput q) :
    (realLib fluid).calculateNernstPotential t q.aH2 q.aO2 = some (eOcv q t) := by
  obtain ⟨hlo, hhi⟩ := hq.aH2
  obtain ⟨hlo', hhi'⟩ := hq.aO2
  simp only [NumLib.calculateNernstPotential, realLib]
  push_cast
  rw [if_neg (not_not.mpr ⟨hlo, hhi⟩), if_neg (not_not.mpr ⟨hlo', hhi'⟩), eOcv]
  norm_num

/-- The sweep does not come next to the limiting current. -/
theorem etaConc_eq (hhi : j ≤ 2.375) (slope : ℝ) :
    (realLib fluid).etaConc (j / 2.5) slope = etaConc j := by
  have hratio : j / 2.5 ≤ 0.99 := by
    rw [div_le_iff₀ (by norm_num)]
    norm_num at hhi ⊢
    linarith
  simp only [NumLib.etaConc, realLib]
  push_cast
  rw [if_pos hratio, etaConc]

/-- The activation overpotential is linear in the temperature. -/
theorem etaAct_eq {ecsaRatio : ℝ} (hecsa : 0.3 ≤ ecsaRatio) (hj : 0 < j) (hlo : 298.15 ≤ t) :
    8.314462618 * t / 192970.66424 * Real.log (j / (2.5e-8 * ecsaRatio *
      arrhenius (68500 / 8.314462618) 353.15 t)) = etaAct ecsaRatio j t := by
  have ht : t ≠ 0 := by
    rintro rfl
    norm_num at hlo
  have hrate : 0 < 2.5e-8 * ecsaRatio := mul_pos (by norm_num) (lt_of_lt_of_le (by norm_num) hecsa)
  have hlog := mul_log_div_arrhenius (b := 68500 / 8.314462618) (u := 353.15) hj hrate ht
  calc 8.314462618 * t / 192970.66424 * Real.log (j / (2.5e-8 * ecsaRatio *
        arrhenius (68500 / 8.314462618) 353.15 t))
      = 8.314462618 / 192970.66424 * (t * Real.log (j / (2.5e-8 * ecsaRatio *
        arrhenius (68500 / 8.314462618) 353.15 t))) := by ring
    _ = etaAct ecsaRatio j t := by
      rw [hlog, etaAct, tafelSlope]
      ring

/-- A point of the sweep of the test bench. -/
theorem voltageAt_eq (hq : BenchInput q) (hecsa : 0.3 ≤ q.ecsaRatio) (hj : 0.05 ≤ j)
    (hjhi : j ≤ 2.375) (hlo : 298.15 ≤ t) (hhi : t ≤ 358.15) :
    (realLib fluid).voltageAt q j t =
      some ⟨vStack q j t, etaAct q.ecsaRatio j t, etaOhm q j t, etaConc j, eOcv q t⟩ := by
  have hjpos : 0 < j := lt_of_lt_of_le (by norm_num) hj
  have hsafe : pyMax j (1e-10 : ℝ) = j := by
    unfold pyMax
    split_ifs with h
    · norm_num at h hj
      linarith
    · rfl
  have hrate : 2.5e-8 * q.ecsaRatio * arrhenius (68500 / 8.314462618) 353.15 t ≠ 0 := by
    have hecsaPos : 0 < q.ecsaRatio := lt_of_lt_of_le (by norm_num) hecsa
    have hpos := arrhenius_pos (b := 68500 / 8.314462618) (u := 353.15) (t := t)
    positivity
  have hlimit : (2.5 : ℝ) ≠ 0 := by norm_num
  have hslope : (2.5 : ℝ) * 0.01 ≠ 0 := by norm_num
  have hj0 : (realLib fluid).effectiveJ0 2.5e-8 q.ecsaRatio t 68500 353.15 = _ :=
    effectiveJ0_eq hecsa hlo
  have hmembrane : (realLib fluid).computeMembraneResistance 14 t 0.005 = _ :=
    computeMembraneResistance_eq hlo hhi
  have hlit : (realLib fluid).lit 2.5e-8 = 2.5e-8 ∧ (realLib fluid).lit 68500 = 68500 ∧
      (realLib fluid).lit 353.15 = 353.15 ∧ (realLib fluid).lit 1e-10 = 1e-10 ∧
      (realLib fluid).lit 0.005 = 0.005 ∧ (realLib fluid).lit 0.05 = 0.05 ∧
      (realLib fluid).lit 0.01 = 0.01 ∧ (realLib fluid).lit 8.314462618 = 8.314462618 ∧
      (realLib fluid).lit 0.5 = 0.5 ∧ (realLib fluid).lit 4 = 4 ∧
      (realLib fluid).lit 96485.33212 = 96485.33212 := by
    simp only [realLib]
    push_cast
    exact ⟨rfl, rfl, rfl, rfl, rfl, rfl, rfl, rfl, rfl, rfl, rfl⟩
  have hfaraday : (0.5 : ℝ) * 4 * 96485.33212 = 192970.66424 := by norm_num
  have hact : 8.314462618 * t / 192970.66424 * (realLib fluid).log (j / (2.5e-8 * q.ecsaRatio *
      arrhenius (68500 / 8.314462618) 353.15 t)) = etaAct q.ecsaRatio j t :=
    etaAct_eq hecsa hjpos hlo
  simp only [NumLib.voltageAt, NumLib.calculatePemfcVoltage, hlit, hq.lambdaMem, hq.jLim,
    hq.nCells, hj0, hmembrane, calculateNernstPotential_eq hq, hsafe, divide_real hrate,
    divide_real hlimit, divide_real hslope, etaConc_eq hjhi, Option.bind_some, Option.map_some,
    hfaraday, hact]
  rfl

/-- A step of the thermal model is a step of the sweep. -/
theorem thermalStepChecked_eq (hq : BenchInput q) :
    (realLib fluid).thermalStepChecked q.model core skin q.dt
      (j * q.nCells * (etaAct q.ecsaRatio j core + etaOhm q j core)) q.tCoolant =
        some (step q j core skin) := by
  have hdt : ¬(realLib fluid).dtMax q.model ≤ q.dt := by
    simp only [NumLib.dtMax, realLib, hq.dt, hq.cCore, hq.cSkin, hq.hAInternal, hq.hAExternal,
      pyMax]
    norm_num
  rw [NumLib.thermalStepChecked, if_neg hdt]
  simp only [thermalStepJit, hq.dt, hq.nCells, hq.tCoolant, hq.cCore, hq.cSkin, hq.hAInternal,
    hq.hAExternal, step, heat]

/-! ## Bounds -/

/-- A warmer membrane has less resistance, but not much less. -/
theorem rMem_sub {s : ℝ} (hlo : 298.15 ≤ s) (hst : s ≤ t) :
    rMem t ≤ rMem s ∧ rMem s - rMem t ≤ rMem s * (0.015 * (t - s)) := by
  have hspos : 0 < s := lt_of_lt_of_le (by norm_num) hlo
  have hfactor : arrhenius 1268 303.15 s ≤ arrhenius 1268 303.15 t :=
    arrhenius_le (by norm_num) hspos hst
  have hsub := inv_arrhenius_sub_le (b := 1268) (u := 303.15) (by norm_num) (by norm_num) hlo hst
  have hinv : 0 < (arrhenius 1268 303.15 s)⁻¹ := inv_pos.mpr arrhenius_pos
  unfold rMem
  constructor
  · apply mul_le_mul_of_nonneg_left _ (by norm_num)
    exact inv_anti₀ arrhenius_pos hfactor
  · have hrate : 1268 / (298.15 : ℝ) ^ 2 * (t - s) ≤ 0.015 * (t - s) :=
      mul_le_mul_of_nonneg_right (by norm_num) (sub_nonneg.mpr hst)
    calc 0.005 / 0.068686 * (arrhenius 1268 303.15 s)⁻¹ -
          0.005 / 0.068686 * (arrhenius 1268 303.15 t)⁻¹
        = 0.005 / 0.068686 * ((arrhenius 1268 303.15 s)⁻¹ - (arrhenius 1268 303.15 t)⁻¹) := by
          ring
      _ ≤ 0.005 / 0.068686 * ((arrhenius 1268 303.15 s)⁻¹ * (0.015 * (t - s))) := by
          apply mul_le_mul_of_nonneg_left _ (by norm_num)
          exact hsub.trans (mul_le_mul_of_nonneg_left hrate hinv.le)
      _ = _ := by ring

/-- The resistance at the temperature of the coolant is the greatest. -/
theorem rMem_le (hlo : 298.15 ≤ t) : rMem t ≤ 0.0785 := by
  have hfactor : 1 + 1268 * (1 / 303.15 - 1 / 298.15) ≤ arrhenius 1268 303.15 298.15 := by
    have := Real.add_one_le_exp (1268 * (1 / 303.15 - 1 / (298.15 : ℝ)))
    unfold arrhenius
    linarith
  have hinv : (arrhenius 1268 303.15 298.15)⁻¹ ≤ (1 + 1268 * (1 / 303.15 - 1 / 298.15) : ℝ)⁻¹ :=
    inv_anti₀ (by norm_num) hfactor
  have hcold : rMem 298.15 ≤ 0.0785 := by
    calc rMem 298.15
        ≤ 0.005 / 0.068686 * (1 + 1268 * (1 / 303.15 - 1 / 298.15) : ℝ)⁻¹ :=
          mul_le_mul_of_nonneg_left hinv (by norm_num)
      _ ≤ 0.0785 := by norm_num
  exact (rMem_sub le_rfl hlo).1.trans hcold

theorem le_rMem (hlo : 298.15 ≤ t) (hhi : t ≤ 358.15) : 0.02 ≤ rMem t := by
  have hfactor : arrhenius 1268 303.15 358.15 ≤ 2.72 := by
    have hexp : arrhenius 1268 303.15 358.15 ≤ Real.exp 1 := by
      apply Real.exp_le_exp.mpr
      norm_num
    exact hexp.trans (Real.exp_one_lt_d9.le.trans (by norm_num))
  have hhot : 0.02 ≤ rMem 358.15 := by
    calc (0.02 : ℝ) ≤ 0.005 / 0.068686 * (2.72 : ℝ)⁻¹ := by norm_num
      _ ≤ rMem 358.15 :=
        mul_le_mul_of_nonneg_left (inv_anti₀ arrhenius_pos hfactor) (by norm_num)
  exact hhot.trans (rMem_sub hlo hhi).1

/-- The logarithm of the currents of a sweep over the exchange current density. -/
theorem log_current {ecsaRatio : ℝ} (hecsa : 0.3 ≤ ecsaRatio) (hecsaHi : ecsaRatio ≤ 1)
    (hj : 0.05 ≤ j) (hjhi : j ≤ 2.375) :
    1 ≤ Real.log (j / (2.5e-8 * ecsaRatio)) ∧ Real.log (j / (2.5e-8 * ecsaRatio)) ≤ 23 := by
  have hrate : 0 < 2.5e-8 * ecsaRatio := mul_pos (by norm_num) (lt_of_lt_of_le (by norm_num) hecsa)
  have hjpos : 0 < j := lt_of_lt_of_le (by norm_num) hj
  constructor
  · rw [Real.le_log_iff_exp_le (div_pos hjpos hrate), le_div_iff₀ hrate]
    have he : Real.exp 1 ≤ 3 := Real.exp_one_lt_d9.le.trans (by norm_num)
    calc Real.exp 1 * (2.5e-8 * ecsaRatio) ≤ 3 * (2.5e-8 * 1) := by gcongr
      _ ≤ 0.05 := by norm_num
      _ ≤ j := hj
  · rw [Real.log_le_iff_le_exp (div_pos hjpos hrate), div_le_iff₀ hrate]
    have he : (2.7 : ℝ) ^ 23 ≤ Real.exp 23 := by
      have hone : (2.7 : ℝ) ≤ Real.exp 1 := le_trans (by norm_num) Real.exp_one_gt_d9.le
      calc (2.7 : ℝ) ^ 23 ≤ Real.exp 1 ^ 23 := by gcongr
        _ = Real.exp 23 := by
          rw [← Real.exp_nat_mul]
          norm_num
    calc j ≤ 2.375 := hjhi
      _ ≤ 2.7 ^ 23 * (2.5e-8 * 0.3) := by norm_num
      _ ≤ Real.exp 23 * (2.5e-8 * ecsaRatio) := by gcongr

/-- The activation overpotential falls with the temperature, and less than a millivolt a kelvin. -/
theorem tafelSlope_bounds {ecsaRatio : ℝ} (hecsa : 0.3 ≤ ecsaRatio) (hecsaHi : ecsaRatio ≤ 1)
    (hj : 0.05 ≤ j) (hjhi : j ≤ 2.375) :
    -0.00097 ≤ tafelSlope ecsaRatio j ∧ tafelSlope ecsaRatio j ≤ 0 := by
  obtain ⟨hlog, hlogHi⟩ := log_current hecsa hecsaHi hj hjhi
  unfold tafelSlope
  constructor
  · norm_num at hlog ⊢
    linarith
  · norm_num at hlogHi ⊢
    linarith

theorem etaAct_bounds {ecsaRatio : ℝ} (hecsa : 0.3 ≤ ecsaRatio) (hecsaHi : ecsaRatio ≤ 1)
    (hj : 0.05 ≤ j) (hjhi : j ≤ 2.375) (hlo : 298.15 ≤ t) (hhi : t ≤ 358.15) :
    0 ≤ etaAct ecsaRatio j t ∧ etaAct ecsaRatio j t ≤ 0.355 := by
  obtain ⟨hslope, hslopeHi⟩ := tafelSlope_bounds hecsa hecsaHi hj hjhi
  have htpos : 0 ≤ t := le_trans (by norm_num) hlo
  unfold etaAct
  constructor
  · have hfall : 358.15 * -0.00097 ≤ t * tafelSlope ecsaRatio j := by
      nlinarith
    norm_num at hfall ⊢
    linarith
  · have hfall : t * tafelSlope ecsaRatio j ≤ 0 := mul_nonpos_of_nonneg_of_nonpos htpos hslopeHi
    norm_num at hfall ⊢
    linarith

/-! ## The temperatures of one sweep -/

/-- The checks on a sweep: none of its points has too great an ohmic overpotential or too high a
temperature. -/
def Clean (q : SweepInput ℝ) : List ℝ → ℝ → ℝ → Prop
  | [], _, _ => True
  | j :: js, core, skin =>
    etaOhm q j core ≤ 0.35 ∧ core ≤ 358.15 ∧
      Clean q js (step q j core skin).1 (step q j core skin).2

/-- The core is warmer than the skin, and the skin than the coolant. -/
structure Between (core skin : ℝ) : Prop where
  coolant : 298.15 ≤ skin
  le : skin ≤ core
  near : core ≤ skin + 3.2

/-- A request with a sound catalyst. -/
structure SoundCatalyst (q : SweepInput ℝ) : Prop where
  low : 0.3 ≤ q.ecsaRatio
  high : q.ecsaRatio ≤ 1

/-- A current of the sweep. -/
def SweepCurrent (j : ℝ) : Prop := 0.05 ≤ j ∧ j ≤ 2.375

theorem heat_bounds (hq : BenchInput q) (hc : SoundCatalyst q) (hj : SweepCurrent j)
    (hlo : 298.15 ≤ t) (hhi : t ≤ 358.15) (hohm : etaOhm q j t ≤ 0.35) :
    0 ≤ heat q j t ∧ heat q j t ≤ 168 := by
  obtain ⟨hact, hactHi⟩ := etaAct_bounds hc.low hc.high hj.1 hj.2 hlo hhi
  have hjpos : 0 ≤ j := le_trans (by norm_num) hj.1
  have hmem : 0 ≤ rMem t := le_trans (by norm_num) (le_rMem hlo hhi)
  have hohmLo : 0 ≤ etaOhm q j t := mul_nonneg hjpos (add_nonneg hq.rInternal hmem)
  unfold heat
  constructor
  · exact mul_nonneg (mul_nonneg hjpos (by norm_num)) (add_nonneg hact hohmLo)
  · calc j * 100 * (etaAct q.ecsaRatio j t + etaOhm q j t)
        ≤ 2.375 * 100 * (0.355 + 0.35) := by
          have := hj.2
          gcongr
      _ ≤ 168 := by norm_num

/-- The core's temperature hardly changes in half a second. -/
theorem step_near (hq : BenchInput q) (hc : SoundCatalyst q) (hj : SweepCurrent j)
    (h : Between core skin) (hhi : core ≤ 358.15) (hohm : etaOhm q j core ≤ 0.35) :
    |(step q j core skin).1 - core| ≤ 0.07 := by
  obtain ⟨hheat, hheatHi⟩ := heat_bounds hq hc hj (h.coolant.trans h.le) hhi hohm
  obtain ⟨hcoolant, hle, hnear⟩ := h
  rw [abs_le]
  simp only [step]
  norm_num at hnear ⊢
  constructor
  · linarith
  · linarith

/-- The temperatures stay in their order. -/
theorem Between.step (hq : BenchInput q) (hc : SoundCatalyst q) (hj : SweepCurrent j)
    (h : Between core skin) (hhi : core ≤ 358.15) (hohm : etaOhm q j core ≤ 0.35) :
    Between (step q j core skin).1 (step q j core skin).2 := by
  obtain ⟨hheat, hheatHi⟩ := heat_bounds hq hc hj (h.coolant.trans h.le) hhi hohm
  obtain ⟨hcoolant, hle, hnear⟩ := h
  simp only [BatchKernel.step]
  norm_num at hcoolant hnear hhi
  constructor
  · norm_num
    linarith
  · norm_num
    linarith
  · norm_num
    linarith

/-! ## The voltages of one sweep -/

/-- The open-circuit voltage changes by less than a millivolt a kelvin. -/
theorem eOcv_near {s : ℝ} (hq : BenchInput q) (hnear : |t - s| ≤ 0.07) :
    eOcv q t - eOcv q s ≤ 0.00007 := by
  obtain ⟨hH2, hH2Hi⟩ := hq.aH2
  obtain ⟨hO2, hO2Hi⟩ := hq.aO2
  have hsqrt : 0.5 ≤ Real.sqrt q.aO2 := by
    apply Real.le_sqrt_of_sq_le
    exact le_trans (by norm_num) hO2
  have hsqrtHi : Real.sqrt q.aO2 ≤ 10 := by
    rw [Real.sqrt_le_left (by norm_num)]
    exact hO2Hi.trans (by norm_num)
  have hprod : 0.25 ≤ q.aH2 * Real.sqrt q.aO2 := by
    calc (0.25 : ℝ) = 0.5 * 0.5 := by norm_num
      _ ≤ q.aH2 * Real.sqrt q.aO2 := mul_le_mul hH2 hsqrt (by norm_num) (le_trans (by norm_num) hH2)
  have hprodHi : q.aH2 * Real.sqrt q.aO2 ≤ 100 := by
    calc q.aH2 * Real.sqrt q.aO2 ≤ 10 * 10 :=
          mul_le_mul hH2Hi hsqrtHi (Real.sqrt_nonneg _) (by norm_num)
      _ = 100 := by norm_num
  have hpos : 0 < q.aH2 * Real.sqrt q.aO2 := lt_of_lt_of_le (by norm_num) hprod
  have he : (2.7 : ℝ) ≤ Real.exp 1 := le_trans (by norm_num) Real.exp_one_gt_d9.le
  have hlog : -2 ≤ Real.log (q.aH2 * Real.sqrt q.aO2) := by
    rw [Real.le_log_iff_exp_le hpos]
    calc Real.exp (-2) = (Real.exp 1 ^ 2)⁻¹ := by
          rw [← Real.exp_nat_mul, ← Real.exp_neg]
          norm_num
      _ ≤ (2.7 ^ 2)⁻¹ := by gcongr
      _ ≤ 0.25 := by norm_num
      _ ≤ _ := hprod
  have hlogHi : Real.log (q.aH2 * Real.sqrt q.aO2) ≤ 5 := by
    rw [Real.log_le_iff_le_exp hpos]
    calc q.aH2 * Real.sqrt q.aO2 ≤ 100 := hprodHi
      _ ≤ 2.7 ^ 5 := by norm_num
      _ ≤ Real.exp 1 ^ 5 := by gcongr
      _ = Real.exp 5 := by
        rw [← Real.exp_nat_mul]
        norm_num
  -- the slope is that of the standard potential and a part of the logarithm
  have hslope : eOcv q t - eOcv q s = (t - s) * (8.314462618 / 192970.66424 *
      Real.log (q.aH2 * Real.sqrt q.aO2) - 0.85e-3) := by
    unfold eOcv
    ring
  have hslopeAbs : |8.314462618 / 192970.66424 * Real.log (q.aH2 * Real.sqrt q.aO2) - 0.85e-3| ≤
      0.001 := by
    rw [abs_le]
    constructor
    · norm_num
      linarith
    · norm_num
      linarith
  rw [hslope]
  calc (t - s) * (8.314462618 / 192970.66424 * Real.log (q.aH2 * Real.sqrt q.aO2) - 0.85e-3)
      ≤ |t - s| * |8.314462618 / 192970.66424 * Real.log (q.aH2 * Real.sqrt q.aO2) - 0.85e-3| := by
        rw [← abs_mul]
        exact le_abs_self _
    _ ≤ 0.07 * 0.001 := mul_le_mul hnear hslopeAbs (abs_nonneg _) (by norm_num)
    _ = 0.00007 := by norm_num

/-- The activation overpotential grows with the current, against a little of the temperature. -/
theorem etaAct_near {ecsaRatio s k : ℝ} (hecsa : 0.3 ≤ ecsaRatio) (hecsaHi : ecsaRatio ≤ 1)
    (hj : SweepCurrent j) (hjk : j ≤ k) (ht : 0 ≤ t) (hnear : |t - s| ≤ 0.07) :
    etaAct ecsaRatio j s - etaAct ecsaRatio k t ≤ 0.00007 := by
  obtain ⟨hslope, hslopeHi⟩ := tafelSlope_bounds hecsa hecsaHi hj.1 hj.2
  have hmono : tafelSlope ecsaRatio j ≤ tafelSlope ecsaRatio k := by
    have hrate : 0 < 2.5e-8 * ecsaRatio :=
      mul_pos (by norm_num) (lt_of_lt_of_le (by norm_num) hecsa)
    have hjpos : 0 < j := lt_of_lt_of_le (by norm_num) hj.1
    have hlog : Real.log (j / (2.5e-8 * ecsaRatio)) ≤ Real.log (k / (2.5e-8 * ecsaRatio)) :=
      Real.log_le_log (div_pos hjpos hrate) (div_le_div_of_nonneg_right hjk hrate.le)
    unfold tafelSlope
    apply mul_le_mul_of_nonneg_left _ (by norm_num)
    exact sub_le_sub_right hlog _
  have habs : |tafelSlope ecsaRatio j| ≤ 0.001 := by
    rw [abs_le]
    constructor
    · exact le_trans (by norm_num) hslope
    · exact hslopeHi.trans (by norm_num)
  calc etaAct ecsaRatio j s - etaAct ecsaRatio k t
      = (s - t) * tafelSlope ecsaRatio j -
          t * (tafelSlope ecsaRatio k - tafelSlope ecsaRatio j) := by
        unfold etaAct
        ring
    _ ≤ (s - t) * tafelSlope ecsaRatio j :=
        sub_le_self _ (mul_nonneg ht (sub_nonneg.mpr hmono))
    _ ≤ |t - s| * |tafelSlope ecsaRatio j| := by
        rw [abs_sub_comm, ← abs_mul]
        exact le_abs_self _
    _ ≤ 0.07 * 0.001 := mul_le_mul hnear habs (abs_nonneg _) (by norm_num)
    _ = 0.00007 := by norm_num

/-- The ohmic overpotential grows with the current, whatever the membrane gains. -/
theorem etaOhm_grows {s k : ℝ} (hq : BenchInput q) (hj : SweepCurrent j) (hjk : j + 0.2 ≤ k)
    (hs : 298.15 ≤ s) (ht : 298.15 ≤ t) (hhi : t ≤ 358.15) (hnear : |t - s| ≤ 0.07) :
    etaOhm q j s + 0.003 ≤ etaOhm q k t := by
  have hjpos : 0 ≤ j := le_trans (by norm_num) hj.1
  have hmem := le_rMem ht hhi
  have hgain : rMem s - rMem t ≤ 0.0001 := by
    rcases le_total s t with hst | hts
    · have hsub := (rMem_sub hs hst).2
      have hwarm : t - s ≤ 0.07 := (le_abs_self _).trans hnear
      calc rMem s - rMem t ≤ rMem s * (0.015 * (t - s)) := hsub
        _ ≤ 0.0785 * (0.015 * 0.07) := by
          apply mul_le_mul (rMem_le hs) (mul_le_mul_of_nonneg_left hwarm (by norm_num)) _
            (by norm_num)
          exact mul_nonneg (by norm_num) (sub_nonneg.mpr hst)
        _ ≤ 0.0001 := by norm_num
    · have := (rMem_sub ht hts).1
      linarith
  have hdirect : 0.2 * 0.02 ≤ (k - j) * (q.rInternal + rMem t) := by
    apply mul_le_mul (by linarith) (by linarith [hq.rInternal]) (by norm_num) (by linarith)
  have hindirect : j * (rMem s - rMem t) ≤ 2.375 * 0.0001 := by
    calc j * (rMem s - rMem t) ≤ j * 0.0001 := mul_le_mul_of_nonneg_left hgain hjpos
      _ ≤ 2.375 * 0.0001 := mul_le_mul_of_nonneg_right hj.2 (by norm_num)
  have hsplit : etaOhm q k t - etaOhm q j s =
      (k - j) * (q.rInternal + rMem t) - j * (rMem s - rMem t) := by
    unfold etaOhm
    ring
  norm_num at hdirect hindirect ⊢
  linarith

theorem etaConc_mono {k : ℝ} (hjk : j ≤ k) (hk : k ≤ 2.375) : etaConc j ≤ etaConc k := by
  have hpos : 0 < 1 - k / 2.5 := by
    norm_num at hk ⊢
    linarith
  have hle : 1 - k / 2.5 ≤ 1 - j / 2.5 :=
    sub_le_sub_left (div_le_div_of_nonneg_right hjk (by norm_num)) _
  unfold etaConc
  exact mul_le_mul_of_nonpos_left (Real.log_le_log hpos hle) (by norm_num)

/-- **The voltage falls** from one current of the sweep to the next. -/
theorem vStack_falls {s k : ℝ} (hq : BenchInput q) (hc : SoundCatalyst q) (hj : SweepCurrent j)
    (hk : SweepCurrent k) (hjk : j + 0.2 ≤ k) (hs : 298.15 ≤ s) (ht : 298.15 ≤ t)
    (hhi : t ≤ 358.15) (hnear : |t - s| ≤ 0.07) : vStack q k t ≤ vStack q j s := by
  have hle : j ≤ k := le_trans (by linarith) hjk
  have hocv := eOcv_near hq hnear
  have hact := etaAct_near hc.low hc.high hj hle (le_trans (by norm_num) ht) hnear
  have hohm := etaOhm_grows hq hj hjk hs ht hhi hnear
  have hconc := etaConc_mono hle hk.2
  unfold vStack
  norm_num at hocv hact hohm
  linarith

/-! ## The damaged stack and the sound one -/

/-- The temperatures of the damaged stack are ahead of the others, by at most `m`. -/
structure Ahead (m core skin core' skin' : ℝ) : Prop where
  le_core : core ≤ core'
  core_le : core' ≤ core + m
  le_skin : skin ≤ skin'
  skin_le : skin' ≤ skin + m

/-- A sweep with more resistance and the same catalyst. -/
structure Damaged (q q' : SweepInput ℝ) : Prop where
  rInternal : q.rInternal ≤ q'.rInternal
  ecsaRatio : q'.ecsaRatio = q.ecsaRatio

variable {q' : SweepInput ℝ} {core' skin' m : ℝ}

/-- How the heats differ: at most by what the penalty adds, and at least by a little of what the
damaged stack is ahead. -/
theorem heat_sub (hd : Damaged q q') (hc : SoundCatalyst q) (hj : SweepCurrent j)
    (hlo : 298.15 ≤ core) (hle : core ≤ core') :
    -(core' - core) ≤ heat q' j core' - heat q j core ∧
      heat q' j core' - heat q j core ≤ 570 * (q'.rInternal - q.rInternal) := by
  obtain ⟨hslope, hslopeHi⟩ := tafelSlope_bounds hc.low hc.high hj.1 hj.2
  obtain ⟨hmem, hmemHi⟩ := rMem_sub hlo hle
  have hjpos : 0 ≤ j := le_trans (by norm_num) hj.1
  have hahead : 0 ≤ core' - core := sub_nonneg.mpr hle
  have hpenalty : 0 ≤ q'.rInternal - q.rInternal := sub_nonneg.mpr hd.rInternal
  have hsplit : heat q' j core' - heat q j core =
      j * 100 * ((core' - core) * tafelSlope q.ecsaRatio j) +
        j * j * 100 * (q'.rInternal - q.rInternal - (rMem core - rMem core')) := by
    unfold heat etaAct etaOhm
    rw [hd.ecsaRatio]
    ring
  have hsquare : j * j ≤ 5.7 := by
    calc j * j ≤ 2.375 * 2.375 := mul_le_mul hj.2 hj.2 hjpos (by norm_num)
      _ ≤ 5.7 := by norm_num
  rw [hsplit]
  constructor
  · have hgain : rMem core - rMem core' ≤ 0.0012 * (core' - core) := by
      calc rMem core - rMem core' ≤ rMem core * (0.015 * (core' - core)) := hmemHi
        _ ≤ 0.0785 * (0.015 * (core' - core)) :=
          mul_le_mul_of_nonneg_right (rMem_le hlo) (mul_nonneg (by norm_num) hahead)
        _ ≤ 0.0012 * (core' - core) := by
          rw [← mul_assoc]
          exact mul_le_mul_of_nonneg_right (by norm_num) hahead
    have hactLo : -(0.00097 * (core' - core)) ≤ (core' - core) * tafelSlope q.ecsaRatio j := by
      nlinarith
    have hact : -(0.3 * (core' - core)) ≤
        j * 100 * ((core' - core) * tafelSlope q.ecsaRatio j) := by
      calc -(0.3 * (core' - core)) ≤ 2.375 * 100 * -(0.00097 * (core' - core)) := by
            norm_num
            linarith
        _ ≤ j * 100 * -(0.00097 * (core' - core)) := by
            apply mul_le_mul_of_nonpos_right
            · exact mul_le_mul_of_nonneg_right hj.2 (by norm_num)
            · exact neg_nonpos.mpr (mul_nonneg (by norm_num) hahead)
        _ ≤ _ := mul_le_mul_of_nonneg_left hactLo (mul_nonneg hjpos (by norm_num))
    have hohm : -(0.7 * (core' - core)) ≤
        j * j * 100 * (q'.rInternal - q.rInternal - (rMem core - rMem core')) := by
      calc -(0.7 * (core' - core)) ≤ 5.7 * 100 * -(0.0012 * (core' - core)) := by
            norm_num
            linarith
        _ ≤ j * j * 100 * -(0.0012 * (core' - core)) := by
            apply mul_le_mul_of_nonpos_right
            · exact mul_le_mul_of_nonneg_right hsquare (by norm_num)
            · exact neg_nonpos.mpr (mul_nonneg (by norm_num) hahead)
        _ ≤ _ := by
            apply mul_le_mul_of_nonneg_left
            · linarith
            · exact mul_nonneg (mul_nonneg hjpos hjpos) (by norm_num)
    linarith
  · have hact : j * 100 * ((core' - core) * tafelSlope q.ecsaRatio j) ≤ 0 := by
      apply mul_nonpos_of_nonneg_of_nonpos (mul_nonneg hjpos (by norm_num))
      exact mul_nonpos_of_nonneg_of_nonpos hahead hslopeHi
    have hohm : j * j * 100 * (q'.rInternal - q.rInternal - (rMem core - rMem core')) ≤
        5.7 * 100 * (q'.rInternal - q.rInternal) := by
      apply mul_le_mul_of_nonneg
      all_goals nlinarith
    linarith

/-- One step further the damaged stack is still ahead, by a little more. -/
theorem Ahead.step (hd : Damaged q q') (hc : SoundCatalyst q) (hj : SweepCurrent j)
    (hlo : 298.15 ≤ core) (h : Ahead m core skin core' skin') :
    Ahead (m + 0.025 * (q'.rInternal - q.rInternal)) (step q j core skin).1 (step q j core skin).2
      (step q' j core' skin').1 (step q' j core' skin').2 := by
  obtain ⟨hheat, hheatHi⟩ := heat_sub hd hc hj hlo h.le_core
  obtain ⟨hcore, hcoreHi, hskin, hskinHi⟩ := h
  have hpenalty : 0 ≤ q'.rInternal - q.rInternal := sub_nonneg.mpr hd.rInternal
  simp only [BatchKernel.step]
  constructor
  · linarith
  · norm_num
    linarith
  · linarith
  · norm_num
    linarith

/-- The direct effect of the penalty dominates: the damaged stack has the greater ohmic
overpotential. -/
theorem Ahead.etaOhm_le (hj : SweepCurrent j) (hlo : 298.15 ≤ core)
    (h : Ahead m core skin core' skin') (hm : m ≤ q'.rInternal - q.rInternal) :
    etaOhm q j core ≤ etaOhm q' j core' := by
  obtain ⟨hcore, hcoreHi, -, -⟩ := h
  have hwarm : 0 ≤ core' - core := sub_nonneg.mpr hcore
  have hgain : rMem core - rMem core' ≤ q'.rInternal - q.rInternal := by
    calc rMem core - rMem core' ≤ rMem core * (0.015 * (core' - core)) := (rMem_sub hlo hcore).2
      _ ≤ 0.0785 * (0.015 * (core' - core)) :=
        mul_le_mul_of_nonneg_right (rMem_le hlo) (mul_nonneg (by norm_num) hwarm)
      _ ≤ core' - core := by linarith
      _ ≤ q'.rInternal - q.rInternal := by linarith
  unfold etaOhm
  apply mul_le_mul_of_nonneg_left _ (le_trans (by norm_num) hj.1)
  linarith

/-- **The checks are monotone in the damage**: where they let the sweep of the damaged stack pass,
they let that of the other pass too.  The share that the damaged stack is ahead stays below its
penalty over the whole sweep. -/
theorem Clean.of_damaged (hd : Damaged q q') (hq : BenchInput q) (hc : SoundCatalyst q)
    {js : List ℝ} (hjs : ∀ j ∈ js, SweepCurrent j) (hb : Between core skin)
    (ha : Ahead m core skin core' skin')
    (hm : m + js.length * (0.025 * (q'.rInternal - q.rInternal)) ≤ q'.rInternal - q.rInternal)
    (h : Clean q' js core' skin') : Clean q js core skin := by
  induction js generalizing core skin core' skin' m with
  | nil => exact trivial
  | cons j js ih =>
    obtain ⟨hohm', hcore', hrest⟩ := h
    have hj : SweepCurrent j := hjs j List.mem_cons_self
    have hlo : 298.15 ≤ core := hb.coolant.trans hb.le
    have hpenalty : 0 ≤ q'.rInternal - q.rInternal := sub_nonneg.mpr hd.rInternal
    have hshare : 0 ≤ ((j :: js).length : ℝ) * (0.025 * (q'.rInternal - q.rInternal)) := by
      positivity
    have hohm : etaOhm q j core ≤ 0.35 :=
      (ha.etaOhm_le hj hlo (by linarith)).trans hohm'
    have hcore : core ≤ 358.15 := ha.le_core.trans hcore'
    refine ⟨hohm, hcore, ?_⟩
    apply ih (fun k hk => hjs k (List.mem_cons_of_mem j hk)) (hb.step hq hc hj hcore hohm)
      (ha.step hd hc hj hlo) _ hrest
    rw [List.length_cons, Nat.cast_add, Nat.cast_one] at hm
    linarith

/-! ## A sweep passes where its checks do -/

/-- The currents of a sweep, each at least `0.2` above the one before. -/
structure SweepCurrents (js : List ℝ) : Prop where
  current : ∀ j ∈ js, SweepCurrent j
  apart : js.IsChain fun j k => j + 0.2 ≤ k

/-- The points of a sweep that pass the checks. -/
def PointsPass (points : List (TestPoint ℝ)) : Prop :=
  ∀ p ∈ points, p.etaOhm ≤ 0.35 ∧ p.core ≤ 358.15

/-- A sweep of which no check fires is clean. -/
theorem clean_of_sweepLoop (hq : BenchInput q) (hc : SoundCatalyst q) {js : List ℝ}
    (hjs : ∀ j ∈ js, SweepCurrent j) (hb : Between core skin) {failure flags : ℕ}
    {points : List (TestPoint ℝ)}
    (h : (realLib fluid).sweepLoop q js core skin failure = some (points, flags))
    (hpass : PointsPass points) : Clean q js core skin := by
  induction js generalizing core skin failure points with
  | nil => exact trivial
  | cons j js ih =>
    obtain ⟨v, next, rest, hv, hnext, hrest, rfl⟩ := NumLib.sweepLoop_cons h
    have hj : SweepCurrent j := hjs j List.mem_cons_self
    obtain ⟨hohm, hcore⟩ : v.etaOhm ≤ 0.35 ∧ core ≤ 358.15 := hpass _ List.mem_cons_self
    rw [voltageAt_eq hq hc.low hj.1 hj.2 (hb.coolant.trans hb.le) hcore] at hv
    obtain rfl := Option.some.inj hv
    rw [thermalStepChecked_eq hq] at hnext
    obtain rfl := Option.some.inj hnext
    refine ⟨hohm, hcore, ?_⟩
    exact ih (fun k hk => hjs k (List.mem_cons_of_mem j hk)) (hb.step hq hc hj hcore hohm) hrest
      (fun p hp => hpass p (List.mem_cons_of_mem _ hp))

variable (fluid) in
/-- A clean sweep is not refused, none of its checks fires and its voltages fall. -/
theorem Clean.sweepLoop (hq : BenchInput q) (hc : SoundCatalyst q) {js : List ℝ}
    (hjs : SweepCurrents js) (hb : Between core skin) (failure : ℕ) (h : Clean q js core skin) :
    ∃ points flags, (realLib fluid).sweepLoop q js core skin failure = some (points, flags) ∧
      PointsPass points ∧ (points.map (·.voltage)).IsChain fun v w => w ≤ v := by
  induction js generalizing core skin failure with
  | nil => exact ⟨[], failure, rfl, nofun, .nil⟩
  | cons j js ih =>
    obtain ⟨hohm, hcore, hrest⟩ := h
    have hj : SweepCurrent j := hjs.current j List.mem_cons_self
    have hlo : 298.15 ≤ core := hb.coolant.trans hb.le
    have hb' := hb.step hq hc hj hcore hohm
    have hjs' : SweepCurrents js :=
      ⟨fun k hk => hjs.current k (List.mem_cons_of_mem j hk), hjs.apart.tail⟩
    have hv : (realLib fluid).voltageAt q j core = _ :=
      voltageAt_eq hq hc.low hj.1 hj.2 hlo hcore
    obtain ⟨rest, flags, hloop, hpass, hfalls⟩ := ih hjs' hb'
      ((realLib fluid).pointFlags (etaOhm q j core) core failure) hrest
    refine ⟨⟨j, vStack q j core, etaOhm q j core, core, skin⟩ :: rest, flags, ?_, ?_, ?_⟩
    · rw [NumLib.sweepLoop, hv, Option.bind_some, thermalStepChecked_eq hq, Option.bind_some, hloop]
      rfl
    · exact List.forall_mem_cons.mpr ⟨⟨hohm, hcore⟩, hpass⟩
    · rcases js with _ | ⟨k, js⟩
      · cases hloop
        exact .singleton _
      · -- the next point has the voltage of the next current
        obtain ⟨v, next, rest', hv', -, -, rfl⟩ := NumLib.sweepLoop_cons hloop
        have hk : SweepCurrent k := hjs'.current k List.mem_cons_self
        have hcore' := (hpass _ List.mem_cons_self).2
        have hlo' := hb'.coolant.trans hb'.le
        rw [voltageAt_eq hq hc.low hk.1 hk.2 hlo' hcore'] at hv'
        obtain rfl := Option.some.inj hv'
        refine .cons_cons ?_ hfalls
        exact vStack_falls hq hc hj hk (List.isChain_cons_cons.mp hjs.apart).1 hlo hlo' hcore'
          (step_near hq hc hj hb hcore hohm)

/-! ## The requests of the test bench -/

/-- A request as `TestBenchArtifact` builds it: 100 cells, no current densities, no derating of the
limiting current, and an ECSA ratio of at most 1. -/
structure BenchRequest (r : BatchTestRequest ℝ) : Prop where
  numCells : r.numCells = 100
  currentDensities : r.currentDensities = []
  jLimDerateFraction : r.jLimDerateFraction = 0
  ecsaRatio : r.ecsaRatio ≤ 1

/-- The request with another penalty and another derating. -/
def BatchTestRequest.damage (r : BatchTestRequest ℝ) (penalty derate : ℝ) : BatchTestRequest ℝ :=
  { r with rInternalPenaltyOhmCm2 := penalty, activityDerateFraction := derate }

theorem BenchRequest.damage {r : BatchTestRequest ℝ} (hr : BenchRequest r) (penalty derate : ℝ) :
    BenchRequest (r.damage penalty derate) :=
  ⟨hr.numCells, hr.currentDensities, hr.jLimDerateFraction, hr.ecsaRatio⟩

variable {r : BatchTestRequest ℝ} {s : BatchServer ℝ}

theorem jLimEffective_eq (hr : BenchRequest r) : (realLib fluid).jLimEffective r = 2.5 := by
  simp only [NumLib.jLimEffective, hr.jLimDerateFraction, realLib, npClip, pyMax]
  norm_num

/-- The default sweep. -/
theorem jValues_eq (hr : BenchRequest r) :
    (realLib fluid).jValues r = (List.range 12).map fun i : ℕ => 0.05 + i * (2.325 / 11 : ℝ) := by
  have hempty : ¬r.currentDensities ≠ [] := not_not.mpr hr.currentDensities
  have hlim : (realLib fluid).jLimEffective r = 2.5 := jLimEffective_eq hr
  rw [NumLib.jValues, if_neg hempty]
  simp only [hlim]
  apply List.map_congr_left
  intro i _
  simp only [realLib, pyMin]
  norm_num

theorem sweepCurrents_jValues (hr : BenchRequest r) :
    SweepCurrents ((realLib fluid).jValues r) := by
  rw [jValues_eq hr]
  constructor
  · intro j hj
    obtain ⟨i, hi, rfl⟩ := List.mem_map.mp hj
    have hle : (i : ℝ) ≤ 11 := by
      have := List.mem_range.mp hi
      exact_mod_cast Nat.lt_succ_iff.mp this
    have hpos : (0 : ℝ) ≤ i := Nat.cast_nonneg i
    constructor
    · linarith
    · norm_num
      linarith
  · rw [List.isChain_map, List.isChain_range]
    intro i _
    push_cast
    norm_num
    linarith

theorem length_jValues (hr : BenchRequest r) : ((realLib fluid).jValues r).length = 12 := by
  rw [jValues_eq hr, List.length_map, List.length_range]

theorem le_computeContactResistance (p g : ℝ) :
    0 ≤ (realLib fluid).computeContactResistance p g := by
  have hzero : (realLib fluid).lit 0 = 0 := Rat.cast_zero
  unfold NumLib.computeContactResistance
  rw [hzero, pyMax_real]
  exact le_max_left 0 _

theorem rInternalEffective_nonneg (hs : 0 ≤ s.rInternal) :
    0 ≤ (realLib fluid).rInternalEffective r s := by
  have hserver : (0 : ℝ) ≤ (realLib fluid).lit s.rInternal := Rat.cast_nonneg.mpr hs
  have hpenalty : 0 ≤ pyMax ((realLib fluid).lit 0) r.rInternalPenaltyOhmCm2 := by
    have hzero : (realLib fluid).lit 0 = 0 := Rat.cast_zero
    rw [hzero, pyMax_real]
    exact le_max_left 0 _
  exact add_nonneg (add_nonneg hserver hpenalty) (le_computeContactResistance _ _)

/-- More penalty is more resistance. -/
theorem rInternalEffective_mono {penalty : ℝ} (derate : ℝ)
    (h : r.rInternalPenaltyOhmCm2 ≤ penalty) :
    (realLib fluid).rInternalEffective r s ≤
      (realLib fluid).rInternalEffective (r.damage penalty derate) s := by
  have hpenalty : pyMax ((realLib fluid).lit 0) r.rInternalPenaltyOhmCm2 ≤
      pyMax ((realLib fluid).lit 0) penalty := by
    rw [pyMax_real, pyMax_real]
    exact max_le_max_left _ h
  exact add_le_add_left (add_le_add_right hpenalty _) _

/-- The activity after the derating is in its bounds. -/
theorem deratedActivity_mem (raw : ℝ) : 0.5 ≤ (realLib fluid).deratedActivity r raw ∧
    (realLib fluid).deratedActivity r raw ≤ 10 := by
  simp only [NumLib.deratedActivity, realLib]
  push_cast
  exact npClip_mem (by norm_num)

/-- More derating is less activity. -/
theorem deratedActivity_antitone {derate : ℝ} (penalty raw : ℝ)
    (h : r.activityDerateFraction ≤ derate) :
    (realLib fluid).deratedActivity (r.damage penalty derate) raw ≤
      (realLib fluid).deratedActivity r raw := by
  simp only [NumLib.deratedActivity, realLib, BatchTestRequest.damage]
  push_cast
  apply npClip_mono (by norm_num)
  have hclip : npClip r.activityDerateFraction 0 0.95 ≤ npClip derate 0 0.95 :=
    npClip_mono (by norm_num) h
  have hraw : (0.5 : ℝ) ≤ npClip raw 0.5 10 := (npClip_mem (by norm_num)).1
  exact mul_le_mul_of_nonneg_left (by linarith) (le_trans (by norm_num) hraw)

/-- The arguments of the sweep of a bench request. -/
theorem benchInput (hr : BenchRequest r) (hs : 0 ≤ s.rInternal)
    (h : (realLib fluid).sweepInput r s = some q) :
    BenchInput q ∧ q.tInit = s.tCore ∧ q.rInternal = (realLib fluid).rInternalEffective r s ∧
      q.ecsaRatio = (realLib fluid).ecsaRatio r := by
  obtain ⟨aH2, -, h⟩ := Option.bind_eq_some_iff.mp h
  obtain ⟨aO2, -, rfl⟩ := Option.map_eq_some_iff.mp h
  have hlit : (realLib fluid).lit 12500 = 12500 ∧ (realLib fluid).lit 500 = 500 ∧
      (realLib fluid).lit 50 = 50 ∧ (realLib fluid).lit 14 = 14 ∧
      (realLib fluid).lit 0.5 = 0.5 ∧ (realLib fluid).lit 298.15 = 298.15 ∧
      (realLib fluid).lit 100 = 100 := by
    simp only [realLib]
    push_cast
    exact ⟨rfl, rfl, rfl, rfl, rfl, rfl, rfl⟩
  obtain ⟨hcap, hint, hext, hlambda, hdt, hcoolant, hcells⟩ := hlit
  refine ⟨?_, rfl, rfl, rfl⟩
  constructor
  · show (realLib fluid).lit (if r.numCells = 0 then (s.numCells : ℚ) else r.numCells) = 100
    rw [hr.numCells, if_neg (by decide)]
    exact hcells
  · exact hlambda
  · exact hdt
  · exact hcoolant
  · exact jLimEffective_eq hr
  · exact hcap
  · exact hcap
  · exact hint
  · exact hext
  · exact rInternalEffective_nonneg hs
  · exact deratedActivity_mem aH2
  · exact deratedActivity_mem aO2

/-- The damage changes the resistance and the activities of a sweep only. -/
theorem sweepInput_damage {penalty derate : ℝ} (hp : r.rInternalPenaltyOhmCm2 ≤ penalty)
    (hd : r.activityDerateFraction ≤ derate)
    (h : (realLib fluid).sweepInput (r.damage penalty derate) s = some q') :
    ∃ q, (realLib fluid).sweepInput r s = some q ∧ Damaged q q' ∧ q'.aH2 ≤ q.aH2 ∧
      q'.aO2 ≤ q.aO2 := by
  obtain ⟨aH2, hH2, h⟩ := Option.bind_eq_some_iff.mp h
  obtain ⟨aO2, hO2, rfl⟩ := Option.map_eq_some_iff.mp h
  refine ⟨_, Option.bind_eq_some_iff.mpr ⟨aH2, hH2, Option.map_eq_some_iff.mpr ⟨aO2, hO2, rfl⟩⟩,
    ⟨rInternalEffective_mono derate hp, rfl⟩, ?_, ?_⟩
  · exact deratedActivity_antitone penalty aH2 hd
  · exact deratedActivity_antitone penalty aO2 hd

theorem between_start (h : 298.15 ≤ t) : Between t t := by
  refine ⟨h, le_rfl, ?_⟩
  norm_num

/-- The catalyst of a test that is not low on activation. -/
theorem soundCatalyst (hr : BenchRequest r) (hecsa : q.ecsaRatio = (realLib fluid).ecsaRatio r)
    (hlow : ¬(realLib fluid).lowActivation q) : SoundCatalyst q := by
  unfold NumLib.lowActivation at hlow
  rw [not_or] at hlow
  constructor
  · have hle : ((0.3 : ℚ) : ℝ) ≤ q.ecsaRatio := not_lt.mp hlow.1
    push_cast at hle
    exact hle
  · rw [hecsa]
    simp only [NumLib.ecsaRatio, realLib]
    push_cast
    split_ifs
    · exact le_rfl
    · exact hr.ecsaRatio

/-- Voltages that fall do not rise. -/
theorem rising_eq_false {l : List ℝ} (h : l.IsChain fun v w => w ≤ v) :
    rising ((realLib fluid).lit 1e-6) l = false := by
  induction l with
  | nil => rfl
  | cons v l ih =>
    rcases l with _ | ⟨w, l⟩
    · rfl
    · obtain ⟨hle, hrest⟩ := List.isChain_cons_cons.mp h
      have hmargin : 0 < (realLib fluid).lit 1e-6 := by
        simp only [realLib]
        norm_num
      have hnot : ¬v + (realLib fluid).lit 1e-6 < w := by linarith
      simp [rising, hnot, ih hrest]

/-- **When a request of the test bench is passed**: the stack is not low on activation, and the
sweep is clean. -/
theorem passed_iff_clean (hr : BenchRequest r) (hs : 0 ≤ s.rInternal) (hcore : 298.15 ≤ s.tCore) :
    ((realLib fluid).runBatchTest r s).1.passed = true ↔ ∃ q,
      (realLib fluid).sweepInput r s = some q ∧ ¬(realLib fluid).lowActivation q ∧
        Clean q ((realLib fluid).jValues r) s.tCore s.tCore := by
  rw [NumLib.passed_iff r s lit_ne_zero_real.1 lit_ne_zero_real.2]
  have hcurrents : SweepCurrents ((realLib fluid).jValues r) := sweepCurrents_jValues hr
  have hohm : (realLib fluid).lit 0.35 = 0.35 ∧ (realLib fluid).lit 358.15 = 358.15 := by
    simp only [realLib]
    push_cast
    exact ⟨rfl, rfl⟩
  constructor
  · rintro ⟨q, points, flags, hsweep, hlow, hpoints, -⟩
    obtain ⟨hinput, -, failure, hloop, -⟩ := NumLib.sweep_eq_some hsweep
    obtain ⟨hq, hinit, -, hecsa⟩ := benchInput hr hs hinput
    refine ⟨q, hinput, hlow, ?_⟩
    rw [hinit] at hloop
    refine clean_of_sweepLoop hq (soundCatalyst hr hecsa hlow) hcurrents.current
      (between_start hcore) hloop fun p hp => ?_
    have hpoint := hpoints p hp
    rw [hohm.1, hohm.2] at hpoint
    exact ⟨not_lt.mp hpoint.1, not_lt.mp hpoint.2⟩
  · rintro ⟨q, hinput, hlow, hclean⟩
    obtain ⟨hq, hinit, -, hecsa⟩ := benchInput hr hs hinput
    obtain ⟨points, flags, hloop, hpass, hfalls⟩ := hclean.sweepLoop fluid hq
      (soundCatalyst hr hecsa hlow) hcurrents (between_start hcore) 0
    have hguard : ¬∃ j ∈ (realLib fluid).jValues r, q.jLim ≤ j := by
      rintro ⟨j, hj, hle⟩
      have hhi := (hcurrents.current j hj).2
      rw [hq.jLim] at hle
      norm_num at hhi hle
      linarith
    refine ⟨q, points, flags, ?_, hlow, fun p hp => ?_, rising_eq_false hfalls⟩
    · rw [NumLib.sweep, hinput, Option.bind_some, NumLib.batchPolarizationSweepThermal,
        if_neg hguard, hinit, hloop]
      simp [hlow]
    · rw [hohm.1, hohm.2]
      exact ⟨not_lt.mpr (hpass p hp).1, not_lt.mpr (hpass p hp).2⟩

/-- **The verdict is monotone in the damage**: a request of the test bench that is passed with more
penalty and more derating is passed with less. -/
theorem passed_of_damage (fluid : FluidData ℝ) {r : BatchTestRequest ℝ} {s : BatchServer ℝ}
    (hr : BenchRequest r) (hs : 0 ≤ s.rInternal) (hcore : 298.15 ≤ s.tCore) {penalty derate : ℝ}
    (hp : r.rInternalPenaltyOhmCm2 ≤ penalty) (hd : r.activityDerateFraction ≤ derate)
    (h : ((realLib fluid).runBatchTest (r.damage penalty derate) s).1.passed = true) :
    ((realLib fluid).runBatchTest r s).1.passed = true := by
  rw [passed_iff_clean (hr.damage penalty derate) hs hcore] at h
  obtain ⟨q', hinput', hlow', hclean'⟩ := h
  obtain ⟨q, hinput, hdamaged, hH2, hO2⟩ := sweepInput_damage hp hd hinput'
  obtain ⟨hq, -, -, hecsa⟩ := benchInput hr hs hinput
  have hlow : ¬(realLib fluid).lowActivation q := by
    unfold NumLib.lowActivation at hlow' ⊢
    rw [hdamaged.ecsaRatio] at hlow'
    rintro (hless | hless | hless)
    · exact hlow' (.inl hless)
    · exact hlow' (.inr (.inl (hH2.trans_lt hless)))
    · exact hlow' (.inr (.inr (hO2.trans_lt hless)))
  rw [passed_iff_clean hr hs hcore]
  refine ⟨q, hinput, hlow, ?_⟩
  refine Clean.of_damaged (m := 0) hdamaged hq (soundCatalyst hr hecsa hlow)
    (sweepCurrents_jValues hr).current (between_start hcore) ⟨le_rfl, ?_, le_rfl, ?_⟩ ?_ hclean'
  · rw [add_zero]
  · rw [add_zero]
  · have hpenalty : 0 ≤ q'.rInternal - q.rInternal := sub_nonneg.mpr hdamaged.rInternal
    rw [length_jValues hr]
    norm_num
    linarith

/-- A stack with little resistance has a clean sweep. -/
theorem clean_of_low (hq : BenchInput q) (hc : SoundCatalyst q) (hlow : q.rInternal ≤ 0.0688)
    {js : List ℝ} (hjs : ∀ j ∈ js, SweepCurrent j) (hb : Between core skin)
    (hcore : core + js.length * 0.01 ≤ 358.15) : Clean q js core skin := by
  induction js generalizing core skin with
  | nil => exact trivial
  | cons j js ih =>
    have hj : SweepCurrent j := hjs j List.mem_cons_self
    have hlo : 298.15 ≤ core := hb.coolant.trans hb.le
    rw [List.length_cons, Nat.cast_add, Nat.cast_one] at hcore
    have hlength : (0 : ℝ) ≤ js.length := Nat.cast_nonneg _
    have hhi : core ≤ 358.15 := by linarith
    have hmem := rMem_le hlo
    have hmemLo := le_rMem hlo hhi
    have hohm : etaOhm q j core ≤ 0.35 := by
      calc etaOhm q j core ≤ 2.375 * (0.0688 + 0.0785) :=
            mul_le_mul hj.2 (add_le_add hlow hmem)
              (add_nonneg hq.rInternal (le_trans (by norm_num) hmemLo)) (by norm_num)
        _ ≤ 0.35 := by norm_num
    refine ⟨hohm, hhi, ?_⟩
    apply ih (fun k hk => hjs k (List.mem_cons_of_mem j hk)) (hb.step hq hc hj hhi hohm)
    -- half a second heats the core by less than a hundredth of a kelvin
    obtain ⟨-, hheat⟩ := heat_bounds hq hc hj hlo hhi hohm
    have hle := hb.le
    simp only [BatchKernel.step]
    norm_num at hcore ⊢
    linarith

/-- A stack without defects, at the setpoints of the test bench. -/
def perfectStack : BatchTestRequest ℝ where
  numCells := 100
  operatingTempK := 350
  inletPressureH2Bar := 2
  inletPressureO2Bar := 2
  currentDensities := []
  rInternalPenaltyOhmCm2 := 0
  activityDerateFraction := 0
  rhAnode := 0
  ecsaRatio := 1
  pClampMpa := 4.25
  gdlPorosity := 0.78
  jLimDerateFraction := 0

/-- A server after its start, without a fluid library. -/
def startedServer : BatchServer ℝ where
  numCells := 200
  rInternal := 0.06
  tCore := 353.15
  tSkin := 353.15

theorem benchRequest_perfect : BenchRequest perfectStack := ⟨rfl, rfl, rfl, le_rfl⟩

/-- Without the library the activity of a dry gas at two bar is 2. -/
theorem realGasActivity_two (gas : Gas) (t : ℝ) :
    (realLib noFluids).realGasActivity (2 * (realLib noFluids).lit 1e5) t gas
      ((realLib noFluids).lit 0) = some 2 := by
  have hdry : (realLib noFluids).waterVaporPartialPressure t ((realLib noFluids).lit 0) =
      some 0 := by
    simp only [NumLib.waterVaporPartialPressure, realLib, pyMin, pyMax]
    norm_num
  rw [NumLib.realGasActivity, hdry]
  simp only [Option.map_some, pyMax, realLib, noFluids, Option.getD_none,
    Option.some.injEq]
  norm_num

/-- A small penalty and a tenth of derating are no reason to fail the stack. -/
theorem passed_perfect_damage :
    ((realLib noFluids).runBatchTest (perfectStack.damage 0.004 0.1) startedServer).1.passed =
      true := by
  have hr := benchRequest_perfect.damage 0.004 0.1
  have hs : 0 ≤ startedServer.rInternal := by
    simp only [startedServer]
    norm_num
  have hcore : 298.15 ≤ startedServer.tCore := by
    simp only [startedServer]
    norm_num
  have hrh : (perfectStack.damage 0.004 0.1).rhAnode = (realLib noFluids).lit 0 :=
    Rat.cast_zero.symm
  obtain ⟨q, hinput, hH2, hO2⟩ : ∃ q, (realLib noFluids).sweepInput
      (perfectStack.damage 0.004 0.1) startedServer = some q ∧ q.aH2 = 1.8 ∧ q.aO2 = 1.8 := by
    have hderated : (realLib noFluids).deratedActivity (perfectStack.damage 0.004 0.1) 2 =
        1.8 := by
      simp only [NumLib.deratedActivity, realLib, BatchTestRequest.damage, npClip]
      norm_num
    refine ⟨_, Option.bind_eq_some_iff.mpr ⟨2, ?_, Option.map_eq_some_iff.mpr ⟨2, ?_, rfl⟩⟩,
      hderated, hderated⟩
    · rw [hrh]
      exact realGasActivity_two .h2 _
    · exact realGasActivity_two .o2 _
  obtain ⟨hq, hinit, hrInternal, hecsa⟩ := benchInput hr hs hinput
  have hratio : q.ecsaRatio = 1 := by
    rw [hecsa]
    simp only [NumLib.ecsaRatio, realLib, BatchTestRequest.damage, perfectStack]
    norm_num
  have hlow : ¬(realLib noFluids).lowActivation q := by
    simp only [NumLib.lowActivation, hratio, hH2, hO2, realLib]
    norm_num
  have hresistance : q.rInternal ≤ 0.0688 := by
    rw [hrInternal]
    simp only [NumLib.rInternalEffective, NumLib.computeContactResistance, realLib,
      BatchTestRequest.damage, perfectStack, startedServer, pyMax]
    norm_num
  rw [passed_iff_clean hr hs hcore]
  refine ⟨q, hinput, hlow, ?_⟩
  apply clean_of_low hq (soundCatalyst hr hecsa hlow) hresistance
    (sweepCurrents_jValues hr).current (between_start hcore)
  rw [length_jValues hr]
  simp only [startedServer]
  norm_num

/-- The stack without the penalty is passed, because it is with it. -/
theorem passed_of_damage_perfect :
    ((realLib noFluids).runBatchTest perfectStack startedServer).1.passed = true := by
  apply passed_of_damage noFluids benchRequest_perfect _ _ _ _ passed_perfect_damage
  · simp only [startedServer]
    norm_num
  · simp only [startedServer]
    norm_num
  · simp only [perfectStack]
    norm_num
  · simp only [perfectStack]
    norm_num

end BatchKernel

end MatrixFactory
