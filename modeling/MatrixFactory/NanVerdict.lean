/-
# The verdict of a batch test where values are no numbers

A batch test is passed when no check of it fires, and a check that compares with a value that is no
number does not fire.  Some such values end at a guard or at a `max` with a constant first; the
others are the current densities, the ECSA ratio and the temperature of the stack.
-/
import MatrixFactory.BatchKernel
import MatrixFactory.Lib.NanNumber
import MatrixFactory.Lib.Numerals
import Mathlib.Analysis.SpecialFunctions.Log.Basic
import Mathlib.Tactic.Positivity

namespace MatrixFactory

open NanNumber
open scoped Numerals

namespace BatchKernel

/-! ## The numbers -/

/-- The numerical library on the real numbers and the value that is none. -/
noncomputable def nanLib (fluid : FluidData (NanNumber ℝ)) : NumLib (NanNumber ℝ) where
  lit q := num q
  exp := NanNumber.map Real.exp
  log
    | num a => if 0 < a then num (Real.log a) else nan
    | nan => nan
  sqrt
    | num a => if 0 ≤ a then num (Real.sqrt a) else nan
    | nan => nan
  abs := NanNumber.map fun a => |a|
  saturation := fluid.saturation
  compressibility := fluid.compressibility

variable {fluid : FluidData (NanNumber ℝ)}

@[simp] theorem lit_eq (q : ℚ) : (nanLib fluid).lit q = num (q : ℝ) := rfl

/-- The constant that comes first keeps what is no number away. -/
theorem pyMax_num (c : ℝ) (x : NanNumber ℝ) : ∃ a, c ≤ a ∧ pyMax (num c) x = num a := by
  unfold pyMax
  split_ifs with h
  · rcases x with _ | b
    · exact absurd h not_lt_nan
    · exact ⟨b, le_of_lt (num_lt.mp h), rfl⟩
  · exact ⟨c, le_rfl, rfl⟩

theorem pyMin_num (c : ℝ) (x : NanNumber ℝ) : ∃ a, pyMin (num c) x = num a := by
  unfold pyMin
  split_ifs with h
  · rcases x with _ | b
    · exact absurd h not_nan_lt
    · exact ⟨b, rfl⟩
  · exact ⟨c, rfl⟩

/-- `np.clip` keeps what is no number. -/
theorem npClip_nan (lo hi : NanNumber ℝ) : npClip nan lo hi = nan := by
  unfold npClip
  rw [if_neg not_nan_lt, if_neg not_lt_nan]

theorem log_pos {a : ℝ} (ha : 0 < a) : (nanLib fluid).log (num a) = num (Real.log a) := if_pos ha

theorem divide_num {a b : ℝ} (hb : b ≠ 0) :
    (nanLib fluid).divide (num a) (num b) = some (num (a / b)) := by
  have hzero : num b ≠ (nanLib fluid).lit 0 := by
    intro h
    apply hb
    simpa [nanLib] using h
  exact if_neg hzero

theorem divide_eq_some {x y z : NanNumber ℝ} (h : (nanLib fluid).divide x y = some z) :
    z = x / y := by
  unfold NumLib.divide at h
  split_ifs at h
  exact (Option.some.inj h).symm

/-! ## The kernels on numbers -/

/-- The conductivity of the membrane is a positive number. -/
theorem springer_pos (lambdaVal t : NanNumber ℝ) :
    ∃ a : ℝ, 0 < a ∧ (nanLib fluid).springerMembraneConductivity lambdaVal t = num a := by
  obtain ⟨b, hb⟩ := pyMin_num ((14 : ℚ) : ℝ) lambdaVal
  obtain ⟨l, -, hl⟩ := pyMax_num ((1 : ℚ) : ℝ) (num b)
  obtain ⟨b', hb'⟩ := pyMin_num ((420 : ℚ) : ℝ) t
  obtain ⟨t', -, ht'⟩ := pyMax_num ((250 : ℚ) : ℝ) (num b')
  obtain ⟨σ, hσ, hσeq⟩ := pyMax_num ((1e-4 : ℚ) : ℝ)
    (num (((0.005139 : ℚ) : ℝ) * l - ((0.00326 : ℚ) : ℝ)))
  have hpos : 0 < σ := lt_of_lt_of_le (by norm_num) hσ
  refine ⟨σ * Real.exp (((1268 : ℚ) : ℝ) * (((1 : ℚ) : ℝ) / ((303.15 : ℚ) : ℝ) -
    ((1 : ℚ) : ℝ) / t')), mul_pos hpos (Real.exp_pos _), ?_⟩
  simp only [NumLib.springerMembraneConductivity, lit_eq, hb, hl, hb', ht', num_mul, num_sub,
    num_div, hσeq]
  rfl

/-- The resistance of the membrane is a number at every temperature. -/
theorem membraneResistance_isNumber {lambdaVal t rMem : NanNumber ℝ}
    (h : (nanLib fluid).computeMembraneResistance lambdaVal t ((nanLib fluid).lit 0.005) =
      some rMem) : rMem.IsNumber := by
  obtain ⟨a, -, ha⟩ : ∃ a : ℝ, 0 < a ∧
      (nanLib fluid).springerMembraneConductivity lambdaVal t = num a := springer_pos lambdaVal t
  rw [NumLib.computeMembraneResistance, ha] at h
  rw [divide_eq_some h]
  exact ⟨_, rfl⟩

/-- The exchange current density is positive at a temperature that is a number. -/
theorem effectiveJ0_pos {ecsaRatio j0 : NanNumber ℝ} {t : ℝ}
    (h : (nanLib fluid).effectiveJ0 ((nanLib fluid).lit 2.5e-8) ecsaRatio (num t)
      ((nanLib fluid).lit 68500) ((nanLib fluid).lit 353.15) = some j0) :
    ∃ a : ℝ, 0 < a ∧ j0 = num a := by
  obtain ⟨q, hq, rfl⟩ := Option.map_eq_some_iff.mp h
  obtain ⟨e, he, heq⟩ := pyMax_num ((1e-4 : ℚ) : ℝ) ecsaRatio
  have hpos : 0 < e := lt_of_lt_of_le (by norm_num) he
  have hconst : (0 : ℝ) < (2.5e-8 : ℚ) := by norm_num
  rw [divide_eq_some hq, lit_eq, lit_eq, lit_eq, lit_eq, heq]
  exact ⟨_, mul_pos (mul_pos hconst hpos) (Real.exp_pos _), rfl⟩

/-- The guard of the Nernst potential lets positive numbers pass only. -/
theorem nernst_bounds {t aH2 aO2 e : NanNumber ℝ}
    (h : (nanLib fluid).calculateNernstPotential t aH2 aO2 = some e) :
    (∃ a : ℝ, 0 < a ∧ aH2 = num a) ∧ ∃ a : ℝ, 0 < a ∧ aO2 = num a := by
  have hpos : ∀ {x : NanNumber ℝ}, (nanLib fluid).lit 0.5 ≤ x → ∃ a : ℝ, 0 < a ∧ x = num a := by
    intro x hx
    rcases x with _ | a
    · exact absurd hx not_le_nan
    · have hle : ((0.5 : ℚ) : ℝ) ≤ a := num_le.mp hx
      exact ⟨a, lt_of_lt_of_le (by norm_num) hle, rfl⟩
  unfold NumLib.calculateNernstPotential at h
  split_ifs at h with h₁ h₂
  exact ⟨hpos h₁.1, hpos h₂.1⟩

theorem nernst_isNumber {t : ℝ} {aH2 aO2 e : NanNumber ℝ}
    (h : (nanLib fluid).calculateNernstPotential (num t) aH2 aO2 = some e) : e.IsNumber := by
  obtain ⟨⟨a, ha, rfl⟩, b, hb, rfl⟩ := nernst_bounds h
  unfold NumLib.calculateNernstPotential at h
  split_ifs at h
  have hsqrt : (nanLib fluid).sqrt (num b) = num (Real.sqrt b) := if_pos hb.le
  rw [hsqrt, num_mul, log_pos (mul_pos ha (Real.sqrt_pos.mpr hb))] at h
  exact Option.some.inj h ▸ ⟨_, rfl⟩

theorem etaConc_isNumber {ratio slope : NanNumber ℝ} (hratio : ratio.IsNumber)
    (hslope : slope.IsNumber) : ((nanLib fluid).etaConc ratio slope).IsNumber := by
  obtain ⟨x, rfl⟩ := hratio
  obtain ⟨y, rfl⟩ := hslope
  unfold NumLib.etaConc
  split_ifs with h
  · have hle : x ≤ ((0.99 : ℚ) : ℝ) := num_le.mp h
    have hpos : 0 < ((1 : ℚ) : ℝ) - x := by
      have hlt : ((0.99 : ℚ) : ℝ) < ((1 : ℚ) : ℝ) := by norm_num
      exact sub_pos.mpr (hle.trans_lt hlt)
    show (-num _ * (nanLib fluid).log (num (((1 : ℚ) : ℝ) - x))).IsNumber
    rw [log_pos hpos]
    exact ⟨_, rfl⟩
  · have hpos : (0 : ℝ) < (0.01 : ℚ) := by norm_num
    show (-num _ * (nanLib fluid).log (num ((0.01 : ℚ) : ℝ)) +
      num y * (num x - num _)).IsNumber
    rw [log_pos hpos]
    exact ⟨_, rfl⟩

/-- The voltage at a current and a temperature that are numbers. -/
theorem voltage_isNumber {j t rInternal nCells jLim : ℝ} {aH2 aO2 ecsaRatio lambdaMem : NanNumber ℝ}
    {v : PemfcVoltage (NanNumber ℝ)}
    (h : (nanLib fluid).calculatePemfcVoltage (num j) (num t) aH2 aO2 (num rInternal) (num nCells)
      ecsaRatio lambdaMem (num jLim) = some v) :
    v.vStack.IsNumber ∧ v.etaAct.IsNumber ∧ v.etaOhm.IsNumber := by
  obtain ⟨j0, hj0, h⟩ := Option.bind_eq_some_iff.mp h
  obtain ⟨eOcv, heOcv, h⟩ := Option.bind_eq_some_iff.mp h
  obtain ⟨jRatio, hjRatio, h⟩ := Option.bind_eq_some_iff.mp h
  obtain ⟨rMem, hrMem, h⟩ := Option.bind_eq_some_iff.mp h
  obtain ⟨ratio, hratio, h⟩ := Option.bind_eq_some_iff.mp h
  obtain ⟨slope, hslope, rfl⟩ := Option.map_eq_some_iff.mp h
  obtain ⟨e, rfl⟩ := nernst_isNumber heOcv
  obtain ⟨m, rfl⟩ := membraneResistance_isNumber hrMem
  have hconc : ((nanLib fluid).etaConc ratio slope).IsNumber := by
    rw [divide_eq_some hratio, divide_eq_some hslope]
    exact etaConc_isNumber ⟨_, rfl⟩ ⟨_, rfl⟩
  obtain ⟨c, hc⟩ := hconc
  -- the current is at least `1e-10` and the exchange current is positive, so there is a logarithm
  have hlog : ((nanLib fluid).log jRatio).IsNumber := by
    obtain ⟨i, hi, rfl⟩ := effectiveJ0_pos hj0
    have hsafe : ∃ a : ℝ, 0 < a ∧ pyMax (num j) ((nanLib fluid).lit 1e-10) = num a := by
      have hconst : (0 : ℝ) < (1e-10 : ℚ) := by norm_num
      unfold pyMax
      split_ifs with hlt
      · exact ⟨_, hconst, rfl⟩
      · exact ⟨j, hconst.trans_le (not_lt.mp hlt), rfl⟩
    obtain ⟨a, ha, hsafe⟩ := hsafe
    rw [divide_eq_some hjRatio, hsafe, num_div, log_pos (div_pos ha hi)]
    exact ⟨_, rfl⟩
  obtain ⟨l, hl⟩ := hlog
  simp only [hl, hc, lit_eq, num_mul, num_div, num_add, num_sub]
  exact ⟨⟨_, rfl⟩, ⟨_, rfl⟩, ⟨_, rfl⟩⟩

/-! ## The sweep on numbers -/

/-- The arguments of a sweep that are always numbers. -/
structure NumericInput (q : SweepInput (NanNumber ℝ)) : Prop where
  rInternal : q.rInternal.IsNumber
  nCells : q.nCells.IsNumber
  jLim : q.jLim.IsNumber
  dt : q.dt.IsNumber
  tCoolant : q.tCoolant.IsNumber
  cCore : q.model.cCore.IsNumber
  cSkin : q.model.cSkin.IsNumber
  hAInternal : q.model.hAInternal.IsNumber
  hAExternal : q.model.hAExternal.IsNumber

/-- A step of the thermal model on numbers. -/
theorem thermalStep_isNumber {q : SweepInput (NanNumber ℝ)} (hq : NumericInput q)
    {core skin qGen : NanNumber ℝ} (hcore : core.IsNumber) (hskin : skin.IsNumber)
    (hqGen : qGen.IsNumber) {next : NanNumber ℝ × NanNumber ℝ}
    (h : (nanLib fluid).thermalStepChecked q.model core skin q.dt qGen q.tCoolant = some next) :
    next.1.IsNumber ∧ next.2.IsNumber := by
  unfold NumLib.thermalStepChecked at h
  split_ifs at h
  obtain rfl := Option.some.inj h
  have hInt := (hcore.sub hskin).mul hq.hAInternal
  have hExt := (hskin.sub hq.tCoolant).mul hq.hAExternal
  constructor
  · exact hcore.add (((hqGen.sub hInt).div hq.cCore).mul hq.dt)
  · exact hskin.add (((hInt.sub hExt).div hq.cSkin).mul hq.dt)

/-- The voltage and the temperatures of a point are numbers. -/
def NumericPoint (p : TestPoint (NanNumber ℝ)) : Prop :=
  p.voltage.IsNumber ∧ p.etaOhm.IsNumber ∧ p.core.IsNumber ∧ p.skin.IsNumber

/-- **A sweep over numbers** has numbers at all its points. -/
theorem sweepLoop_isNumber {q : SweepInput (NanNumber ℝ)} (hq : NumericInput q)
    {js : List (NanNumber ℝ)} (hjs : ∀ j ∈ js, j.IsNumber) {core skin : NanNumber ℝ}
    (hcore : core.IsNumber) (hskin : skin.IsNumber) {failure flags : ℕ}
    {points : List (TestPoint (NanNumber ℝ))}
    (h : (nanLib fluid).sweepLoop q js core skin failure = some (points, flags)) :
    ∀ p ∈ points, NumericPoint p := by
  induction js generalizing core skin failure points with
  | nil =>
    cases h
    exact nofun
  | cons j js ih =>
    obtain ⟨v, next, rest, hv, hnext, hrest, rfl⟩ := NumLib.sweepLoop_cons h
    have hvoltage : v.vStack.IsNumber ∧ v.etaAct.IsNumber ∧ v.etaOhm.IsNumber := by
      obtain ⟨x, rfl⟩ := hjs j List.mem_cons_self
      obtain ⟨t, rfl⟩ := hcore
      obtain ⟨a, ha⟩ := hq.rInternal
      obtain ⟨n, hn⟩ := hq.nCells
      obtain ⟨l, hl⟩ := hq.jLim
      rw [NumLib.voltageAt, ha, hn, hl] at hv
      exact voltage_isNumber hv
    obtain ⟨hstack, hact, hohm⟩ := hvoltage
    have hheat := ((hjs j List.mem_cons_self).mul hq.nCells).mul (hact.add hohm)
    obtain ⟨hcore', hskin'⟩ := thermalStep_isNumber hq hcore hskin hheat hnext
    intro p hp
    rcases List.mem_cons.mp hp with rfl | hp
    · exact ⟨hstack, hohm, hcore, hskin⟩
    · exact ih (fun j' hj' => hjs j' (List.mem_cons_of_mem j hj')) hcore' hskin' hrest p hp

/-! ## The arguments of the sweep -/

variable {r : BatchTestRequest (NanNumber ℝ)} {s : BatchServer (NanNumber ℝ)}
  {q : SweepInput (NanNumber ℝ)}

/-- Every `max` with a constant keeps the resistance a number. -/
theorem rInternalEffective_isNumber : ((nanLib fluid).rInternalEffective r s).IsNumber := by
  obtain ⟨a, -, ha⟩ := pyMax_num ((0 : ℚ) : ℝ) r.rInternalPenaltyOhmCm2
  have hcontact : ∀ p g, ((nanLib fluid).computeContactResistance p g).IsNumber := by
    intro p g
    obtain ⟨b, -, hb⟩ := pyMax_num ((0 : ℚ) : ℝ) (((nanLib fluid).lit 0.0042 *
      ((nanLib fluid).lit 1 + (nanLib fluid).lit 0.35 * ((nanLib fluid).abs
        (pyMax ((nanLib fluid).lit 0.5) p - (nanLib fluid).lit 4.25) / (nanLib fluid).lit 4.25) +
        (nanLib fluid).lit 0.25 * (((nanLib fluid).abs
        (pyMax ((nanLib fluid).lit 0.5) p - (nanLib fluid).lit 4.25) / (nanLib fluid).lit 4.25) *
        ((nanLib fluid).abs
        (pyMax ((nanLib fluid).lit 0.5) p - (nanLib fluid).lit 4.25) /
          (nanLib fluid).lit 4.25)))))
    exact ⟨b, hb⟩
  exact (IsNumber.add ⟨_, rfl⟩ ⟨a, ha⟩).add (hcontact _ _)

/-- The limiting current is a positive number. -/
theorem jLimEffective_pos : ∃ l : ℝ, 0 < l ∧ (nanLib fluid).jLimEffective r = num l := by
  obtain ⟨l, hl, h⟩ := pyMax_num ((0.2 : ℚ) : ℝ) ((nanLib fluid).lit 2.5 * ((nanLib fluid).lit 1 -
    npClip r.jLimDerateFraction ((nanLib fluid).lit 0) ((nanLib fluid).lit 0.9)))
  exact ⟨l, lt_of_lt_of_le (by norm_num) hl, h⟩

/-- The arguments of a sweep. -/
theorem sweepInput_numeric (h : (nanLib fluid).sweepInput r s = some q) :
    NumericInput q ∧ q.tInit = s.tCore ∧ q.ecsaRatio = (nanLib fluid).ecsaRatio r := by
  obtain ⟨aH2, -, h⟩ := Option.bind_eq_some_iff.mp h
  obtain ⟨aO2, -, rfl⟩ := Option.map_eq_some_iff.mp h
  obtain ⟨l, -, hl⟩ : ∃ l : ℝ, 0 < l ∧ (nanLib fluid).jLimEffective r = num l := jLimEffective_pos
  exact ⟨⟨rInternalEffective_isNumber, ⟨_, rfl⟩, ⟨l, hl⟩, ⟨_, rfl⟩, ⟨_, rfl⟩,
    ⟨_, rfl⟩, ⟨_, rfl⟩, ⟨_, rfl⟩, ⟨_, rfl⟩⟩, rfl, rfl⟩

theorem ecsaRatio_isNumber (h : r.ecsaRatio.IsNumber) :
    ((nanLib fluid).ecsaRatio r).IsNumber := by
  unfold NumLib.ecsaRatio
  split_ifs
  · exact ⟨_, rfl⟩
  · exact h

/-- The default of the ECSA ratio does not stand in for a value that is no number. -/
theorem isNumber_of_ecsaRatio (h : ((nanLib fluid).ecsaRatio r).IsNumber) :
    r.ecsaRatio.IsNumber := by
  unfold NumLib.ecsaRatio at h
  split_ifs at h with hle
  · exact (isNumber_of_le hle).1
  · exact h

theorem jValues_isNumber (h : ∀ j ∈ r.currentDensities, j.IsNumber) :
    ∀ j ∈ (nanLib fluid).jValues r, j.IsNumber := by
  by_cases hempty : r.currentDensities ≠ []
  · rw [NumLib.jValues, if_pos hempty]
    exact h
  · rw [NumLib.jValues, if_neg hempty]
    intro j hj
    obtain ⟨i, -, rfl⟩ := List.mem_map.mp hj
    obtain ⟨a, ha⟩ := pyMin_num ((2.4 : ℚ) : ℝ)
      ((nanLib fluid).lit 0.95 * (nanLib fluid).jLimEffective r)
    have hstop : (pyMin ((nanLib fluid).lit 2.4)
      ((nanLib fluid).lit 0.95 * (nanLib fluid).jLimEffective r)).IsNumber := ⟨a, ha⟩
    exact IsNumber.add ⟨_, rfl⟩ (IsNumber.mul ⟨_, rfl⟩ ((hstop.sub ⟨_, rfl⟩).div ⟨_, rfl⟩))

/-- A current that is no number has a voltage and an overpotential that are none. -/
theorem voltage_nan {core : NanNumber ℝ} {v : PemfcVoltage (NanNumber ℝ)}
    (h : (nanLib fluid).voltageAt q nan core = some v) : v.vStack = nan ∧ v.etaOhm = nan := by
  obtain ⟨j0, -, h⟩ := Option.bind_eq_some_iff.mp h
  obtain ⟨eOcv, -, h⟩ := Option.bind_eq_some_iff.mp h
  obtain ⟨jRatio, -, h⟩ := Option.bind_eq_some_iff.mp h
  obtain ⟨rMem, -, h⟩ := Option.bind_eq_some_iff.mp h
  obtain ⟨ratio, -, h⟩ := Option.bind_eq_some_iff.mp h
  obtain ⟨slope, -, rfl⟩ := Option.map_eq_some_iff.mp h
  simp only [nan_mul, sub_nan, nan_sub, mul_nan, and_self]

/-! ## The verdict -/

/-- What a passed test should mean. -/
structure Certified (lib : NumLib (NanNumber ℝ)) (q : SweepInput (NanNumber ℝ))
    (points : List (TestPoint (NanNumber ℝ))) : Prop where
  voltage : ∀ p ∈ points, p.voltage.IsNumber
  temperature : ∀ p ∈ points, p.core.IsNumber ∧ p.skin.IsNumber
  ohmic : ∀ p ∈ points, p.etaOhm ≤ lib.lit 0.35
  thermal : ∀ p ∈ points, p.core ≤ lib.lit 358.15
  activity : lib.lit 0.7 ≤ q.aH2 ∧ lib.lit 0.7 ≤ q.aO2
  ecsaRatio : lib.lit 0.3 ≤ q.ecsaRatio
  falling : (points.map (·.voltage)).IsChain fun v w => w ≤ v + lib.lit 1e-6

/-- A test is passed only where its points certify that, and a request that is rejected leaves the
server as it was. -/
structure Sound (lib : NumLib (NanNumber ℝ)) (r : BatchTestRequest (NanNumber ℝ))
    (s : BatchServer (NanNumber ℝ)) : Prop where
  certified : (lib.runBatchTest r s).1.passed = true → ∃ q points flags,
    lib.sweep r s = some (q, points, flags) ∧ Certified lib q points
  unaltered : (lib.runBatchTest r s).1 = .rejection → (lib.runBatchTest r s).2 = s

/-- The ECSA ratio, the current densities and the temperature of the stack are numbers. -/
structure Numbers (r : BatchTestRequest (NanNumber ℝ)) (s : BatchServer (NanNumber ℝ)) : Prop where
  core : s.tCore.IsNumber
  ecsaRatio : r.ecsaRatio.IsNumber
  currents : ∀ j ∈ r.currentDensities, j.IsNumber

/-- Voltages that are numbers and do not rise fall. -/
theorem falling_of_rising {margin : NanNumber ℝ} (hmargin : margin.IsNumber)
    {l : List (NanNumber ℝ)} (hl : ∀ v ∈ l, v.IsNumber) (h : rising margin l = false) :
    l.IsChain fun v w => w ≤ v + margin := by
  induction l with
  | nil => exact .nil
  | cons v l ih =>
    rcases l with _ | ⟨w, l⟩
    · exact .singleton v
    · simp only [rising, decide_eq_false_iff_not, not_or] at h
      have hv := hl v List.mem_cons_self
      have hw := hl w (List.mem_cons_of_mem v List.mem_cons_self)
      refine .cons_cons (le_of_not_lt hw (hv.add hmargin) h.1) ?_
      exact ih (fun v' hv' => hl v' (List.mem_cons_of_mem v hv')) (by simpa using h.2)

theorem lit_ne_zero : (nanLib fluid).lit 2.5 ≠ (nanLib fluid).lit 0 ∧
    (nanLib fluid).lit 2.5 * (nanLib fluid).lit 0.01 ≠ (nanLib fluid).lit 0 := by
  constructor
  · simp only [lit_eq, ne_eq, NanNumber.num.injEq]
    norm_num
  · simp only [lit_eq, num_mul, ne_eq, NanNumber.num.injEq]
    norm_num

/-- A test over numbers is passed only where its points certify that. -/
theorem Numbers.certified (hn : Numbers r s) {points : List (TestPoint (NanNumber ℝ))} {flags : ℕ}
    (hsweep : (nanLib fluid).sweep r s = some (q, points, flags))
    (hlow : ¬(nanLib fluid).lowActivation q)
    (hpoints : ∀ p ∈ points, ¬(nanLib fluid).lit 0.35 < p.etaOhm ∧
      ¬(nanLib fluid).lit 358.15 < p.core)
    (hrising : rising ((nanLib fluid).lit 1e-6) (points.map (·.voltage)) = false) :
    Certified (nanLib fluid) q points := by
  obtain ⟨hinput, -, failure, hloop, -⟩ := NumLib.sweep_eq_some hsweep
  obtain ⟨hq, hinit, hecsa⟩ := sweepInput_numeric hinput
  have hnumbers := sweepLoop_isNumber hq (jValues_isNumber hn.currents) (hinit ▸ hn.core)
    (hinit ▸ hn.core) hloop
  -- the guard of the Nernst potential has let the activities pass
  obtain ⟨p, hp, -, -⟩ := NumLib.sweepLoop_head hloop (NumLib.jValues_ne_nil r)
  obtain ⟨v, hv, -⟩ := ((NumLib.sweepLoop_computed hloop).2 p hp).voltage
  obtain ⟨j0, -, hv⟩ := Option.bind_eq_some_iff.mp hv
  obtain ⟨eOcv, hnernst, -⟩ := Option.bind_eq_some_iff.mp hv
  obtain ⟨⟨a, -, ha⟩, b, -, hb⟩ := nernst_bounds hnernst
  obtain ⟨hlowEcsa, hlowH2, hlowO2⟩ : ¬q.ecsaRatio < _ ∧ ¬q.aH2 < _ ∧ ¬q.aO2 < _ := by
    unfold NumLib.lowActivation at hlow
    rw [not_or, not_or] at hlow
    exact hlow
  constructor
  · exact fun p hp => (hnumbers p hp).1
  · exact fun p hp => (hnumbers p hp).2.2
  · exact fun p hp => le_of_not_lt (hnumbers p hp).2.1 ⟨_, rfl⟩ (hpoints p hp).1
  · exact fun p hp => le_of_not_lt (hnumbers p hp).2.2.1 ⟨_, rfl⟩ (hpoints p hp).2
  · exact ⟨le_of_not_lt ⟨_, rfl⟩ ⟨a, ha⟩ hlowH2, le_of_not_lt ⟨_, rfl⟩ ⟨b, hb⟩ hlowO2⟩
  · exact le_of_not_lt ⟨_, rfl⟩ (hecsa ▸ ecsaRatio_isNumber hn.ecsaRatio) hlowEcsa
  · refine falling_of_rising ⟨_, rfl⟩ (fun v hv => ?_) hrising
    obtain ⟨p, hp, rfl⟩ := List.mem_map.mp hv
    exact (hnumbers p hp).1

/-- Points that certify a passed test come from numbers. -/
theorem numbers_of_certified {points : List (TestPoint (NanNumber ℝ))} {flags : ℕ}
    (hsweep : (nanLib fluid).sweep r s = some (q, points, flags))
    (hc : Certified (nanLib fluid) q points) : Numbers r s := by
  obtain ⟨hinput, -, failure, hloop, -⟩ := NumLib.sweep_eq_some hsweep
  obtain ⟨-, hinit, hecsa⟩ := sweepInput_numeric hinput
  obtain ⟨hcurrents, hcomputed⟩ := NumLib.sweepLoop_computed hloop
  refine ⟨?_, ?_, fun j hj => ?_⟩
  · obtain ⟨p, hp, hcore, -⟩ := NumLib.sweepLoop_head hloop (NumLib.jValues_ne_nil r)
    rw [← hinit, ← hcore]
    exact (hc.temperature p hp).1
  · have heffective : ((nanLib fluid).ecsaRatio r).IsNumber := by
      rw [← hecsa]
      exact (isNumber_of_le hc.ecsaRatio).2
    exact isNumber_of_ecsaRatio heffective
  · have hjValues : (nanLib fluid).jValues r = r.currentDensities :=
      if_pos (List.ne_nil_of_mem hj)
    rw [← hjValues, ← hcurrents] at hj
    obtain ⟨p, hp, rfl⟩ := List.mem_map.mp hj
    by_contra hnan
    obtain ⟨v, hv, hvoltage, -⟩ := (hcomputed p hp).voltage
    rw [eq_nan hnan] at hv
    apply not_isNumber_nan (K := ℝ)
    rw [← (voltage_nan hv).1, ← hvoltage]
    exact hc.voltage p hp

/-- A test that is soundly passed is one of numbers. -/
theorem Sound.numbers (h : Sound (nanLib fluid) r s)
    (hpassed : ((nanLib fluid).runBatchTest r s).1.passed = true) : Numbers r s := by
  obtain ⟨q, points, flags, hsweep, hc⟩ := h.certified hpassed
  exact numbers_of_certified hsweep hc

/-- **The verdict of a batch test is sound where the values behind it are numbers**: the ECSA ratio,
the current densities and the temperature of the stack.  A test that is passed is sound nowhere
else. -/
theorem sound_iff (fluid : FluidData (NanNumber ℝ)) (r : BatchTestRequest (NanNumber ℝ))
    (s : BatchServer (NanNumber ℝ)) :
    (Numbers r s → Sound (nanLib fluid) r s) ∧
      (((nanLib fluid).runBatchTest r s).1.passed = true →
        (Sound (nanLib fluid) r s ↔ Numbers r s)) := by
  have hsound : Numbers r s → Sound (nanLib fluid) r s := by
    intro hn
    refine ⟨fun hpassed => ?_, NumLib.rejection_unaltered r s lit_ne_zero.1 lit_ne_zero.2⟩
    obtain ⟨q, points, flags, hsweep, hlow, hpoints, hrising⟩ :=
      (NumLib.passed_iff r s lit_ne_zero.1 lit_ne_zero.2).mp hpassed
    exact ⟨q, points, flags, hsweep, hn.certified hsweep hlow hpoints hrising⟩
  exact ⟨hsound, fun hpassed => ⟨fun h => h.numbers hpassed, hsound⟩⟩

/-! ## A current that is no number -/

/-- The voltage can be computed at every current, if the activities are in their bounds. -/
theorem voltage_isSome {t rInternal nCells jLim a b : ℝ} (ht : 0 < t) (hjLim : 0 < jLim)
    (ha : 0.5 ≤ a ∧ a ≤ 10) (hb : 0.5 ≤ b ∧ b ≤ 10) (j ecsaRatio lambdaMem : NanNumber ℝ) :
    ((nanLib fluid).calculatePemfcVoltage j (num t) (num a) (num b) (num rInternal)
      (num nCells) ecsaRatio lambdaMem (num jLim)).isSome := by
  have hgas : ((8.314462618 : ℚ) : ℝ) * t ≠ 0 := by positivity
  obtain ⟨j0, hj0⟩ : ∃ j0, (nanLib fluid).effectiveJ0 ((nanLib fluid).lit 2.5e-8) ecsaRatio (num t)
      ((nanLib fluid).lit 68500) ((nanLib fluid).lit 353.15) = some j0 := by
    unfold NumLib.effectiveJ0
    rw [lit_eq 8.314462618, num_mul, lit_eq 68500, divide_num hgas]
    exact ⟨_, rfl⟩
  obtain ⟨i, hi, rfl⟩ := effectiveJ0_pos hj0
  obtain ⟨e, he⟩ : ∃ e, (nanLib fluid).calculateNernstPotential (num t) (num a) (num b) =
      some e := by
    have hbounds : ∀ {x : ℝ}, 0.5 ≤ x ∧ x ≤ 10 →
        (nanLib fluid).lit 0.5 ≤ num x ∧ num x ≤ (nanLib fluid).lit 10 := by
      intro x hx
      constructor
      · show ((0.5 : ℚ) : ℝ) ≤ x
        exact le_trans (by norm_num) hx.1
      · show x ≤ ((10 : ℚ) : ℝ)
        exact le_trans hx.2 (by norm_num)
    unfold NumLib.calculateNernstPotential
    rw [if_neg (not_not.mpr (hbounds ha)), if_neg (not_not.mpr (hbounds hb))]
    exact ⟨_, rfl⟩
  obtain ⟨σ, hσ, hsigma⟩ : ∃ σ : ℝ, 0 < σ ∧
      (nanLib fluid).springerMembraneConductivity lambdaMem (num t) = num σ :=
    springer_pos lambdaMem (num t)
  have hne : ∀ {x : ℝ}, 0 < x → ∀ y, (nanLib fluid).divide y (num x) = some (y / num x) := by
    intro x hx y
    have hzero : num x ≠ (nanLib fluid).lit 0 := by
      intro h
      have hx0 : x = ((0 : ℚ) : ℝ) := NanNumber.num.inj h
      simp [hx0] at hx
    exact if_neg hzero
  have hslope : 0 < jLim * ((0.01 : ℚ) : ℝ) := by positivity
  simp only [NumLib.calculatePemfcVoltage, NumLib.computeMembraneResistance, hj0, he, hsigma,
    Option.bind_some, hne hi, hne hσ, hne hjLim, lit_eq 0.01, num_mul, hne hslope,
    Option.map_some, Option.isSome_some]

/-- A fluid library that is not installed. -/
def noFluidData : FluidData (NanNumber ℝ) where
  saturation _ := none
  compressibility _ _ _ := none

/-- A request for one current density that is no number. -/
noncomputable def nanRequest : BatchTestRequest (NanNumber ℝ) where
  numCells := 100
  operatingTempK := num 350
  inletPressureH2Bar := num 2
  inletPressureO2Bar := num 2
  currentDensities := [nan]
  rInternalPenaltyOhmCm2 := num 0
  activityDerateFraction := num 0
  rhAnode := num 0
  ecsaRatio := num 1
  pClampMpa := num 4.25
  gdlPorosity := num 0.78
  jLimDerateFraction := num 0

/-- The server after its start. -/
noncomputable def freshServer : BatchServer (NanNumber ℝ) where
  numCells := 200
  rInternal := 0.06
  tCore := num 353.15
  tSkin := num 353.15

/-- Without the library a dry gas has its pressure as activity. -/
theorem activity_two (gas : Gas) (t : NanNumber ℝ) :
    (nanLib noFluidData).realGasActivity (num 2 * (nanLib noFluidData).lit 1e5) t gas (num 0) =
      some (num 2) := by
  have hdry : (nanLib noFluidData).waterVaporPartialPressure t (num 0) =
      some ((nanLib noFluidData).lit 0) := by
    simp [NumLib.waterVaporPartialPressure, pyMin, pyMax]
  rw [NumLib.realGasActivity, hdry]
  simp only [Option.map_some, pyMax, num_mul, num_sub, num_lt, noFluidData, nanLib,
    Option.getD_none, ite_self, Option.some.injEq]
  norm_num

theorem derated_two : (nanLib noFluidData).deratedActivity nanRequest (num 2) = num 2 := by
  simp only [NumLib.deratedActivity, nanRequest, npClip, lit_eq, num_lt]
  norm_num

/-- The time step of a sweep is below its bound. -/
theorem thermalStepChecked_isSome (core skin qGen tCoolant : NanNumber ℝ) :
    ((nanLib fluid).thermalStepChecked ((nanLib fluid).thermal s) core skin
      ((nanLib fluid).lit 0.5) qGen tCoolant).isSome := by
  have hdt : ¬(nanLib fluid).dtMax ((nanLib fluid).thermal s) ≤ (nanLib fluid).lit 0.5 := by
    simp only [NumLib.dtMax, NumLib.thermal, lit_eq, num_div, num_add, pyMax, num_lt]
    norm_num
  rw [NumLib.thermalStepChecked, if_neg hdt]
  rfl

/-- The arguments of the sweep of the request. -/
theorem nan_sweepInput : ∃ q, (nanLib noFluidData).sweepInput nanRequest freshServer = some q ∧
    q.aH2 = num 2 ∧ q.aO2 = num 2 ∧ q.dt = (nanLib noFluidData).lit 0.5 ∧
    q.model = (nanLib noFluidData).thermal freshServer ∧
    q.jLim = (nanLib noFluidData).jLimEffective nanRequest := by
  have ht : nanRequest.operatingTempK ≠ (nanLib noFluidData).lit 0 := by
    simp [nanRequest]
  have hH2 : (nanLib noFluidData).realGasActivity (nanRequest.inletPressureH2Bar *
      (nanLib noFluidData).lit 1e5) nanRequest.operatingTempK .h2 nanRequest.rhAnode =
      some (num 2) := activity_two .h2 (num 350)
  have hO2 : (nanLib noFluidData).realGasActivity (nanRequest.inletPressureO2Bar *
      (nanLib noFluidData).lit 1e5) nanRequest.operatingTempK .o2 ((nanLib noFluidData).lit 0) =
      some (num 2) := by
    rw [lit_eq 0, Rat.cast_zero]
    exact activity_two .o2 (num 350)
  unfold NumLib.sweepInput
  dsimp only
  rw [if_neg ht, hH2, hO2]
  exact ⟨_, rfl, derated_two, derated_two, rfl, rfl, rfl⟩

/-- The sweep of the request has one point, and no check fires there. -/
theorem nan_sweep : ∃ q p, (nanLib noFluidData).sweep nanRequest freshServer = some (q, [p], 0) ∧
    ¬(nanLib noFluidData).lowActivation q ∧ p.etaOhm = nan ∧ p.core = num 353.15 := by
  obtain ⟨q, hq, hH2, hO2, hdt, hmodel, hjLim⟩ := nan_sweepInput
  obtain ⟨hnumeric, hinit, hecsa⟩ := sweepInput_numeric hq
  obtain ⟨a, ha⟩ := hnumeric.rInternal
  obtain ⟨n, hn⟩ := hnumeric.nCells
  obtain ⟨l, hl, hlim⟩ : ∃ l : ℝ, 0 < l ∧
    (nanLib noFluidData).jLimEffective nanRequest = num l := jLimEffective_pos
  have hcore : q.tInit = num 353.15 := hinit
  have hone : q.ecsaRatio = num 1 := by
    rw [hecsa]
    simp [NumLib.ecsaRatio, nanRequest]
  have hlow : ¬(nanLib noFluidData).lowActivation q := by
    simp only [NumLib.lowActivation, hone, hH2, hO2, lit_eq, num_lt]
    norm_num
  -- the voltage can be computed, and is no number
  obtain ⟨v, hv⟩ : ∃ v, (nanLib noFluidData).voltageAt q nan q.tInit = some v := by
    rw [NumLib.voltageAt, hcore, hH2, hO2, ha, hn, hjLim, hlim]
    exact Option.isSome_iff_exists.mp
      (voltage_isSome (by norm_num) hl (by norm_num) (by norm_num) _ _ _)
  obtain ⟨-, hohm⟩ := voltage_nan hv
  obtain ⟨next, hnext⟩ : ∃ next, (nanLib noFluidData).thermalStepChecked q.model q.tInit q.tInit
      q.dt (nan * q.nCells * (v.etaAct + v.etaOhm)) q.tCoolant = some next := by
    rw [hmodel, hdt]
    exact Option.isSome_iff_exists.mp (thermalStepChecked_isSome _ _ _ _)
  have hflags : (nanLib noFluidData).pointFlags v.etaOhm q.tInit 0 = 0 := by
    rw [NumLib.pointFlags_eq_zero, hohm, hcore]
    refine ⟨rfl, not_lt_nan, ?_⟩
    simp only [lit_eq, num_lt]
    norm_num
  have hjs : (nanLib noFluidData).jValues nanRequest = [nan] := if_pos fun h => by cases h
  have hguard : ¬∃ j ∈ [(nan : NanNumber ℝ)], q.jLim ≤ j := by
    rintro ⟨j, hj, hle⟩
    rw [List.mem_singleton.mp hj] at hle
    exact not_le_nan hle
  refine ⟨q, ⟨nan, v.vStack, v.etaOhm, q.tInit, q.tInit⟩, ?_, hlow, hohm, hcore⟩
  rw [NumLib.sweep, hq, Option.bind_some, NumLib.batchPolarizationSweepThermal, hjs,
    if_neg hguard, NumLib.sweepLoop, hv, Option.bind_some, hnext, Option.bind_some,
    hflags]
  simp [NumLib.sweepLoop, hlow]

/-- A test passes a voltage that is no number: no check fires at the current that is none. -/
theorem not_sound : ¬Sound (nanLib noFluidData) nanRequest freshServer := by
  intro h
  obtain ⟨q, p, hsweep, hlow, hohm, hcore⟩ := nan_sweep
  have hpassed : ((nanLib noFluidData).runBatchTest nanRequest freshServer).1.passed = true := by
    rw [NumLib.passed_iff nanRequest freshServer lit_ne_zero.1 lit_ne_zero.2]
    refine ⟨q, [p], 0, hsweep, hlow, fun p' hp' => ?_, rfl⟩
    rw [List.mem_singleton.mp hp', hohm, hcore]
    refine ⟨not_lt_nan, ?_⟩
    simp only [lit_eq, num_lt]
    norm_num
  exact not_isNumber_nan ((h.numbers hpassed).currents nan List.mem_cons_self)

end BatchKernel

end MatrixFactory
