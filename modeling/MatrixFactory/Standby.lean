/-
# The temperatures in standby

`AdvanceTime` while no current flows: a heater keeps the core at its standby temperature, the skin
takes up what the core gives off and the coolant what the skin does.

The distances between the coolant, the skin, the core and the standby temperature are never
negative, whatever the steps in time are: each step takes a share of a distance away and adds
shares of the others.
-/
import MatrixFactory.RealKernel
import MatrixFactory.Lib.Numerals

namespace MatrixFactory

open Runs
open scoped Numerals

namespace BatchKernel

/-- What `AdvanceTime` reads of the server, with the power of the compressor, which nothing here
reads. -/
structure AdvanceParams (V : Type) where
  numCells : ℤ
  rInternal : ℚ
  compressorPower : V → V

namespace NumLib

variable {V R : Type} [Add V] [Sub V] [Mul V] [Div V] [Neg V] [LT V] [LE V] [DecidableLT V]
  [DecidableLE V] [DecidableEq V] (lib : NumLib V) (p : AdvanceParams V)

/-- `calculate_cathode_air_flow_rate`. -/
def calculateCathodeAirFlowRate (iTotal nCells lambdaAir : V) : V :=
  let iSafe := pyMax (lib.lit 0) iTotal
  let lamSafe := pyMax (lib.lit 1) lambdaAir
  let nO2MolesSec := nCells * iSafe / (lib.lit 4 * lib.lit 96485.33212)
  lamSafe * nO2MolesSec * (lib.lit 0.02897 / lib.lit 0.21)

/-- The air flow of `AdvanceTime`. -/
def airFlow (jCurr : V) : V :=
  lib.calculateCathodeAirFlowRate (jCurr * lib.lit 300) (lib.lit p.numCells) (lib.lit 2)

/-- The voltage that `AdvanceTime` computes, from the current density as it is read and as it is
used. -/
def advanceVoltage (jCurr j core tank : V) : Option (PemfcVoltage V) :=
  let aO2 := npClip (lib.lit 1 + lib.airFlow p jCurr * lib.lit 10) (lib.lit 0.5) (lib.lit 10)
  let aH2 := npClip tank (lib.lit 0.5) (lib.lit 10)
  lib.calculatePemfcVoltage j core aH2 aO2 (lib.lit p.rInternal) (lib.lit p.numCells) (lib.lit 1)
    (lib.lit 14) (lib.lit 2.5)

/-- The heat of `AdvanceTime`, with that of the heater. -/
def advanceHeat (jCurr j core tank : V) : Option V :=
  (lib.advanceVoltage p jCurr j core tank).map fun v =>
    let qGen := j * (v.etaAct + v.etaOhm)
    if core < lib.lit 353.15 then
      qGen + pyMin (lib.lit 5000) ((lib.lit 353.15 - core) * lib.lit 1000)
    else qGen

/-- The kernels of `AdvanceTime`. -/
def advanceEnv (env : BatchEnv V R) : BatchEnv V R :=
  { env with
    zero := lib.lit 0
    tiny := fun j => j < lib.lit 1e-10
    heat := fun jCurr j core tank => (lib.advanceHeat p jCurr j core tank).getD (lib.lit 0)
    power := fun jCurr => p.compressorPower (lib.airFlow p jCurr) }

/-- The current density that `AdvanceTime` uses. -/
def advanceCurrent (j : V) : V := if j < lib.lit 1e-10 then lib.lit 0 else j

/-- An exception comes from the kernels only. -/
def advanceOutcome (s : ThermoState V) : AdvanceOutcome :=
  if (lib.advanceHeat p s.stackCurrentACm2 (lib.advanceCurrent s.stackCurrentACm2)
    s.stackCoreTempK s.h2TankPressureBar).isSome then .done else .failedAfterCurrent

/-- `AdvanceTime` with its kernels. -/
def advance (env : BatchEnv V R) (dt : V) (s : SimBridge V R) : SimBridge V R :=
  s.advanceTime (lib.advanceEnv p env) dt (lib.advanceOutcome p s.state)

end NumLib

variable {R : Type} {fluid : FluidData ℝ}

/-- The model after the start. -/
noncomputable def standbyModel : StackThermalModel ℝ where
  cCore := 12500
  cSkin := 12500
  hAInternal := 500
  hAExternal := 50
  tCore := 353.15
  tSkin := 353.15

/-- The vector after the start; `start` puts the temperatures of the stack. -/
noncomputable def standbyVector : ThermoState ℝ where
  h2TankPressureBar := 3
  chillerTempK := 298.15
  compressorPowerKw := 0
  stackVoltageV := 0
  stackCurrentACm2 := 0
  stackTempK := 0
  stackCoreTempK := 0
  stackSkinTempK := 0

/-- The server after its start. -/
noncomputable def standbyStart : SimBridge ℝ R := SimBridge.start standbyModel standbyVector

/-- The parameters of the model, which never change. -/
structure StandbyParameters (m : StackThermalModel ℝ) : Prop where
  cCore : m.cCore = 12500
  cSkin : m.cSkin = 12500
  hAInternal : m.hAInternal = 500
  hAExternal : m.hAExternal = 50

/-- The coolant, the skin, the core and the standby temperature in their order, while no current
flows. -/
structure Standby (s : SimBridge ℝ R) : Prop where
  parameters : StandbyParameters s.thermal
  current : s.state.stackCurrentACm2 = 0
  coolant : s.state.chillerTempK = 298.15
  core : s.state.stackCoreTempK = s.thermal.tCore
  coolant_le : s.state.chillerTempK ≤ s.thermal.tSkin
  skin_le : s.thermal.tSkin ≤ s.thermal.tCore
  core_le : s.thermal.tCore ≤ 353.15

theorem standby_start : Standby (standbyStart (R := R)) := by
  have hcold : (298.15 : ℝ) ≤ 353.15 := by norm_num
  exact ⟨⟨rfl, rfl, rfl, rfl⟩, rfl, rfl, rfl, hcold, le_rfl, le_rfl⟩

/-- The heat of the heater. -/
noncomputable def heaterPower (core : ℝ) : ℝ :=
  if core < 353.15 then min 5000 ((353.15 - core) * 1000) else 0

theorem heaterPower_nonneg (core : ℝ) : 0 ≤ heaterPower core := by
  unfold heaterPower
  split_ifs with h
  · exact le_min (by norm_num) (mul_nonneg (by linarith) (by norm_num))
  · exact le_rfl

theorem heaterPower_le {core : ℝ} (h : core ≤ 353.15) :
    heaterPower core ≤ (353.15 - core) * 1000 := by
  unfold heaterPower
  split_ifs
  · exact min_le_right _ _
  · exact mul_nonneg (sub_nonneg.mpr h) (by norm_num)

/-- Without a current the heat is that of the heater, and no kernel raises an exception. -/
theorem advanceHeat_zero (p : AdvanceParams ℝ) {core : ℝ} (hcore : 0 < core) (tank : ℝ) :
    (realLib fluid).advanceHeat p 0 0 core tank = some (heaterPower core) := by
  have hbounds : ∀ x : ℝ, ActivityBounds (npClip x 0.5 10) :=
    fun x => npClip_mem (by norm_num)
  have hlit : (realLib fluid).lit 0.5 = 0.5 ∧ (realLib fluid).lit 10 = 10 ∧
      (realLib fluid).lit 2.5 = 2.5 ∧ (realLib fluid).lit 353.15 = 353.15 ∧
      (realLib fluid).lit 5000 = 5000 ∧ (realLib fluid).lit 1000 = 1000 := by
    simp only [realLib]
    push_cast
    exact ⟨rfl, rfl, rfl, rfl, rfl, rfl⟩
  have hlimit : (0 : ℝ) < 2.5 := by norm_num
  obtain ⟨v, hv⟩ : ∃ v, (realLib fluid).advanceVoltage p 0 0 core tank = some v := by
    simp only [NumLib.advanceVoltage, hlit]
    obtain ⟨e, j0, rMem, -, -, -, hvoltage⟩ := calculatePemfcVoltage_real fluid
      hcore (hbounds tank)
      (hbounds ((realLib fluid).lit 1 + (realLib fluid).airFlow p 0 * 10)) hlimit
      ((realLib fluid).lit p.rInternal) ((realLib fluid).lit p.numCells) ((realLib fluid).lit 1)
      ((realLib fluid).lit 14)
    exact ⟨_, hvoltage 0⟩
  simp only [NumLib.advanceHeat, hv, Option.map_some, hlit, zero_mul, zero_add, pyMin_real,
    heaterPower]

/-- A step in time takes the share `k` of a distance away at most, and gives to it. -/
theorem distance_nonneg {x k e dt : ℝ} (hx : 0 ≤ x) (hdt : 0 ≤ dt) (hk : k * dt ≤ 1)
    (he : -(k * x) ≤ e) : 0 ≤ x + dt * e := by
  have hshare : 0 ≤ (1 - k * dt) * x := mul_nonneg (sub_nonneg.mpr hk) hx
  have hgain : dt * -(k * x) ≤ dt * e := mul_le_mul_of_nonneg_left he hdt
  linarith

/-- **One step keeps the order.** -/
theorem Standby.advance (p : AdvanceParams ℝ) (env : BatchEnv ℝ R) {dt : ℝ} (hlo : 0.01 ≤ dt)
    (hhi : dt ≤ 1) {s : SimBridge ℝ R} (h : Standby s) :
    Standby ((realLib fluid).advance p env dt s) := by
  obtain ⟨⟨hcCore, hcSkin, hInt, hExt⟩, hcurrent, hcoolant, hcore, hcoolantLe, hskinLe, hcoreLe⟩ :=
    h
  have hcoreLo : 298.15 ≤ s.thermal.tCore := by
    rw [← hcoolant]
    exact hcoolantLe.trans hskinLe
  have hzero : (realLib fluid).lit 0 = 0 := Rat.cast_zero
  have hj : (if (0 : ℝ) < (realLib fluid).lit 1e-10 then (realLib fluid).lit 0 else 0) = 0 := by
    rw [hzero, ite_self]
  have hheat : (realLib fluid).advanceHeat p 0 0 s.thermal.tCore s.state.h2TankPressureBar =
      some (heaterPower s.thermal.tCore) :=
    advanceHeat_zero p (lt_of_lt_of_le (by norm_num) hcoreLo) _
  have houtcome : (realLib fluid).advanceOutcome p s.state = .done := by
    simp only [NumLib.advanceOutcome, NumLib.advanceCurrent, hcurrent, hcore, hj, hheat,
      Option.isSome_some, if_true]
  have hnonneg := heaterPower_nonneg s.thermal.tCore
  have hle := heaterPower_le hcoreLe
  have hdt : 0 ≤ dt := by linarith
  have hthermal : ((realLib fluid).advance p env dt s).thermal =
      s.thermal.step dt (heaterPower s.thermal.tCore) 298.15 := by
    simp only [NumLib.advance, SimBridge.advanceTime, houtcome, NumLib.advanceEnv, hcurrent, hcore,
      hcoolant, decide_eq_true_eq, hj, hheat, Option.getD_some]
  have hvector : ((realLib fluid).advance p env dt s).state.stackCurrentACm2 = 0 ∧
      ((realLib fluid).advance p env dt s).state.chillerTempK = 298.15 ∧
      ((realLib fluid).advance p env dt s).state.stackCoreTempK =
        ((realLib fluid).advance p env dt s).thermal.tCore := by
    simp only [NumLib.advance, SimBridge.advanceTime, houtcome, NumLib.advanceEnv, hcurrent,
      hcoolant, decide_eq_true_eq, hj, and_self]
  -- the distances, from the coolant upwards
  have hcoolant' : 0 ≤ s.thermal.tSkin - 298.15 + dt *
      ((500 * (s.thermal.tCore - s.thermal.tSkin) - 50 * (s.thermal.tSkin - 298.15)) / 12500) :=
    distance_nonneg (k := 1 / 250) (by linarith) hdt (by linarith) (by linarith)
  have hskin' : 0 ≤ s.thermal.tCore - s.thermal.tSkin + dt *
      ((heaterPower s.thermal.tCore - 500 * (s.thermal.tCore - s.thermal.tSkin)) / 12500 -
        (500 * (s.thermal.tCore - s.thermal.tSkin) - 50 * (s.thermal.tSkin - 298.15)) / 12500) :=
    distance_nonneg (k := 2 / 25) (by linarith) hdt (by linarith) (by linarith)
  have hcore' : 0 ≤ 353.15 - s.thermal.tCore + dt *
      -((heaterPower s.thermal.tCore - 500 * (s.thermal.tCore - s.thermal.tSkin)) / 12500) :=
    distance_nonneg (k := 2 / 25) (by linarith) hdt (by linarith) (by linarith)
  refine ⟨?_, hvector.1, hvector.2.1, hvector.2.2, ?_, ?_, ?_⟩
  · rw [hthermal]
    exact ⟨hcCore, hcSkin, hInt, hExt⟩
  · rw [hthermal, hvector.2.1]
    simp only [StackThermalModel.step, hcSkin, hInt, hExt]
    linarith
  · rw [hthermal]
    simp only [StackThermalModel.step, hcCore, hcSkin, hInt, hExt]
    linarith
  · rw [hthermal]
    simp only [StackThermalModel.step, hcCore, hInt]
    linarith

/-- **After every call of `AdvanceTime` without a current, whatever the steps in time, the coolant
is not warmer than the skin, the skin not than the core, and the core not than in standby.** -/
theorem standby_ordered (p : AdvanceParams ℝ) (env : BatchEnv ℝ R) (dts : List ℝ)
    (hdts : ∀ dt ∈ dts, 0.01 ≤ dt ∧ dt ≤ 1) :
    let s := run ((realLib fluid).advance p env) dts standbyStart
    s.state.stackCurrentACm2 = 0 ∧ s.state.chillerTempK ≤ s.thermal.tSkin ∧
      s.thermal.tSkin ≤ s.thermal.tCore ∧ s.thermal.tCore ≤ 353.15 := by
  have hrun : Standby (run ((realLib fluid).advance p env) dts standbyStart) :=
    run_invariant (C := fun _ dt => 0.01 ≤ dt ∧ dt ≤ 1)
      (fun _ _ h hdt => h.advance p env hdt.1 hdt.2) standby_start
      (along_of_forall fun _ dt hmem => hdts dt hmem)
  exact ⟨hrun.current, hrun.coolant_le, hrun.skin_le, hrun.core_le⟩

/-- A server whose batch tests have one point. -/
noncomputable def onePointEnv : BatchEnv ℝ Unit where
  zero := 0
  half := 0.5
  tiny _ := false
  heat _ _ _ _ := 0
  power _ := 0
  jValues _ := [0]
  jValues_ne_nil _ := List.cons_ne_nil _ _
  voltage _ _ _ := 0
  sweepHeat _ _ _ := 0
  sweepDt := 0.5

/-- Two steps, the shortest and the longest. -/
theorem standby_ordered_two :
    let s := run ((realLib noFluids).advance ⟨200, 0.1, fun x => x⟩ onePointEnv) [0.01, 1]
      standbyStart
    s.state.stackCurrentACm2 = 0 ∧ s.state.chillerTempK ≤ s.thermal.tSkin ∧
      s.thermal.tSkin ≤ s.thermal.tCore ∧ s.thermal.tCore ≤ 353.15 := by
  refine standby_ordered _ _ [0.01, 1] ?_
  intro dt hdt
  rw [List.mem_pair] at hdt
  obtain rfl | rfl := hdt
  · norm_num
  · norm_num

end BatchKernel

end MatrixFactory
