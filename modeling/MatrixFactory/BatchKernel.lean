/-
# The kernels of a batch test

`RunBatchTest` with what it computes: the activities of the gases, the resistances, the voltage of
the stack, and the sweep over the current densities in which the heat of every point moves the
temperatures of the next.  A kernel may raise an exception, and then the test is answered as one
that has not converged.

The numbers are of any type with the operations and comparisons of a float.  What the code takes
from its numerical and fluid libraries is a parameter.
-/
import MatrixFactory.BatchTest

namespace MatrixFactory

namespace BatchKernel

/-- The gases of `real_gas_activity`. -/
inductive Gas
  | h2
  | o2
  deriving DecidableEq

/-- What the code takes from its libraries: the literals, `exp`, `log`, the square root and the
absolute value, the saturation pressure of water, and the compressibility factor of a gas at a
pressure and a temperature.  The last two may raise an exception. -/
structure NumLib (V : Type) where
  lit : ℚ → V
  exp : V → V
  log : V → V
  sqrt : V → V
  abs : V → V
  saturation : V → Option V
  compressibility : Gas → V → V → Option V

/-- The data of the fluid library. -/
structure FluidData (V : Type) where
  saturation : V → Option V
  compressibility : Gas → V → V → Option V

/-- The flags of an answer. -/
def OHMIC_DEGRADATION : ℕ := 0x01
def MASS_TRANSPORT_STARVATION : ℕ := 0x02
def THERMAL_SHUTDOWN : ℕ := 0x04
def LOW_ACTIVATION : ℕ := 0x08
def SOLVER_DID_NOT_CONVERGE : ℕ := 0x10

/-- `BatchTestRequest`; the stack's name is only logged. -/
structure BatchTestRequest (V : Type) where
  numCells : ℤ
  operatingTempK : V
  inletPressureH2Bar : V
  inletPressureO2Bar : V
  currentDensities : List V
  rInternalPenaltyOhmCm2 : V
  activityDerateFraction : V
  rhAnode : V
  ecsaRatio : V
  pClampMpa : V
  gdlPorosity : V
  jLimDerateFraction : V

/-- `BatchTestResponse`. -/
structure BatchTestResponse (V : Type) where
  passed : Bool
  measuredVoltages : List V
  failureFlags : ℕ

/-- The answer where an exception has been raised. -/
def BatchTestResponse.rejection {V : Type} : BatchTestResponse V where
  passed := false
  measuredVoltages := []
  failureFlags := SOLVER_DID_NOT_CONVERGE

/-- What a batch test reads of the server, and the temperatures that it writes.  The resistance and
the number of cells are constants of the server. -/
structure BatchServer (V : Type) where
  numCells : ℤ
  rInternal : ℚ
  tCore : V
  tSkin : V

/-- The result of `calculate_pemfc_voltage`. -/
structure PemfcVoltage (V : Type) where
  vStack : V
  etaAct : V
  etaOhm : V
  etaConc : V
  eOcv : V

/-- The arguments of `batch_polarization_sweep_thermal` that are the same at all points. -/
structure SweepInput (V : Type) where
  tInit : V
  aH2 : V
  aO2 : V
  rInternal : V
  nCells : V
  ecsaRatio : V
  lambdaMem : V
  dt : V
  tCoolant : V
  jLim : V
  model : StackThermalModel V

/-- What the sweep has at a point. -/
structure TestPoint (V : Type) where
  current : V
  voltage : V
  etaOhm : V
  core : V
  skin : V

/-! ## Comparisons -/

section

variable {V : Type} [LT V] [DecidableLT V]

/-- `max` of the language: the first argument unless the second is greater. -/
def pyMax (x y : V) : V := if x < y then y else x

/-- `min` of the language: the first argument unless the second is smaller. -/
def pyMin (x y : V) : V := if y < x then y else x

/-- `np.clip`: what is not below and not above remains. -/
def npClip (x lo hi : V) : V := if x < lo then lo else if hi < x then hi else x

/-- `np.maximum`: what is no number wins. -/
def npMaximum [LE V] [DecidableLE V] (x y : V) : V :=
  if ¬x ≤ x then x else if ¬y ≤ y then y else pyMax x y

/-- Some voltage is above the one before it. -/
def rising [Add V] (margin : V) : List V → Bool
  | v :: w :: rest => v + margin < w ∨ rising margin (w :: rest)
  | _ => false

end

variable {V : Type} [Add V] [Sub V] [Mul V] [Div V] [Neg V] [LT V] [LE V] [DecidableLT V]
  [DecidableLE V] [DecidableEq V]

namespace NumLib

variable (lib : NumLib V)

/-- A division whose divisor is not a constant: by zero it raises an exception. -/
def divide (x y : V) : Option V := if y = lib.lit 0 then none else some (x / y)

/-! ## The gases -/

/-- `water_vapor_partial_pressure`. -/
def waterVaporPartialPressure (tK rh : V) : Option V :=
  let rh := pyMax (lib.lit 0) (pyMin (lib.lit 1) rh)
  if rh = lib.lit 0 then some (lib.lit 0) else (lib.saturation tK).map (· * rh)

/-- `real_gas_activity`, without the fugacity coefficient, which nothing reads. -/
def realGasActivity (pTotalPa tK : V) (gas : Gas) (rh : V) : Option V :=
  (lib.waterVaporPartialPressure tK rh).map fun pVapor =>
    let pPartial := pyMax (lib.lit 0) (pTotalPa - pVapor)
    let phi :=
      if lib.lit 0 < pPartial then (lib.compressibility gas pPartial tK).getD (lib.lit 1)
      else lib.lit 1
    phi * pPartial / lib.lit 1e5

/-! ## The resistances -/

/-- `compute_contact_resistance`; the porosity is not used. -/
def computeContactResistance (pAssemblyMpa _gdlPorosity : V) : V :=
  let pSafe := pyMax (lib.lit 0.5) pAssemblyMpa
  let pDev := lib.abs (pSafe - lib.lit 4.25) / lib.lit 4.25
  let rContact := lib.lit 0.0042 *
    (lib.lit 1 + lib.lit 0.35 * pDev + lib.lit 0.25 * (pDev * pDev))
  pyMax (lib.lit 0) rContact

/-- `_springer_membrane_conductivity`. -/
def springerMembraneConductivity (lambdaVal tK : V) : V :=
  let lambdaClamped := pyMax (lib.lit 1) (pyMin (lib.lit 14) lambdaVal)
  let tSafe := pyMax (lib.lit 250) (pyMin (lib.lit 420) tK)
  let sigma303 := pyMax (lib.lit 1e-4) (lib.lit 0.005139 * lambdaClamped - lib.lit 0.00326)
  let tempScaling :=
    lib.exp (lib.lit 1268 * (lib.lit 1 / lib.lit 303.15 - lib.lit 1 / tSafe))
  sigma303 * tempScaling

/-- `compute_membrane_resistance`. -/
def computeMembraneResistance (lambdaVal tK deltaMemCm : V) : Option V :=
  lib.divide deltaMemCm (lib.springerMembraneConductivity lambdaVal tK)

/-! ## The voltage -/

/-- `_effective_j0`. -/
def effectiveJ0 (j0Ref ecsaRatio t eAct tRef : V) : Option V :=
  (lib.divide eAct (lib.lit 8.314462618 * t)).map fun q =>
    let ecsaClamped := pyMax (lib.lit 1e-4) ecsaRatio
    let arrhenius := lib.exp (-q * (lib.lit 1 - t / tRef))
    j0Ref * ecsaClamped * arrhenius

/-- `calculate_nernst_potential`. -/
def calculateNernstPotential (t aH2 aO2 : V) : Option V :=
  if ¬(lib.lit 0.5 ≤ aH2 ∧ aH2 ≤ lib.lit 10) then none
  else if ¬(lib.lit 0.5 ≤ aO2 ∧ aO2 ≤ lib.lit 10) then none
  else
    some (lib.lit 1.229 - lib.lit 0.85e-3 * (t - lib.lit 298.15) +
      lib.lit 8.314462618 * t / (lib.lit 2 * lib.lit 96485.33212) *
        lib.log (aH2 * lib.sqrt aO2))

/-- The concentration overpotential, with its patch next to the limiting current. -/
def etaConc (ratio penaltySlope : V) : V :=
  if ratio ≤ lib.lit 0.99 then -lib.lit 0.05 * lib.log (lib.lit 1 - ratio)
  else -lib.lit 0.05 * lib.log (lib.lit 0.01) + penaltySlope * (ratio - lib.lit 0.99)

/-- `calculate_pemfc_voltage`. -/
def calculatePemfcVoltage (j t aH2 aO2 rInternal nCells ecsaRatio lambdaMem jLim : V) :
    Option (PemfcVoltage V) :=
  (lib.effectiveJ0 (lib.lit 2.5e-8) ecsaRatio t (lib.lit 68500) (lib.lit 353.15)).bind fun j0 =>
  (lib.calculateNernstPotential t aH2 aO2).bind fun eOcv =>
  (lib.divide (pyMax j (lib.lit 1e-10)) j0).bind fun jRatio =>
  (lib.computeMembraneResistance lambdaMem t (lib.lit 0.005)).bind fun rMem =>
  (lib.divide j jLim).bind fun ratio =>
  (lib.divide (lib.lit 0.05) (jLim * lib.lit 0.01)).map fun penaltySlope =>
    let etaAct := lib.lit 8.314462618 * t / (lib.lit 0.5 * lib.lit 4 * lib.lit 96485.33212) *
      lib.log jRatio
    let etaOhm := j * (rInternal + rMem)
    let etaConc := lib.etaConc ratio penaltySlope
    let vCell := eOcv - etaAct - etaOhm - etaConc
    ⟨nCells * vCell, etaAct, etaOhm, etaConc, eOcv⟩

/-! ## The sweep -/

/-- The bound on the time step of `_thermal_step_jit`. -/
def dtMax (m : StackThermalModel V) : V :=
  lib.lit 2 / pyMax (m.hAInternal / m.cCore) ((m.hAInternal + m.hAExternal) / m.cSkin)

/-- `_thermal_step_jit` with its check. -/
def thermalStepChecked (m : StackThermalModel V) (core skin dt qGen tCoolant : V) :
    Option (V × V) :=
  if lib.dtMax m ≤ dt then none else some (thermalStepJit m core skin dt qGen tCoolant)

/-- The voltage at a point of the sweep. -/
def voltageAt (q : SweepInput V) (j core : V) : Option (PemfcVoltage V) :=
  lib.calculatePemfcVoltage j core q.aH2 q.aO2 q.rInternal q.nCells q.ecsaRatio q.lambdaMem q.jLim

/-- The flags that a point of the sweep adds. -/
def pointFlags (etaOhm core : V) (failure : ℕ) : ℕ :=
  let failure := if lib.lit 0.35 < etaOhm then failure ||| OHMIC_DEGRADATION else failure
  if lib.lit 358.15 < core then failure ||| THERMAL_SHUTDOWN else failure

/-- The loop of `batch_polarization_sweep_thermal`, from the temperatures and the flags of the
points before. -/
def sweepLoop (q : SweepInput V) : List V → V → V → ℕ → Option (List (TestPoint V) × ℕ)
  | [], _, _, failure => some ([], failure)
  | j :: js, core, skin, failure =>
    (lib.voltageAt q j core).bind fun v =>
    (lib.thermalStepChecked q.model core skin q.dt (j * q.nCells * (v.etaAct + v.etaOhm))
      q.tCoolant).bind fun next =>
    (sweepLoop q js next.1 next.2 (lib.pointFlags v.etaOhm core failure)).map fun swept =>
      (⟨j, v.vStack, v.etaOhm, core, skin⟩ :: swept.1, swept.2)

/-- The stack is low on activation. -/
def lowActivation (q : SweepInput V) : Prop :=
  q.ecsaRatio < lib.lit 0.3 ∨ q.aH2 < lib.lit 0.7 ∨ q.aO2 < lib.lit 0.7

instance (q : SweepInput V) : Decidable (lib.lowActivation q) :=
  inferInstanceAs (Decidable (_ ∨ _))

/-- `batch_polarization_sweep_thermal`. -/
def batchPolarizationSweepThermal (q : SweepInput V) (currentDensities : List V) :
    Option (List (TestPoint V) × ℕ) :=
  if ∃ j ∈ currentDensities, q.jLim ≤ j then none
  else
    (lib.sweepLoop q currentDensities q.tInit q.tInit 0).map fun swept =>
      (swept.1, if lib.lowActivation q then swept.2 ||| LOW_ACTIVATION else swept.2)

/-! ## `RunBatchTest` -/

/-- The thermal model of the server. -/
def thermal (s : BatchServer V) : StackThermalModel V where
  cCore := lib.lit 12500
  cSkin := lib.lit 12500
  hAInternal := lib.lit 500
  hAExternal := lib.lit 50
  tCore := s.tCore
  tSkin := s.tSkin

/-- The limiting current that a request stands for. -/
def jLimEffective (r : BatchTestRequest V) : V :=
  let jLimDerate := npClip r.jLimDerateFraction (lib.lit 0) (lib.lit 0.9)
  pyMax (lib.lit 0.2) (lib.lit 2.5 * (lib.lit 1 - jLimDerate))

/-- The current densities of a request, or the default sweep of 12 points. -/
def jValues (r : BatchTestRequest V) : List V :=
  if r.currentDensities ≠ [] then r.currentDensities
  else
    let start := lib.lit 0.05
    let stop := pyMin (lib.lit 2.4) (lib.lit 0.95 * lib.jLimEffective r)
    (List.range 12).map fun i : ℕ => start + lib.lit i * ((stop - start) / lib.lit 11)

/-- The activity of a gas after the derating. -/
def deratedActivity (r : BatchTestRequest V) (raw : V) : V :=
  let derate := npClip r.activityDerateFraction (lib.lit 0) (lib.lit 0.95)
  npClip (npClip raw (lib.lit 0.5) (lib.lit 10) * (lib.lit 1 - derate)) (lib.lit 0.5) (lib.lit 10)

/-- The internal resistance with the penalty of the request and the resistance of its contacts. -/
def rInternalEffective (r : BatchTestRequest V) (s : BatchServer V) : V :=
  let rInternalPenalty := pyMax (lib.lit 0) r.rInternalPenaltyOhmCm2
  let pClampMpa := if r.pClampMpa ≤ lib.lit 0 then lib.lit 4.25 else r.pClampMpa
  let gdlPorosity := if r.gdlPorosity ≤ lib.lit 0 then lib.lit 0.78 else r.gdlPorosity
  lib.lit s.rInternal + rInternalPenalty + lib.computeContactResistance pClampMpa gdlPorosity

/-- The ECSA ratio of a request, or its default. -/
def ecsaRatio (r : BatchTestRequest V) : V :=
  if r.ecsaRatio ≤ lib.lit 0 then lib.lit 1 else r.ecsaRatio

/-- The arguments of the sweep.  A request has no water content of the membrane, so it is 14, and
the chiller's temperature never changes. -/
def sweepInput (r : BatchTestRequest V) (s : BatchServer V) : Option (SweepInput V) :=
  let t := if r.operatingTempK = lib.lit 0 then lib.lit 353.15 else r.operatingTempK
  (lib.realGasActivity (r.inletPressureH2Bar * lib.lit 1e5) t .h2 r.rhAnode).bind fun aH2Raw =>
  (lib.realGasActivity (r.inletPressureO2Bar * lib.lit 1e5) t .o2 (lib.lit 0)).map fun aO2Raw =>
    { tInit := s.tCore
      aH2 := lib.deratedActivity r aH2Raw
      aO2 := lib.deratedActivity r aO2Raw
      rInternal := lib.rInternalEffective r s
      nCells := lib.lit (if r.numCells = 0 then s.numCells else r.numCells)
      ecsaRatio := lib.ecsaRatio r
      lambdaMem := lib.lit 14
      dt := lib.lit 0.5
      tCoolant := lib.lit 298.15
      jLim := lib.jLimEffective r
      model := lib.thermal s }

/-- The sweep of a request, with its arguments. -/
def sweep (r : BatchTestRequest V) (s : BatchServer V) :
    Option (SweepInput V × List (TestPoint V) × ℕ) :=
  (lib.sweepInput r s).bind fun q =>
    (lib.batchPolarizationSweepThermal q (lib.jValues r)).map (q, ·)

/-- The temperatures after the sweep are written. -/
def written (points : List (TestPoint V)) (s : BatchServer V) : BatchServer V :=
  match points.getLast? with
  | none => s
  | some p => { s with tCore := p.core, tSkin := p.skin }

/-- The voltage at the greatest current and the last temperature, at which the thermal model is
validated; the limiting current is the default there. -/
def voltageAtPeak (q : SweepInput V) (js : List V) (points : List (TestPoint V)) :
    Option (PemfcVoltage V) :=
  match js, points.getLast? with
  | j :: js, some p =>
    lib.calculatePemfcVoltage (js.foldl npMaximum j) p.core q.aH2 q.aO2 q.rInternal q.nCells
      q.ecsaRatio q.lambdaMem (lib.lit 2.5)
  | _, _ => none

/-- `RunBatchTest`.  The validation of the thermal model is only logged, and the points of the
sweep are mirrored into the state vector, which raises no exception. -/
def runBatchTest (r : BatchTestRequest V) (s : BatchServer V) :
    BatchTestResponse V × BatchServer V :=
  match lib.sweep r s with
  | none => (.rejection, s)
  | some (q, points, failure) =>
    let s := written points s
    match lib.voltageAtPeak q (lib.jValues r) points with
    | none => (.rejection, s)
    | some _ =>
      let voltages := points.map (·.voltage)
      let flags :=
        if rising (lib.lit 1e-6) voltages then failure ||| MASS_TRANSPORT_STARVATION else failure
      (⟨flags = 0, voltages, flags⟩, s)

/-! ## What the sweep has at its points -/

omit [Add V] [Sub V] [Mul V] [Div V] [Neg V] [LE V] [DecidableLE V] [DecidableEq V] in
theorem pointFlags_eq_zero {etaOhm core : V} {failure : ℕ} :
    lib.pointFlags etaOhm core failure = 0 ↔
      failure = 0 ∧ ¬lib.lit 0.35 < etaOhm ∧ ¬lib.lit 358.15 < core := by
  unfold pointFlags
  split_ifs with hohmic hthermal hthermal
  all_goals simp [OHMIC_DEGRADATION, THERMAL_SHUTDOWN, hohmic, hthermal]

/-- A point of a sweep: the voltage there, and the checks of its flags. -/
structure Computed (q : SweepInput V) (p : TestPoint V) : Prop where
  voltage : ∃ v, lib.voltageAt q p.current p.core = some v ∧ p.voltage = v.vStack ∧
    p.etaOhm = v.etaOhm

variable {lib}

/-- The loop, one point further. -/
theorem sweepLoop_cons {q : SweepInput V} {j core skin : V} {js : List V} {failure flags : ℕ}
    {points : List (TestPoint V)}
    (h : lib.sweepLoop q (j :: js) core skin failure = some (points, flags)) :
    ∃ v next rest, lib.voltageAt q j core = some v ∧
      lib.thermalStepChecked q.model core skin q.dt (j * q.nCells * (v.etaAct + v.etaOhm))
        q.tCoolant = some next ∧
      lib.sweepLoop q js next.1 next.2 (lib.pointFlags v.etaOhm core failure) =
        some (rest, flags) ∧
      points = ⟨j, v.vStack, v.etaOhm, core, skin⟩ :: rest := by
  obtain ⟨v, hv, h⟩ := Option.bind_eq_some_iff.mp h
  obtain ⟨next, hnext, h⟩ := Option.bind_eq_some_iff.mp h
  obtain ⟨⟨rest, flags'⟩, hrest, h⟩ := Option.map_eq_some_iff.mp h
  cases h
  exact ⟨v, next, rest, hv, hnext, hrest, rfl⟩

/-- The first point of the loop has the temperatures that it begins with. -/
theorem sweepLoop_head {q : SweepInput V} {js : List V} {core skin : V} {failure flags : ℕ}
    {points : List (TestPoint V)}
    (h : lib.sweepLoop q js core skin failure = some (points, flags)) (hjs : js ≠ []) :
    ∃ p ∈ points, p.core = core ∧ p.skin = skin := by
  obtain ⟨j, js, rfl⟩ := List.exists_cons_of_ne_nil hjs
  obtain ⟨v, next, rest, -, -, -, rfl⟩ := sweepLoop_cons h
  exact ⟨_, List.mem_cons_self, rfl, rfl⟩

/-- Every point of the loop is computed from its current and its temperature. -/
theorem sweepLoop_computed {q : SweepInput V} {js : List V} {core skin : V} {failure flags : ℕ}
    {points : List (TestPoint V)}
    (h : lib.sweepLoop q js core skin failure = some (points, flags)) :
    points.map (·.current) = js ∧ ∀ p ∈ points, lib.Computed q p := by
  induction js generalizing core skin failure points with
  | nil =>
    cases h
    exact ⟨rfl, nofun⟩
  | cons j js ih =>
    obtain ⟨v, next, rest, hv, -, hrest, rfl⟩ := sweepLoop_cons h
    obtain ⟨hcurrents, hcomputed⟩ := ih hrest
    constructor
    · rw [List.map_cons, hcurrents]
    · intro p hp
      rcases List.mem_cons.mp hp with rfl | hp
      · exact ⟨v, hv, rfl, rfl⟩
      · exact hcomputed p hp

/-- The loop has no flag iff there was none before and no point of it adds one. -/
theorem sweepLoop_flags {q : SweepInput V} {js : List V} {core skin : V} {failure flags : ℕ}
    {points : List (TestPoint V)}
    (h : lib.sweepLoop q js core skin failure = some (points, flags)) :
    flags = 0 ↔ failure = 0 ∧
      ∀ p ∈ points, ¬lib.lit 0.35 < p.etaOhm ∧ ¬lib.lit 358.15 < p.core := by
  induction js generalizing core skin failure points with
  | nil =>
    cases h
    simp
  | cons j js ih =>
    obtain ⟨v, next, rest, -, -, hrest, rfl⟩ := sweepLoop_cons h
    rw [ih hrest, pointFlags_eq_zero, List.forall_mem_cons]
    constructor
    · rintro ⟨⟨hfailure, hpoint⟩, hpoints⟩
      exact ⟨hfailure, hpoint, hpoints⟩
    · rintro ⟨hfailure, hpoint, hpoints⟩
      exact ⟨⟨hfailure, hpoint⟩, hpoints⟩

/-- Whether the voltage can be computed does not depend on the current, nor on a limiting current
that is not zero. -/
theorem calculatePemfcVoltage_isSome {j j' t aH2 aO2 rInternal nCells ecsaRatio lambdaMem jLim
    jLim' : V} (h : (lib.calculatePemfcVoltage j t aH2 aO2 rInternal nCells ecsaRatio lambdaMem
      jLim).isSome)
    (hlim : jLim' ≠ lib.lit 0) (hslope : jLim' * lib.lit 0.01 ≠ lib.lit 0) :
    (lib.calculatePemfcVoltage j' t aH2 aO2 rInternal nCells ecsaRatio lambdaMem jLim').isSome := by
  obtain ⟨v, h⟩ := Option.isSome_iff_exists.mp h
  obtain ⟨j0, hj0, h⟩ := Option.bind_eq_some_iff.mp h
  obtain ⟨eOcv, heOcv, h⟩ := Option.bind_eq_some_iff.mp h
  obtain ⟨jRatio, hjRatio, h⟩ := Option.bind_eq_some_iff.mp h
  obtain ⟨rMem, hrMem, -⟩ := Option.bind_eq_some_iff.mp h
  have hne : j0 ≠ lib.lit 0 := by
    intro hzero
    rw [divide, if_pos hzero] at hjRatio
    cases hjRatio
  simp only [calculatePemfcVoltage, hj0, heOcv, hrMem, Option.bind_some, divide, if_neg hne,
    if_neg hlim, if_neg hslope, Option.map_some, Option.isSome_some]

/-! ## The answer -/

/-- A sweep that is not refused has its arguments and its points. -/
theorem sweep_eq_some {r : BatchTestRequest V} {s : BatchServer V} {q : SweepInput V}
    {points : List (TestPoint V)} {flags : ℕ} (h : lib.sweep r s = some (q, points, flags)) :
    lib.sweepInput r s = some q ∧ (∀ j ∈ lib.jValues r, ¬q.jLim ≤ j) ∧ ∃ failure,
      lib.sweepLoop q (lib.jValues r) q.tInit q.tInit 0 = some (points, failure) ∧
      flags = if lib.lowActivation q then failure ||| LOW_ACTIVATION else failure := by
  obtain ⟨q', hq, h⟩ := Option.bind_eq_some_iff.mp h
  obtain ⟨⟨points', flags'⟩, hsweep, h⟩ := Option.map_eq_some_iff.mp h
  cases h
  by_cases hlim : ∃ j ∈ lib.jValues r, q.jLim ≤ j
  · rw [batchPolarizationSweepThermal, if_pos hlim] at hsweep
    cases hsweep
  · rw [batchPolarizationSweepThermal, if_neg hlim] at hsweep
    obtain ⟨⟨points', failure⟩, hloop, h⟩ := Option.map_eq_some_iff.mp hsweep
    cases h
    exact ⟨hq, fun j hj hle => hlim ⟨j, hj, hle⟩, failure, hloop, rfl⟩

/-- **The sweep has no flag** iff no check fires. -/
theorem sweep_flags {r : BatchTestRequest V} {s : BatchServer V} {q : SweepInput V}
    {points : List (TestPoint V)} {flags : ℕ} (h : lib.sweep r s = some (q, points, flags)) :
    flags = 0 ↔ ¬lib.lowActivation q ∧
      ∀ p ∈ points, ¬lib.lit 0.35 < p.etaOhm ∧ ¬lib.lit 358.15 < p.core := by
  obtain ⟨-, -, failure, hloop, rfl⟩ := sweep_eq_some h
  have hflags := sweepLoop_flags hloop
  split_ifs with hlow
  · simp [LOW_ACTIVATION, hlow]
  · rw [hflags]
    simp [hlow]

omit [Neg V] [LE V] [DecidableLE V] [DecidableEq V] in
theorem jValues_ne_nil (r : BatchTestRequest V) : lib.jValues r ≠ [] := by
  by_cases h : r.currentDensities ≠ []
  · rw [jValues, if_pos h]
    exact h
  · rw [jValues, if_neg h]
    exact nofun

/-- What has been computed at every point can be computed at the peak. -/
theorem voltageAtPeak_isSome {r : BatchTestRequest V} {s : BatchServer V} {q : SweepInput V}
    {points : List (TestPoint V)} {flags : ℕ} (h : lib.sweep r s = some (q, points, flags))
    (hlim : lib.lit 2.5 ≠ lib.lit 0) (hslope : lib.lit 2.5 * lib.lit 0.01 ≠ lib.lit 0) :
    (lib.voltageAtPeak q (lib.jValues r) points).isSome := by
  obtain ⟨-, -, failure, hloop, -⟩ := sweep_eq_some h
  obtain ⟨hcurrents, hcomputed⟩ := sweepLoop_computed hloop
  obtain ⟨j, js, hjs⟩ := List.exists_cons_of_ne_nil (lib.jValues_ne_nil r)
  have hpoints : points ≠ [] := by
    rintro rfl
    rw [hjs] at hcurrents
    cases hcurrents
  obtain ⟨v, hv, -⟩ := (hcomputed _ (List.getLast_mem hpoints)).voltage
  unfold voltageAtPeak
  rw [hjs, List.getLast?_eq_some_getLast hpoints]
  exact calculatePemfcVoltage_isSome (Option.isSome_iff_exists.mpr ⟨v, hv⟩) hlim hslope

/-- **When a test is passed**: its sweep is not refused, no check of the sweep fires and no voltage
rises. -/
theorem passed_iff (r : BatchTestRequest V) (s : BatchServer V) (hlim : lib.lit 2.5 ≠ lib.lit 0)
    (hslope : lib.lit 2.5 * lib.lit 0.01 ≠ lib.lit 0) :
    (lib.runBatchTest r s).1.passed = true ↔ ∃ q points flags,
      lib.sweep r s = some (q, points, flags) ∧ ¬lib.lowActivation q ∧
        (∀ p ∈ points, ¬lib.lit 0.35 < p.etaOhm ∧ ¬lib.lit 358.15 < p.core) ∧
        rising (lib.lit 1e-6) (points.map (·.voltage)) = false := by
  rcases hsweep : lib.sweep r s with _ | ⟨q, points, flags⟩
  · simp [runBatchTest, hsweep, BatchTestResponse.rejection]
  · obtain ⟨v, hpeak⟩ := Option.isSome_iff_exists.mp (voltageAtPeak_isSome hsweep hlim hslope)
    have hpassed : (lib.runBatchTest r s).1.passed = true ↔
        flags = 0 ∧ rising (lib.lit 1e-6) (points.map (·.voltage)) = false := by
      simp only [runBatchTest, hsweep, hpeak, decide_eq_true_eq]
      split_ifs with hrising
      · simp [hrising, MASS_TRANSPORT_STARVATION]
      · simp [hrising]
    rw [hpassed, sweep_flags hsweep]
    constructor
    · rintro ⟨⟨hlow, hpoints⟩, hrising⟩
      exact ⟨q, points, flags, rfl, hlow, hpoints, hrising⟩
    · rintro ⟨q', points', flags', heq, hlow, hpoints, hrising⟩
      cases heq
      exact ⟨⟨hlow, hpoints⟩, hrising⟩

/-- **A rejection leaves the server as it was**: the temperatures are written only where nothing
is left that raises an exception. -/
theorem rejection_unaltered (r : BatchTestRequest V) (s : BatchServer V)
    (hlim : lib.lit 2.5 ≠ lib.lit 0) (hslope : lib.lit 2.5 * lib.lit 0.01 ≠ lib.lit 0)
    (h : (lib.runBatchTest r s).1 = .rejection) : (lib.runBatchTest r s).2 = s := by
  rcases hsweep : lib.sweep r s with _ | ⟨q, points, flags⟩
  · simp [runBatchTest, hsweep]
  · obtain ⟨v, hpeak⟩ := Option.isSome_iff_exists.mp (voltageAtPeak_isSome hsweep hlim hslope)
    obtain ⟨-, -, failure, hloop, -⟩ := sweep_eq_some hsweep
    obtain ⟨hcurrents, -⟩ := sweepLoop_computed hloop
    -- an answer that is computed has a voltage for every current density
    have hvoltages := congrArg BatchTestResponse.measuredVoltages h
    simp only [runBatchTest, hsweep, hpeak, BatchTestResponse.rejection, List.map_eq_nil_iff]
      at hvoltages
    rw [hvoltages] at hcurrents
    exact absurd hcurrents.symm (lib.jValues_ne_nil r)

end NumLib

end BatchKernel

end MatrixFactory
