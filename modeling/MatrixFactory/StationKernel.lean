/-
# The processes of the stations

The physics server computes what a run of a station comes to: the cure of a hot-pressed membrane
(Station 1), the coating of the catalyst (Station 2), the wear of a die and the damage of a plate
(Station 3), and the clamping of a stack (Station 4).  `SimulateStationProcess` puts the defaults
for what a request does not have, and a kernel checks its arguments before it computes.

The numbers are of any type with the operations and comparisons of a float; what the code takes
from its numerical library is a parameter.
-/
import MatrixFactory.BatchKernel
import MatrixFactory.Lib.Numerals
import Mathlib.Logic.Function.Iterate

namespace MatrixFactory

open scoped Numerals

namespace StationKernel

open BatchKernel (pyMax pyMin)

/-- What the kernels take from the numerical library. -/
structure StationLib (V : Type) where
  lit : ℚ → V
  pi : V
  exp : V → V
  cos : V → V
  sqrt : V → V
  abs : V → V
  pow : V → V → V

/-- The parameters of a request, one of four kinds; what is `none` was not set. -/
inductive StationParams (V : Type)
  | station1 (tPressK dwellTimeS : Option V)
  | station2 (vCoatMS muSlurryPaS : Option V)
  | station3 (pressForceKn : Option V) (dieStrokeCount : Option ℤ) (w0InitialWear : Option V)
      (useDuplexCoating : Option Bool)
  | station4 (appliedTorquesNm frictionCoefficients : List V)

/-- `StationProcessRequest`, less the name of the order, which is only logged. -/
structure StationProcessRequest (V : Type) where
  stationId : String
  kTime : V
  params : Option (StationParams V)

/-- `StationProcessResponse`; what a station does not measure is zero. -/
structure StationProcessResponse (V : Type) where
  procTimeS : V
  isDefective : Bool
  varRatio : V
  alphaFinal : V
  delaminationRisk : V
  pinholeRisk : V
  ecsaRatio : V
  damageIndex : V
  gdlPorosity : V
  eTangentMpa : V
  pClampMpa : V

/-- The checks that raise an exception. -/
inductive StationError (V : Type)
  | tPressTooLow (tPressK : V)
  | dwellTimeNotPositive (dwellTimeS : V)
  | vCoatNotPositive (vCoatMS : V)
  | muSlurryNotPositive (muSlurryPaS : V)
  | pressForceNegative (pressForceKn : V)
  | dieStrokeCountNegative (dieStrokeCount : ℤ)
  | w0OutOfRange (w0InitialWear : V)
  | torquesShape (length : ℕ)
  | frictionsShape (length : ℕ)
  | negativeTorque
  | unsupported (stationId : String)

variable {V : Type} [Add V] [Sub V] [Mul V] [Div V] [Neg V] [LT V] [LE V] [DecidableLT V]
  [DecidableLE V] [DecidableEq V]

namespace StationLib

variable (lib : StationLib V)

/-- A response in which nothing is measured. -/
def response (procTimeS : V) (isDefective : Bool) (varRatio : V) : StationProcessResponse V where
  procTimeS := procTimeS
  isDefective := isDefective
  varRatio := varRatio
  alphaFinal := lib.lit 0
  delaminationRisk := lib.lit 0
  pinholeRisk := lib.lit 0
  ecsaRatio := lib.lit 0
  damageIndex := lib.lit 0
  gdlPorosity := lib.lit 0
  eTangentMpa := lib.lit 0
  pClampMpa := lib.lit 0

/-! ## Station 1: the cure of a membrane -/

/-- `K_i`, the rate of a reaction at a temperature. -/
def arrhenius (a e tPressK : V) : V := a * lib.exp (-e / (lib.lit 8.3145 * tPressK))

/-- `rate`. -/
def rate (k1 k2 a : V) : V :=
  let aClamped := pyMax (lib.lit 0) (pyMin (lib.lit 0.9999) a)
  let term2 :=
    if lib.lit 1e-6 < aClamped then k2 * lib.pow aClamped (lib.lit 0.48) else lib.lit 0
  (k1 + term2) * lib.pow (lib.lit 1 - aClamped) (lib.lit 1.52)

/-- A step of the loop of `integrate_kamal_sourour`. -/
def cureStep (dt k1 k2 alpha : V) : V :=
  let rk1 := lib.rate k1 k2 alpha
  let rk2 := lib.rate k1 k2 (alpha + lib.lit 0.5 * dt * rk1)
  let rk3 := lib.rate k1 k2 (alpha + lib.lit 0.5 * dt * rk2)
  let rk4 := lib.rate k1 k2 (alpha + dt * rk3)
  let alpha := alpha + dt / lib.lit 6 * (rk1 + lib.lit 2 * rk2 + lib.lit 2 * rk3 + rk4)
  pyMax (lib.lit 0) (pyMin (lib.lit 0.9999) alpha)

/-- `integrate_kamal_sourour`, after some of its steps. -/
def cureAfter (tPressK dwellTimeS : V) (nSteps i : ℕ) : V :=
  let dt := dwellTimeS / lib.lit nSteps
  let k1 := lib.arrhenius (lib.lit 1.2e4) (lib.lit 58.2e3) tPressK
  let k2 := lib.arrhenius (lib.lit 5.5e6) (lib.lit 68.5e3) tPressK
  (lib.cureStep dt k1 k2)^[i] (lib.lit 0)

/-- `integrate_kamal_sourour`. -/
def integrateKamalSourour (tPressK dwellTimeS : V) : V := lib.cureAfter tPressK dwellTimeS 100 100

/-- `simulate_stage1_mea_prep`. -/
def simulateStage1MeaPrep (tPressK dwellTimeS kTime : V) : StationProcessResponse V :=
  let alphaFinal := lib.integrateKamalSourour tPressK dwellTimeS
  let delaminationRisk := pyMax (lib.lit 0) (lib.lit 0.85 - alphaFinal) / lib.lit 0.85
  let pinholeRisk :=
    pyMax (lib.lit 0) (alphaFinal - lib.lit 0.98) / (lib.lit 1 - lib.lit 0.98)
  let isDefective := decide (alphaFinal < lib.lit 0.85 ∨ lib.lit 0.98 < alphaFinal)
  let tempDev := lib.abs (tPressK - lib.lit 433.15) / lib.lit 433.15
  let dwellDev := lib.abs (dwellTimeS - lib.lit 180) / lib.lit 180
  let procTimeS := kTime * lib.lit 5 *
    (lib.lit 1 + lib.lit 0.15 * tempDev + lib.lit 0.10 * dwellDev)
  let varRatio := lib.lit 1 + lib.lit 0.30 * delaminationRisk + lib.lit 0.25 * pinholeRisk
  { lib.response procTimeS isDefective varRatio with
    alphaFinal := alphaFinal
    delaminationRisk := delaminationRisk
    pinholeRisk := pinholeRisk }

/-- `simulate_stage1_mea_prep_safe`. -/
def simulateStage1MeaPrepSafe (tPressK dwellTimeS kTime : V) :
    Except (StationError V) (StationProcessResponse V) :=
  if tPressK < lib.lit 273.15 then .error (.tPressTooLow tPressK)
  else if dwellTimeS ≤ lib.lit 0 then .error (.dwellTimeNotPositive dwellTimeS)
  else .ok (lib.simulateStage1MeaPrep tPressK dwellTimeS kTime)

/-! ## Station 2: the coating of the catalyst -/

/-- `loading_variance`, from the deviations of the speed and of the viscosity. -/
def loadingVariance (vDev muDev : V) : V :=
  lib.lit 0.35 * (vDev * vDev) + lib.lit 0.25 * (muDev * muDev) + lib.lit 0.15 * vDev * muDev

/-- `simulate_stage2_catalyst_deposition`. -/
def simulateStage2CatalystDeposition (vCoatMS muSlurryPaS kTime : V) : StationProcessResponse V :=
  let vDev := lib.abs (vCoatMS - lib.lit 0.15) / lib.lit 0.15
  let muDev := lib.abs (muSlurryPaS - lib.lit 0.050) / lib.lit 0.050
  let loadingVariance := lib.loadingVariance vDev muDev
  let ecsaRatioRaw := lib.lit 1 - lib.lit 0.45 * loadingVariance - lib.lit 0.20 * vDev
  let ecsaRatio := pyMax (lib.lit 0.10) (pyMin (lib.lit 1.00) ecsaRatioRaw)
  let isDefective := decide (ecsaRatio < lib.lit 0.70 ∨ lib.lit 0.30 < loadingVariance)
  let procTimeS := kTime * lib.lit 12 * (lib.lit 1 + lib.lit 0.12 * vDev + lib.lit 0.10 * muDev)
  let varRatio := lib.lit 1 + lib.lit 0.40 * loadingVariance
  { lib.response procTimeS isDefective varRatio with ecsaRatio := ecsaRatio }

/-- `simulate_stage2_catalyst_deposition_safe`. -/
def simulateStage2CatalystDepositionSafe (vCoatMS muSlurryPaS kTime : V) :
    Except (StationError V) (StationProcessResponse V) :=
  if vCoatMS ≤ lib.lit 0 then .error (.vCoatNotPositive vCoatMS)
  else if muSlurryPaS ≤ lib.lit 0 then .error (.muSlurryNotPositive muSlurryPaS)
  else .ok (lib.simulateStage2CatalystDeposition vCoatMS muSlurryPaS kTime)

/-! ## Station 3: the stamping of a plate -/

/-- `wear_ratio`, by Archard's law. -/
def wearRatio (pressForceKn : V) (dieStrokeCount : ℤ) (w0InitialWear : V)
    (useDuplexCoating : Bool) : V :=
  let kWear := if useDuplexCoating then lib.lit 1.47e-10 else lib.lit 3.50e-6
  let wearRaw := w0InitialWear + kWear * lib.lit dieStrokeCount *
    lib.pow (pressForceKn / lib.lit 120) (lib.lit 1.35)
  pyMin (lib.lit 0.99999) (pyMax (lib.lit 0) wearRaw)

/-- `A_TOTAL_CHANNELS_M2`. -/
def aTotalChannelsM2 : V :=
  lib.lit 60 * (lib.lit 1 * lib.lit 1e-3 * (lib.lit 20 * lib.lit 1e-3))

/-- `sigma_1_mpa`, the stress in a plate. -/
def sigma1Mpa (pressForceKn wearRatio epsPFinal : V) : V :=
  let muLocal := lib.lit 0.12 + lib.lit 0.45 * wearRatio
  let sigmaMemMpa := pressForceKn * lib.lit 1000 / lib.aTotalChannelsM2 / lib.lit 1e6
  let sigmaFlowMpa := lib.lit 1280 * lib.pow (pyMax epsPFinal (lib.lit 1e-6)) (lib.lit 0.43)
  sigmaMemMpa * lib.exp (muLocal * (lib.lit 10 * (lib.pi / lib.lit 180))) + sigmaFlowMpa

/-- `damage_index`. -/
def damageIndex (pressForceKn wearRatio : V) : V :=
  let epsPFinal := lib.lit 0.1456 * (pressForceKn / lib.lit 120)
  let sigma1Mpa := lib.sigma1Mpa pressForceKn wearRatio epsPFinal
  let damageNcl :=
    if lib.lit 1e-4 < epsPFinal then
      sigma1Mpa / lib.lit 1280 * lib.pow epsPFinal (lib.lit 1 - lib.lit 0.43) /
        (lib.lit 1 - lib.lit 0.43) / lib.lit 0.35
    else lib.lit 0
  pyMin (lib.lit 2) (pyMax (lib.lit 0) damageNcl)

/-- `simulate_stage1_stamping`. -/
def simulateStage1Stamping (pressForceKn : V) (dieStrokeCount : ℤ) (w0InitialWear : V)
    (useDuplexCoating : Bool) (kTime : V) : StationProcessResponse V :=
  let wearRatio := lib.wearRatio pressForceKn dieStrokeCount w0InitialWear useDuplexCoating
  let damageIndex := lib.damageIndex pressForceKn wearRatio
  let isDefective := decide (lib.lit 1 < damageIndex ∨ lib.lit 0.75 ≤ wearRatio)
  let forceDev := lib.abs (pressForceKn - lib.lit 120) / lib.lit 120
  let procTimeS := kTime * lib.lit 3 *
    (lib.lit 1 + lib.lit 0.12 * forceDev + lib.lit 0.18 * wearRatio)
  let varRatio := lib.lit 1 + lib.lit 0.40 * wearRatio + lib.lit 0.30 * (damageIndex * damageIndex)
  { lib.response procTimeS isDefective varRatio with damageIndex := damageIndex }

/-- `simulate_stage1_stamping_safe`. -/
def simulateStage1StampingSafe (pressForceKn : V) (dieStrokeCount : ℤ) (w0InitialWear : V)
    (useDuplexCoating : Bool) (kTime : V) : Except (StationError V) (StationProcessResponse V) :=
  if pressForceKn < lib.lit 0 then .error (.pressForceNegative pressForceKn)
  else if dieStrokeCount < 0 then .error (.dieStrokeCountNegative dieStrokeCount)
  else if ¬(lib.lit 0 ≤ w0InitialWear ∧ w0InitialWear < lib.lit 1) then
    .error (.w0OutOfRange w0InitialWear)
  else
    .ok (lib.simulateStage1Stamping pressForceKn dieStrokeCount w0InitialWear useDuplexCoating
      kTime)

/-! ## Station 4: the clamping of a stack -/

/-- A sum over the four bolts. -/
def boltSum (f : Fin 4 → V) : V := (List.finRange 4).foldl (fun s i => s + f i) (lib.lit 0)

/-- The force of a bolt by itself.  The first four friction coefficients are those of the threads,
the others those under the heads, and one that is not positive counts as 0.15. -/
def fNomBolt (torques : Fin 4 → V) (frictions : Fin 8 → V) (i : Fin 4) : V :=
  let muTh := if lib.lit 0 < frictions (i.castAdd 4) then frictions (i.castAdd 4) else lib.lit 0.15
  let muB := if lib.lit 0 < frictions (i.natAdd 4) then frictions (i.natAdd 4) else lib.lit 0.15
  let denom := lib.lit 1.25e-3 / (lib.lit 2 * lib.pi) +
    muTh * lib.lit 7.188e-3 / (lib.lit 2 * lib.cos (lib.lit 30 * (lib.pi / lib.lit 180))) +
    muB * lib.lit 5.125e-3
  torques i / denom

/-- The force of a bolt, less what the one before it takes away. -/
def fRealBolt (torques : Fin 4 → V) (frictions : Fin 8 → V) (i : Fin 4) : V :=
  lib.fNomBolt torques frictions i - lib.lit 0.18 * lib.fNomBolt torques frictions (i + 3)

/-- `p_clamp_mpa`. -/
def pClampMpa (torques : Fin 4 → V) (frictions : Fin 8 → V) : V :=
  lib.boltSum (fun i => pyMax (lib.lit 0) (lib.fRealBolt torques frictions i)) / lib.lit 0.0225 /
    lib.lit 1e6

/-- The porosity of a compressed layer before its clamp, `gdl_porosity`. -/
def gdlPorosityRaw (pClampMpa : V) : V :=
  let tCompRaw := lib.lit 210 *
    (lib.lit 1 - pClampMpa / (lib.lit 2.80 + lib.lit 28.5 * pClampMpa))
  let tCompUm := pyMax (lib.lit 210 * (lib.lit 1 - lib.lit 0.78) + lib.lit 1) tCompRaw
  lib.lit 1 - (lib.lit 1 - lib.lit 0.78) * (lib.lit 210 / tCompUm)

/-- `gdl_porosity`. -/
def gdlPorosity (pClampMpa : V) : V :=
  pyMax (lib.lit 0.01) (pyMin (lib.lit 0.95) (lib.gdlPorosityRaw pClampMpa))

/-- `e_tangent_mpa`. -/
def eTangentMpa (pClampMpa : V) : V :=
  let stiffness := lib.lit 1 + lib.lit 28.5 / lib.lit 2.80 * pClampMpa
  lib.lit 2.80 * (stiffness * stiffness)

/-- `tau_std_unbiased`. -/
def tauStdUnbiased (torques : Fin 4 → V) : V :=
  let tauMean := lib.boltSum torques / lib.lit 4
  lib.sqrt (lib.boltSum (fun i => (torques i - tauMean) * (torques i - tauMean)) / lib.lit 3)

/-- `simulate_stage2_clamping`. -/
def simulateStage2Clamping (torques : Fin 4 → V) (frictions : Fin 8 → V) (isStation4 : Bool)
    (kTime : V) : StationProcessResponse V :=
  let tBase := if isStation4 then lib.lit 24 else lib.lit 3
  let pClampMpa := lib.pClampMpa torques frictions
  let tauStdUnbiased := lib.tauStdUnbiased torques
  let isDefective := decide (pClampMpa < lib.lit 3 ∨ lib.lit 5.5 < pClampMpa ∨
    (if isStation4 then lib.lit 1.2 else lib.lit 1.8) < tauStdUnbiased)
  let procTimeS := kTime * tBase * (lib.lit 1 + lib.lit 0.08 * tauStdUnbiased)
  let pDev := lib.abs (pClampMpa - lib.lit 4.25) / lib.lit 4.25
  let varRatio := lib.lit 1 + lib.lit 0.35 * pDev + lib.lit 0.25 * tauStdUnbiased
  { lib.response procTimeS isDefective varRatio with
    gdlPorosity := lib.gdlPorosity pClampMpa
    eTangentMpa := lib.eTangentMpa pClampMpa
    pClampMpa := pClampMpa }

/-- `simulate_stage2_clamping_safe`. -/
def simulateStage2ClampingSafe (torques frictions : List V) (isStation4 : Bool) (kTime : V) :
    Except (StationError V) (StationProcessResponse V) :=
  if ht : torques.length = 4 then
    if hf : frictions.length = 8 then
      if ∃ t ∈ torques, t < lib.lit 0 then .error .negativeTorque
      else
        .ok (lib.simulateStage2Clamping (fun i => torques.get (i.cast ht.symm))
          (fun i => frictions.get (i.cast hf.symm)) isStation4 kTime)
    else .error (.frictionsShape frictions.length)
  else .error (.torquesShape torques.length)

/-! ## `SimulateStationProcess` -/

/-- `SimulateStationProcess`. -/
def simulateStationProcess (request : StationProcessRequest V) :
    Except (StationError V) (StationProcessResponse V) :=
  let kTime := if request.kTime = lib.lit 0 then lib.lit 1 else request.kTime
  match request.params with
  | some (.station1 tPressK dwellTimeS) =>
    if request.stationId = "S1" then
      lib.simulateStage1MeaPrepSafe (tPressK.getD (lib.lit 433.15)) (dwellTimeS.getD (lib.lit 180))
        kTime
    else .error (.unsupported request.stationId)
  | some (.station2 vCoatMS muSlurryPaS) =>
    if request.stationId = "S2" then
      lib.simulateStage2CatalystDepositionSafe (vCoatMS.getD (lib.lit 0.15))
        (muSlurryPaS.getD (lib.lit 0.050)) kTime
    else .error (.unsupported request.stationId)
  | some (.station3 pressForceKn dieStrokeCount w0InitialWear useDuplexCoating) =>
    if request.stationId = "S3" then
      lib.simulateStage1StampingSafe (pressForceKn.getD (lib.lit 120)) (dieStrokeCount.getD 0)
        (w0InitialWear.getD (lib.lit 0)) (useDuplexCoating.getD false) kTime
    else .error (.unsupported request.stationId)
  | some (.station4 appliedTorquesNm frictionCoefficients) =>
    if request.stationId = "S4" then
      let torques := if appliedTorquesNm.length = 4 then appliedTorquesNm
        else List.replicate 4 (lib.lit 46)
      let frictions := if frictionCoefficients.length = 8 then frictionCoefficients
        else List.replicate 8 (lib.lit 0.15)
      lib.simulateStage2ClampingSafe torques frictions true kTime
    else .error (.unsupported request.stationId)
  | none => .error (.unsupported request.stationId)

end StationLib

end StationKernel

end MatrixFactory
