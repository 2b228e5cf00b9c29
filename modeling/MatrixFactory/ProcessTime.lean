/-
# The processing times of the stations

The way of a setpoint from the control endpoint to a time advance grant: `adjustSetpoint` of
`BaseStationArtifact`, the request of `processOrder`, the processing times of the physical engine
with their own tests, the request for the next event, and the clock of the tick loop.

A comparison with what is not a number fails, so the tests of the engine let such setpoints pass,
and no clock ever reaches the time that comes of them.  If each change of a setpoint leaves its
station with setpoints that the engine refuses, or with numbers of moderate size, then every
processing time is a number that is not negative, and the clock reaches it, whatever else is
requested.
-/
import MatrixFactory.Lib.Double
import MatrixFactory.SetpointCorrection
import Mathlib.Algebra.Order.Archimedean.Basic

namespace MatrixFactory

open Text TicketIssuer TicketHttpServer Runs Double

/-! ## The request of a station -/

/-- The parameters of a `StationProcessRequest`. -/
inductive StationParams where
  | station1 (tPressK dwellTimeS : Double)
  | station2 (vCoatMS muSlurryPaS : Double)
  | station3 (pressForceKn w0InitialWear : Double)
  | station4 (appliedTorquesNm : List Double)

/-- `setpoints.getOrDefault`. -/
def getOrDefault (setpoints : Text → Option Double) (paramName : String) (nominal : ℚ) : Double :=
  (setpoints (lit paramName)).getD (ofRat nominal)

namespace QualityStation

/-- The parameters that `processOrder` sends, of those that the times depend on. -/
def params (setpoints : Text → Option Double) : QualityStation → StationParams
  | .S1 => .station1 (getOrDefault setpoints "t_press_k" 433.15)
      (getOrDefault setpoints "dwell_time_s" 180.0)
  | .S2 => .station2 (getOrDefault setpoints "v_coat_m_s" 0.15)
      (getOrDefault setpoints "mu_slurry_pa_s" 0.050)
  | .S3 => .station3 (getOrDefault setpoints "press_force_kn" 120.0)
      (getOrDefault setpoints "w0_initial_wear" 0.0)
  | .S4 => .station4 [getOrDefault setpoints "torque_bolt_0" 46.0,
      getOrDefault setpoints "torque_bolt_1" 46.0, getOrDefault setpoints "torque_bolt_2" 46.0,
      getOrDefault setpoints "torque_bolt_3" 46.0]

/-- `tMean_s`, in the project file. -/
def tMean : QualityStation → ℚ
  | .S1 => 5.0
  | .S2 => 12.0
  | .S3 => 3.0
  | .S4 => 24.0

/-- `tStd_s`, in the project file. -/
def tStd : QualityStation → ℚ
  | .S1 => 5.0
  | .S2 => 15.0
  | .S3 => 2.0
  | .S4 => 30.0

end QualityStation

/-! ## The physical engine -/

namespace Engine

/-- The processing time of `simulate_stage1_mea_prep`. -/
def simulateStage1MeaPrep (tPressK dwellTimeS kTime : Double) : Double :=
  let tempDev := (tPressK - ofRat 433.15).abs / ofRat 433.15
  let dwellDev := (dwellTimeS - ofRat 180.0).abs / ofRat 180.0
  kTime * ofRat 5.0 * (ofRat 1.0 + ofRat 0.15 * tempDev + ofRat 0.10 * dwellDev)

/-- `simulate_stage1_mea_prep_safe`; `none` where it raises `ValueError`. -/
def simulateStage1MeaPrepSafe (tPressK dwellTimeS kTime : Double) : Option Double :=
  if tPressK < ofRat 273.15 then none
  else if dwellTimeS ≤ ofRat 0 then none
  else some (simulateStage1MeaPrep tPressK dwellTimeS kTime)

/-- The processing time of `simulate_stage2_catalyst_deposition`. -/
def simulateStage2CatalystDeposition (vCoatMS muSlurryPaS kTime : Double) : Double :=
  let vDev := (vCoatMS - ofRat 0.15).abs / ofRat 0.15
  let muDev := (muSlurryPaS - ofRat 0.050).abs / ofRat 0.050
  kTime * ofRat 12.0 * (ofRat 1.0 + ofRat 0.12 * vDev + ofRat 0.10 * muDev)

/-- `simulate_stage2_catalyst_deposition_safe`. -/
def simulateStage2CatalystDepositionSafe (vCoatMS muSlurryPaS kTime : Double) : Option Double :=
  if vCoatMS ≤ ofRat 0 then none
  else if muSlurryPaS ≤ ofRat 0 then none
  else some (simulateStage2CatalystDeposition vCoatMS muSlurryPaS kTime)

/-- `max` of two arguments: the first one unless the second is larger. -/
def pyMax (x y : Double) : Double := if x < y then y else x

/-- `min` of two arguments. -/
def pyMin (x y : Double) : Double := if y < x then y else x

/-- The processing time of `simulate_stage1_stamping`, the kernel of the third station. -/
def simulateStage1Stamping (pow : Double → Double → Double)
    (pressForceKn : Double) (dieStrokeCount : ℤ) (w0InitialWear : Double)
    (useDuplexCoating : Bool) (kTime : Double) : Double :=
  let kWear := if useDuplexCoating then ofRat 1.47e-10 else ofRat 3.50e-6
  let wearRaw := w0InitialWear + kWear * ofRat dieStrokeCount *
    pow (pressForceKn / ofRat 120.0) (ofRat 1.35)
  let wearRatio := pyMin (ofRat 0.99999) (pyMax (ofRat 0.0) wearRaw)
  let forceDev := (pressForceKn - ofRat 120.0).abs / ofRat 120.0
  kTime * ofRat 3.0 * (ofRat 1.0 + ofRat 0.12 * forceDev + ofRat 0.18 * wearRatio)

/-- `simulate_stage1_stamping_safe`. -/
def simulateStage1StampingSafe (pow : Double → Double → Double) (pressForceKn : Double)
    (dieStrokeCount : ℤ) (w0InitialWear : Double) (useDuplexCoating : Bool) (kTime : Double) :
    Option Double :=
  if pressForceKn < ofRat 0 then none
  else if dieStrokeCount < 0 then none
  else if ¬ (ofRat 0.0 ≤ w0InitialWear ∧ w0InitialWear < ofRat 1.0) then none
  else some (simulateStage1Stamping pow pressForceKn dieStrokeCount w0InitialWear useDuplexCoating
    kTime)

/-- `tau_std_unbiased` of `simulate_stage2_clamping`. -/
def tauStdUnbiased (appliedTorques : List Double) : Double :=
  let tauMean := appliedTorques.foldl (· + ·) (ofRat 0.0) / ofRat 4.0
  let sqDiff :=
    appliedTorques.foldl (fun s tau => s + (tau - tauMean) * (tau - tauMean)) (ofRat 0.0)
  (sqDiff / ofRat 3.0).sqrt

/-- The processing time of `simulate_stage2_clamping`, the kernel of the fourth station. -/
def simulateStage2Clamping (appliedTorques : List Double) (isStation4 : Bool) (kTime : Double) :
    Double :=
  let tBase := if isStation4 then ofRat 24.0 else ofRat 3.0
  kTime * tBase * (ofRat 1.0 + ofRat 0.08 * tauStdUnbiased appliedTorques)

/-- `simulate_stage2_clamping_safe`. -/
def simulateStage2ClampingSafe (appliedTorques : List Double) (isStation4 : Bool)
    (kTime : Double) : Option Double :=
  if appliedTorques.length ≠ 4 then none
  else if ∃ tau ∈ appliedTorques, tau < ofRat 0 then none
  else some (simulateStage2Clamping appliedTorques isStation4 kTime)

/-- The processing time of `SimulateStationProcess`; `none` where the call fails. -/
def simulateStationProcess (pow : Double → Double → Double) (kTime : Double) :
    StationParams → Option Double
  | .station1 tPressK dwellTimeS => simulateStage1MeaPrepSafe tPressK dwellTimeS kTime
  | .station2 vCoatMS muSlurryPaS => simulateStage2CatalystDepositionSafe vCoatMS muSlurryPaS kTime
  | .station3 pressForceKn w0InitialWear =>
    simulateStage1StampingSafe pow pressForceKn 0 w0InitialWear false kTime
  | .station4 appliedTorquesNm => simulateStage2ClampingSafe
      (if appliedTorquesNm.length = 4 then appliedTorquesNm else List.replicate 4 (ofRat 46.0))
      true kTime

end Engine

/-! ## The size of the times -/

variable {b c : ℚ} {x y : Double}

/-- The relative deviation from a nominal value. -/
theorem within_deviation (hx : Bounded b x) (hb : b ≤ 2 ^ 52) (hlow : 1 / 100 ≤ c)
    (hhigh : c ≤ 1000) :
    Within ((b + 2 * c + 64) / (9 / 10 * c) + 64) ((x - ofRat c).abs / ofRat c) := by
  obtain ⟨r, hr, hrlow, hrhigh⟩ := exists_literal hlow hhigh
  have hb0 : 0 ≤ b := by
    obtain ⟨q, -, hq⟩ := hx
    exact (abs_nonneg q).trans hq
  have hc : Bounded (11 / 10 * c) (ofRat c) := (within_literal hlow hhigh).bounded
  have hsub : Within (b + 2 * c + 64) (x - ofRat c).abs := by
    refine (hx.sub 60 (by norm_num) hc (by norm_num at hb ⊢; linarith)).abs.mono ?_
    norm_num
    linarith
  have hpos : 0 < 9 / 10 * c := by linarith
  have hquot : (b + 2 * c + 64) / (9 / 10 * c) < 2 ^ 60 := by
    rw [div_lt_iff₀ hpos]
    norm_num at hb ⊢
    linarith
  rw [hr] at hsub ⊢
  refine (hsub.div 60 (by norm_num) hpos hrlow hquot).mono ?_
  norm_num

/-- The processing time of two deviations. -/
theorem within_time {base α β A B : ℚ} (hx : Within A x) (hy : Within B y) (hA : A ≤ 2 ^ 50)
    (hB : B ≤ 2 ^ 50) (hbase : 1 ≤ base) (hbase' : base ≤ 100) (hα : 1 / 100 ≤ α) (hα' : α ≤ 1)
    (hβ : 1 / 100 ≤ β) (hβ' : β ≤ 1) :
    Within (5 / 4 * base * (2 * (α * A) + 2 * (β * B) + 300) + 64)
      (ofRat 1.0 * ofRat base * (ofRat 1.0 + ofRat α * x + ofRat β * y)) := by
  have hA0 : 0 ≤ A := by
    obtain ⟨q, -, hq, hqA⟩ := hx
    exact hq.trans hqA
  have hB0 : 0 ≤ B := by
    obtain ⟨q, -, hq, hqB⟩ := hy
    exact hq.trans hqB
  have hαA : α * A ≤ 2 ^ 50 := (mul_le_of_le_one_left hA0 hα').trans hA
  have hβB : β * B ≤ 2 ^ 50 := (mul_le_of_le_one_left hB0 hβ').trans hB
  have hαA0 : 0 ≤ α * A := mul_nonneg (by linarith) hA0
  have hβB0 : 0 ≤ β * B := mul_nonneg (by linarith) hB0
  norm_num at hαA hβB
  have hone : Within (11 / 10) (ofRat 1.0) :=
    (within_literal (by norm_num) (by norm_num)).mono (by norm_num)
  have hscale : Within (5 / 4 * base) (ofRat 1.0 * ofRat base) := by
    refine (hone.mul 10 (by norm_num) (within_literal (by linarith) (by linarith)) ?_).mono ?_
    · norm_num
      linarith
    · norm_num
      linarith
  have hxα : Within (11 / 10 * (α * A) + 64) (ofRat α * x) := by
    refine ((within_literal hα (by linarith)).mul 60 (by norm_num) hx ?_).mono ?_
    · norm_num
      linarith
    · norm_num
      linarith
  have hyβ : Within (11 / 10 * (β * B) + 64) (ofRat β * y) := by
    refine ((within_literal hβ (by linarith)).mul 60 (by norm_num) hy ?_).mono ?_
    · norm_num
      linarith
    · norm_num
      linarith
  have hsum : Within (2 * (α * A) + 2 * (β * B) + 300)
      (ofRat 1.0 + ofRat α * x + ofRat β * y) := by
    refine ((hone.add 60 (by norm_num) hxα ?_).add 60 (by norm_num) hyβ ?_).mono ?_
    all_goals
      norm_num
      linarith
  refine (hscale.mul 60 (by norm_num) hsum ?_).mono ?_
  · calc 5 / 4 * base * (2 * (α * A) + 2 * (β * B) + 300)
        ≤ 5 / 4 * 100 * (2 * (α * A) + 2 * (β * B) + 300) := by gcongr
      _ < 2 ^ 60 := by
          norm_num
          linarith
  · norm_num

/-- What `max` of zero leaves is no negative number. -/
theorem pyMax_zero (w : Double) : Engine.pyMax (finite 0) w = infinite false ∨
    ∃ q, Engine.pyMax (finite 0) w = finite q ∧ 0 ≤ q := by
  unfold Engine.pyMax
  split
  · next hpos =>
    rcases w with _ | s | q
    · exact hpos.elim
    · rcases s with _ | _
      · exact .inl rfl
      · exact Bool.noConfusion (show true = false from hpos)
    · exact .inr ⟨q, rfl, (finite_lt_finite.1 hpos).le⟩
  · exact .inr ⟨0, rfl, le_rfl⟩

/-- The wear is a number whatever goes into it. -/
theorem within_wearRatio (w : Double) :
    Within 2 (Engine.pyMin (ofRat 0.99999) (Engine.pyMax (ofRat 0.0) w)) := by
  obtain ⟨r, hr, hrlow, hrhigh⟩ := exists_literal (c := 0.99999) (by norm_num) (by norm_num)
  norm_num at hrlow hrhigh
  rw [hr, show (0.0 : ℚ) = 0 by norm_num, ofRat_zero]
  have hr2 : Within 2 (finite r) := ⟨r, rfl, by linarith, by linarith⟩
  unfold Engine.pyMin
  split
  · next h =>
    rcases pyMax_zero w with hw | ⟨q, hw, hq⟩
    · rw [hw] at h
      exact Bool.noConfusion (show false = true from h)
    · rw [hw] at h ⊢
      have hqr : q < r := h
      exact ⟨q, rfl, hq, by linarith⟩
  · exact hr2

namespace StationParams

/-- The engine's tests that raise `ValueError`. -/
def Refused : StationParams → Prop
  | station1 tPressK dwellTimeS => tPressK < ofRat 273.15 ∨ dwellTimeS ≤ ofRat 0
  | station2 vCoatMS muSlurryPaS => vCoatMS ≤ ofRat 0 ∨ muSlurryPaS ≤ ofRat 0
  | station3 pressForceKn w0InitialWear =>
    pressForceKn < ofRat 0 ∨ ¬ (ofRat 0.0 ≤ w0InitialWear ∧ w0InitialWear < ofRat 1.0)
  | station4 appliedTorquesNm => ∃ tau ∈ appliedTorquesNm, tau < ofRat 0

/-- The parameters that the processing time depends on, beyond the tests. -/
def inputs : StationParams → List Double
  | station1 tPressK dwellTimeS => [tPressK, dwellTimeS]
  | station2 vCoatMS muSlurryPaS => [vCoatMS, muSlurryPaS]
  | station3 pressForceKn _ => [pressForceKn]
  | station4 appliedTorquesNm => appliedTorquesNm

/-- The engine refuses the parameters, or the time depends on numbers of moderate size. -/
def Usable (p : StationParams) : Prop :=
  p.Refused ∨ ∀ x ∈ p.inputs, Bounded (2 ^ 38) x

end StationParams

theorem within_zero : Within 0 (ofRat 0.0) := by
  rw [show (0.0 : ℚ) = 0 by norm_num, ofRat_zero]
  exact ⟨0, rfl, le_rfl, le_rfl⟩

/-- The spread of four torques. -/
theorem within_tauStdUnbiased {l : List Double} (hlen : l.length = 4)
    (hl : ∀ x ∈ l, Within (2 ^ 38) x) : Within (2 ^ 42) (Engine.tauStdUnbiased l) := by
  obtain ⟨r, hr, hrlow, -⟩ := exists_literal (c := 4.0) (by norm_num) (by norm_num)
  obtain ⟨t, ht, htlow, -⟩ := exists_literal (c := 3.0) (by norm_num) (by norm_num)
  norm_num at hrlow htlow
  have hsum : Within (2 ^ 40 + 2 ^ 10) (l.foldl (· + ·) (ofRat 0.0)) := by
    refine (within_zero.foldl (f := fun tau => tau) 60 (by norm_num) hl ?_).mono ?_
    all_goals
      rw [hlen]
      norm_num
  unfold Engine.tauStdUnbiased
  rw [hr, ht]
  generalize hmean : l.foldl (· + ·) (ofRat 0.0) / finite r = tauMean
  have hmean' : Within (2 ^ 39) tauMean := by
    rw [← hmean]
    exact (hsum.div 60 (by norm_num) (by norm_num) hrlow (by norm_num)).mono (by norm_num)
  have hsq : ∀ tau ∈ l, Within (2 ^ 80) ((tau - tauMean) * (tau - tauMean)) := by
    intro tau htau
    have hdiff := (hl tau htau).bounded.sub 60 (by norm_num) hmean'.bounded (by norm_num)
    exact (hdiff.sq 90 (by norm_num) (by norm_num)).mono (by norm_num)
  have hsqDiff : Within (2 ^ 82 + 2 ^ 40)
      (l.foldl (fun s tau => s + (tau - tauMean) * (tau - tauMean)) (ofRat 0.0)) := by
    refine (within_zero.foldl 90 (by norm_num) hsq ?_).mono ?_
    all_goals
      rw [hlen]
      norm_num
  have hthird := hsqDiff.div 90 (by norm_num) (by norm_num) htlow (by norm_num)
  exact ((hthird.mono (b := (2 ^ 41) ^ 2) (by norm_num)).sqrt (by norm_num)).mono (by norm_num)

/-- The time of the first station. -/
theorem within_simulateStage1MeaPrep {tPressK dwellTimeS : Double}
    (ht : Bounded (2 ^ 38) tPressK) (hd : Bounded (2 ^ 38) dwellTimeS) :
    Within (2 ^ 45) (Engine.simulateStage1MeaPrep tPressK dwellTimeS (ofRat 1.0)) := by
  refine (within_time (within_deviation ht ?_ ?_ ?_) (within_deviation hd ?_ ?_ ?_)
    ?_ ?_ ?_ ?_ ?_ ?_ ?_ ?_).mono ?_
  all_goals norm_num

/-- The time of the second station. -/
theorem within_simulateStage2CatalystDeposition {vCoatMS muSlurryPaS : Double}
    (hv : Bounded (2 ^ 38) vCoatMS) (hmu : Bounded (2 ^ 38) muSlurryPaS) :
    Within (2 ^ 45) (Engine.simulateStage2CatalystDeposition vCoatMS muSlurryPaS (ofRat 1.0)) := by
  refine (within_time (within_deviation hv ?_ ?_ ?_) (within_deviation hmu ?_ ?_ ?_)
    ?_ ?_ ?_ ?_ ?_ ?_ ?_ ?_).mono ?_
  all_goals norm_num

/-- The time of the third station, whatever its wear. -/
theorem within_simulateStage1Stamping (pow : Double → Double → Double) {pressForceKn : Double}
    (hf : Bounded (2 ^ 38) pressForceKn) (n : ℤ) (w0 : Double) (duplex : Bool) :
    Within (2 ^ 45)
      (Engine.simulateStage1Stamping pow pressForceKn n w0 duplex (ofRat 1.0)) := by
  refine (within_time (within_deviation hf ?_ ?_ ?_) (within_wearRatio _)
    ?_ ?_ ?_ ?_ ?_ ?_ ?_ ?_).mono ?_
  all_goals norm_num

/-- The time of the fourth station. -/
theorem within_simulateStage2Clamping {l : List Double} (hlen : l.length = 4)
    (hl : ∀ x ∈ l, Within (2 ^ 38) x) :
    Within (2 ^ 45) (Engine.simulateStage2Clamping l true (ofRat 1.0)) := by
  have hone : Within (11 / 10) (ofRat 1.0) :=
    (within_literal (by norm_num) (by norm_num)).mono (by norm_num)
  have hstd : Within (2 ^ 40) (ofRat 0.08 * Engine.tauStdUnbiased l) := by
    refine ((within_literal ?_ ?_).mul 60 ?_ (within_tauStdUnbiased hlen hl) ?_).mono ?_
    all_goals norm_num
  have hscale : Within 30 (ofRat 1.0 * ofRat 24.0) := by
    refine (hone.mul 10 ?_ (within_literal ?_ ?_) ?_).mono ?_
    all_goals norm_num
  refine (hscale.mul 60 ?_ (hone.add 60 ?_ hstd ?_) ?_).mono ?_
  all_goals norm_num

namespace StationParams

/-- There are four torques. -/
def FourTorques : StationParams → Prop
  | station4 appliedTorquesNm => appliedTorquesNm.length = 4
  | _ => True

variable {p : StationParams} (pow : Double → Double → Double)

/-- The time that the kernel of the station computes. -/
def kernel (kTime : Double) : StationParams → Double
  | station1 tPressK dwellTimeS => Engine.simulateStage1MeaPrep tPressK dwellTimeS kTime
  | station2 vCoatMS muSlurryPaS =>
    Engine.simulateStage2CatalystDeposition vCoatMS muSlurryPaS kTime
  | station3 pressForceKn w0InitialWear =>
    Engine.simulateStage1Stamping pow pressForceKn 0 w0InitialWear false kTime
  | station4 appliedTorquesNm => Engine.simulateStage2Clamping appliedTorquesNm true kTime

/-- A refused request has no answer. -/
theorem simulateStationProcess_of_refused (hp : p.FourTorques) (h : p.Refused)
    (kTime : Double) : Engine.simulateStationProcess pow kTime p = none := by
  rcases p with ⟨tPressK, dwellTimeS⟩ | ⟨vCoatMS, muSlurryPaS⟩ | ⟨pressForceKn, w0⟩ | l
  case station1 =>
    show (if _ then none else if _ then none else some _) = none
    rcases h with h | h
    · rw [if_pos h]
    · rw [if_pos h, ite_self]
  case station2 =>
    show (if _ then none else if _ then none else some _) = none
    rcases h with h | h
    · rw [if_pos h]
    · rw [if_pos h, ite_self]
  case station3 =>
    show (if _ then none else if _ then none else if _ then none else some _) = none
    rcases h with h | h
    · rw [if_pos h]
    · rw [if_pos h, ite_self, ite_self]
  case station4 =>
    have hl : l.length = 4 := hp
    have hneg : ∃ tau ∈ l, tau < ofRat 0 := h
    show Engine.simulateStage2ClampingSafe (if l.length = 4 then l else _) _ _ = none
    rw [if_pos hl]
    show (if _ then none else if _ then none else some _) = none
    rw [if_pos hneg, ite_self]

/-- Any other request is answered with the time of the kernel. -/
theorem simulateStationProcess_of_not_refused (hp : p.FourTorques) (h : ¬ p.Refused)
    (kTime : Double) :
    Engine.simulateStationProcess pow kTime p = some (p.kernel pow kTime) := by
  rcases p with ⟨tPressK, dwellTimeS⟩ | ⟨vCoatMS, muSlurryPaS⟩ | ⟨pressForceKn, w0⟩ | l
  case station1 =>
    obtain ⟨h₁, h₂⟩ := not_or.1 h
    exact (if_neg h₁).trans (if_neg h₂)
  case station2 =>
    obtain ⟨h₁, h₂⟩ := not_or.1 h
    exact (if_neg h₁).trans (if_neg h₂)
  case station3 =>
    obtain ⟨h₁, h₂⟩ := not_or.1 h
    exact (if_neg h₁).trans ((if_neg (lt_irrefl 0)).trans (if_neg h₂))
  case station4 =>
    have hl : l.length = 4 := hp
    show Engine.simulateStage2ClampingSafe (if l.length = 4 then l else _) _ _ = _
    rw [if_pos hl]
    exact (if_neg (not_not.2 hl)).trans (if_neg h)

/-- **The size of a processing time** that the engine computes from numbers of moderate size. -/
theorem within_kernel (hp : p.FourTorques) (h : ¬ p.Refused)
    (hsize : ∀ x ∈ p.inputs, Bounded (2 ^ 38) x) :
    Within (2 ^ 45) (p.kernel pow (ofRat 1.0)) := by
  rcases p with ⟨tPressK, dwellTimeS⟩ | ⟨vCoatMS, muSlurryPaS⟩ | ⟨pressForceKn, w0⟩ | l
  case station1 =>
    exact within_simulateStage1MeaPrep (hsize _ List.mem_cons_self)
      (hsize _ (List.mem_cons_of_mem _ List.mem_cons_self))
  case station2 =>
    exact within_simulateStage2CatalystDeposition (hsize _ List.mem_cons_self)
      (hsize _ (List.mem_cons_of_mem _ List.mem_cons_self))
  case station3 =>
    exact within_simulateStage1Stamping pow (hsize _ List.mem_cons_self) 0 w0 false
  case station4 =>
    refine within_simulateStage2Clamping hp fun x hx => ?_
    obtain ⟨q, rfl, hq⟩ := hsize x hx
    refine ⟨q, rfl, ?_, (le_abs_self q).trans hq⟩
    by_contra hneg
    refine h ⟨_, hx, ?_⟩
    rw [ofRat_zero]
    exact finite_lt_finite.2 (not_le.1 hneg)

/-- What is not a finite number makes a time that is not one. -/
theorem isFinite_of_kernel {kTime : Double} (h : IsFinite (p.kernel pow kTime)) :
    ∀ x ∈ p.inputs, IsFinite x := by
  rcases p with ⟨tPressK, dwellTimeS⟩ | ⟨vCoatMS, muSlurryPaS⟩ | ⟨pressForceKn, w0⟩ | l
  case station1 =>
    have hsum := h.of_mul.2.of_add
    intro x hx
    rcases List.mem_cons.1 hx with rfl | hx
    · exact hsum.1.of_add.2.of_mul.2.of_div.of_abs.of_sub.1
    · rw [List.mem_singleton.1 hx]
      exact hsum.2.of_mul.2.of_div.of_abs.of_sub.1
  case station2 =>
    have hsum := h.of_mul.2.of_add
    intro x hx
    rcases List.mem_cons.1 hx with rfl | hx
    · exact hsum.1.of_add.2.of_mul.2.of_div.of_abs.of_sub.1
    · rw [List.mem_singleton.1 hx]
      exact hsum.2.of_mul.2.of_div.of_abs.of_sub.1
  case station3 =>
    intro x hx
    rw [List.mem_singleton.1 hx]
    exact h.of_mul.2.of_add.1.of_add.2.of_mul.2.of_div.of_abs.of_sub.1
  case station4 =>
    have hsqDiff := h.of_mul.2.of_add.2.of_mul.2.of_sqrt.of_div
    intro x hx
    exact (hsqDiff.of_foldl.2 x hx).of_mul.1.of_sub.1

end StationParams

/-! ## The processing time and the grant -/

namespace ProcessTime

/-- The time of the legacy model, for a draw of `nextGaussian`. -/
def legacyTime (tMean tStd gaussian : Double) : Double :=
  maximum (tMean * ofRat 0.1) (minimum (tMean + gaussian * tStd) (tMean * ofRat 3.0))

/-- `tProc` of `processOrder`: the answer of the engine, and where the call fails the time of the
legacy model. -/
def tProc (pow : Double → Double → Double) (st : QualityStation)
    (setpoints : Text → Option Double) (callFails : Bool) (gaussian : ℚ) : Double :=
  match if callFails then none
    else Engine.simulateStationProcess pow (ofRat 1.0) (st.params setpoints) with
  | some tProc => tProc
  | none => legacyTime (ofRat st.tMean) (ofRat st.tStd) (finite gaussian)

/-- `computedDt`, from the times that the entries request. -/
def computedDt (currentTime : Double) (requested : List Double) : Double :=
  maximum (ofRat 0.01) (minimum (ofRat 1.0) (requested.foldl
    (fun dt r => if r - currentTime < dt then r - currentTime else dt) (ofRat 1.0)))

/-- The simulator's time after `n` ticks from `currentTime`, which meet the entries `requested`. -/
def clock (requested : ℕ → List Double) (currentTime : Double) : ℕ → Double
  | 0 => currentTime
  | n + 1 => clock requested currentTime n +
      computedDt (clock requested currentTime n) (requested n)

/-- A later tick grants the time that is requested at `currentTime`, whatever else is requested. -/
def Granted (currentTime tProc : Double) : Prop :=
  ∀ requested : ℕ → List Double, ∃ n, currentTime + tProc ≤ clock requested currentTime (n + 1)

/-- Every processing time is a number that is not negative, and is granted if it is requested in
the first `2 ^ 45` seconds. -/
def Timely (pow : Double → Double → Double) (st : QualityStation)
    (setpoints : Text → Option Double) : Prop :=
  ∀ callFails gaussian, ∃ t, tProc pow st setpoints callFails gaussian = finite t ∧ 0 ≤ t ∧
    ∀ c, 0 ≤ c → c ≤ 2 ^ 45 → Granted (finite c) (finite t)

variable {pow : Double → Double → Double} {st : QualityStation}
  {setpoints : Text → Option Double}

/-! ## The clock -/

/-- The step of the clock. -/
theorem exists_computedDt (currentTime : Double) (requested : List Double) :
    ∃ d, computedDt currentTime requested = finite d ∧ 99 / 10000 ≤ d ∧ d ≤ 2 := by
  obtain ⟨lo, hlo, hloerror, -⟩ := exists_ofRat_nat (q := 0.01) 0 (by norm_num) (by norm_num)
  obtain ⟨hi, hhi, hhi₁, hhi₂⟩ := exists_literal (c := 1.0) (by norm_num) (by norm_num)
  obtain ⟨hlo₁, hlo₂⟩ := abs_le.1 hloerror
  norm_num at hlo₁ hlo₂ hhi₁ hhi₂
  have hnan : ∀ dt : Double, dt ≠ nan → requested.foldl (fun dt r =>
      if r - currentTime < dt then r - currentTime else dt) dt ≠ nan := by
    induction requested with
    | nil => exact fun _ h => h
    | cons r rs ih =>
      intro dt hdt
      refine ih _ ?_
      dsimp only
      split
      · next hlt => exact ne_nan_of_lt hlt
      · exact hdt
  unfold computedDt
  rw [hlo, hhi]
  obtain ⟨d, hd, hdlo, hdhi⟩ := exists_clamp (p := lo) (q := hi)
    (hnan (finite hi) Double.noConfusion) (by linarith)
  exact ⟨d, hd, by linarith, by linarith⟩

/-- A tick moves the clock on, in its first `2 ^ 46` seconds. -/
theorem exists_tick {q : ℚ} (hq : 0 ≤ q) (hq' : q ≤ 2 ^ 46 + 1) (requested : List Double) :
    ∃ r, finite q + computedDt (finite q) requested = finite r ∧ q + 1 / 1000 ≤ r := by
  obtain ⟨d, hd, hdlo, hdhi⟩ := exists_computedDt (finite q) requested
  rw [hd, finite_add_finite]
  have hlt : |q + d| < 2 ^ 47 := by
    rw [abs_of_nonneg (by linarith)]
    norm_num at hq' ⊢
    linarith
  obtain ⟨r, hr, herror, -⟩ := exists_ofRat_nat 47 (by norm_num) hlt
  refine ⟨r, hr, ?_⟩
  obtain ⟨hneg, -⟩ := abs_le.1 herror
  norm_num at hneg
  linarith

/-- **Every number that is requested early enough is granted.** -/
theorem granted {c t : ℚ} (hc : 0 ≤ c) (hc' : c ≤ 2 ^ 45) (ht : 0 ≤ t) (ht' : t ≤ 2 ^ 45) :
    Granted (finite c) (finite t) := by
  intro requested
  have hlt : |c + t| < 2 ^ 47 := by
    rw [abs_of_nonneg (by linarith)]
    norm_num at hc' ht' ⊢
    linarith
  obtain ⟨r, hr, herror, -⟩ := exists_ofRat_nat 47 (by norm_num) hlt
  have hrbig : r ≤ 2 ^ 46 + 1 := by
    obtain ⟨-, hpos⟩ := abs_le.1 herror
    norm_num at hpos hc' ht' ⊢
    linarith
  rw [finite_add_finite, hr]
  by_contra hnever
  rw [not_exists] at hnever
  -- a clock that never gets there still gains a millisecond with each tick
  have hclock : ∀ n : ℕ, ∃ q, clock requested (finite c) n = finite q ∧ 0 ≤ q ∧
      c + n / 1000 ≤ q ∧ q ≤ 2 ^ 46 + 1 := by
    intro n
    induction n with
    | zero =>
      refine ⟨c, rfl, hc, ?_, ?_⟩
      · rw [Nat.cast_zero, zero_div, add_zero]
      · norm_num at hc' ⊢
        linarith
    | succ n ih =>
      obtain ⟨q, hq, hpos, hlow, hhigh⟩ := ih
      obtain ⟨q', hq', hstep⟩ := exists_tick hpos hhigh (requested n)
      have hnext : clock requested (finite c) (n + 1) = finite q' := by
        show clock requested (finite c) n + computedDt (clock requested (finite c) n) _ = _
        rw [hq]
        exact hq'
      refine ⟨q', hnext, by linarith, ?_, ?_⟩
      · rw [Nat.cast_succ]
        linarith
      · have hle := hnever n
        rw [hnext, finite_le_finite, not_le] at hle
        linarith
  obtain ⟨n, hn⟩ := exists_nat_gt ((2 ^ 46 + 1 : ℚ) * 1000)
  obtain ⟨q, -, -, hlow, hhigh⟩ := hclock n
  linarith

/-! ## The time of a station -/

theorem fourTorques_params (st : QualityStation) (setpoints : Text → Option Double) :
    (st.params setpoints).FourTorques := by
  cases st
  all_goals first | exact trivial | rfl

/-- The legacy model's time. -/
theorem within_legacyTime {m s : ℚ} (hm : 1 ≤ m) (hm' : m ≤ 100) (hs : 1 ≤ s) (hs' : s ≤ 100)
    (g : ℚ) : Within (2 ^ 45) (legacyTime (ofRat m) (ofRat s) (finite g)) := by
  obtain ⟨m', hmeq, hmlow, hmhigh⟩ := exists_literal (c := m) (by linarith) (by linarith)
  obtain ⟨s', hseq, -, -⟩ := exists_literal (c := s) (by linarith) (by linarith)
  obtain ⟨lo, hlo, hlolow, hlohigh⟩ := exists_literal (c := 0.1) (by norm_num) (by norm_num)
  obtain ⟨hi, hhi, hhilow, hhihigh⟩ := exists_literal (c := 3.0) (by norm_num) (by norm_num)
  norm_num at hlolow hlohigh hhilow hhihigh
  have hpos : 0 ≤ m' := by linarith
  have hmlo : m' * lo ≤ m' * (11 / 100) := mul_le_mul_of_nonneg_left hlohigh hpos
  have hmhi : m' * (27 / 10) ≤ m' * hi := mul_le_mul_of_nonneg_left hhilow hpos
  have hmhi' : m' * hi ≤ m' * (33 / 10) := mul_le_mul_of_nonneg_left hhihigh hpos
  have hmlo0 : 0 ≤ m' * lo := mul_nonneg hpos (by linarith)
  obtain ⟨p, hp, hperror, hp0⟩ := exists_ofRat_nat (q := m' * lo) 10 (by norm_num) (by
    rw [abs_of_nonneg hmlo0]
    linarith)
  obtain ⟨q, hq, hqerror, -⟩ := exists_ofRat_nat (q := m' * hi) 10 (by norm_num) (by
    rw [abs_of_nonneg (by linarith)]
    linarith)
  obtain ⟨-, hperror⟩ := abs_le.1 hperror
  obtain ⟨hqerror₁, hqerror₂⟩ := abs_le.1 hqerror
  norm_num at hperror hqerror₁ hqerror₂
  have hdraw : finite m' + finite g * finite s' ≠ nan := by
    rw [finite_mul_finite]
    rcases hgs : ofRat (g * s') with _ | b | r
    · exact absurd hgs (ofRat_ne_nan _)
    · exact Double.noConfusion
    · exact ofRat_ne_nan _
  obtain ⟨t, ht, htlow, hthigh⟩ := exists_clamp hdraw (show p ≤ q by linarith)
  have hprod : finite m' * finite lo = finite p := hp
  have hprod' : finite m' * finite hi = finite q := hq
  unfold legacyTime
  rw [hmeq, hseq, hlo, hhi, hprod, hprod', minimum_comm, ht]
  exact ⟨t, rfl, (hp0 hmlo0).trans htlow, by norm_num; linarith⟩

/-- **A station with usable setpoints is timely.** -/
theorem timely_of_usable (h : (st.params setpoints).Usable) : Timely pow st setpoints := by
  have hwithin : ∀ callFails g, Within (2 ^ 45) (tProc pow st setpoints callFails g) := by
    intro callFails g
    have hlegacy : Within (2 ^ 45) (legacyTime (ofRat st.tMean) (ofRat st.tStd) (finite g)) := by
      refine within_legacyTime ?_ ?_ ?_ ?_ g
      all_goals
        cases st
        all_goals
          simp only [QualityStation.tMean, QualityStation.tStd]
          norm_num
    have hfour := fourTorques_params st setpoints
    unfold tProc
    cases callFails with
    | true => exact hlegacy
    | false =>
      rw [if_neg Bool.false_ne_true]
      by_cases href : (st.params setpoints).Refused
      · rw [StationParams.simulateStationProcess_of_refused pow hfour href]
        exact hlegacy
      · rw [StationParams.simulateStationProcess_of_not_refused pow hfour href]
        exact StationParams.within_kernel pow hfour href (h.resolve_left href)
  intro callFails g
  obtain ⟨t, ht, hpos, hle⟩ := hwithin callFails g
  exact ⟨t, ht, hpos, fun c hc hc' => granted hc hc' hpos hle⟩

/-- **A timely station sends finite numbers**, or what the engine refuses. -/
theorem isFinite_of_timely (h : Timely pow st setpoints) :
    (st.params setpoints).Refused ∨ ∀ x ∈ (st.params setpoints).inputs, IsFinite x := by
  by_cases href : (st.params setpoints).Refused
  · exact .inl href
  · obtain ⟨t, ht, -, -⟩ := h false 0
    unfold tProc at ht
    rw [if_neg Bool.false_ne_true, StationParams.simulateStationProcess_of_not_refused pow
      (fourTorques_params st setpoints) href] at ht
    exact .inr (StationParams.isFinite_of_kernel pow ⟨t, ht⟩)

/-! ## The setpoints of a server -/

/-- What changes a setpoint: an action of the control endpoint, and a correction that the agent of
a station applies. -/
inductive SetpointOp
  | controlAction (now : Int64) (x : HttpRequest)
  | correctSetpoint (runId : Int32) (st : QualityStation)

/-- The correction of a station in a run. -/
def correctSetpoint (st : QualityStation) (sim : ControlledRun Double) : ControlledRun Double :=
  { sim with
    stationArtifacts := sim.stationArtifacts.map fun a =>
      if a.stationId = lit st.stationId then a.adjustSetpoint st.param (ofRat st.corrective)
      else a }

/-- One step. -/
def exec (env : ControlEnv Double) (op : SetpointOp) (s : ControlServer Double) :
    ControlServer Double :=
  match op with
  | .controlAction now x => s.exec env (now, x)
  | .correctSetpoint runId st =>
    { s with
      simulators := Function.update s.simulators runId
        ((s.simulators runId).map (correctSetpoint st)) }

/-- The stations of a run after `init`, with the test bench. -/
def stationArtifacts : List (SetpointArtifact Double) :=
  [QualityStation.S1, .S2, .S3, .S4].map
      (fun st => ⟨lit st.stationId, fun p => (st.nominalSetpoints.lookup p).map ofRat⟩) ++
    [⟨lit "S5", fun p => ([(lit "operating_temp_k", 350.0), (lit "inlet_pressure_h2_bar", 2.0),
      (lit "inlet_pressure_o2_bar", 2.0)].lookup p).map ofRat⟩]

/-- A server at the start, with the fleets of its runs. -/
def start (fleets : Int32 → Option (Option (List (BreakdownAmr Double)))) : ControlServer Double :=
  ⟨fun runId => (fleets runId).map fun fleet => ⟨stationArtifacts, fleet⟩, []⟩

/-- Every station of every run has setpoints that meet `P`. -/
def Stations (P : QualityStation → (Text → Option Double) → Prop) (s : ControlServer Double) :
    Prop :=
  ∀ runId sim, s.simulators runId = some sim → ∀ a ∈ sim.stationArtifacts, ∀ st : QualityStation,
    a.stationId = lit st.stationId → P st a.setpoints

/-- Every station is timely. -/
def StationsTimely (pow : Double → Double → Double) (s : ControlServer Double) : Prop :=
  Stations (Timely pow) s

/-- The setpoints of every station are usable. -/
def StationsUsable (s : ControlServer Double) : Prop :=
  Stations (fun st setpoints => (st.params setpoints).Usable) s

/-- The change, if it comes about, leaves its station with usable setpoints. -/
def Harmless (env : ControlEnv Double) (s : ControlServer Double) : SetpointOp → Prop
  | .controlAction now x => ∀ r claims sim type stationId paramName,
    controlRequest env x = some r → controlAction env.mac r.ticket now = true →
    verifyAndParse env.mac r.ticket = some claims → s.simulators (targetRun claims r) = some sim →
    r.type = some type → equalsIgnoreCase env.tables (lit "station_setpoint") type = true →
    r.stationId = some stationId → r.paramName = some paramName →
    ∀ a ∈ sim.stationArtifacts, equalsIgnoreCase env.tables a.stationId stationId = true →
    ∀ st : QualityStation, a.stationId = lit st.stationId →
      (st.params (a.adjustSetpoint paramName r.value).setpoints).Usable
  | .correctSetpoint runId st => ∀ sim, s.simulators runId = some sim →
    ∀ a ∈ sim.stationArtifacts, a.stationId = lit st.stationId →
      (st.params (a.adjustSetpoint st.param (ofRat st.corrective)).setpoints).Usable

variable {s : ControlServer Double}

theorem Stations.imp {P Q : QualityStation → (Text → Option Double) → Prop}
    (h : ∀ st setpoints, P st setpoints → Q st setpoints) (hs : Stations P s) : Stations Q s :=
  fun runId sim hsim a ha st hst => h st a.setpoints (hs runId sim hsim a ha st hst)

/-- The change of one run. -/
theorem Stations.update {P : QualityStation → (Text → Option Double) → Prop} (hs : Stations P s)
    {runId : Int32} {sim : ControlledRun Double} (applied : List (Text × Int32))
    (h : ∀ a ∈ sim.stationArtifacts, ∀ st : QualityStation, a.stationId = lit st.stationId →
      P st a.setpoints) :
    Stations P ⟨Function.update s.simulators runId (some sim), applied⟩ := by
  intro runId' sim' hsim' a ha st hst
  by_cases hrun : runId' = runId
  · subst hrun
    have hsim : some sim = some sim' := (Function.update_self runId' _ _).symm.trans hsim'
    cases hsim
    exact h a ha st hst
  · have hsim : s.simulators runId' = some sim' :=
      (Function.update_of_ne hrun _ _).symm.trans hsim'
    exact hs runId' sim' hsim a ha st hst

theorem stationId_injective {st st' : QualityStation} (h : lit st.stationId = lit st'.stationId) :
    st = st' := by
  cases st <;> cases st' <;> first | rfl | exact absurd h (by decide)

/-- **One change** keeps the setpoints usable. -/
theorem stationsUsable_exec {env : ControlEnv Double} {op : SetpointOp} (h : StationsUsable s)
    (hop : Harmless env s op) : StationsUsable (exec env op s) := by
  rcases op with ⟨now, x⟩ | ⟨runId, st⟩
  case controlAction =>
    show StationsUsable (s.handle env now x).2
    rcases ControlServer.handle_cases env now x s with
      hs | ⟨r, ticket, claims, sim, sim', hr, -, hcheck, hv, hsim, hexecute, hs⟩
    · rw [hs]
      exact h
    · rw [hs]
      refine Stations.update h _ fun a ha st hst => ?_
      rcases ControlServer.execute_cases hexecute with
        heq | ⟨type, stationId, paramName, htype, hset, hstation, hparam, hadjust⟩
      · rw [heq] at ha
        exact h _ sim hsim a ha st hst
      · rcases ControlServer.mem_adjustStation hadjust ha with ha | ⟨b, hb, hid, rfl⟩
        · exact h _ sim hsim a ha st hst
        · exact hop r claims sim type stationId paramName hr hcheck hv hsim htype hset hstation
            hparam b hb hid st hst
  case correctSetpoint =>
    cases hsim : s.simulators runId with
    | none =>
      show StationsUsable ⟨Function.update s.simulators runId
        ((s.simulators runId).map (correctSetpoint st)), s.applied⟩
      rw [hsim, Option.map_none, ← hsim, Function.update_eq_self]
      exact h
    | some sim =>
      show StationsUsable ⟨Function.update s.simulators runId
        ((s.simulators runId).map (correctSetpoint st)), s.applied⟩
      rw [hsim, Option.map_some]
      refine Stations.update h _ fun a ha st' hst' => ?_
      obtain ⟨b, hb, rfl⟩ := List.mem_map.1 ha
      by_cases hid : b.stationId = lit st.stationId
      · rw [if_pos hid] at hst' ⊢
        have hst : st' = st := stationId_injective (hst'.symm.trans hid)
        rw [hst]
        exact hop sim hsim b hb hid
      · rw [if_neg hid] at hst' ⊢
        exact h runId sim hsim b hb st' hst'

/-- The nominal setpoints are usable. -/
theorem usable_nominal (st : QualityStation) :
    (st.params fun p => (st.nominalSetpoints.lookup p).map ofRat).Usable := by
  have hliteral : ∀ c : ℚ, 1 / 100 ≤ c → c ≤ 1000 → Bounded (2 ^ 38) (ofRat c) :=
    fun c hlow hhigh => ((within_literal hlow hhigh).mono (by norm_num; linarith)).bounded
  refine .inr ?_
  cases st
  case S1 =>
    show ∀ x ∈ [ofRat 433.15, ofRat 180.0], _
    simp only [List.forall_mem_cons]
    exact ⟨hliteral _ (by norm_num) (by norm_num), hliteral _ (by norm_num) (by norm_num),
      List.forall_mem_nil _⟩
  case S2 =>
    show ∀ x ∈ [ofRat 0.15, ofRat 0.050], _
    simp only [List.forall_mem_cons]
    exact ⟨hliteral _ (by norm_num) (by norm_num), hliteral _ (by norm_num) (by norm_num),
      List.forall_mem_nil _⟩
  case S3 =>
    show ∀ x ∈ [ofRat 120.0], _
    simp only [List.forall_mem_cons]
    exact ⟨hliteral _ (by norm_num) (by norm_num), List.forall_mem_nil _⟩
  case S4 =>
    show ∀ x ∈ List.replicate 4 (ofRat 46.0), _
    intro x hx
    rw [List.eq_of_mem_replicate hx]
    exact hliteral _ (by norm_num) (by norm_num)

theorem stationsUsable_start (fleets : Int32 → Option (Option (List (BreakdownAmr Double)))) :
    StationsUsable (start fleets) := by
  intro runId sim hsim a ha st hst
  obtain ⟨fleet, -, rfl⟩ := Option.map_eq_some_iff.1 hsim
  rcases List.mem_append.1 ha with ha | ha
  · obtain ⟨st', -, rfl⟩ := List.mem_map.1 ha
    rw [← stationId_injective hst]
    exact usable_nominal st'
  · rw [List.mem_singleton.1 ha] at hst
    cases st <;> exact absurd hst (by decide)

/-- **Every processing time is granted.**  In a run whose changes of setpoints each leave the
station with setpoints that the engine refuses or that are numbers of moderate size, every
processing time is a number that is not negative, and a later tick grants it. -/
theorem stationsTimely_run (pow : Double → Double → Double) (env : ControlEnv Double)
    (fleets : Int32 → Option (Option (List (BreakdownAmr Double)))) {ops : List SetpointOp}
    (hC : Along (exec env) (Harmless env) (start fleets) ops) :
    StationsTimely pow (run (exec env) ops (start fleets)) := by
  have husable : StationsUsable (run (exec env) ops (start fleets)) :=
    run_invariant (I := StationsUsable) (fun _ _ h hop => stationsUsable_exec h hop)
      (stationsUsable_start fleets) hC
  exact husable.imp fun st setpoints h => timely_of_usable h

/-- An environment that parses two numbers. -/
def numberEnv : ControlEnv Double where
  mac _ := []
  tables := ControlServer.latin
  parseDouble s := if s = lit "NaN" then some nan else if s = lit "440" then some (finite 440)
    else none
  zero := finite 0
  sixty := finite 60

/-- The run 1, without a fleet. -/
def oneRun (runId : Int32) : Option (Option (List (BreakdownAmr Double))) :=
  if runId = 1 then some none else none

/-- The variables of a request for the press temperature. -/
def pressTemperature (ticket : Text) (value : Double) : ControlRequest Double :=
  ⟨some ticket, some (lit "station_setpoint"), some (lit "s1"), none, some (lit "t_press_k"), value,
    finite 60, 1⟩

/-- The press temperature is set to 440. -/
theorem stationsTimely_run_440 :
    Along (exec numberEnv) (Harmless numberEnv) (start oneRun)
        [.controlAction 10 (ControlServer.setpointRequest 1 "440" ⟨0, 0⟩)] ∧
      StationsTimely (fun _ y => y) (run (exec numberEnv)
        [.controlAction 10 (ControlServer.setpointRequest 1 "440" ⟨0, 0⟩)] (start oneRun)) := by
  have hr : controlRequest numberEnv (ControlServer.setpointRequest 1 "440" ⟨0, 0⟩) =
      some (pressTemperature (issue numberEnv.mac (lit "dash") 1 (lit "control") 0 ⟨0, 0⟩)
        (finite 440)) := by decide
  have hC : Along (exec numberEnv) (Harmless numberEnv) (start oneRun)
      [.controlAction 10 (ControlServer.setpointRequest 1 "440" ⟨0, 0⟩)] := by
    refine ⟨?_, trivial⟩
    intro r claims sim type stationId paramName hr' _ _ hsim _ _ hstation hparam a ha hid st hst
    rw [hr] at hr'
    cases hr'
    cases hstation
    cases hparam
    obtain ⟨fleet, -, rfl⟩ := Option.map_eq_some_iff.1 hsim
    rw [hst] at hid
    have hS1 : st = .S1 := by
      cases st <;> first | rfl | exact absurd hid (by decide)
    subst hS1
    rcases List.mem_append.1 ha with ha | ha
    · obtain ⟨st', -, rfl⟩ := List.mem_map.1 ha
      rw [stationId_injective hst]
      refine .inr ?_
      show ∀ x ∈ [finite 440, ofRat 180.0], _
      simp only [List.forall_mem_cons]
      refine ⟨⟨440, rfl, by norm_num⟩, ?_, List.forall_mem_nil _⟩
      exact ((within_literal (by norm_num) (by norm_num)).mono (by norm_num)).bounded
    · rw [List.mem_singleton.1 ha] at hst
      exact absurd hst (by decide)
  exact ⟨hC, stationsTimely_run (fun _ y => y) numberEnv oneRun hC⟩

/-- The press temperature is set to `NaN`. -/
theorem not_stationsTimely :
    ¬ ∀ (pow : Double → Double → Double) (env : ControlEnv Double)
      (fleets : Int32 → Option (Option (List (BreakdownAmr Double)))) (ops : List SetpointOp),
      StationsTimely pow (run (exec env) ops (start fleets)) := by
  intro h
  have htimely := h (fun _ y => y) numberEnv oneRun
    [.controlAction 10 (ControlServer.setpointRequest 1 "NaN" ⟨0, 0⟩)]
  have hr : controlRequest numberEnv (ControlServer.setpointRequest 1 "NaN" ⟨0, 0⟩) =
      some (pressTemperature
        (issue numberEnv.mac (lit "dash") 1 (lit "control") 0 ⟨0, 0⟩) nan) := by
    decide
  have hclaims : ∃ claims ∈ verifyAndParse numberEnv.mac
      (some (issue numberEnv.mac (lit "dash") 1 (lit "control") 0 ⟨0, 0⟩)),
      (claims.isExpired 10 || claims.scope != lit "control") = false ∧ claims.runId = 1 := by
    decide
  obtain ⟨claims, hv, hok, hrun⟩ := hclaims
  have hmethod : equalsIgnoreCase numberEnv.tables (lit "OPTIONS")
      (ControlServer.setpointRequest 1 "NaN" ⟨0, 0⟩).method = false := by decide
  have htarget : targetRun claims (pressTemperature
      (issue numberEnv.mac (lit "dash") 1 (lit "control") 0 ⟨0, 0⟩) nan) = 1 := by
    rw [targetRun, hrun]
    rfl
  let hot : SetpointArtifact Double := ⟨lit "S1", Function.update
    (fun p => (QualityStation.S1.nominalSetpoints.lookup p).map ofRat) (lit "t_press_k") (some nan)⟩
  have hexecute : execute numberEnv (pressTemperature
      (issue numberEnv.mac (lit "dash") 1 (lit "control") 0 ⟨0, 0⟩) nan) ⟨stationArtifacts, none⟩ =
      some ⟨hot :: stationArtifacts.tail, none⟩ := rfl
  have hexec := ControlServer.exec_executed (s := start oneRun) hmethod hr rfl hv hok
    (by rw [htarget]; rfl) hexecute
  have hrunEq : run (exec numberEnv)
      [.controlAction 10 (ControlServer.setpointRequest 1 "NaN" ⟨0, 0⟩)] (start oneRun) =
      (start oneRun).exec numberEnv (10, ControlServer.setpointRequest 1 "NaN" ⟨0, 0⟩) := rfl
  rw [hrunEq, hexec, htarget] at htimely
  have hhot := htimely 1 ⟨hot :: stationArtifacts.tail, none⟩ 
    (Function.update_self (1 : Int32) _ (start oneRun).simulators) hot List.mem_cons_self .S1 rfl
  rcases isFinite_of_timely hhot with hcold | hfinite
  · rcases hcold with hcold | hdwell
    · exact hcold
    · obtain ⟨r, hr, hlow, -⟩ := exists_literal (c := 180.0) (by norm_num) (by norm_num)
      have hle : ofRat 180.0 ≤ ofRat 0 := hdwell
      rw [hr, ofRat_zero, finite_le_finite] at hle
      norm_num at hlow
      linarith
  · exact not_isFinite_nan (hfinite nan List.mem_cons_self)

end ProcessTime

end MatrixFactory
