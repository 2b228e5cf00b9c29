/-
# The bound on the step of the thermal model

The check of `_thermal_step_jit` on its step, and the step repeated without heat.  The bound is
taken from the diagonal of the two equations; whether the temperatures stay near the coolant's is a
matter of both of them together.
-/
import MatrixFactory.BatchTest
import MatrixFactory.Lib.PairMap
import MatrixFactory.Lib.Numerals

namespace MatrixFactory

open scoped Numerals

/-! ## The checked step -/

/-- How `_thermal_step_jit` fails. -/
inductive ThermalFault
  /-- `ZeroDivisionError` -/
  | zeroDivision
  /-- `Forward-Euler thermal step unstable: dt exceeds stability bound` -/
  | unstable
  deriving DecidableEq, Repr

section Step

variable {V : Type} [Field V] [LinearOrder V]

/-- What the bound on the step is taken from. -/
def StackThermalModel.rate (m : StackThermalModel V) : V :=
  max (m.hAInternal / m.cCore) ((m.hAInternal + m.hAExternal) / m.cSkin)

/-- `_thermal_step_jit` with its check. -/
def checkedThermalStep (m : StackThermalModel V) (core skin dt qGen tCoolant : V) :
    Except ThermalFault (V × V) :=
  if m.rate = 0 then .error .zeroDivision
  else if 2 / m.rate ≤ dt then .error .unstable
  else .ok (thermalStepJit m core skin dt qGen tCoolant)

/-- The step `n` times over, without heat. -/
def coolingRun (m : StackThermalModel V) (dt tCoolant : V) :
    ℕ → V × V → Except ThermalFault (V × V)
  | 0, x => .ok x
  | n + 1, x => (coolingRun m dt tCoolant n x).bind fun y =>
      checkedThermalStep m y.1 y.2 dt 0 tCoolant

/-- `_thermal_step_jit` accepts `dt`. -/
def StackThermalModel.Accepts (m : StackThermalModel V) (dt : V) : Prop :=
  m.rate ≠ 0 ∧ dt < 2 / m.rate

/-- Without heat the temperatures stay within a bound of the coolant's. -/
def StaysBounded (m : StackThermalModel V) (dt : V) : Prop :=
  ∀ (tCoolant : V) (x : V × V), ∃ B, ∀ n, ∃ y, coolingRun m dt tCoolant n x = .ok y ∧
    |y.1 - tCoolant| ≤ B ∧ |y.2 - tCoolant| ≤ B

/-- The condition on the step, for both equations together. -/
def StackThermalModel.Stable (m : StackThermalModel V) (dt : V) : Prop :=
  0 ≤ dt ∧ 2 * dt * (m.hAInternal / m.cCore + (m.hAInternal + m.hAExternal) / m.cSkin) ≤
    4 + dt ^ 2 * (m.hAInternal * m.hAExternal) / (m.cCore * m.cSkin)

/-! ## The deviations from the coolant -/

/-- How far a step moves the core towards the skin. -/
def StackThermalModel.coreGain (m : StackThermalModel V) (dt : V) : V :=
  dt * m.hAInternal / m.cCore

/-- How far a step moves the skin towards the core. -/
def StackThermalModel.skinGain (m : StackThermalModel V) (dt : V) : V :=
  dt * m.hAInternal / m.cSkin

/-- How far a step moves the skin towards the coolant. -/
def StackThermalModel.coolantGain (m : StackThermalModel V) (dt : V) : V :=
  dt * m.hAExternal / m.cSkin

/-- The linear part of the step. -/
def StackThermalModel.pairMap (m : StackThermalModel V) (dt : V) : PairMap V where
  a := 1 - m.coreGain dt
  b := m.coreGain dt
  c := m.skinGain dt
  d := 1 - m.skinGain dt - m.coolantGain dt

omit [LinearOrder V] in
/-- A step without heat moves the deviations from the coolant by the linear part. -/
theorem thermalStepJit_cooling (m : StackThermalModel V) (dt tCoolant : V) (e : V × V) :
    thermalStepJit m (tCoolant + e.1) (tCoolant + e.2) dt 0 tCoolant =
      (tCoolant + ((m.pairMap dt).apply e).1, tCoolant + ((m.pairMap dt).apply e).2) := by
  simp only [thermalStepJit, PairMap.apply, StackThermalModel.pairMap,
    StackThermalModel.coreGain, StackThermalModel.skinGain, StackThermalModel.coolantGain,
    Prod.mk.injEq]
  constructor <;> ring

/-- An accepted step is repeated without failing. -/
theorem coolingRun_ok {m : StackThermalModel V} {dt : V} (h : m.Accepts dt) (tCoolant : V)
    (e : V × V) (n : ℕ) :
    coolingRun m dt tCoolant n (tCoolant + e.1, tCoolant + e.2) =
      .ok (tCoolant + ((m.pairMap dt).apply^[n] e).1,
        tCoolant + ((m.pairMap dt).apply^[n] e).2) := by
  induction n with
  | zero => rfl
  | succ n ih =>
    rw [coolingRun, ih, Function.iterate_succ_apply', ← thermalStepJit_cooling]
    show checkedThermalStep m _ _ dt 0 tCoolant = _
    rw [checkedThermalStep, if_neg h.1, if_neg (not_le.mpr h.2)]

/-- The temperatures stay bounded if and only if the iterates of the linear part do. -/
theorem staysBounded_iff {m : StackThermalModel V} {dt : V} (h : m.Accepts dt) :
    StaysBounded m dt ↔ ∀ e, ∃ B, ∀ n,
      |((m.pairMap dt).apply^[n] e).1| ≤ B ∧ |((m.pairMap dt).apply^[n] e).2| ≤ B := by
  constructor
  · intro hbounded e
    obtain ⟨B, hB⟩ := hbounded 0 (0 + e.1, 0 + e.2)
    refine ⟨B, fun n => ?_⟩
    obtain ⟨y, hy, h1, h2⟩ := hB n
    rw [coolingRun_ok h] at hy
    cases hy
    simp only [zero_add, sub_zero] at h1 h2
    exact ⟨h1, h2⟩
  · intro hbounded tCoolant x
    obtain ⟨B, hB⟩ := hbounded (x - (tCoolant, tCoolant))
    have hx : x = (tCoolant + (x - (tCoolant, tCoolant)).1,
        tCoolant + (x - (tCoolant, tCoolant)).2) := by
      ext <;> simp
    refine ⟨B, fun n => ⟨_, by rw [hx, coolingRun_ok h], ?_⟩⟩
    simpa only [add_sub_cancel_left] using hB n

end Step

/-! ## Stability -/

section Real

variable {m : StackThermalModel ℝ} {dt : ℝ}

/-- The condition in the gains. -/
theorem stable_iff (m : StackThermalModel ℝ) (dt : ℝ) :
    m.Stable dt ↔ 0 ≤ dt ∧ 2 * (m.coreGain dt + m.skinGain dt + m.coolantGain dt) ≤
      4 + m.coreGain dt * m.coolantGain dt := by
  have hsum : 2 * dt * (m.hAInternal / m.cCore + (m.hAInternal + m.hAExternal) / m.cSkin) =
      2 * (m.coreGain dt + m.skinGain dt + m.coolantGain dt) := by
    simp only [StackThermalModel.coreGain, StackThermalModel.skinGain,
      StackThermalModel.coolantGain]
    ring
  have hprod : dt ^ 2 * (m.hAInternal * m.hAExternal) / (m.cCore * m.cSkin) =
      m.coreGain dt * m.coolantGain dt := by
    simp only [StackThermalModel.coreGain, StackThermalModel.coolantGain]
    rw [div_mul_div_comm]
    ring
  rw [StackThermalModel.Stable, hsum, hprod]

/-- The bound on the step keeps the gains of either node below two. -/
theorem gains_lt (hcore : 0 < m.cCore) (hint : 0 ≤ m.hAInternal) (h : m.Accepts dt)
    (hdt : 0 ≤ dt) : m.coreGain dt < 2 ∧ m.skinGain dt + m.coolantGain dt < 2 := by
  have hnn : 0 ≤ m.rate := le_max_of_le_left (div_nonneg hint hcore.le)
  have hpos : 0 < m.rate := lt_of_le_of_ne hnn (Ne.symm h.1)
  have hrate : dt * m.rate < 2 := (lt_div_iff₀ hpos).mp h.2
  have h1 : dt * (m.hAInternal / m.cCore) ≤ dt * m.rate :=
    mul_le_mul_of_nonneg_left (le_max_left _ _) hdt
  have h2 : dt * ((m.hAInternal + m.hAExternal) / m.cSkin) ≤ dt * m.rate :=
    mul_le_mul_of_nonneg_left (le_max_right _ _) hdt
  constructor
  · calc m.coreGain dt = dt * (m.hAInternal / m.cCore) := mul_div_assoc _ _ _
      _ < 2 := h1.trans_lt hrate
  · calc m.skinGain dt + m.coolantGain dt =
        dt * ((m.hAInternal + m.hAExternal) / m.cSkin) := by
          rw [StackThermalModel.skinGain, StackThermalModel.coolantGain]
          ring
      _ < 2 := h2.trans_lt hrate

/-- Where the condition holds, a step does not raise the energy of the deviations. -/
theorem energy_le (hcore : 0 < m.cCore) (hskin : 0 < m.cSkin) (hint : 0 ≤ m.hAInternal)
    (hext : 0 ≤ m.hAExternal) (h : m.Accepts dt) (hstable : m.Stable dt) (x : ℝ × ℝ) :
    m.cCore * ((m.pairMap dt).apply x).1 ^ 2 + m.cSkin * ((m.pairMap dt).apply x).2 ^ 2 ≤
      m.cCore * x.1 ^ 2 + m.cSkin * x.2 ^ 2 := by
  obtain ⟨hdt, hgain⟩ := (stable_iff m dt).mp hstable
  have hlt := (gains_lt hcore hint h hdt).2
  have hα : m.cCore * m.coreGain dt = dt * m.hAInternal := mul_div_cancel₀ _ hcore.ne'
  have hβ : m.cSkin * m.skinGain dt = dt * m.hAInternal := mul_div_cancel₀ _ hskin.ne'
  have hκ : m.cSkin * m.coolantGain dt = dt * m.hAExternal := mul_div_cancel₀ _ hskin.ne'
  have hcross : m.hAInternal * m.coolantGain dt = m.hAExternal * m.skinGain dt := by
    simp only [StackThermalModel.skinGain, StackThermalModel.coolantGain]
    ring
  have hskin0 : 0 ≤ m.skinGain dt := by
    simp only [StackThermalModel.skinGain]
    positivity
  obtain ⟨x, y⟩ := x
  -- the loss of energy is a sum of squares, up to the factor `2 - coolantGain`
  have hloss : (2 - m.coolantGain dt) * (m.cCore * x ^ 2 + m.cSkin * y ^ 2 -
      (m.cCore * ((m.pairMap dt).apply (x, y)).1 ^ 2 +
        m.cSkin * ((m.pairMap dt).apply (x, y)).2 ^ 2)) =
      dt * (m.hAExternal * ((2 - m.coolantGain dt) * y + m.skinGain dt * (x - y)) ^ 2 +
        m.hAInternal * (4 + m.coreGain dt * m.coolantGain dt -
          2 * (m.coreGain dt + m.skinGain dt + m.coolantGain dt)) * (x - y) ^ 2) := by
    simp only [PairMap.apply, StackThermalModel.pairMap]
    linear_combination
      (2 - m.coolantGain dt) * (2 * x * (x - y) - m.coreGain dt * (x - y) ^ 2) * hα -
        (2 - m.coolantGain dt) * (x - y) *
          (2 * y + m.skinGain dt * (x - y) - m.coolantGain dt * y) * hβ +
        (2 - m.coolantGain dt) * y *
          (2 * y + m.skinGain dt * (x - y) - m.coolantGain dt * y) * hκ +
        dt * (m.skinGain dt * (x - y) ^ 2 + (2 - m.coolantGain dt) * (x - y) * y) * hcross
  have hnn : 0 ≤ (2 - m.coolantGain dt) * (m.cCore * x ^ 2 + m.cSkin * y ^ 2 -
      (m.cCore * ((m.pairMap dt).apply (x, y)).1 ^ 2 +
        m.cSkin * ((m.pairMap dt).apply (x, y)).2 ^ 2)) := by
    have hroom : 0 ≤ 4 + m.coreGain dt * m.coolantGain dt -
        2 * (m.coreGain dt + m.skinGain dt + m.coolantGain dt) := sub_nonneg.mpr hgain
    rw [hloss]
    positivity
  have := nonneg_of_mul_nonneg_right hnn (by linarith)
  linarith

/-- Where the condition holds the deviations stay bounded. -/
theorem bounded_of_stable (hcore : 0 < m.cCore) (hskin : 0 < m.cSkin) (hint : 0 ≤ m.hAInternal)
    (hext : 0 ≤ m.hAExternal) (h : m.Accepts dt) (hstable : m.Stable dt) : StaysBounded m dt :=
  (staysBounded_iff h).mpr fun e =>
    PairMap.bounded_of_energy hcore hskin (energy_le hcore hskin hint hext h hstable) e

/-- An eigenvalue beyond one makes the deviations leave every bound. -/
theorem not_staysBounded_of_eigenvector (h : m.Accepts dt) {μ : ℝ} {e : ℝ × ℝ}
    (hμ : (m.pairMap dt).apply e = μ • e) (hlt : 1 < |μ|) (he : e ≠ 0) : ¬StaysBounded m dt := by
  rw [staysBounded_iff h]
  intro hbounded
  obtain ⟨B, hB⟩ := hbounded e
  obtain ⟨n, hn⟩ := PairMap.unbounded_of_eigenvector hμ hlt he B
  exact hn (hB n)

/-- A step forward that misses the condition has an eigenvalue below `-1`. -/
theorem not_staysBounded_of_gains (hcore : 0 < m.cCore) (hint : 0 ≤ m.hAInternal)
    (h : m.Accepts dt) (hdt : 0 ≤ dt) (hgain : 4 + m.coreGain dt * m.coolantGain dt <
      2 * (m.coreGain dt + m.skinGain dt + m.coolantGain dt)) : ¬StaysBounded m dt := by
  obtain ⟨μ, hμ, hroot⟩ : ∃ μ < -1, μ ^ 2 - ((m.pairMap dt).a + (m.pairMap dt).d) * μ +
      ((m.pairMap dt).a * (m.pairMap dt).d - (m.pairMap dt).b * (m.pairMap dt).c) = 0 := by
    apply PairMap.exists_root_lt
    simp only [StackThermalModel.pairMap]
    linarith
  refine not_staysBounded_of_eigenvector h ((m.pairMap dt).apply_eigenvector hroot) ?_ ?_
  · rw [lt_abs]
    exact .inr (by linarith)
  · intro he
    have hzero : m.coreGain dt = 0 := congrArg Prod.fst he
    have hlt := (gains_lt hcore hint h hdt).2
    rw [hzero] at hgain
    linarith

/-- A step backward has an eigenvalue above one. -/
theorem not_staysBounded_of_neg (hcore : 0 < m.cCore) (hskin : 0 < m.cSkin)
    (hint : 0 ≤ m.hAInternal) (hext : 0 ≤ m.hAExternal) (h : m.Accepts dt) (hdt : dt < 0) :
    ¬StaysBounded m dt := by
  have hskin0 : m.skinGain dt ≤ 0 :=
    div_nonpos_of_nonpos_of_nonneg (mul_nonpos_of_nonpos_of_nonneg hdt.le hint) hskin.le
  have hcool0 : m.coolantGain dt ≤ 0 :=
    div_nonpos_of_nonpos_of_nonneg (mul_nonpos_of_nonpos_of_nonneg hdt.le hext) hskin.le
  rcases hint.eq_or_lt with hzero | hpos
  · -- without exchange between the nodes the skin alone drifts away
    have hext' : 0 < m.hAExternal := by
      refine lt_of_le_of_ne hext fun hzero' => h.1 ?_
      simp [StackThermalModel.rate, ← hzero, ← hzero']
    have hcool : m.coolantGain dt < 0 :=
      div_neg_of_neg_of_pos (mul_neg_of_neg_of_pos hdt hext') hskin
    have hgain : m.coreGain dt = 0 ∧ m.skinGain dt = 0 := by
      simp [StackThermalModel.coreGain, StackThermalModel.skinGain, ← hzero]
    have hskinOnly : (m.pairMap dt).apply (0, 1) = (1 - m.coolantGain dt) • (0, 1) := by
      ext
      · simp [PairMap.apply, StackThermalModel.pairMap, hgain.1]
      · simp [PairMap.apply, StackThermalModel.pairMap, hgain.2]
    refine not_staysBounded_of_eigenvector h hskinOnly ?_ ?_
    · rw [lt_abs]
      exact .inl (by linarith)
    · exact fun he => one_ne_zero (congrArg Prod.snd he)
  · have hcore0 : m.coreGain dt < 0 := div_neg_of_neg_of_pos (mul_neg_of_neg_of_pos hdt hpos) hcore
    obtain ⟨μ, hμ, hroot⟩ : ∃ μ > 1, μ ^ 2 - ((m.pairMap dt).a + (m.pairMap dt).d) * μ +
        ((m.pairMap dt).a * (m.pairMap dt).d - (m.pairMap dt).b * (m.pairMap dt).c) = 0 := by
      apply PairMap.exists_root_gt
      · simp only [StackThermalModel.pairMap]
        linarith
      · simp only [StackThermalModel.pairMap]
        nlinarith [sq_nonneg (m.skinGain dt + m.coolantGain dt - m.coreGain dt),
          mul_nonneg_of_nonpos_of_nonpos hcore0.le hskin0]
    refine not_staysBounded_of_eigenvector h ((m.pairMap dt).apply_eigenvector hroot) ?_ ?_
    · rw [lt_abs]
      exact .inl hμ
    · intro he
      have hzero : m.coreGain dt = 0 := congrArg Prod.fst he
      exact hcore0.ne hzero

/-- **An accepted step keeps the temperatures near the coolant's if and only if it meets the
condition on both equations together.** -/
theorem stays_bounded (m : StackThermalModel ℝ) (dt : ℝ) (hcore : 0 < m.cCore)
    (hskin : 0 < m.cSkin) (hint : 0 ≤ m.hAInternal) (hext : 0 ≤ m.hAExternal)
    (h : m.Accepts dt) : StaysBounded m dt ↔ m.Stable dt := by
  constructor
  · intro hbounded
    rw [stable_iff]
    by_contra hnot
    rcases lt_or_ge dt 0 with hdt | hdt
    · exact not_staysBounded_of_neg hcore hskin hint hext h hdt hbounded
    · have hgain := not_le.mp fun hle => hnot ⟨hdt, hle⟩
      exact not_staysBounded_of_gains hcore hint h hdt hgain hbounded
  · exact bounded_of_stable hcore hskin hint hext h

/-- The model as it is by default. -/
def defaultThermalModel : StackThermalModel ℝ := ⟨12500, 12500, 500, 50, 298.15, 298.15⟩

theorem defaultThermalModel_rate : defaultThermalModel.rate = 0.044 := by
  norm_num [defaultThermalModel, StackThermalModel.rate]

/-- The step of the batch tests is accepted, and the temperatures stay bounded. -/
theorem stays_bounded_half : StaysBounded defaultThermalModel 0.5 := by
  have haccepts : defaultThermalModel.Accepts 0.5 := by
    rw [StackThermalModel.Accepts, defaultThermalModel_rate]
    norm_num
  refine (stays_bounded defaultThermalModel 0.5 ?_ ?_ ?_ ?_ haccepts).mpr ?_ <;>
    norm_num [defaultThermalModel, StackThermalModel.Stable]

/-- A step of 40 s is accepted with the default parameters, and the temperatures leave every
bound. -/
theorem not_stays_bounded : ¬∀ (m : StackThermalModel ℝ) (dt : ℝ), 0 < m.cCore → 0 < m.cSkin →
    0 ≤ m.hAInternal → 0 ≤ m.hAExternal → m.Accepts dt → StaysBounded m dt := by
  intro hall
  have haccepts : defaultThermalModel.Accepts 40 := by
    rw [StackThermalModel.Accepts, defaultThermalModel_rate]
    norm_num
  have hbounded : StaysBounded defaultThermalModel 40 := by
    refine hall _ _ ?_ ?_ ?_ ?_ haccepts <;> norm_num [defaultThermalModel]
  refine not_staysBounded_of_gains ?_ ?_ haccepts ?_ ?_ hbounded <;>
    norm_num [defaultThermalModel, StackThermalModel.coreGain, StackThermalModel.skinGain,
      StackThermalModel.coolantGain]

end Real

end MatrixFactory
