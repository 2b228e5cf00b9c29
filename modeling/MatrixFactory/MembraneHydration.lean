/-
# The water of a membrane

The water content of a membrane follows the activity of the water around it: it relaxes to the
content of the sorption isotherm, faster when it takes up water than when it gives it off.

The isotherm rises with the activity, and from saturation on it is at the upper bound.  As long as
no time step is longer than the uptake takes, the content does not pass the equilibrium, a
membrane that was wetter and is kept wetter stays so, and conducts no worse.
-/
import MatrixFactory.RealKernel
import MatrixFactory.Lib.Relaxation
import MatrixFactory.Lib.Runs
import MatrixFactory.Lib.Numerals

namespace MatrixFactory

open scoped Numerals

namespace MembraneHydration

open Relaxation

section

variable {K : Type} [Field K] [LinearOrder K]

/-- The isotherm, before its bounds. -/
def isotherm (a : K) : K :=
  if a ≤ 1 then 0.043 + 17.81 * a - 39.85 * a ^ 2 + 36 * a ^ 3 else 14 + 1.4 * (a - 1)

/-- `_equilibrium_water_content`. -/
def equilibriumWaterContent (aWater : K) : K :=
  max 1 (min 14 (isotherm (max 0 (min 3 aWater))))

/-- The wetting time constant. -/
def TAU_SORPTION_S : K := 12

/-- The drying time constant. -/
def TAU_DESORPTION_S : K := 45

/-- `step_membrane_hydration`. -/
def stepMembraneHydration (lambdaCurrent activityWater dt : K) : K :=
  let lambdaEq := equilibriumWaterContent activityWater
  let tau := if lambdaCurrent < lambdaEq then TAU_SORPTION_S else TAU_DESORPTION_S
  let dlambdaDt := (lambdaEq - lambdaCurrent) / tau
  let lambdaNew := lambdaCurrent + dt * dlambdaDt
  min 14 (max 1 lambdaNew)

/-- The content after some steps, each with its activity and its time. -/
def hydrate (lambda : K) (steps : List (K × K)) : K :=
  Runs.run (fun s lambda => stepMembraneHydration lambda s.1 s.2) steps lambda

end

variable {K : Type} [Field K] [LinearOrder K] [IsStrictOrderedRing K]

/-! ## The isotherm -/

/-- The cubic rises. -/
theorem cubic_mono {a b : K} (h : a ≤ b) :
    0.043 + 17.81 * a - 39.85 * a ^ 2 + 36 * a ^ 3 ≤
      0.043 + 17.81 * b - 39.85 * b ^ 2 + 36 * b ^ 3 := by
  have hslope : 0 ≤ 17.81 - 39.85 * (a + b) + 36 * (a ^ 2 + a * b + b ^ 2) := by
    nlinarith [sq_nonneg (a - b), sq_nonneg (54 * (a + b) - 39.85)]
  have hfall := mul_nonneg (sub_nonneg.mpr h) hslope
  have heq : (b - a) * (17.81 - 39.85 * (a + b) + 36 * (a ^ 2 + a * b + b ^ 2)) =
      0.043 + 17.81 * b - 39.85 * b ^ 2 + 36 * b ^ 3 -
        (0.043 + 17.81 * a - 39.85 * a ^ 2 + 36 * a ^ 3) := by ring
  linarith

/-- From saturation on the isotherm is not below the upper bound. -/
theorem isotherm_of_one_le {a : K} (h : 1 ≤ a) : 14 ≤ isotherm a := by
  unfold isotherm
  split_ifs with hle
  · obtain rfl := le_antisymm hle h
    norm_num
  · linarith

theorem bounded_isotherm_mono {a b : K} (h : a ≤ b) :
    min 14 (isotherm a) ≤ min 14 (isotherm b) := by
  rcases le_or_gt b 1 with hb | hb
  · refine min_le_min_left _ ?_
    rw [isotherm, isotherm, if_pos hb, if_pos (h.trans hb)]
    exact cubic_mono h
  · rw [min_eq_left (isotherm_of_one_le hb.le)]
    exact min_le_left _ _

/-- **The equilibrium rises with the activity**. -/
theorem equilibrium_mono {a b : K} (h : a ≤ b) :
    equilibriumWaterContent a ≤ equilibriumWaterContent b :=
  max_le_max_left _ (bounded_isotherm_mono (max_le_max_left _ (min_le_min_left _ h)))

theorem equilibrium_mem (a : K) :
    1 ≤ equilibriumWaterContent a ∧ equilibriumWaterContent a ≤ 14 :=
  ⟨le_max_left _ _, max_le (by norm_num) (min_le_left _ _)⟩

/-- **At saturation and above** the equilibrium is the upper bound: the branch of the isotherm for
liquid water is never seen. -/
theorem equilibrium_saturated {a : K} (h : 1 ≤ a) : equilibriumWaterContent a = 14 := by
  have hclamped : 1 ≤ max 0 (min 3 a) := le_max_of_le_right (le_min (by norm_num) h)
  rw [equilibriumWaterContent, min_eq_left (isotherm_of_one_le hclamped)]
  exact max_eq_right (by norm_num)

/-! ## One step -/

/-- A time step that is not longer than the uptake. -/
def IsShort (dt : K) : Prop := 0 ≤ dt ∧ dt ≤ TAU_SORPTION_S

theorem IsShort.shares {dt : K} (h : IsShort dt) : IsShare (dt / 12) ∧ IsShare (dt / 45) := by
  have h12 : dt ≤ 12 := h.2
  refine ⟨⟨div_nonneg h.1 (by norm_num), ?_⟩, div_nonneg h.1 (by norm_num), ?_⟩
  · rw [div_le_one (by norm_num)]
    exact h12
  · rw [div_le_one (by norm_num)]
    linarith

/-- The content is in its bounds after every step, however long it is. -/
theorem step_mem (lambda a dt : K) :
    1 ≤ stepMembraneHydration lambda a dt ∧ stepMembraneHydration lambda a dt ≤ 14 :=
  ⟨le_min (by norm_num) (le_max_left _ _), min_le_left _ _⟩

/-- **A short step is a relaxation** to the equilibrium; its bounds are not in use. -/
theorem step_eq_relax {lambda dt : K} (hdt : IsShort dt) (hlambda : 1 ≤ lambda ∧ lambda ≤ 14)
    (a : K) : stepMembraneHydration lambda a dt =
      relax (dt / 12) (dt / 45) (equilibriumWaterContent a) lambda := by
  obtain ⟨hup, hdown⟩ := hdt.shares
  obtain ⟨hlo, hhi⟩ := equilibrium_mem a
  have hraw : lambda + dt * ((equilibriumWaterContent a - lambda) /
      if lambda < equilibriumWaterContent a then TAU_SORPTION_S else TAU_DESORPTION_S) =
        relax (dt / 12) (dt / 45) (equilibriumWaterContent a) lambda := by
    unfold relax TAU_SORPTION_S TAU_DESORPTION_S
    split_ifs <;> ring
  obtain ⟨hmin, hmax⟩ :
      min lambda (equilibriumWaterContent a) ≤
          relax (dt / 12) (dt / 45) (equilibriumWaterContent a) lambda ∧
        relax (dt / 12) (dt / 45) (equilibriumWaterContent a) lambda ≤
          max lambda (equilibriumWaterContent a) := relax_mem hup hdown
  have h1 : 1 ≤ relax (dt / 12) (dt / 45) (equilibriumWaterContent a) lambda :=
    (le_min hlambda.1 hlo).trans hmin
  have h14 : relax (dt / 12) (dt / 45) (equilibriumWaterContent a) lambda ≤ 14 :=
    hmax.trans (max_le hlambda.2 hhi)
  show min 14 (max 1 (lambda + dt * ((equilibriumWaterContent a - lambda) /
    if lambda < equilibriumWaterContent a then TAU_SORPTION_S else TAU_DESORPTION_S))) = _
  rw [hraw, max_eq_right h1, min_eq_right h14]

/-- **A short step keeps the order** of two contents and of two activities. -/
theorem step_mono {lambda lambda' a a' dt : K} (hdt : IsShort dt)
    (hlambda : 1 ≤ lambda ∧ lambda ≤ 14) (hlambda' : 1 ≤ lambda' ∧ lambda' ≤ 14)
    (h : lambda ≤ lambda') (ha : a ≤ a') :
    stepMembraneHydration lambda a dt ≤ stepMembraneHydration lambda' a' dt := by
  obtain ⟨hup, hdown⟩ := hdt.shares
  rw [step_eq_relax hdt hlambda, step_eq_relax hdt hlambda']
  exact (relax_le_relax hup hdown h).trans
    (relax_le_of_target_le hup hdown (equilibrium_mono ha))

/-! ## Runs -/

theorem hydrate_mem {lambda : K} (h : 1 ≤ lambda ∧ lambda ≤ 14) (steps : List (K × K)) :
    1 ≤ hydrate lambda steps ∧ hydrate lambda steps ≤ 14 := by
  induction steps generalizing lambda with
  | nil => exact h
  | cons s steps ih => exact ih (step_mem lambda s.1 s.2)

/-- Two runs with the same times, the second one in wetter surroundings. -/
def Wetter : List (K × K) → List (K × K) → Prop :=
  List.Forall₂ fun s s' => s.1 ≤ s'.1 ∧ s.2 = s'.2

/-- **A wetter membrane in wetter surroundings** stays wetter. -/
theorem hydrate_mono {steps steps' : List (K × K)} (hsteps : Wetter steps steps')
    (hshort : ∀ s ∈ steps, IsShort s.2) {lambda lambda' : K} (hlambda : 1 ≤ lambda ∧ lambda ≤ 14)
    (hlambda' : 1 ≤ lambda' ∧ lambda' ≤ 14) (h : lambda ≤ lambda') :
    hydrate lambda steps ≤ hydrate lambda' steps' := by
  induction hsteps generalizing lambda lambda' with
  | nil => exact h
  | @cons s s' steps steps' hs _ ih =>
    obtain ⟨ha, hdt⟩ := hs
    have hmono := step_mono (hshort s List.mem_cons_self) hlambda hlambda' h ha
    rw [hdt] at hmono
    refine ih (fun t ht => hshort t (List.mem_cons_of_mem _ ht)) (step_mem _ _ _)
      (step_mem _ _ _) ?_
    show stepMembraneHydration lambda s.1 s.2 ≤ stepMembraneHydration lambda' s'.1 s'.2
    rw [hdt]
    exact hmono

/-- Equal steps are iterated relaxations. -/
theorem hydrate_replicate {lambda a dt : K} (hdt : IsShort dt) (h : 1 ≤ lambda ∧ lambda ≤ 14)
    (n : ℕ) : hydrate lambda (List.replicate n (a, dt)) =
      (relax (dt / 12) (dt / 45) (equilibriumWaterContent a))^[n] lambda := by
  induction n generalizing lambda with
  | zero => rfl
  | succ n ih =>
    rw [List.replicate_succ, Function.iterate_succ_apply, ← step_eq_relax hdt h a]
    exact ih (step_mem lambda a dt)

/-- **A membrane equilibrates.**  Under a constant activity, in short steps, the content stays
between where it was and the equilibrium, and comes nearer by the slower of the two rates at least;
above saturation the equilibrium is the upper bound. -/
theorem membrane_equilibrates {lambda a dt : ℝ} (hdt : IsShort dt)
    (h : 1 ≤ lambda ∧ lambda ≤ 14) (n : ℕ) :
    let lambdaEq := equilibriumWaterContent a
    let reached := hydrate lambda (List.replicate n (a, dt))
    (min lambda lambdaEq ≤ reached ∧ reached ≤ max lambda lambdaEq) ∧
      |reached - lambdaEq| ≤ (1 - dt / 45) ^ n * |lambda - lambdaEq| ∧
      (1 ≤ a → lambdaEq = 14) := by
  intro lambdaEq reached
  obtain ⟨hup, hdown⟩ := hdt.shares
  have hslow : dt / 45 ≤ dt / 12 :=
    div_le_div_of_nonneg_left hdt.1 (by norm_num) (by norm_num)
  have hreached : reached = (relax (dt / 12) (dt / 45) lambdaEq)^[n] lambda :=
    hydrate_replicate hdt h n
  rw [hreached]
  exact ⟨iterate_mem hup hdown n, abs_iterate_sub_le hup hdown hslow le_rfl n,
    fun ha => equilibrium_saturated ha⟩

/-- A dry membrane in saturated surroundings, ten steps of a second. -/
theorem membrane_equilibrates_dry :
    let reached := hydrate (1 : ℝ) (List.replicate 10 (1, 1))
    (min 1 (equilibriumWaterContent 1) ≤ reached ∧
      reached ≤ max 1 (equilibriumWaterContent (1 : ℝ))) ∧
      |reached - equilibriumWaterContent 1| ≤
        (1 - 1 / 45) ^ 10 * |1 - equilibriumWaterContent (1 : ℝ)| ∧
      ((1 : ℝ) ≤ 1 → equilibriumWaterContent (1 : ℝ) = 14) :=
  membrane_equilibrates ⟨zero_le_one, by norm_num [TAU_SORPTION_S]⟩ ⟨le_rfl, by norm_num⟩ 10

/-! ## The resistance -/

open BatchKernel in
/-- A wetter membrane conducts no worse. -/
theorem conductivity_mono (fluid : FluidData ℝ) {lambda lambda' : ℝ} (h : lambda ≤ lambda')
    (t : ℝ) : (realLib fluid).springerMembraneConductivity lambda t ≤
      (realLib fluid).springerMembraneConductivity lambda' t := by
  simp only [NumLib.springerMembraneConductivity, pyMax_real, pyMin_real, realLib]
  push_cast
  refine mul_le_mul_of_nonneg_right (max_le_max_left _ ?_) (Real.exp_pos _).le
  have hclamped : max 1 (min 14 lambda) ≤ max 1 (min 14 lambda') :=
    max_le_max_left _ (min_le_min_left _ h)
  linarith

open BatchKernel in
/-- **A membrane that is kept wetter** is wetter at the end of every run in short steps, never
leaves the bounds of the content, and has no greater resistance at any temperature. -/
theorem membrane_kept_wetter (fluid : FluidData ℝ) {steps steps' : List (ℝ × ℝ)}
    (hsteps : Wetter steps steps') (hshort : ∀ s ∈ steps, IsShort s.2) {lambda lambda' : ℝ}
    (hlambda : 1 ≤ lambda ∧ lambda ≤ 14) (hlambda' : 1 ≤ lambda' ∧ lambda' ≤ 14)
    (h : lambda ≤ lambda') :
    (1 ≤ hydrate lambda steps ∧ hydrate lambda steps ≤ hydrate lambda' steps' ∧
        hydrate lambda' steps' ≤ 14) ∧
      ∀ t delta r r', 0 ≤ delta →
        (realLib fluid).computeMembraneResistance (hydrate lambda steps) t delta = some r →
          (realLib fluid).computeMembraneResistance (hydrate lambda' steps') t delta = some r' →
            r' ≤ r := by
  have hmono := hydrate_mono hsteps hshort hlambda hlambda' h
  refine ⟨⟨(hydrate_mem hlambda steps).1, hmono, (hydrate_mem hlambda' steps').2⟩, ?_⟩
  intro t delta r r' hdelta hr hr'
  have hpos := @springer_pos_real fluid (hydrate lambda steps) t
  have hpos' := @springer_pos_real fluid (hydrate lambda' steps') t
  rw [NumLib.computeMembraneResistance, divide_real hpos.ne', Option.some.injEq] at hr
  rw [NumLib.computeMembraneResistance, divide_real hpos'.ne', Option.some.injEq] at hr'
  rw [← hr, ← hr']
  exact div_le_div_of_nonneg_left hdelta hpos (conductivity_mono fluid hmono t)

/-- A second in dry and one in saturated surroundings. -/
theorem membrane_kept_wetter_second :
    1 ≤ hydrate (5 : ℝ) [(0, 1)] ∧ hydrate (5 : ℝ) [(0, 1)] ≤ hydrate (5 : ℝ) [(1, 1)] ∧
      hydrate (5 : ℝ) [(1, 1)] ≤ 14 := by
  have hwetter : Wetter [((0 : ℝ), (1 : ℝ))] [(1, 1)] := .cons ⟨zero_le_one, rfl⟩ .nil
  refine (membrane_kept_wetter BatchKernel.noFluids hwetter (fun s hs => ?_) ?_ ?_ le_rfl).1
  · rw [List.mem_singleton.mp hs]
    exact ⟨zero_le_one, by norm_num [TAU_SORPTION_S]⟩
  · norm_num
  · norm_num

end MembraneHydration

end MatrixFactory
