/-
# The pressure of a density

`lookup_pressure_from_density` inverts the density table of a temperature by bisection, with the
lowest pressure below the table and the ideal gas above it; the tank takes its pressure from there.

Below the largest density of the table the pressure never falls as the density rises, and neither
does it from there on.  At that density itself it falls where the real gas needs a higher pressure
than the ideal one.
-/
import MatrixFactory.Lib.Bisection
import MatrixFactory.Lib.Numerals
import Mathlib.Topology.Order.IntermediateValue
import Mathlib.Topology.Order.OrderClosed
import Mathlib.Topology.Instances.Real.Lemmas

namespace MatrixFactory

open Bisection Topology
open scoped Numerals

namespace LUTManager

/-! ## The code -/

/-- What the inversion reads: the range of the pressures and `lookup` of the density. -/
structure DensityLookup (K : Type) where
  pMin : K
  pMax : K
  /-- The density at a pressure and a temperature. -/
  lookup : K → K → K

section code

variable {K : Type} [Field K] [LinearOrder K]

/-- `GasConstants.R_H2`. -/
def R_H2 : K := 41242 / 10

/-- The default of `tol_rel`. -/
def tolRel : K := 1 / 10 ^ 4

/-- The default of `max_iter`. -/
def maxIter : ℕ := 30

/-- The iterations of the bisection. -/
def invertLoop (density : K → K) (rho tol_rel : K) : ℕ → K → K → K
  | 0, p_lo, p_hi => 1 / 2 * (p_lo + p_hi)
  | n + 1, p_lo, p_hi =>
    let p_mid := 1 / 2 * (p_lo + p_hi)
    let d_mid := density p_mid
    if |d_mid - rho| / rho < tol_rel then p_mid
    else if d_mid < rho then invertLoop density rho tol_rel n p_mid p_hi
    else invertLoop density rho tol_rel n p_lo p_mid

def lookupPressureFromDensity (m : DensityLookup K) (rho temperature : K) : K :=
  let d_lo := m.lookup m.pMin temperature
  let d_hi := m.lookup m.pMax temperature
  if rho ≤ d_lo then m.pMin
  else if rho ≥ d_hi then rho * R_H2 * temperature
  else invertLoop (m.lookup · temperature) rho tolRel maxIter m.pMin m.pMax

end code

/-! ## The answers of the midpoints -/

/-- What a midpoint's density says of the pressure: too low, near enough or too high. -/
noncomputable def answer (density : ℝ → ℝ) (rho tol_rel p : ℝ) : SignType :=
  if |density p - rho| / rho < tol_rel then 0 else if density p < rho then -1 else 1

theorem invertLoop_eq (density : ℝ → ℝ) (rho tol_rel : ℝ) (n : ℕ) (p_lo p_hi : ℝ) :
    invertLoop density rho tol_rel n p_lo p_hi =
      bisect (answer density rho tol_rel) n p_lo p_hi := by
  induction n generalizing p_lo p_hi with
  | zero => rfl
  | succ n ih =>
    rw [invertLoop, bisect, answer]
    show (if |density (mid p_lo p_hi) - rho| / rho < tol_rel then mid p_lo p_hi
      else if density (mid p_lo p_hi) < rho then
        invertLoop density rho tol_rel n (mid p_lo p_hi) p_hi
      else invertLoop density rho tol_rel n p_lo (mid p_lo p_hi)) = _
    rw [ih, ih]
    split_ifs <;> rfl

variable {density : ℝ → ℝ} {rho rho' tol_rel p : ℝ}

theorem near_iff (hrho : 0 < rho) : |density p - rho| / rho < tol_rel ↔
    (1 - tol_rel) * rho < density p ∧ density p < (1 + tol_rel) * rho := by
  rw [div_lt_iff₀ hrho, abs_lt]
  constructor <;> rintro ⟨h₁, h₂⟩ <;> constructor <;> linarith

/-- **The answers** by the density. -/
theorem answer_zero (hrho : 0 < rho) (hlow : (1 - tol_rel) * rho < density p)
    (hhigh : density p < (1 + tol_rel) * rho) : answer density rho tol_rel p = 0 :=
  if_pos ((near_iff hrho).mpr ⟨hlow, hhigh⟩)

theorem answer_neg (hrho : 0 < rho) (htol : 0 < tol_rel) (h : density p ≤ (1 - tol_rel) * rho) :
    answer density rho tol_rel p = -1 := by
  have hless : 0 < tol_rel * rho := mul_pos htol hrho
  rw [answer, if_neg fun hnear => ((near_iff hrho).mp hnear).1.not_ge h, if_pos (by linarith)]

theorem answer_pos (hrho : 0 < rho) (htol : 0 < tol_rel) (h : (1 + tol_rel) * rho ≤ density p) :
    answer density rho tol_rel p = 1 := by
  have hmore : 0 < tol_rel * rho := mul_pos htol hrho
  rw [answer, if_neg fun hnear => ((near_iff hrho).mp hnear).2.not_ge h, if_neg (by linarith)]

theorem near_of_answer (h : answer density rho tol_rel p = 0) :
    |density p - rho| / rho < tol_rel := by
  unfold answer at h
  split_ifs at h with hnear
  exact hnear

theorem lt_of_answer (h : answer density rho tol_rel p = -1) : density p < rho := by
  unfold answer at h
  split_ifs at h with hnear hless
  exact hless

theorem le_of_answer (h : answer density rho tol_rel p = 1) : rho ≤ density p := by
  unfold answer at h
  split_ifs at h with hnear hless
  exact not_lt.mp hless

/-- **A higher target** never has a higher answer. -/
theorem answer_le_answer (hrho : 0 < rho) (hle : rho ≤ rho') (htol : 0 < tol_rel)
    (htol' : tol_rel ≤ 1) (p : ℝ) :
    answer density rho' tol_rel p ≤ answer density rho tol_rel p := by
  have hrho' : 0 < rho' := hrho.trans_le hle
  have hlow : (1 - tol_rel) * rho ≤ (1 - tol_rel) * rho' :=
    mul_le_mul_of_nonneg_left hle (sub_nonneg.mpr htol')
  have hhigh : (1 + tol_rel) * rho ≤ (1 + tol_rel) * rho' :=
    mul_le_mul_of_nonneg_left hle (by linarith)
  rcases le_or_gt (density p) ((1 - tol_rel) * rho) with h₁ | h₁
  · rw [answer_neg hrho' htol (h₁.trans hlow)]
    exact SignType.neg_one_le _
  · rcases lt_or_ge (density p) ((1 + tol_rel) * rho) with h₂ | h₂
    · rw [answer_zero hrho h₁ h₂]
      rcases le_or_gt (density p) ((1 - tol_rel) * rho') with h₃ | h₃
      · rw [answer_neg hrho' htol h₃]
        decide
      · rw [answer_zero hrho' h₃ (h₂.trans_le hhigh)]
    · rw [answer_pos hrho htol h₂]
      exact SignType.le_one _

/-! ## The table of a temperature -/

/-- The density at a temperature rises continuously over the range of the pressures. -/
structure DensityLookup.Increasing (m : DensityLookup ℝ) (temperature : ℝ) : Prop where
  range : m.pMin < m.pMax
  continuous : ContinuousOn (m.lookup · temperature) (Set.Icc m.pMin m.pMax)
  strictMono : StrictMonoOn (m.lookup · temperature) (Set.Icc m.pMin m.pMax)

/-- The smallest density. -/
def DensityLookup.dLo (m : DensityLookup ℝ) (temperature : ℝ) : ℝ := m.lookup m.pMin temperature

/-- The largest density. -/
def DensityLookup.dHi (m : DensityLookup ℝ) (temperature : ℝ) : ℝ := m.lookup m.pMax temperature

/-- The answers about a target just below the largest density. -/
noncomputable def topAnswer (density : ℝ → ℝ) (d_hi tol_rel p : ℝ) : SignType :=
  if (1 - tol_rel) * d_hi ≤ density p then 0 else -1

/-- The pressure that the bisection comes to as the target nears the largest density from below:
its first midpoint that is within the tolerance of that density. -/
noncomputable def DensityLookup.topPressure (m : DensityLookup ℝ) (temperature : ℝ) : ℝ :=
  bisect (topAnswer (m.lookup · temperature) (m.dHi temperature) tolRel) maxIter m.pMin m.pMax

variable {m : DensityLookup ℝ} {temperature : ℝ}

theorem tolRel_pos : (0 : ℝ) < tolRel := by norm_num [tolRel]

theorem tolRel_lt_one : (tolRel : ℝ) < 1 := by norm_num [tolRel]

theorem DensityLookup.Increasing.dLo_lt_dHi (h : m.Increasing temperature) :
    m.dLo temperature < m.dHi temperature :=
  h.strictMono (Set.left_mem_Icc.mpr h.range.le) (Set.right_mem_Icc.mpr h.range.le) h.range

theorem lookupPressure_low (hrho : rho ≤ m.dLo temperature) :
    lookupPressureFromDensity m rho temperature = m.pMin := if_pos hrho

theorem lookupPressure_high (h : m.Increasing temperature) (hrho : m.dHi temperature ≤ rho) :
    lookupPressureFromDensity m rho temperature = rho * R_H2 * temperature := by
  have hlow : ¬rho ≤ m.lookup m.pMin temperature := (h.dLo_lt_dHi.trans_le hrho).not_ge
  rw [lookupPressureFromDensity, if_neg hlow]
  exact if_pos hrho

theorem lookupPressure_inside (hlow : m.dLo temperature < rho) (hhigh : rho < m.dHi temperature) :
    lookupPressureFromDensity m rho temperature =
      bisect (answer (m.lookup · temperature) rho tolRel) maxIter m.pMin m.pMax := by
  rw [← invertLoop_eq, lookupPressureFromDensity]
  exact (if_neg hlow.not_ge).trans (if_neg hhigh.not_ge)

/-- **Below the largest density** the pressure never falls. -/
theorem lookupPressure_le (h : m.Increasing temperature) (hrho : 0 < rho) (hle : rho ≤ rho')
    (hrho' : rho' < m.dHi temperature) : lookupPressureFromDensity m rho temperature ≤
      lookupPressureFromDensity m rho' temperature := by
  rcases le_or_gt rho (m.dLo temperature) with hlow | hlow
  · rw [lookupPressure_low hlow]
    rcases le_or_gt rho' (m.dLo temperature) with hlow' | hlow'
    · rw [lookupPressure_low hlow']
    · rw [lookupPressure_inside hlow' hrho']
      exact (bisect_mem _ maxIter h.range).1.le
  · rw [lookupPressure_inside hlow (hle.trans_lt hrho'),
      lookupPressure_inside (hlow.trans_le hle) hrho']
    exact bisect_le_bisect (answer_le_answer hrho hle tolRel_pos tolRel_lt_one.le) maxIter h.range

/-- **Just below the largest density** the pressure is the top pressure. -/
theorem eventually_topPressure (h : m.Increasing temperature) (hpos : 0 < m.dHi temperature) :
    ∀ᶠ rho in 𝓝[<] m.dHi temperature,
      lookupPressureFromDensity m rho temperature = m.topPressure temperature := by
  have hanswers : ∀ p, m.pMin < p → p < m.pMax → ∀ᶠ rho in 𝓝[<] m.dHi temperature,
      answer (m.lookup · temperature) rho tolRel p =
        topAnswer (m.lookup · temperature) (m.dHi temperature) tolRel p := by
    intro p hlow hhigh
    have hless : m.lookup p temperature < m.dHi temperature :=
      h.strictMono ⟨hlow.le, hhigh.le⟩ (Set.right_mem_Icc.mpr h.range.le) hhigh
    have htol : (0 : ℝ) < 1 - tolRel := sub_pos.mpr tolRel_lt_one
    rcases le_or_gt ((1 - tolRel) * m.dHi temperature) (m.lookup p temperature) with hnear | hfar
    · filter_upwards [Ioo_mem_nhdsLT (max_lt hpos hless)] with rho hrho
      obtain ⟨hrho₀, hrho₁⟩ := max_lt_iff.mp hrho.1
      have hlow : (1 - tolRel) * rho < m.lookup p temperature :=
        (mul_lt_mul_of_pos_left hrho.2 htol).trans_le hnear
      have hmore : 0 < tolRel * rho := mul_pos tolRel_pos hrho₀
      exact (answer_zero hrho₀ hlow (by linarith)).trans (if_pos hnear).symm
    · have hstart : m.lookup p temperature / (1 - tolRel) < m.dHi temperature := by
        rwa [div_lt_iff₀ htol, mul_comm]
      filter_upwards [Ioo_mem_nhdsLT (max_lt hpos hstart)] with rho hrho
      obtain ⟨hrho₀, hrho₁⟩ := max_lt_iff.mp hrho.1
      have hfar' : m.lookup p temperature ≤ (1 - tolRel) * rho := by
        rw [div_lt_iff₀ htol, mul_comm] at hrho₁
        exact hrho₁.le
      exact (answer_neg hrho₀ tolRel_pos hfar').trans (if_neg hfar.not_ge).symm
  filter_upwards [bisect_eventually maxIter h.range hanswers, self_mem_nhdsWithin,
    Ioo_mem_nhdsLT h.dLo_lt_dHi] with rho hbisect hlt hmem
  rw [lookupPressure_inside hmem.1 hlt, hbisect]
  rfl

/-- The ideal gas above the table is monotone, at a temperature above absolute zero. -/
theorem lookupPressure_ideal (h : m.Increasing temperature) :
    MonotoneOn (lookupPressureFromDensity m · temperature)
      (Set.Ioi 0 ∩ Set.Ici (m.dHi temperature)) ↔ 0 ≤ temperature := by
  have hgas : (0 : ℝ) < R_H2 := by norm_num [R_H2]
  have hvalue : ∀ {rho}, m.dHi temperature ≤ rho →
      lookupPressureFromDensity m rho temperature = rho * R_H2 * temperature :=
    fun hrho => lookupPressure_high h hrho
  constructor
  · intro hmono
    obtain ⟨rho, hrho⟩ : ∃ rho, rho ∈ Set.Ioi 0 ∩ Set.Ici (m.dHi temperature) :=
      ⟨max 1 (m.dHi temperature), Set.mem_Ioi.mpr (lt_max_of_lt_left one_pos),
        Set.mem_Ici.mpr (le_max_right 1 (m.dHi temperature))⟩
    have hrho' : rho + 1 ∈ Set.Ioi 0 ∩ Set.Ici (m.dHi temperature) :=
      ⟨Set.mem_Ioi.mpr (add_pos hrho.1 one_pos),
        Set.mem_Ici.mpr (le_add_of_le_of_nonneg (Set.mem_Ici.mp hrho.2) one_pos.le)⟩
    have hle := hmono hrho hrho' (le_add_of_nonneg_right one_pos.le)
    simp only [hvalue hrho.2, hvalue hrho'.2] at hle
    by_contra hneg
    have hless : R_H2 * temperature < 0 := mul_neg_of_pos_of_neg hgas (not_le.mp hneg)
    linarith
  · intro htemperature rho hrho rho' hrho' hle
    simp only [hvalue hrho.2, hvalue hrho'.2]
    exact mul_le_mul_of_nonneg_right (mul_le_mul_of_nonneg_right hle hgas.le) htemperature

/-- **The whole range of densities**: the ideal gas must not start below the top pressure. -/
theorem lookupPressure_monotone_iff (h : m.Increasing temperature) :
    MonotoneOn (lookupPressureFromDensity m · temperature) (Set.Ioi 0) ↔ 0 ≤ temperature ∧
      (0 < m.dHi temperature →
        m.topPressure temperature ≤ m.dHi temperature * R_H2 * temperature) := by
  have hnear : 0 < m.dHi temperature → ∀ rho < m.dHi temperature, ∃ rho' < m.dHi temperature,
      0 < rho' ∧ rho ≤ rho' ∧
        lookupPressureFromDensity m rho' temperature = m.topPressure temperature := by
    intro hpos rho hrho
    have hev := (eventually_topPressure h hpos).and (Ioo_mem_nhdsLT (max_lt hpos hrho))
    obtain ⟨rho', htop, hmem⟩ := hev.exists
    obtain ⟨hpos', hle⟩ := max_lt_iff.mp hmem.1
    exact ⟨rho', hmem.2, hpos', hle.le, htop⟩
  constructor
  · intro hmono
    refine ⟨(lookupPressure_ideal h).mp (hmono.mono Set.inter_subset_left), fun hpos => ?_⟩
    obtain ⟨rho, hrho, hpos', -, htop⟩ := hnear hpos _ h.dLo_lt_dHi
    have hle := hmono hpos' hpos hrho.le
    simp only [htop, lookupPressure_high h le_rfl] at hle
    exact hle
  · rintro ⟨htemperature, hjoint⟩ rho hrho rho' hrho' hle
    have hgas : (0 : ℝ) ≤ R_H2 := by norm_num [R_H2]
    rcases lt_or_ge rho' (m.dHi temperature) with hrho₁' | hrho₁'
    · exact lookupPressure_le h hrho hle hrho₁'
    · rcases lt_or_ge rho (m.dHi temperature) with hrho₁ | hrho₁
      · have hpos : 0 < m.dHi temperature := lt_trans hrho hrho₁
        obtain ⟨rho₂, hrho₂, -, hle₂, htop⟩ := hnear hpos rho hrho₁
        calc lookupPressureFromDensity m rho temperature
            ≤ lookupPressureFromDensity m rho₂ temperature :=
              lookupPressure_le h hrho hle₂ hrho₂
          _ = m.topPressure temperature := htop
          _ ≤ m.dHi temperature * R_H2 * temperature := hjoint hpos
          _ ≤ rho' * R_H2 * temperature :=
              mul_le_mul_of_nonneg_right (mul_le_mul_of_nonneg_right hrho₁' hgas) htemperature
          _ = lookupPressureFromDensity m rho' temperature := (lookupPressure_high h hrho₁').symm
      · exact (lookupPressure_ideal h).mpr htemperature ⟨hrho, hrho₁⟩ ⟨hrho', hrho₁'⟩ hle

/-- **The accuracy** inside the table. -/
theorem lookupPressure_accuracy (h : m.Increasing temperature) (hrho : 0 < rho)
    (hlow : m.dLo temperature ≤ rho) (hhigh : rho < m.dHi temperature) :
    ∃ p ∈ Set.Icc m.pMin m.pMax, m.lookup p temperature = rho ∧
      (|m.lookup (lookupPressureFromDensity m rho temperature) temperature - rho| / rho < tolRel ∨
        |lookupPressureFromDensity m rho temperature - p| ≤ (m.pMax - m.pMin) / 2 ^ 30) := by
  obtain ⟨p, hp, hvalue⟩ := intermediate_value_Icc h.range.le h.continuous ⟨hlow, hhigh.le⟩
  refine ⟨p, hp, hvalue, ?_⟩
  rcases hlow.lt_or_eq with hlow | rfl
  · -- a midpoint's answer is about the pressure of the target
    have hneg : ∀ q, m.pMin < q → q < m.pMax →
        answer (m.lookup · temperature) rho tolRel q = -1 → q ≤ p := by
      intro q hq hq' hanswer
      have hless : m.lookup q temperature < m.lookup p temperature :=
        (lt_of_answer hanswer).trans_eq hvalue.symm
      exact ((h.strictMono.lt_iff_lt ⟨hq.le, hq'.le⟩ hp).mp hless).le
    have hpos : ∀ q, m.pMin < q → q < m.pMax →
        answer (m.lookup · temperature) rho tolRel q = 1 → p ≤ q := by
      intro q hq hq' hanswer
      have hmore : m.lookup p temperature ≤ m.lookup q temperature :=
        hvalue.trans_le (le_of_answer hanswer)
      exact (h.strictMono.le_iff_le hp ⟨hq.le, hq'.le⟩).mp hmore
    rw [lookupPressure_inside hlow hhigh]
    refine (bisect_accuracy maxIter h.range hneg hpos hp.1 hp.2).imp near_of_answer
      fun hclose => hclose.trans ?_
    have hwidth : 0 ≤ m.pMax - m.pMin := sub_nonneg.mpr h.range.le
    exact div_le_div_of_nonneg_left hwidth (by norm_num) (by norm_num [maxIter])
  · refine .inl ?_
    have hexact : m.lookup (lookupPressureFromDensity m (m.dLo temperature) temperature)
        temperature = m.dLo temperature := by
      rw [lookupPressure_low le_rfl]
      rfl
    rw [hexact, sub_self, abs_zero, zero_div]
    exact tolRel_pos

/-- **The pressure of a density** is monotone below the largest density of the table and from it
on, over all densities iff the ideal gas does not start below the top pressure, and accurate inside
the table. -/
theorem lookupPressure_spec (m : DensityLookup ℝ) (temperature : ℝ)
    (h : m.Increasing temperature) :
    MonotoneOn (lookupPressureFromDensity m · temperature) (Set.Ioo 0 (m.dHi temperature)) ∧
      (MonotoneOn (lookupPressureFromDensity m · temperature)
        (Set.Ioi 0 ∩ Set.Ici (m.dHi temperature)) ↔ 0 ≤ temperature) ∧
      (MonotoneOn (lookupPressureFromDensity m · temperature) (Set.Ioi 0) ↔ 0 ≤ temperature ∧
        (0 < m.dHi temperature →
          m.topPressure temperature ≤ m.dHi temperature * R_H2 * temperature)) ∧
      ∀ rho, 0 < rho → m.dLo temperature ≤ rho → rho < m.dHi temperature →
        ∃ p ∈ Set.Icc m.pMin m.pMax, m.lookup p temperature = rho ∧
          (|m.lookup (lookupPressureFromDensity m rho temperature) temperature - rho| / rho <
              tolRel ∨
            |lookupPressureFromDensity m rho temperature - p| ≤ (m.pMax - m.pMin) / 2 ^ 30) := by
  refine ⟨?_, lookupPressure_ideal h, lookupPressure_monotone_iff h,
    fun rho hrho hlow hhigh => lookupPressure_accuracy h hrho hlow hhigh⟩
  intro rho hrho rho' hrho' hle
  exact lookupPressure_le h hrho.1 hle hrho'.2

/-- A gas of a constant compressibility between 0.5 and 450 bar. -/
noncomputable def gasOfCompressibility (z : ℝ) : DensityLookup ℝ :=
  ⟨50000, 45000000, fun p temperature => p / (z * R_H2 * temperature)⟩

theorem increasing_gas {z : ℝ} (hz : 0 < z) : (gasOfCompressibility z).Increasing 300 := by
  have hgas : (0 : ℝ) < R_H2 := by norm_num [R_H2]
  have hpos : 0 < z * R_H2 * 300 := mul_pos (mul_pos hz hgas) (by norm_num)
  refine ⟨?_, ?_, ?_⟩
  · show (50000 : ℝ) < 45000000
    norm_num
  · exact (continuous_id.div_const _).continuousOn
  · intro p _ p' _ hp
    exact div_lt_div_of_pos_right hp hpos

/-- The pressure of an ideal gas is monotone over all densities. -/
theorem lookupPressure_spec_ideal :
    MonotoneOn (lookupPressureFromDensity (gasOfCompressibility 1) · 300) (Set.Ioi 0) := by
  have hincreasing := increasing_gas one_pos
  refine (lookupPressure_spec _ 300 hincreasing).2.2.1.mpr ⟨by norm_num, fun _ => ?_⟩
  have hlast : (45000000 : ℝ) = (gasOfCompressibility 1).dHi 300 * R_H2 * 300 := by
    norm_num [DensityLookup.dHi, gasOfCompressibility, R_H2]
  exact (bisect_mem _ maxIter hincreasing.range).2.le.trans_eq hlast

/-- A gas with the compressibility 1.25, about that of hydrogen at 450 bar: at the largest density
the pressure falls from over 390 to 360 bar. -/
theorem not_lookupPressure_monotone : (gasOfCompressibility (5 / 4)).Increasing 300 ∧
    ¬MonotoneOn (lookupPressureFromDensity (gasOfCompressibility (5 / 4)) · 300) (Set.Ioi 0) := by
  have hincreasing : (gasOfCompressibility (5 / 4)).Increasing 300 := increasing_gas (by norm_num)
  refine ⟨hincreasing, fun hmono => ?_⟩
  have hdensity : ∀ p, (gasOfCompressibility (5 / 4)).lookup p 300 = p / 1546575 := by
    intro p
    norm_num [gasOfCompressibility, R_H2]
  have hlow : (gasOfCompressibility (5 / 4)).dLo 300 = 50000 / 1546575 := hdensity 50000
  have hhigh : (gasOfCompressibility (5 / 4)).dHi 300 = 45000000 / 1546575 := hdensity 45000000
  have hrho : (0 : ℝ) < 39381250 / 1546575 := by norm_num
  have htoo : ∀ p, p ≤ 39000000 → answer ((gasOfCompressibility (5 / 4)).lookup · 300)
      (39381250 / 1546575) tolRel p = -1 := by
    intro p hp
    refine answer_neg hrho tolRel_pos ?_
    show (gasOfCompressibility (5 / 4)).lookup p 300 ≤ _
    rw [hdensity, tolRel]
    linarith
  have hnear : answer ((gasOfCompressibility (5 / 4)).lookup · 300) (39381250 / 1546575) tolRel
      39381250 = 0 := by
    refine answer_zero hrho ?_ ?_ <;>
      · show _ < _
        norm_num [hdensity, tolRel]
  -- the third midpoint
  have hcode : lookupPressureFromDensity (gasOfCompressibility (5 / 4)) (39381250 / 1546575) 300 =
      39381250 := by
    have hfirst : mid (50000 : ℝ) 45000000 = 22525000 := by norm_num [mid]
    have hsecond : mid (22525000 : ℝ) 45000000 = 33762500 := by norm_num [mid]
    have hthird : mid (33762500 : ℝ) 45000000 = 39381250 := by norm_num [mid]
    rw [lookupPressure_inside (by rw [hlow]; norm_num) (by rw [hhigh]; norm_num)]
    show bisect _ (29 + 1) 50000 45000000 = _
    rw [bisect_neg 29 (hfirst ▸ htoo _ (by norm_num)), hfirst,
      bisect_neg 28 (hsecond ▸ htoo _ (by norm_num)), hsecond,
      bisect_zero 27 (hthird ▸ hnear), hthird]
  have hideal : lookupPressureFromDensity (gasOfCompressibility (5 / 4)) (45000000 / 1546575) 300 =
      36000000 := by
    rw [lookupPressure_high hincreasing hhigh.le]
    norm_num [R_H2]
  have hle := hmono hrho (show (0 : ℝ) < 45000000 / 1546575 by norm_num) (by norm_num)
  simp only [hcode, hideal] at hle
  norm_num at hle

end LUTManager

end MatrixFactory
