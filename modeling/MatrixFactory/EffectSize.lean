/-
# The effect size of a metric

`analyze_metric` of `analyze_results.py`.  A normality test chooses between two tests of the arms,
and each of them comes with an effect size of its own: Cohen's d is positive where the first arm is
above, and the rank-biserial r is made of the first arm's U, where it is negative.
-/
import MatrixFactory.Lib.NanNumber
import MatrixFactory.Lib.TwoSamples
import MatrixFactory.Lib.Numerals
import Mathlib.Analysis.Real.Sqrt
import Mathlib.Analysis.SpecialFunctions.Trigonometric.Basic

namespace MatrixFactory

open NanNumber TwoSamples
open scoped Numerals

/-! ## What `scipy.stats` returns -/

/-- The functions of `scipy.stats` that the analysis calls; a test returns its statistic and its p
value. -/
structure ScipyStats where
  shapiro : List ℝ → NanNumber ℝ × NanNumber ℝ
  ttestInd : List ℝ → List ℝ → NanNumber ℝ × NanNumber ℝ
  mannwhitneyu : List ℝ → List ℝ → NanNumber ℝ × NanNumber ℝ
  bootstrap : List ℝ → ℕ → ℝ → NanNumber ℝ × NanNumber ℝ
  sem : List ℝ → NanNumber ℝ
  tPpf : ℝ → ℕ → NanNumber ℝ

/-- `mannwhitneyu` returns the U of its first argument. -/
def ScipyStats.ReturnsFirstU (stats : ScipyStats) : Prop :=
  ∀ a b, (stats.mannwhitneyu a b).1 = num (points a b)

noncomputable section

/-! ## The statistics of a sample -/

/-- `np.mean` -/
def npMean (sample : List ℝ) : NanNumber ℝ :=
  if sample = [] then nan else num (mean sample)

/-- `var(ddof=1)` -/
def npVar (sample : List ℝ) : NanNumber ℝ :=
  if sample.length ≤ 1 then nan else num (squares sample / (sample.length - 1))

/-- `np.sqrt` of a value that is not negative -/
def npSqrt (x : NanNumber ℝ) : NanNumber ℝ := x.map Real.sqrt

/-- `bootstrap_ci` -/
def bootstrapCi (stats : ScipyStats) (sample : List ℝ) (nResamples : ℕ) (confidence : ℝ) :
    NanNumber ℝ × NanNumber ℝ :=
  if sample.length < 3 then
    if sample.length < 2 then (nan, nan)
    else
      let m := npMean sample
      let se := stats.sem sample
      let tCrit := stats.tPpf ((1 + confidence) / 2) (sample.length - 1)
      (m - tCrit * se, m + tCrit * se)
  else stats.bootstrap sample nResamples confidence

/-! ## The effect sizes -/

/-- `cohens_d` -/
def cohensD (a b : List ℝ) : NanNumber ℝ :=
  let na : ℝ := a.length
  let nb : ℝ := b.length
  let pooledSd := npSqrt ((num (na - 1) * npVar a + num (nb - 1) * npVar b) / num (na + nb - 2))
  open Classical in
  if pooledSd = num 0 then nan else (npMean a - npMean b) / pooledSd

/-- `rank_biserial_r` -/
def rankBiserialR (uStat : NanNumber ℝ) (na nb : ℕ) : NanNumber ℝ :=
  num 1 - num 2 * uStat / num ((na * nb : ℕ) : ℝ)

/-- The test that was made, and its effect size. -/
structure TestResult where
  test : String
  testStatistic : NanNumber ℝ
  pValue : NanNumber ℝ
  effectSizeName : String
  effectSize : NanNumber ℝ

/-- What `analyze_metric` returns. -/
structure MetricResult extends TestResult where
  metric : String
  prosaN : ℕ
  adacorN : ℕ
  prosaMean : NanNumber ℝ
  adacorMean : NanNumber ℝ
  prosaStd : NanNumber ℝ
  adacorStd : NanNumber ℝ
  prosaCi95 : NanNumber ℝ × NanNumber ℝ
  adacorCi95 : NanNumber ℝ × NanNumber ℝ
  shapiroPProsa : NanNumber ℝ
  shapiroPAdacor : NanNumber ℝ

/-- The p values of the normality test, which takes three values at least. -/
def shapiroPs (stats : ScipyStats) (prosa adacor : List ℝ) : NanNumber ℝ × NanNumber ℝ :=
  if 3 ≤ prosa.length ∧ 3 ≤ adacor.length then
    ((stats.shapiro prosa).2, (stats.shapiro adacor).2)
  else (nan, nan)

/-- `both_normal` -/
def ScipyStats.BothNormal (stats : ScipyStats) (prosa adacor : List ℝ) : Prop :=
  (3 ≤ prosa.length ∧ 3 ≤ adacor.length) ∧
    num 0.05 < (stats.shapiro prosa).2 ∧ num 0.05 < (stats.shapiro adacor).2

open Classical in
/-- The part of `analyze_metric` from the choice of the test on. -/
def chosenTest (stats : ScipyStats) (prosa adacor : List ℝ) : TestResult :=
  if stats.BothNormal prosa adacor then
    let (stat, p) := stats.ttestInd prosa adacor
    { test := "Welch's t-test"
      testStatistic := stat
      pValue := p
      effectSizeName := "Cohen's d"
      effectSize := cohensD prosa adacor }
  else
    let (stat, p) := stats.mannwhitneyu prosa adacor
    { test := "Mann-Whitney U"
      testStatistic := stat
      pValue := p
      effectSizeName := "rank-biserial r"
      effectSize := rankBiserialR stat prosa.length adacor.length }

/-- `analyze_metric` -/
def analyzeMetric (stats : ScipyStats) (prosa adacor : List ℝ) (metricName : String) :
    MetricResult where
  metric := metricName
  prosaN := prosa.length
  adacorN := adacor.length
  prosaMean := npMean prosa
  adacorMean := npMean adacor
  prosaStd := if 1 < prosa.length then npSqrt (npVar prosa) else num 0
  adacorStd := if 1 < adacor.length then npSqrt (npVar adacor) else num 0
  prosaCi95 := bootstrapCi stats prosa 9999 0.95
  adacorCi95 := bootstrapCi stats adacor 9999 0.95
  shapiroPProsa := (shapiroPs stats prosa adacor).1
  shapiroPAdacor := (shapiroPs stats prosa adacor).2
  toTestResult := chosenTest stats prosa adacor

end

/-! ## Cohen's d -/

variable {a b : List ℝ}

theorem one_lt_cast (ha : 2 ≤ a.length) : (1 : ℝ) < a.length := by
  exact_mod_cast ha

theorem ne_nil_of_two_le (ha : 2 ≤ a.length) : a ≠ [] :=
  List.ne_nil_of_length_pos (Nat.lt_of_lt_of_le Nat.two_pos ha)

theorem npMean_eq (ha : 2 ≤ a.length) : npMean a = num (mean a) :=
  if_neg (ne_nil_of_two_le ha)

/-- The pooled standard deviation of `cohens_d`. -/
noncomputable def pooledSd (a b : List ℝ) : ℝ :=
  Real.sqrt ((squares a + squares b) / (a.length + b.length - 2))

theorem pooledSd_comm (a b : List ℝ) : pooledSd a b = pooledSd b a := by
  rw [pooledSd, pooledSd, add_comm (squares a), add_comm (a.length : ℝ)]

/-- Nothing is left to divide by iff both samples are constant. -/
theorem pooledSd_eq_zero_iff (ha : 2 ≤ a.length) (hb : 2 ≤ b.length) :
    pooledSd a b = 0 ↔ Constant a ∧ Constant b := by
  have hpos : (0 : ℝ) < a.length + b.length - 2 := by
    linarith [one_lt_cast ha, one_lt_cast hb]
  have hsquares : 0 ≤ squares a + squares b := add_nonneg (squares_nonneg a) (squares_nonneg b)
  rw [pooledSd, Real.sqrt_eq_zero (div_nonneg hsquares hpos.le), div_eq_zero_iff,
    or_iff_left hpos.ne', add_eq_zero_iff_of_nonneg (squares_nonneg a) (squares_nonneg b),
    squares_eq_zero_iff, squares_eq_zero_iff]

/-- What `cohens_d` divides by. -/
theorem npSqrt_pooled (ha : 2 ≤ a.length) (hb : 2 ≤ b.length) :
    npSqrt ((num (a.length - 1 : ℝ) * npVar a + num (b.length - 1 : ℝ) * npVar b) /
      num (a.length + b.length - 2 : ℝ)) = num (pooledSd a b) := by
  have hvar : ∀ {l : List ℝ}, 2 ≤ l.length → num (l.length - 1 : ℝ) * npVar l = num (squares l) := by
    intro l hl
    have hne : (l.length - 1 : ℝ) ≠ 0 := by linarith [one_lt_cast hl]
    rw [npVar, if_neg (by omega), num_mul, mul_div_cancel₀ _ hne]
  rw [hvar ha, hvar hb, num_add, num_div]
  rfl

theorem cohensD_constant (ha : 2 ≤ a.length) (hb : 2 ≤ b.length) (h : Constant a ∧ Constant b) :
    cohensD a b = nan := by
  unfold cohensD
  dsimp only
  rw [npSqrt_pooled ha hb, if_pos (congrArg num ((pooledSd_eq_zero_iff ha hb).mpr h))]

theorem cohensD_eq (ha : 2 ≤ a.length) (hb : 2 ≤ b.length) (h : ¬(Constant a ∧ Constant b)) :
    cohensD a b = num ((mean a - mean b) / pooledSd a b) := by
  unfold cohensD
  dsimp only
  rw [npSqrt_pooled ha hb, if_neg, npMean_eq ha, npMean_eq hb]
  · rfl
  · intro hzero
    injection hzero with hzero
    exact h ((pooledSd_eq_zero_iff ha hb).mp hzero)

/-- Cohen's d of the arms the other way round. -/
theorem cohensD_swap (ha : 2 ≤ a.length) (hb : 2 ≤ b.length) : cohensD b a = -cohensD a b := by
  by_cases h : Constant a ∧ Constant b
  · rw [cohensD_constant ha hb h, cohensD_constant hb ha h.symm, neg_nan]
  · have h' : ¬(Constant b ∧ Constant a) := fun hba => h hba.symm
    rw [cohensD_eq ha hb h, cohensD_eq hb ha h', neg_num, pooledSd_comm b a, ← neg_div, neg_sub]

/-- Cohen's d is positive where the first arm is above. -/
theorem cohensD_pos_iff (ha : 2 ≤ a.length) (hb : 2 ≤ b.length) (h : Above a b) :
    num 0 < cohensD a b ↔ ¬(Constant a ∧ Constant b) := by
  by_cases hconst : Constant a ∧ Constant b
  · rw [cohensD_constant ha hb hconst]
    exact iff_of_false not_lt_nan (not_not_intro hconst)
  · rw [cohensD_eq ha hb hconst, num_lt, iff_true_right hconst]
    have hmean := mean_lt_mean (ne_nil_of_two_le ha) (ne_nil_of_two_le hb) h
    have hsd : 0 < pooledSd a b := lt_of_le_of_ne (Real.sqrt_nonneg _)
      fun hzero => hconst ((pooledSd_eq_zero_iff ha hb).mp hzero.symm)
    exact div_pos (sub_pos.mpr hmean) hsd

/-! ## The rank-biserial r -/

/-- The r of the arms the other way round. -/
theorem rankBiserialR_swap (ha : a ≠ []) (hb : b ≠ []) :
    rankBiserialR (num (points b a)) b.length a.length =
      -rankBiserialR (num (points a b)) a.length b.length := by
  have hna : (a.length : ℝ) ≠ 0 := Nat.cast_ne_zero.mpr (List.length_pos_of_ne_nil ha).ne'
  have hnb : (b.length : ℝ) ≠ 0 := Nat.cast_ne_zero.mpr (List.length_pos_of_ne_nil hb).ne'
  have hpoints := points_add_points a b
  rw [rankBiserialR, rankBiserialR]
  simp only [num_mul, num_div, num_sub, neg_num]
  congr 1
  push_cast
  field_simp
  linear_combination -2 * hpoints

/-- The r is -1 where the first arm is above. -/
theorem rankBiserialR_of_above (ha : a ≠ []) (hb : b ≠ []) (h : Above a b) :
    rankBiserialR (num (points a b)) a.length b.length = num (-1) := by
  have hna : (a.length : ℝ) ≠ 0 := Nat.cast_ne_zero.mpr (List.length_pos_of_ne_nil ha).ne'
  have hnb : (b.length : ℝ) ≠ 0 := Nat.cast_ne_zero.mpr (List.length_pos_of_ne_nil hb).ne'
  rw [rankBiserialR, points_of_above h]
  simp only [num_mul, num_div, num_sub]
  congr 1
  push_cast
  field_simp
  norm_num

/-! ## The reported effect size -/

variable {stats : ScipyStats}

theorem bothNormal_comm : stats.BothNormal b a ↔ stats.BothNormal a b :=
  and_congr and_comm and_comm

/-- The effect size of the parametric path. -/
theorem effectSize_of_normal (h : stats.BothNormal a b) (metricName : String) :
    (analyzeMetric stats a b metricName).effectSize = cohensD a b := by
  show (chosenTest stats a b).effectSize = _
  rw [chosenTest, if_pos h]

/-- The effect size of the other path. -/
theorem effectSize_of_ranks (hU : stats.ReturnsFirstU) (h : ¬stats.BothNormal a b)
    (metricName : String) : (analyzeMetric stats a b metricName).effectSize =
      rankBiserialR (num (points a b)) a.length b.length := by
  show (chosenTest stats a b).effectSize = _
  rw [chosenTest, if_neg h, ← hU a b]

/-- The arms the other way round have the effect size with the other sign. -/
theorem effectSize_swap (hU : stats.ReturnsFirstU) (ha : 2 ≤ a.length) (hb : 2 ≤ b.length)
    (metricName : String) : (analyzeMetric stats b a metricName).effectSize =
      -(analyzeMetric stats a b metricName).effectSize := by
  by_cases h : stats.BothNormal a b
  · rw [effectSize_of_normal h, effectSize_of_normal (bothNormal_comm.mpr h), cohensD_swap ha hb]
  · have h' : ¬stats.BothNormal b a := fun hba => h (bothNormal_comm.mp hba)
    rw [effectSize_of_ranks hU h, effectSize_of_ranks hU h',
      rankBiserialR_swap (ne_nil_of_two_le ha) (ne_nil_of_two_le hb)]

/-- **The orientation of the effect size**: the swap of the arms negates it, and it is positive
where the first arm is above, iff an arm above is compared by Cohen's d and not both arms are
constant. -/
theorem effectSize_oriented_iff (hU : stats.ReturnsFirstU) (ha : 2 ≤ a.length)
    (hb : 2 ≤ b.length) (metricName : String) :
    ((analyzeMetric stats b a metricName).effectSize =
        -(analyzeMetric stats a b metricName).effectSize ∧
      (Above a b → num 0 < (analyzeMetric stats a b metricName).effectSize)) ↔
    (Above a b → stats.BothNormal a b ∧ ¬(Constant a ∧ Constant b)) := by
  rw [and_iff_right (effectSize_swap hU ha hb metricName)]
  refine forall_congr' fun habove => ?_
  by_cases h : stats.BothNormal a b
  · rw [effectSize_of_normal h, cohensD_pos_iff ha hb habove, and_iff_right h]
  · rw [effectSize_of_ranks hU h,
      rankBiserialR_of_above (ne_nil_of_two_le ha) (ne_nil_of_two_le hb) habove, num_lt]
    exact iff_of_false (by norm_num) fun hand => h hand.1

/-- `scipy.stats` at two arms of two values without ties: the normality test and the bootstrap are
not called, the two-sided p value of the extreme U is a third, and with one degree of freedom the
quantiles are those of the Cauchy distribution. -/
noncomputable def twoValues : ScipyStats where
  shapiro := fun _ => (nan, nan)
  ttestInd := fun _ _ => (nan, nan)
  mannwhitneyu := fun a b => (num (points a b), num (1 / 3))
  bootstrap := fun _ _ _ => (nan, nan)
  sem := fun l => npSqrt (npVar l) / num (Real.sqrt l.length)
  tPpf := fun q _ => num (Real.tan (Real.pi * (q - 1 / 2)))

/-- The first arm below the second. -/
theorem effectSize_oriented_below :
    (analyzeMetric twoValues [3, 4] [1, 2] "throughput").effectSize =
        -(analyzeMetric twoValues [1, 2] [3, 4] "throughput").effectSize ∧
      (Above [(1 : ℝ), 2] [3, 4] →
        num 0 < (analyzeMetric twoValues [1, 2] [3, 4] "throughput").effectSize) := by
  refine (effectSize_oriented_iff (fun _ _ => rfl) le_rfl le_rfl "throughput").mpr fun h => ?_
  have hlt := h 1 List.mem_cons_self 3 List.mem_cons_self
  norm_num at hlt

/-- Both values of the first arm exceed both of the second, and the r is -1. -/
theorem not_effectSize_oriented : ¬ ∀ (stats : ScipyStats) (a b : List ℝ) (metricName : String),
    stats.ReturnsFirstU → 2 ≤ a.length → 2 ≤ b.length →
      (analyzeMetric stats b a metricName).effectSize =
          -(analyzeMetric stats a b metricName).effectSize ∧
        (Above a b → num 0 < (analyzeMetric stats a b metricName).effectSize) := by
  intro h
  have habove : Above [(3 : ℝ), 4] [1, 2] := by
    intro x hx y hy
    simp only [List.mem_cons, List.not_mem_nil, or_false] at hx hy
    rcases hx with rfl | rfl <;> rcases hy with rfl | rfl <;> norm_num
  have hpos := (h twoValues [3, 4] [1, 2] "throughput" (fun _ _ => rfl) le_rfl le_rfl).2 habove
  have hranks : ¬twoValues.BothNormal [3, 4] [1, 2] := fun hnormal =>
    absurd hnormal.1.1 (by decide)
  rw [effectSize_of_ranks (fun _ _ => rfl) hranks,
    rankBiserialR_of_above (List.cons_ne_nil _ _) (List.cons_ne_nil _ _) habove, num_lt] at hpos
  norm_num at hpos

end MatrixFactory
