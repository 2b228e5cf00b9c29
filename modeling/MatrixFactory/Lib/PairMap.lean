/-
# Affine iterations of a pair of numbers

A pair is moved by `x ↦ M x + d`: the linear part stays the same from step to step, the offset may
change.  A difference at the beginning is therefore carried along by the linear part alone.  Over
the reals the iterates of the linear part stay bounded when some quadratic form does not grow, and
leave every bound when there is an eigenvalue beyond one.
-/
import Mathlib.Analysis.Real.Sqrt
import Mathlib.Tactic.LinearCombination

/-- The linear map of a pair with the rows `(a, b)` and `(c, d)`. -/
structure PairMap (K : Type*) where
  a : K
  b : K
  c : K
  d : K

namespace PairMap

/-! ## Affine iterations -/

section Ring

variable {K : Type*} [CommRing K] (M : PairMap K)

/-- The map applied to a pair. -/
def apply (x : K × K) : K × K := (M.a * x.1 + M.b * x.2, M.c * x.1 + M.d * x.2)

/-- The pair after a step for each of the offsets, taken from the left. -/
def moved (offsets : List (K × K)) (x : K × K) : K × K :=
  offsets.foldl (fun x d => M.apply x + d) x

theorem apply_add (x y : K × K) : M.apply (x + y) = M.apply x + M.apply y := by
  ext
  · simp only [apply, Prod.fst_add, Prod.snd_add]; ring
  · simp only [apply, Prod.fst_add, Prod.snd_add]; ring

theorem apply_smul (k : K) (x : K × K) : M.apply (k • x) = k • M.apply x := by
  ext
  · simp only [apply, Prod.smul_fst, Prod.smul_snd, smul_eq_mul]; ring
  · simp only [apply, Prod.smul_fst, Prod.smul_snd, smul_eq_mul]; ring

/-- A difference at the beginning is carried along by the linear part. -/
theorem moved_add (offsets : List (K × K)) (x e : K × K) :
    M.moved offsets (x + e) = M.moved offsets x + M.apply^[offsets.length] e := by
  induction offsets generalizing x e with
  | nil => rfl
  | cons d offsets ih =>
    have hstep : M.apply (x + e) + d = (M.apply x + d) + M.apply e := by
      rw [M.apply_add]
      abel
    show M.moved offsets (M.apply (x + e) + d) = _
    rw [hstep, ih]
    rfl

/-- The vector `(b, μ - a)` belongs to the root `μ` of the characteristic polynomial. -/
theorem apply_eigenvector {μ : K}
    (h : μ ^ 2 - (M.a + M.d) * μ + (M.a * M.d - M.b * M.c) = 0) :
    M.apply (M.b, μ - M.a) = μ • (M.b, μ - M.a) := by
  ext
  · show M.a * M.b + M.b * (μ - M.a) = μ * M.b
    ring
  · show M.c * M.b + M.d * (μ - M.a) = μ * (μ - M.a)
    linear_combination -h

/-- On an eigenvector the iterates are powers. -/
theorem iterate_eigenvector {μ : K} {e : K × K} (h : M.apply e = μ • e) (n : ℕ) :
    M.apply^[n] e = μ ^ n • e := by
  induction n with
  | zero => simp
  | succ n ih => rw [Function.iterate_succ_apply', ih, M.apply_smul, h, smul_smul, pow_succ]

end Ring

/-! ## Bounds -/

section Real

variable {M : PairMap ℝ}

/-- Where a weighted sum of squares does not grow, the iterates stay bounded. -/
theorem bounded_of_energy {p q : ℝ} (hp : 0 < p) (hq : 0 < q)
    (h : ∀ x, p * (M.apply x).1 ^ 2 + q * (M.apply x).2 ^ 2 ≤ p * x.1 ^ 2 + q * x.2 ^ 2)
    (e : ℝ × ℝ) :
    ∃ B, ∀ n, |(M.apply^[n] e).1| ≤ B ∧ |(M.apply^[n] e).2| ≤ B := by
  have henergy : ∀ n, p * (M.apply^[n] e).1 ^ 2 + q * (M.apply^[n] e).2 ^ 2 ≤
      p * e.1 ^ 2 + q * e.2 ^ 2 := by
    intro n
    induction n with
    | zero => exact le_rfl
    | succ n ih =>
      rw [Function.iterate_succ_apply']
      exact (h _).trans ih
  obtain ⟨E, hE⟩ : ∃ E, E = p * e.1 ^ 2 + q * e.2 ^ 2 := ⟨_, rfl⟩
  have hEnn : 0 ≤ E := by
    rw [hE]
    positivity
  -- a number is at most its square plus one
  have habs : ∀ x : ℝ, |x| ≤ x ^ 2 + 1 := fun x => by
    rw [← sq_abs x]
    nlinarith [sq_nonneg (|x| - 1), abs_nonneg x]
  refine ⟨E / p + E / q + 1, fun n => ?_⟩
  have hn := henergy n
  rw [← hE] at hn
  have hpE : 0 ≤ E / p := by positivity
  have hqE : 0 ≤ E / q := by positivity
  constructor
  · have h1 : (M.apply^[n] e).1 ^ 2 ≤ E / p := by
      rw [le_div_iff₀ hp]
      nlinarith [mul_nonneg hq.le (sq_nonneg (M.apply^[n] e).2)]
    linarith [habs (M.apply^[n] e).1]
  · have h2 : (M.apply^[n] e).2 ^ 2 ≤ E / q := by
      rw [le_div_iff₀ hq]
      nlinarith [mul_nonneg hp.le (sq_nonneg (M.apply^[n] e).1)]
    linarith [habs (M.apply^[n] e).2]

/-- Along an eigenvector of an eigenvalue beyond one the iterates leave every bound. -/
theorem unbounded_of_eigenvector {μ : ℝ} {e : ℝ × ℝ} (h : M.apply e = μ • e) (hμ : 1 < |μ|)
    (he : e ≠ 0) (B : ℝ) :
    ∃ n, ¬(|(M.apply^[n] e).1| ≤ B ∧ |(M.apply^[n] e).2| ≤ B) := by
  have hne : 0 < |e.1| + |e.2| := by
    by_contra hle
    have h1 : |e.1| = 0 := by linarith [abs_nonneg e.1, abs_nonneg e.2]
    have h2 : |e.2| = 0 := by linarith [abs_nonneg e.1, abs_nonneg e.2]
    exact he (Prod.ext (abs_eq_zero.mp h1) (abs_eq_zero.mp h2))
  obtain ⟨n, hn⟩ := pow_unbounded_of_one_lt (2 * B / (|e.1| + |e.2|)) hμ
  refine ⟨n, fun ⟨h1, h2⟩ => ?_⟩
  rw [M.iterate_eigenvector h n, Prod.smul_fst, smul_eq_mul, abs_mul, abs_pow] at h1
  rw [M.iterate_eigenvector h n, Prod.smul_snd, smul_eq_mul, abs_mul, abs_pow] at h2
  rw [div_lt_iff₀ hne] at hn
  linarith

/-- A quadratic that is negative at `-1` has a root below it. -/
theorem exists_root_lt {t δ : ℝ} (h : 1 + t + δ < 0) :
    ∃ μ < -1, μ ^ 2 - t * μ + δ = 0 := by
  have hpos : 0 ≤ t ^ 2 - 4 * δ := by nlinarith [sq_nonneg (t + 2)]
  have hroot : |t + 2| < √(t ^ 2 - 4 * δ) := by
    rw [← Real.sqrt_sq_eq_abs]
    exact Real.sqrt_lt_sqrt (sq_nonneg _) (by nlinarith)
  refine ⟨(t - √(t ^ 2 - 4 * δ)) / 2, by linarith [le_abs_self (t + 2)], ?_⟩
  linear_combination (1 / 4) * Real.sq_sqrt hpos

/-- A quadratic with real roots whose sum is above two has a root above one. -/
theorem exists_root_gt {t δ : ℝ} (ht : 2 < t) (h : 4 * δ ≤ t ^ 2) :
    ∃ μ > 1, μ ^ 2 - t * μ + δ = 0 := by
  have hpos : 0 ≤ t ^ 2 - 4 * δ := by linarith
  refine ⟨(t + √(t ^ 2 - 4 * δ)) / 2, ?_, ?_⟩
  · have := Real.sqrt_nonneg (t ^ 2 - 4 * δ)
    show 1 < _
    linarith
  · linear_combination (1 / 4) * Real.sq_sqrt hpos

end Real

end PairMap
