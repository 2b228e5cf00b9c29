/-
# Countdowns against a clock

A clock is a sequence of positive time steps whose sum is unbounded.  A quantity that
every step either decreases by the step's length or replaces by the goal reaches the
goal (`Clock.eventually`).
-/
import Mathlib.Algebra.BigOperators.Intervals
import Mathlib.Algebra.Order.BigOperators.Group.Finset
import Mathlib.Algebra.Order.Archimedean.Basic
import Mathlib.Tactic.Linarith

/-- Positive time steps that add up beyond every bound. -/
structure Clock (dt : ℕ → ℚ) : Prop where
  pos : ∀ n, 0 < dt n
  unbounded : ∀ b : ℚ, ∃ n, b ≤ ∑ k ∈ Finset.range n, dt k

namespace Clock

variable {dt : ℕ → ℚ}

/-- A clock is unbounded from every moment on. -/
theorem unbounded_from (h : Clock dt) (n : ℕ) (b : ℚ) :
    ∃ k, b ≤ ∑ i ∈ Finset.range k, dt (n + i) := by
  obtain ⟨m, hm⟩ := h.unbounded (∑ i ∈ Finset.range n, dt i + b)
  refine ⟨m, ?_⟩
  have hle : ∑ i ∈ Finset.range m, dt i ≤ ∑ i ∈ Finset.range (n + m), dt i :=
    Finset.sum_le_sum_of_subset_of_nonneg (Finset.range_mono (Nat.le_add_left m n))
      fun i _ _ => (h.pos i).le
  rw [Finset.sum_range_add] at hle
  linarith

/-- **The countdown rule.**  `P d n` says that `d` is left at moment `n`. -/
theorem eventually (h : Clock dt) {P : ℚ → ℕ → Prop} {Q : ℕ → Prop}
    (hstep : ∀ n d, P d n → (0 < d ∧ P (d - dt n) (n + 1)) ∨ ∃ m ≥ n, Q m) {n : ℕ} {d : ℚ}
    (hP : P d n) : ∃ m ≥ n, Q m := by
  by_contra hno
  have hall : ∀ k, P (d - ∑ i ∈ Finset.range k, dt (n + i)) (n + k) := by
    intro k
    induction k with
    | zero => simpa using hP
    | succ k ih =>
      rcases hstep _ _ ih with ⟨-, hnext⟩ | ⟨m, hm, hQ⟩
      · rw [Finset.sum_range_succ, ← sub_sub]
        exact hnext
      · exact absurd ⟨m, le_trans (Nat.le_add_right n k) hm, hQ⟩ hno
  obtain ⟨k, hk⟩ := h.unbounded_from n d
  rcases hstep _ _ (hall k) with ⟨hpos, -⟩ | ⟨m, hm, hQ⟩
  · linarith
  · exact hno ⟨m, le_trans (Nat.le_add_right n k) hm, hQ⟩

/-- A constant step is a clock. -/
theorem const {d : ℚ} (hd : 0 < d) : Clock fun _ => d where
  pos _ := hd
  unbounded b := by
    obtain ⟨n, hn⟩ := exists_nat_gt (b / d)
    refine ⟨n, ?_⟩
    rw [Finset.sum_const, Finset.card_range, nsmul_eq_mul]
    exact (div_le_iff₀ hd).mp hn.le

end Clock
