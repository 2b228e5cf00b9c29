/-
# Slices of an interval

A list that is cut at rising positions.  The slices of an interval of numbers are intervals, they
are pairwise disjoint, and together they are the interval.
-/
import Mathlib.Data.List.Range
import Mathlib.Order.Monotone.Basic

namespace MatrixFactory

/-- The slice from the position `f i` up to the next. -/
def slice {α : Type} (f : ℕ → ℕ) (l : List α) (i : ℕ) : List α := (l.take (f (i + 1))).drop (f i)

/-- A value between the ends of a sequence is between two neighbours of it. -/
theorem exists_between {f : ℕ → ℕ} {n k : ℕ} (hlo : f 0 ≤ k) (hhi : k < f n) :
    ∃ i < n, f i ≤ k ∧ k < f (i + 1) := by
  induction n with
  | zero => omega
  | succ n ih =>
    by_cases hn : k < f n
    · obtain ⟨i, hi, hbetween⟩ := ih hn
      exact ⟨i, Nat.lt_succ_of_lt hi, hbetween⟩
    · exact ⟨n, Nat.lt_succ_self n, Nat.le_of_not_lt hn, hhi⟩

/-- The slices of an interval are intervals. -/
theorem mem_slice_range' {f : ℕ → ℕ} {start n i c : ℕ} (hi : f (i + 1) ≤ n) :
    c ∈ slice f (List.range' start n) i ↔ start + f i ≤ c ∧ c < start + f (i + 1) := by
  unfold slice
  rw [List.take_range'_of_length_ge hi, List.drop_range', List.mem_range'_1]
  omega

/-- The slices of an interval are pairwise disjoint. -/
theorem pairwise_disjoint_slices {f : ℕ → ℕ} (hf : Monotone f) (start : ℕ) (n : ℕ) :
    ((List.range n).map (slice f (List.range' start (f n)))).Pairwise List.Disjoint := by
  rw [List.pairwise_map, List.pairwise_iff_getElem]
  intro i j hi hj hij c hci hcj
  rw [List.getElem_range] at hci hcj
  rw [List.length_range] at hi hj
  rw [mem_slice_range' (hf hi)] at hci
  rw [mem_slice_range' (hf hj)] at hcj
  have hnext : f (i + 1) ≤ f j := hf hij
  omega

end MatrixFactory
