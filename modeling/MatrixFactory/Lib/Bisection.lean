/-
# Bisection with a judge

A bisection of an interval, in which a judge says of each midpoint whether it lies too far to the
left, is near enough, or lies too far to the right.  Near enough, it is the result at once.

The result depends on the judge monotonically: a judge that never answers more sends every run at
least as far to the right.  Where the judge's answers are those about a point, the result is near
enough or lies within half of the last interval from it.
-/
import MatrixFactory.Lib.Numerals
import Mathlib.Algebra.Order.Field.Basic
import Mathlib.Data.Sign.Defs
import Mathlib.Order.Filter.Basic
import Mathlib.Tactic.Linarith
import Mathlib.Tactic.Ring

namespace Bisection

open scoped Numerals

variable {K : Type*} [Field K]

/-- The midpoint. -/
def mid (lo hi : K) : K := 1 / 2 * (lo + hi)

/-- The bisection with a number of midpoints at most. -/
def bisect (judge : K → SignType) : ℕ → K → K → K
  | 0, lo, hi => mid lo hi
  | n + 1, lo, hi =>
    match judge (mid lo hi) with
    | .zero => mid lo hi
    | .neg => bisect judge n (mid lo hi) hi
    | .pos => bisect judge n lo (mid lo hi)

variable {judge judge' : K → SignType} {lo hi r : K}

theorem bisect_zero (n : ℕ) (h : judge (mid lo hi) = 0) :
    bisect judge (n + 1) lo hi = mid lo hi := by
  have h : judge (mid lo hi) = .zero := h
  rw [bisect, h]

theorem bisect_neg (n : ℕ) (h : judge (mid lo hi) = -1) :
    bisect judge (n + 1) lo hi = bisect judge n (mid lo hi) hi := by
  have h : judge (mid lo hi) = .neg := h
  rw [bisect, h]

theorem bisect_pos (n : ℕ) (h : judge (mid lo hi) = 1) :
    bisect judge (n + 1) lo hi = bisect judge n lo (mid lo hi) := by
  have h : judge (mid lo hi) = .pos := h
  rw [bisect, h]

section order

variable [LinearOrder K] [IsStrictOrderedRing K]

theorem lt_mid (h : lo < hi) : lo < mid lo hi := by
  rw [mid]
  linarith

theorem mid_lt (h : lo < hi) : mid lo hi < hi := by
  rw [mid]
  linarith

/-- The result lies in the interval. -/
theorem bisect_mem (judge : K → SignType) (n : ℕ) (h : lo < hi) :
    lo < bisect judge n lo hi ∧ bisect judge n lo hi < hi := by
  induction n generalizing lo hi with
  | zero => exact ⟨lt_mid h, mid_lt h⟩
  | succ n ih =>
    rcases SignType.trichotomy (judge (mid lo hi)) with hj | hj | hj
    · rw [bisect_neg n hj]
      obtain ⟨hlow, hhigh⟩ := ih (mid_lt h)
      exact ⟨(lt_mid h).trans hlow, hhigh⟩
    · rw [bisect_zero n hj]
      exact ⟨lt_mid h, mid_lt h⟩
    · rw [bisect_pos n hj]
      obtain ⟨hlow, hhigh⟩ := ih (lt_mid h)
      exact ⟨hlow, hhigh.trans (mid_lt h)⟩

/-- **A judge that never answers more** gives a result at least as far to the right. -/
theorem bisect_le_bisect (hjudge : ∀ m, judge' m ≤ judge m) (n : ℕ) (h : lo < hi) :
    bisect judge n lo hi ≤ bisect judge' n lo hi := by
  induction n generalizing lo hi with
  | zero => exact le_rfl
  | succ n ih =>
    have hle := hjudge (mid lo hi)
    rcases SignType.trichotomy (judge (mid lo hi)) with hj | hj | hj
    · -- both go on to the right
      have hj' : judge' (mid lo hi) = -1 := SignType.le_neg_one_iff.mp (hj ▸ hle)
      rw [bisect_neg n hj, bisect_neg n hj']
      exact ih (mid_lt h)
    · rw [bisect_zero n hj]
      rcases SignType.trichotomy (judge' (mid lo hi)) with hj' | hj' | hj'
      · rw [bisect_neg n hj']
        exact (bisect_mem judge' n (mid_lt h)).1.le
      · rw [bisect_zero n hj']
      · rw [hj, hj'] at hle
        exact absurd hle (by decide)
    · rw [bisect_pos n hj]
      have hleft := (bisect_mem judge n (lt_mid h)).2.le
      rcases SignType.trichotomy (judge' (mid lo hi)) with hj' | hj' | hj'
      · rw [bisect_neg n hj']
        exact hleft.trans (bisect_mem judge' n (mid_lt h)).1.le
      · rw [bisect_zero n hj']
        exact hleft
      · rw [bisect_pos n hj']
        exact ih (lt_mid h)

/-- **The accuracy**: the result is near enough, or within half of the last interval of the point
that the answers are about. -/
theorem bisect_accuracy (n : ℕ) (h : lo < hi)
    (hneg : ∀ m, lo < m → m < hi → judge m = -1 → m ≤ r)
    (hpos : ∀ m, lo < m → m < hi → judge m = 1 → r ≤ m) (hlo : lo ≤ r) (hhi : r ≤ hi) :
    judge (bisect judge n lo hi) = 0 ∨ |bisect judge n lo hi - r| ≤ (hi - lo) / 2 ^ (n + 1) := by
  induction n generalizing lo hi with
  | zero =>
    refine .inr (abs_le.mpr ?_)
    rw [bisect, mid]
    constructor <;> linarith
  | succ n ih =>
    have hlow := lt_mid h
    have hhigh := mid_lt h
    have hhalf : ∀ lo' hi' : K, hi' - lo' = (hi - lo) / 2 →
        (hi' - lo') / 2 ^ (n + 1) = (hi - lo) / 2 ^ (n + 2) := by
      intro lo' hi' heq
      rw [heq, div_div, ← pow_succ']
    rcases SignType.trichotomy (judge (mid lo hi)) with hj | hj | hj
    · rw [bisect_neg n hj, ← hhalf (mid lo hi) hi]
      · exact ih hhigh (fun m hm => hneg m (hlow.trans hm)) (fun m hm => hpos m (hlow.trans hm))
          (hneg _ hlow hhigh hj) hhi
      · rw [mid]
        ring
    · rw [bisect_zero n hj]
      exact .inl hj
    · rw [bisect_pos n hj, ← hhalf lo (mid lo hi)]
      · exact ih hlow (fun m hm hm' => hneg m hm (hm'.trans hhigh))
          (fun m hm hm' => hpos m hm (hm'.trans hhigh)) hlo (hpos _ hlow hhigh hj)
      · rw [mid]
        ring

/-- **Judges that come to agree** on every point come to the same result. -/
theorem bisect_eventually {ι : Type*} {l : Filter ι} {judges : ι → K → SignType} (n : ℕ)
    (h : lo < hi) (hjudges : ∀ m, lo < m → m < hi → ∀ᶠ i in l, judges i m = judge m) :
    ∀ᶠ i in l, bisect (judges i) n lo hi = bisect judge n lo hi := by
  induction n generalizing lo hi with
  | zero => exact Filter.Eventually.of_forall fun _ => rfl
  | succ n ih =>
    have hmid := hjudges (mid lo hi) (lt_mid h) (mid_lt h)
    rcases SignType.trichotomy (judge (mid lo hi)) with hj | hj | hj
    · filter_upwards [hmid, ih (mid_lt h) fun m hm hm' => hjudges m ((lt_mid h).trans hm) hm']
        with i hi hrest
      rw [bisect_neg n hj, bisect_neg n (hi.trans hj), hrest]
    · filter_upwards [hmid] with i hi
      rw [bisect_zero n hj, bisect_zero n (hi.trans hj)]
    · filter_upwards [hmid, ih (lt_mid h) fun m hm hm' => hjudges m hm (hm'.trans (mid_lt h))]
        with i hi hrest
      rw [bisect_pos n hj, bisect_pos n (hi.trans hj), hrest]

end order

end Bisection
