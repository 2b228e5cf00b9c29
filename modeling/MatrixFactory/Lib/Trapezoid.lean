/-
# The trapezoidal rule

The area below the polygonal line through some points, from the left to the right.  It is between
that of the least and that of the greatest height, and a point on the line between its neighbours
makes no difference.
-/
import MatrixFactory.Lib.Numerals
import Mathlib.Algebra.Order.Field.Basic
import Mathlib.Tactic.Linarith
import Mathlib.Tactic.LinearCombination
import Mathlib.Tactic.FieldSimp
import Mathlib.Tactic.Ring

namespace Trapezoid

open scoped Numerals

variable {K : Type*} [Field K] [LinearOrder K] [IsStrictOrderedRing K]

/-- The area below the line through the points. -/
def area : List (K × K) → K
  | p :: q :: points => (q.2 + p.2) / 2 * (q.1 - p.1) + area (q :: points)
  | _ => 0

/-- A point is on the line between two others. -/
def OnChord (p c q : K × K) : Prop := (c.2 - p.2) * (q.1 - p.1) = (q.2 - p.2) * (c.1 - p.1)

omit [LinearOrder K] [IsStrictOrderedRing K] in
@[simp] theorem area_cons_cons (p q : K × K) (points : List (K × K)) :
    area (p :: q :: points) = (q.2 + p.2) / 2 * (q.1 - p.1) + area (q :: points) := rfl

/-- **A point on the line** between its neighbours makes no difference. -/
theorem area_insert (before : List (K × K)) {p c q : K × K} (after : List (K × K))
    (hpq : p.1 < q.1) (hc : OnChord p c q) :
    area (before ++ p :: c :: q :: after) = area (before ++ p :: q :: after) := by
  induction before with
  | nil =>
    have hne : q.1 - p.1 ≠ 0 := (sub_pos.mpr hpq).ne'
    have hheight : c.2 = p.2 + (q.2 - p.2) * (c.1 - p.1) / (q.1 - p.1) := by
      have hc' : (c.2 - p.2) * (q.1 - p.1) = (q.2 - p.2) * (c.1 - p.1) := hc
      field_simp
      linear_combination hc'
    simp only [List.nil_append, area_cons_cons, hheight]
    field_simp
    ring
  | cons b before ih =>
    cases before with
    | nil =>
      simp only [List.cons_append, List.nil_append, area_cons_cons] at ih ⊢
      rw [ih]
    | cons b' before =>
      simp only [List.cons_append, area_cons_cons] at ih ⊢
      rw [ih]

/-- **The area is bounded** by the heights and the width. -/
theorem area_mem {lo hi right : K} {p : K × K} {points : List (K × K)}
    (hsorted : (p :: points).Pairwise fun a b => a.1 ≤ b.1)
    (hheights : ∀ a ∈ p :: points, lo ≤ a.2 ∧ a.2 ≤ hi) (hlo : 0 ≤ lo)
    (hright : ∀ a ∈ p :: points, a.1 ≤ right) :
    0 ≤ area (p :: points) ∧ area (p :: points) ≤ hi * (right - p.1) := by
  induction points generalizing p with
  | nil =>
    have hp := hheights p List.mem_cons_self
    have hr := hright p List.mem_cons_self
    exact ⟨le_rfl, mul_nonneg (hlo.trans (hp.1.trans hp.2)) (sub_nonneg.mpr hr)⟩
  | cons q points ih =>
    obtain ⟨hp, hsorted'⟩ := List.pairwise_cons.mp hsorted
    have hwidth : 0 ≤ q.1 - p.1 := sub_nonneg.mpr (hp q List.mem_cons_self)
    obtain ⟨hnonneg, hle⟩ := ih hsorted' (fun a ha => hheights a (List.mem_cons_of_mem _ ha))
      fun a ha => hright a (List.mem_cons_of_mem _ ha)
    obtain ⟨hplo, hphi⟩ := hheights p List.mem_cons_self
    obtain ⟨hqlo, hqhi⟩ := hheights q (List.mem_cons_of_mem _ List.mem_cons_self)
    have hmean : 0 ≤ (q.2 + p.2) / 2 ∧ (q.2 + p.2) / 2 ≤ hi := by
      constructor <;> linarith
    have hbelow := mul_nonneg hmean.1 hwidth
    have habove := mul_le_mul_of_nonneg_right hmean.2 hwidth
    rw [area_cons_cons]
    constructor
    · linarith
    · linarith

end Trapezoid
