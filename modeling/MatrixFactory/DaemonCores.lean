/-
# The cores of the daemons

`compute_daemon_core_sets`: every daemon of a fan-out gets cores of its own, as long as enough of
them are not reserved; otherwise the daemons share what is left, and where nothing is left the
round robin divides by zero.
-/
import MatrixFactory.Lib.Slices
import Mathlib.Data.List.GetD

namespace MatrixFactory

/-- The cores that are not reserved. -/
def availableCores (totalCores jvmReservedCores : ℕ) : List ℕ :=
  List.range' jvmReservedCores (totalCores - jvmReservedCores)

/-- Where the cores of the daemon `i` begin. -/
def coreBoundary (runCount available i : ℕ) : ℕ := i * available / runCount

/-- `compute_daemon_core_sets` on a machine whose number of cores may be unknown.  A remainder by
zero raises an exception. -/
def computeDaemonCoreSets (cpuCount : Option ℕ) (runCount jvmReservedCores : ℕ) :
    Option (List (List ℕ)) :=
  let totalCores := if cpuCount.getD 0 = 0 then runCount else cpuCount.getD 0
  let available := availableCores totalCores jvmReservedCores
  if available.length < runCount then
    (List.range runCount).mapM fun i =>
      if available.length = 0 then none else some [available.getD (i % available.length) 0]
  else
    some ((List.range runCount).map (slice (coreBoundary runCount available.length) available))

/-- What the sets of cores should be. -/
structure CoreSets (runCount jvmReservedCores totalCores : ℕ) (sets : List (List ℕ)) : Prop where
  length : sets.length = runCount
  nonempty : ∀ s ∈ sets, s ≠ []
  existing : ∀ s ∈ sets, ∀ c ∈ s, c < totalCores
  disjoint : runCount ≤ totalCores - jvmReservedCores → sets.Pairwise List.Disjoint
  unreserved : runCount ≤ totalCores - jvmReservedCores → ∀ s ∈ sets, ∀ c ∈ s, jvmReservedCores ≤ c
  covering : runCount ≤ totalCores - jvmReservedCores →
    ∀ c, jvmReservedCores ≤ c → c < totalCores → ∃ s ∈ sets, c ∈ s

variable {runCount reserved total : ℕ}

theorem length_availableCores : (availableCores total reserved).length = total - reserved :=
  List.length_range'

/-! ## The slices -/

theorem coreBoundary_mono (runCount available : ℕ) : Monotone (coreBoundary runCount available) :=
  fun _ _ h => Nat.div_le_div_right (Nat.mul_le_mul_right _ h)

theorem coreBoundary_self (hrun : 1 ≤ runCount) (available : ℕ) :
    coreBoundary runCount available runCount = available :=
  Nat.mul_div_cancel_left _ hrun

/-- With enough cores every slice has one. -/
theorem coreBoundary_lt (hrun : 1 ≤ runCount) {available : ℕ} (h : runCount ≤ available) (i : ℕ) :
    coreBoundary runCount available i < coreBoundary runCount available (i + 1) := by
  have hstep : i * available / runCount + 1 ≤ (i + 1) * available / runCount := by
    calc i * available / runCount + 1 = (i * available + runCount) / runCount :=
          (Nat.add_div_right _ hrun).symm
      _ ≤ (i + 1) * available / runCount := by
          apply Nat.div_le_div_right
          rw [Nat.add_mul, Nat.one_mul]
          exact Nat.add_le_add_left h _
  exact hstep

/-- The slices are sets of cores as they should be. -/
theorem coreSets_slices (hrun : 1 ≤ runCount) (h : runCount ≤ total - reserved) :
    CoreSets runCount reserved total ((List.range runCount).map
      (slice (coreBoundary runCount (total - reserved)) (availableCores total reserved))) := by
  have hmono := coreBoundary_mono runCount (total - reserved)
  have hself := coreBoundary_self hrun (total - reserved)
  have hmem : ∀ {i c : ℕ}, i < runCount →
      (c ∈ slice (coreBoundary runCount (total - reserved)) (availableCores total reserved) i ↔
        reserved + coreBoundary runCount (total - reserved) i ≤ c ∧
          c < reserved + coreBoundary runCount (total - reserved) (i + 1)) := by
    intro i c hi
    have hle := hmono (show i + 1 ≤ runCount from hi)
    rw [hself] at hle
    exact mem_slice_range' hle
  constructor
  · rw [List.length_map, List.length_range]
  · intro s hs
    obtain ⟨i, hi, rfl⟩ := List.mem_map.mp hs
    apply List.ne_nil_of_mem
    exact (hmem (List.mem_range.mp hi)).mpr
      ⟨le_rfl, Nat.add_lt_add_left (coreBoundary_lt hrun h i) _⟩
  · intro s hs c hc
    obtain ⟨i, hi, rfl⟩ := List.mem_map.mp hs
    obtain ⟨-, hlt⟩ := (hmem (List.mem_range.mp hi)).mp hc
    have hle := hmono (show i + 1 ≤ runCount from List.mem_range.mp hi)
    omega
  · intro _
    have hpairwise := pairwise_disjoint_slices hmono reserved runCount
    rw [hself] at hpairwise
    exact hpairwise
  · intro _ s hs c hc
    obtain ⟨i, hi, rfl⟩ := List.mem_map.mp hs
    have := ((hmem (List.mem_range.mp hi)).mp hc).1
    omega
  · intro _ c hlo hhi
    have hzero : coreBoundary runCount (total - reserved) 0 = 0 := by simp [coreBoundary]
    obtain ⟨i, hi, hbetween⟩ :
        ∃ i < runCount, coreBoundary runCount (total - reserved) i ≤ c - reserved ∧
          c - reserved < coreBoundary runCount (total - reserved) (i + 1) := by
      apply exists_between
      · omega
      · omega
    refine ⟨_, List.mem_map.mpr ⟨i, List.mem_range.mpr hi, rfl⟩, (hmem hi).mpr ?_⟩
    omega

/-! ## The round robin -/

/-- Where some core is left, the round robin gives every daemon one. -/
theorem coreSets_roundRobin (hreserved : reserved < total) (h : total - reserved < runCount) :
    CoreSets runCount reserved total ((List.range runCount).map fun i =>
      [(availableCores total reserved).getD (i % (total - reserved)) 0]) := by
  have hcore : ∀ i, (availableCores total reserved).getD (i % (total - reserved)) 0 < total := by
    intro i
    have hlt : i % (total - reserved) < total - reserved := Nat.mod_lt _ (by omega)
    unfold availableCores
    rw [List.getD_eq_getElem _ _ (by rw [List.length_range']; exact hlt), List.getElem_range']
    omega
  constructor
  · rw [List.length_map, List.length_range]
  · intro s hs
    obtain ⟨i, -, rfl⟩ := List.mem_map.mp hs
    exact List.cons_ne_nil _ _
  · intro s hs c hc
    obtain ⟨i, -, rfl⟩ := List.mem_map.mp hs
    rw [List.mem_singleton.mp hc]
    exact hcore i
  -- there are not enough cores for the other three
  · intro hle
    omega
  · intro hle
    omega
  · intro hle
    omega

theorem mapM_some {α β : Type} (f : α → β) (l : List α) :
    (l.mapM fun a => some (f a)) = some (l.map f) := by
  induction l with
  | nil => rfl
  | cons a l ih => simp [List.mapM_cons, ih]

theorem mapM_none {α β : Type} {l : List α} (hl : l ≠ []) :
    (l.mapM fun _ => (none : Option β)) = none := by
  obtain ⟨a, l, rfl⟩ := List.exists_cons_of_ne_nil hl
  rfl

/-- **The daemons have their cores** iff some core is not reserved. -/
theorem coreSets_iff (hrun : 1 ≤ runCount) (hcores : 1 ≤ total) (reserved : ℕ) :
    (∃ sets, computeDaemonCoreSets (some total) runCount reserved = some sets ∧
      CoreSets runCount reserved total sets) ↔ reserved < total := by
  have htotal : (if (some total).getD 0 = 0 then runCount else (some total).getD 0) = total :=
    if_neg (by rw [Option.getD_some]; omega)
  constructor
  · rintro ⟨sets, hsets, -⟩
    by_contra hreserved
    have hzero : total - reserved = 0 := by omega
    have hfew : 0 < runCount := by omega
    have hrange : List.range runCount ≠ [] := by
      rw [ne_eq, List.range_eq_nil]
      omega
    simp only [computeDaemonCoreSets, htotal, length_availableCores, hzero, if_pos hfew, if_true,
      mapM_none hrange] at hsets
    cases hsets
  · intro hreserved
    by_cases hfew : total - reserved < runCount
    · refine ⟨_, ?_, coreSets_roundRobin hreserved hfew⟩
      have hsome : ¬total - reserved = 0 := by omega
      simp only [computeDaemonCoreSets, htotal, length_availableCores, if_pos hfew, if_neg hsome,
        mapM_some]
    · refine ⟨_, ?_, coreSets_slices hrun (Nat.le_of_not_lt hfew)⟩
      simp only [computeDaemonCoreSets, htotal, length_availableCores, if_neg hfew]

/-- Three daemons on a machine of eight cores, two of them reserved. -/
theorem coreSets_eight : (∃ sets, computeDaemonCoreSets (some 8) 3 2 = some sets ∧
    CoreSets 3 2 8 sets) ↔ 2 < 8 :=
  coreSets_iff (by decide) (by decide) 2

/-- On a machine whose two cores are both reserved there is no set at all. -/
theorem not_coreSets : ¬∃ sets, computeDaemonCoreSets (some 2) 1 2 = some sets ∧
    CoreSets 1 2 2 sets := by
  rintro ⟨sets, hsets, -⟩
  have hnone : computeDaemonCoreSets (some 2) 1 2 = none := by decide
  rw [hnone] at hsets
  cases hsets

end MatrixFactory
