/-
# The metrics of an experiment

`extract_metrics` reads the events of a run from the database: the orders that were submitted and
completed are joined on their id, and the throughput, the cycle times and the work in progress are
computed from the pairs.

The three are tied by Little's law.  The work in progress is a time average over the run, but of the
orders that are completed only: an order that is open at the end of the run is not counted, so that
the metric falls short of the number of orders in the system by the time that those have spent.
-/
import MatrixFactory.Lib.Sojourn
import MatrixFactory.Lib.Trapezoid
import MatrixFactory.Lib.Numerals
import Mathlib.Data.List.Sort
import Mathlib.Data.Rat.Cast.Order
import Mathlib.Tactic.FieldSimp

namespace MatrixFactory

open scoped Numerals

namespace ExperimentMetrics

/-- A row of `Orders`. -/
structure OrderRow (K : Type) where
  orderId : String
  eventType : String
  simTime : K

/-- What is computed from the orders of a run, less the standard deviation. -/
structure Metrics (K : Type) where
  throughput : K
  tardinessMean : K
  tardinessMax : K
  wipMean : K
  submittedCount : ℕ
  completedCount : ℕ

section

variable {K : Type}

def submitted (rows : List (OrderRow K)) : List (OrderRow K) :=
  rows.filter (·.eventType = "SUBMITTED")

def completed (rows : List (OrderRow K)) : List (OrderRow K) :=
  rows.filter (·.eventType = "COMPLETED")

/-- The completions of an order. -/
def completionsOf (rows : List (OrderRow K)) (s : OrderRow K) : List (OrderRow K) :=
  (completed rows).filter (·.orderId = s.orderId)

/-- `merged`, the inner join on the order's id. -/
def merged (rows : List (OrderRow K)) : List (OrderRow K × OrderRow K) :=
  (submitted rows).flatMap fun s => (completionsOf rows s).map fun c => (s, c)

variable [Field K] [LinearOrder K]

/-- `cycle_time`. -/
def cycleTimes (rows : List (OrderRow K)) : List K :=
  (merged rows).map fun p => p.2.simTime - p.1.simTime

/-- `max_time`, over all events of the run. -/
def maxTime (rows : List (OrderRow K)) : K := ((rows.map (·.simTime)).max?).getD 0

/-- The orders' part of `extract_metrics`, on the rows of a run. -/
def extractMetrics (rows : List (OrderRow K)) : Metrics K :=
  let times := cycleTimes rows
  let last := maxTime rows
  if merged rows = [] then
    { throughput := 0
      tardinessMean := 0
      tardinessMax := 0
      wipMean := 0
      submittedCount := (submitted rows).length
      completedCount := (completed rows).length }
  else
    { throughput := if 0 < last then (merged rows).length / last else 0
      tardinessMean := times.sum / times.length
      tardinessMax := times.max?.getD 0
      wipMean := if 0 < last then times.sum / last else 0
      submittedCount := (submitted rows).length
      completedCount := (completed rows).length }

end

/-! ## The pairs -/

section

variable {K : Type}

/-- Every order is completed once at most, and not before it was submitted; no time is negative. -/
structure WellFormed [LE K] [Zero K] (rows : List (OrderRow K)) : Prop where
  completedOnce : ((completed rows).map (·.orderId)).Nodup
  inOrder : ∀ p ∈ merged rows, p.1.simTime ≤ p.2.simTime
  nonneg : ∀ r ∈ rows, 0 ≤ r.simTime

theorem mem_merged {rows : List (OrderRow K)} {s c : OrderRow K} (hs : s ∈ submitted rows)
    (hc : c ∈ completionsOf rows s) : (s, c) ∈ merged rows :=
  List.mem_flatMap.mpr ⟨s, hs, List.mem_map.mpr ⟨c, hc, rfl⟩⟩

/-- An order that is completed once at most has one completion at most. -/
theorem length_completionsOf_le {rows : List (OrderRow K)}
    (h : ((completed rows).map (·.orderId)).Nodup) (s : OrderRow K) :
    (completionsOf rows s).length ≤ 1 := by
  have hcount := List.nodup_iff_count_le_one.mp h s.orderId
  rw [List.count, List.countP_map] at hcount
  rw [completionsOf, ← List.countP_eq_length_filter]
  refine (List.countP_mono_left fun c _ hc => ?_).trans hcount
  simpa using hc

/-- An order without completion, or with the one that it has. -/
theorem completionsOf_cases {rows : List (OrderRow K)}
    (h : ((completed rows).map (·.orderId)).Nodup) (s : OrderRow K) :
    completionsOf rows s = [] ∨ ∃ c, completionsOf rows s = [c] := by
  rcases Nat.le_one_iff_eq_zero_or_eq_one.mp (length_completionsOf_le h s) with h0 | h1
  · exact Or.inl (List.length_eq_zero_iff.mp h0)
  · exact Or.inr (List.length_eq_one_iff.mp h1)

end

section

variable {K : Type} [Field K] [LinearOrder K]

theorem le_maxTime {rows : List (OrderRow K)} {r : OrderRow K} (h : r ∈ rows) :
    r.simTime ≤ maxTime rows := by
  have hmem : r.simTime ∈ rows.map (·.simTime) := List.mem_map_of_mem h
  unfold maxTime
  cases hmax : (rows.map (·.simTime)).max? with
  | none =>
    rw [List.max?_eq_none_iff] at hmax
    rw [hmax] at hmem
    exact absurd hmem (List.not_mem_nil)
  | some m => exact (List.max?_eq_some_iff.mp hmax).2 _ hmem

/-- When an order leaves the system: at its completion, or at the end of the run. -/
def leaves (rows : List (OrderRow K)) (s : OrderRow K) : K :=
  ((completionsOf rows s).head?.map (·.simTime)).getD (maxTime rows)

/-- The time that the orders without completion have spent in the system. -/
def openTime (rows : List (OrderRow K)) : K :=
  (((submitted rows).filter fun s => completionsOf rows s = []).map fun s =>
    maxTime rows - s.simTime).sum

theorem sum_stays (rows : List (OrderRow K)) (h : ((completed rows).map (·.orderId)).Nodup)
    (l : List (OrderRow K)) :
    (l.map fun s => leaves rows s - s.simTime).sum =
      ((l.flatMap fun s => (completionsOf rows s).map fun c => (s, c)).map
          fun p => p.2.simTime - p.1.simTime).sum +
        ((l.filter fun s => completionsOf rows s = []).map
          fun s => maxTime rows - s.simTime).sum := by
  induction l with
  | nil => simp
  | cons s l ih =>
    rw [List.map_cons, List.sum_cons, ih, List.flatMap_cons, List.map_append, List.sum_append]
    rcases completionsOf_cases h s with hnone | ⟨c, hone⟩
    · simp [leaves, hnone]
      ring
    · simp [leaves, hone]
      ring

theorem sum_stays_eq {rows : List (OrderRow K)} (h : WellFormed rows) :
    ((submitted rows).map fun s => leaves rows s - s.simTime).sum =
      (cycleTimes rows).sum + openTime rows := sum_stays rows h.completedOnce (submitted rows)

end

/-! ## The orders in the system -/

open Classical in
/-- The number of orders in the system at a time: submitted before it, and not completed before
it. -/
noncomputable def inSystem (rows : List (OrderRow ℝ)) (t : ℝ) : ℕ :=
  (submitted rows).countP fun s => s.simTime < t ∧ ∀ c ∈ completionsOf rows s, t ≤ c.simTime

/-- The stays of the orders. -/
noncomputable def stays (rows : List (OrderRow ℝ)) : List (ℝ × ℝ) :=
  (submitted rows).map fun s => (s.simTime, leaves rows s)

/-- An order is in the system from its submission to when it leaves. -/
theorem inSystem_iff {rows : List (OrderRow ℝ)} (h : WellFormed rows) (s : OrderRow ℝ) {t : ℝ}
    (ht : t ≤ maxTime rows) :
    (s.simTime < t ∧ ∀ c ∈ completionsOf rows s, t ≤ c.simTime) ↔
      t ∈ Set.Ioc s.simTime (leaves rows s) := by
  rw [Set.mem_Ioc]
  refine and_congr_right fun _ => ?_
  rcases completionsOf_cases h.completedOnce s with hnone | ⟨c, hone⟩
  · simp [leaves, hnone, ht]
  · simp [leaves, hone]

theorem inSystem_eq_present {rows : List (OrderRow ℝ)} (h : WellFormed rows) {t : ℝ}
    (ht : t ≤ maxTime rows) : (inSystem rows t : ℝ) = Sojourn.present (stays rows) t := by
  unfold inSystem Sojourn.present stays
  induction submitted rows with
  | nil => simp
  | cons s l ih =>
    rw [List.map_cons, List.map_cons, List.sum_cons, ← ih, List.countP_cons]
    by_cases hin : s.simTime < t ∧ ∀ c ∈ completionsOf rows s, t ≤ c.simTime
    · rw [if_pos (decide_eq_true hin), Set.indicator_of_mem ((inSystem_iff h s ht).mp hin)]
      push_cast
      ring
    · rw [if_neg (by simpa using hin),
        Set.indicator_of_notMem fun hmem => hin ((inSystem_iff h s ht).mpr hmem)]
      simp

/-- The stays lie in the run. -/
theorem stays_mem {rows : List (OrderRow ℝ)} (h : WellFormed rows) :
    ∀ v ∈ stays rows, 0 ≤ v.1 ∧ v.1 ≤ v.2 ∧ v.2 ≤ maxTime rows := by
  intro v hv
  obtain ⟨s, hs, rfl⟩ := List.mem_map.mp hv
  have hrow : s ∈ rows := List.mem_of_mem_filter hs
  refine ⟨h.nonneg s hrow, ?_⟩
  rcases completionsOf_cases h.completedOnce s with hnone | ⟨c, hone⟩
  · have hleaves : leaves rows s = maxTime rows := by simp [leaves, hnone]
    rw [hleaves]
    exact ⟨le_maxTime hrow, le_rfl⟩
  · have hleaves : leaves rows s = c.simTime := by simp [leaves, hone]
    have hc : c ∈ completionsOf rows s := by
      rw [hone]
      exact List.mem_singleton_self c
    rw [hleaves]
    exact ⟨h.inOrder (s, c) (mem_merged hs hc),
      le_maxTime (List.mem_of_mem_filter (List.mem_of_mem_filter hc))⟩

/-- **The time that all orders spend in the system** is the integral of their number. -/
theorem integral_inSystem {rows : List (OrderRow ℝ)} (h : WellFormed rows)
    (hpos : 0 ≤ maxTime rows) :
    ∫ t in (0 : ℝ)..maxTime rows, (inSystem rows t : ℝ) =
      (cycleTimes rows).sum + openTime rows := by
  have hcongr : ∫ t in (0 : ℝ)..maxTime rows, (inSystem rows t : ℝ) =
      ∫ t in (0 : ℝ)..maxTime rows, Sojourn.present (stays rows) t := by
    refine intervalIntegral.integral_congr fun t ht => inSystem_eq_present h ?_
    rw [Set.uIcc_of_le hpos] at ht
    exact ht.2
  rw [hcongr, Sojourn.integral_present (stays_mem h), stays, List.map_map, ← sum_stays_eq h]
  rfl

theorem openTime_nonneg (rows : List (OrderRow ℝ)) : 0 ≤ openTime rows := by
  refine List.sum_nonneg fun x hx => ?_
  obtain ⟨s, hs, rfl⟩ := List.mem_map.mp hx
  exact sub_nonneg.mpr (le_maxTime (List.mem_of_mem_filter (List.mem_of_mem_filter hs)))

/-- The open time is zero iff every order without completion came at the very end. -/
theorem openTime_eq_zero_iff (rows : List (OrderRow ℝ)) :
    openTime rows = 0 ↔
      ∀ s ∈ submitted rows, completionsOf rows s = [] → s.simTime = maxTime rows := by
  constructor
  · intro hzero s hs hopen
    have hnonneg : ∀ x ∈ ((submitted rows).filter fun s => completionsOf rows s = []).map
        (fun s => maxTime rows - s.simTime), 0 ≤ x := by
      intro x hx
      obtain ⟨s', hs', rfl⟩ := List.mem_map.mp hx
      exact sub_nonneg.mpr (le_maxTime (List.mem_of_mem_filter (List.mem_of_mem_filter hs')))
    have hmem : maxTime rows - s.simTime ∈ ((submitted rows).filter fun s =>
        completionsOf rows s = []).map fun s => maxTime rows - s.simTime :=
      List.mem_map.mpr ⟨s, List.mem_filter.mpr ⟨hs, decide_eq_true hopen⟩, rfl⟩
    exact (sub_eq_zero.mp
      (List.all_zero_of_le_zero_le_of_sum_eq_zero hnonneg hzero hmem)).symm
  · intro hall
    refine List.sum_eq_zero fun x hx => ?_
    obtain ⟨s, hs, rfl⟩ := List.mem_map.mp hx
    obtain ⟨hs, hopen⟩ := List.mem_filter.mp hs
    rw [hall s hs (of_decide_eq_true hopen), sub_self]

/-- The mean of the cycle times is no greater than the greatest. -/
theorem sum_le_length_mul_max (l : List ℝ) : l.sum ≤ l.length * l.max?.getD 0 := by
  cases hmax : l.max? with
  | none =>
    rw [List.max?_eq_none_iff] at hmax
    simp [hmax]
  | some m =>
    have hle := List.sum_le_card_nsmul l m (List.max?_eq_some_iff.mp hmax).2
    rwa [nsmul_eq_mul] at hle

/-- **Little's law, and what the work in progress leaves out.**  The work in progress is the
product of the throughput and the mean cycle time; and with the time that the open orders have
spent, it is the time average of the number of orders in the system, so that it falls short of it
unless the only open orders came at the very end. -/
theorem wip_is_average {rows : List (OrderRow ℝ)} (h : WellFormed rows)
    (hpos : 0 < maxTime rows) :
    let m := extractMetrics rows
    let average := (∫ t in (0 : ℝ)..maxTime rows, (inSystem rows t : ℝ)) / maxTime rows
    m.wipMean = m.throughput * m.tardinessMean ∧
      m.wipMean + openTime rows / maxTime rows = average ∧ m.wipMean ≤ average ∧
      (m.wipMean = average ↔
        ∀ s ∈ submitted rows, completionsOf rows s = [] → s.simTime = maxTime rows) ∧
      m.tardinessMean ≤ m.tardinessMax := by
  intro m average
  have haverage : average = ((cycleTimes rows).sum + openTime rows) / maxTime rows := by
    rw [← integral_inSystem h hpos.le]
  have hlength : (cycleTimes rows).length = (merged rows).length := List.length_map _
  have hwip : m.wipMean = (cycleTimes rows).sum / maxTime rows ∧
      m.wipMean = m.throughput * m.tardinessMean ∧ m.tardinessMean ≤ m.tardinessMax := by
    by_cases hempty : merged rows = []
    · have hm : m = ⟨0, 0, 0, 0, (submitted rows).length, (completed rows).length⟩ :=
        if_pos hempty
      rw [hm, cycleTimes, hempty]
      simp
    · have hm : m = ⟨(merged rows).length / maxTime rows,
          (cycleTimes rows).sum / (cycleTimes rows).length, (cycleTimes rows).max?.getD 0,
          (cycleTimes rows).sum / maxTime rows, (submitted rows).length,
          (completed rows).length⟩ := by
        simp only [m, extractMetrics, if_neg hempty, if_pos hpos]
      have hcount : (0 : ℝ) < (cycleTimes rows).length := by
        rw [hlength]
        exact Nat.cast_pos.mpr (List.length_pos_of_ne_nil hempty)
      rw [hm]
      refine ⟨rfl, ?_, ?_⟩
      · dsimp only
        rw [← hlength]
        field_simp
      · rw [div_le_iff₀ hcount, mul_comm]
        exact sum_le_length_mul_max _
  obtain ⟨hwip, hlittle, hmean⟩ := hwip
  have hsum : m.wipMean + openTime rows / maxTime rows = average := by
    rw [hwip, haverage, add_div]
  have hopen : 0 ≤ openTime rows / maxTime rows := div_nonneg (openTime_nonneg rows) hpos.le
  refine ⟨hlittle, hsum, by linarith, ?_, hmean⟩
  rw [← openTime_eq_zero_iff, ← hsum, left_eq_add, div_eq_zero_iff, or_iff_left hpos.ne']

/-- Two orders, of which one is left open. -/
noncomputable def twoOrders : List (OrderRow ℝ) :=
  [⟨"ORD-1", "SUBMITTED", 0⟩, ⟨"ORD-2", "SUBMITTED", 1⟩, ⟨"ORD-1", "COMPLETED", 3⟩]

theorem wip_is_average_two :
    (extractMetrics twoOrders).wipMean ≤
      (∫ t in (0 : ℝ)..maxTime twoOrders, (inSystem twoOrders t : ℝ)) / maxTime twoOrders := by
  have hrows : submitted twoOrders = [⟨"ORD-1", "SUBMITTED", 0⟩, ⟨"ORD-2", "SUBMITTED", 1⟩] ∧
      completed twoOrders = [⟨"ORD-1", "COMPLETED", 3⟩] := by
    simp [submitted, completed, twoOrders]
  have hmax : (3 : ℝ) ≤ maxTime twoOrders :=
    le_maxTime (r := ⟨"ORD-1", "COMPLETED", 3⟩) (by simp [twoOrders])
  refine (wip_is_average ⟨?_, ?_, ?_⟩ (by linarith)).2.2.1
  · simp [hrows.2]
  · simp [merged, completionsOf, hrows]
  · simp [twoOrders]

/-! ## The energy cost -/

/-- A row of `EnergyTelemetry`. -/
structure EnergyRow (K : Type) where
  simTime : K
  energyPriceEurMwh : K
  compressorPowerKw : K

section

variable {K : Type} [Field K] [LinearOrder K]

/-- `power_kw_cost_rate`, in euros an hour. -/
def costRate (e : EnergyRow K) : K := e.compressorPowerKw * e.energyPriceEurMwh / 1000

/-- The sum of the trapezoids between a row and the next one. -/
def trapezoidSum : List (EnergyRow K) → K
  | e :: e' :: rows =>
    (costRate e' + costRate e) / 2 * ((e'.simTime - e.simTime) / 3600) + trapezoidSum (e' :: rows)
  | _ => 0

/-- `compute_energy_cost`, on the rows of a run. -/
def computeEnergyCost (rows : List (EnergyRow K)) : K :=
  trapezoidSum (rows.mergeSort fun e e' => e.simTime ≤ e'.simTime)

/-- A row as a point of the line. -/
def point (e : EnergyRow K) : K × K := (e.simTime, costRate e)

omit [LinearOrder K] in
theorem trapezoidSum_eq (rows : List (EnergyRow K)) :
    trapezoidSum rows = Trapezoid.area (rows.map point) / 3600 := by
  induction rows with
  | nil => simp [trapezoidSum, Trapezoid.area]
  | cons e rows ih =>
    cases rows with
    | nil => simp [trapezoidSum, Trapezoid.area]
    | cons e' rows =>
      rw [trapezoidSum, ih]
      simp only [List.map_cons, Trapezoid.area_cons_cons, point]
      ring

end

section

variable {K : Type} [LinearOrder K]

/-- The rows in the order of their times. -/
def InTimeOrder (rows : List (EnergyRow K)) : Prop :=
  rows.Pairwise fun e e' => e.simTime ≤ e'.simTime

theorem inTimeOrder_mergeSort (rows : List (EnergyRow K)) :
    InTimeOrder (rows.mergeSort fun e e' => e.simTime ≤ e'.simTime) := by
  have h := @List.pairwise_mergeSort _ (fun e e' : EnergyRow K => e.simTime ≤ e'.simTime)
    (fun a b c hab hbc => by simpa using (of_decide_eq_true hab).trans (of_decide_eq_true hbc))
    (fun a b => by simpa using le_total a.simTime b.simTime) rows
  exact h.imp fun hle => of_decide_eq_true hle

/-- Rows with distinct times have one order. -/
theorem mergeSort_eq {rows sorted : List (EnergyRow K)} (hperm : rows.Perm sorted)
    (hdistinct : (rows.map (·.simTime)).Nodup) (hsorted : InTimeOrder sorted) :
    (rows.mergeSort fun e e' => e.simTime ≤ e'.simTime) = sorted := by
  have hmem : ∀ e ∈ rows.mergeSort fun e e' => e.simTime ≤ e'.simTime, e ∈ rows := fun e he =>
    (List.mergeSort_perm _ _).mem_iff.mp he
  refine List.Perm.eq_of_pairwise (fun a b ha hb hab hba => ?_) (inTimeOrder_mergeSort rows)
    hsorted ((List.mergeSort_perm _ _).trans hperm)
  exact List.inj_on_of_nodup_map hdistinct (hmem a ha) (hperm.mem_iff.mpr hb)
    (le_antisymm hab hba)

/-- A row that comes between two others in time. -/
theorem InTimeOrder.insert {before after : List (EnergyRow K)} {a b e : EnergyRow K}
    (h : InTimeOrder (before ++ a :: b :: after)) (hae : a.simTime < e.simTime)
    (heb : e.simTime < b.simTime) :
    InTimeOrder (before ++ a :: e :: b :: after) ∧
      ∀ r ∈ before ++ a :: b :: after, r.simTime ≠ e.simTime := by
  obtain ⟨hbefore, hrest, hcross⟩ := List.pairwise_append.mp h
  obtain ⟨ha, hrest'⟩ := List.pairwise_cons.mp hrest
  obtain ⟨hb, hafter⟩ := List.pairwise_cons.mp hrest'
  have hearly : ∀ r ∈ before, r.simTime ≤ a.simTime := fun r hr =>
    hcross r hr a List.mem_cons_self
  have hlate : ∀ r ∈ b :: after, e.simTime < r.simTime := by
    intro r hr
    rcases List.mem_cons.mp hr with rfl | hr
    · exact heb
    · exact heb.trans_le (hb r hr)
  constructor
  · refine List.pairwise_append.mpr ⟨hbefore, ?_, ?_⟩
    · refine List.pairwise_cons.mpr ⟨fun r hr => ?_,
        List.pairwise_cons.mpr ⟨fun r hr => (hlate r hr).le, hrest'⟩⟩
      rcases List.mem_cons.mp hr with rfl | hr
      · exact hae.le
      · exact ha r hr
    · intro r hr r' hr'
      rcases List.mem_cons.mp hr' with rfl | hr'
      · exact hearly r hr
      · rcases List.mem_cons.mp hr' with rfl | hr'
        · exact (hearly r hr).trans hae.le
        · exact hcross r hr r' (List.mem_cons_of_mem _ hr')
  · intro r hr
    rcases List.mem_append.mp hr with hr | hr
    · exact ((hearly r hr).trans_lt hae).ne
    · rcases List.mem_cons.mp hr with rfl | hr
      · exact hae.ne
      · exact (hlate r hr).ne'

end

section

variable {K : Type} [Field K] [LinearOrder K] [IsStrictOrderedRing K]

/-- **The energy cost of a run** with distinct times does not depend on the order in which its rows
were written.  It is between zero and what the greatest rate costs over the run; and a row on the
straight line between its neighbours makes no difference, whatever the cadence is. -/
theorem energy_cost {rows : List (EnergyRow K)} (hdistinct : (rows.map (·.simTime)).Nodup) :
    (∀ rows', rows.Perm rows' → computeEnergyCost rows' = computeEnergyCost rows) ∧
      (∀ first last hi, (∀ e ∈ rows, (first ≤ e.simTime ∧ e.simTime ≤ last) ∧
          0 ≤ costRate e ∧ costRate e ≤ hi) → first ≤ last → 0 ≤ hi →
        0 ≤ computeEnergyCost rows ∧ computeEnergyCost rows ≤ hi * ((last - first) / 3600)) ∧
      ∀ before a b after e, (before ++ a :: b :: after).Perm rows →
        InTimeOrder (before ++ a :: b :: after) → a.simTime < e.simTime → e.simTime < b.simTime →
          Trapezoid.OnChord (point a) (point e) (point b) →
            computeEnergyCost (e :: rows) = computeEnergyCost rows := by
  refine ⟨fun rows' hperm => ?_, fun first last hi hrows hwidth hhi => ?_, ?_⟩
  · have hdistinct' : (rows'.map (·.simTime)).Nodup := (hperm.map _).nodup_iff.mp hdistinct
    rw [computeEnergyCost, mergeSort_eq (hperm.symm.trans (List.mergeSort_perm rows _).symm)
      hdistinct' (inTimeOrder_mergeSort rows)]
    rfl
  · have hmem : ∀ e ∈ rows.mergeSort fun e e' => e.simTime ≤ e'.simTime, e ∈ rows :=
      fun e he => (List.mergeSort_perm _ _).mem_iff.mp he
    have horder := inTimeOrder_mergeSort rows
    have hempty : 0 ≤ hi * ((last - first) / 3600) :=
      mul_nonneg hhi (div_nonneg (sub_nonneg.mpr hwidth) (by norm_num))
    rw [computeEnergyCost, trapezoidSum_eq]
    cases hsorted : rows.mergeSort fun e e' => e.simTime ≤ e'.simTime with
    | nil => simpa [Trapezoid.area] using hempty
    | cons p points =>
      rw [hsorted] at hmem horder
      have hpoints : (point p :: points.map point).Pairwise fun a b => a.1 ≤ b.1 := by
        rw [← List.map_cons, List.pairwise_map]
        exact horder
      have hp := hrows p (hmem p List.mem_cons_self)
      have hall : ∀ q ∈ point p :: points.map point, (0 ≤ q.2 ∧ q.2 ≤ hi) ∧ q.1 ≤ last := by
        intro q hq
        rw [← List.map_cons] at hq
        obtain ⟨e, he, rfl⟩ := List.mem_map.mp hq
        obtain ⟨htime, hrate⟩ := hrows e (hmem e he)
        exact ⟨hrate, htime.2⟩
      obtain ⟨hnonneg, hle⟩ := Trapezoid.area_mem hpoints (fun q hq => (hall q hq).1) le_rfl
        fun q hq => (hall q hq).2
      have hfirst : hi * (last - (point p).1) ≤ hi * (last - first) :=
        mul_le_mul_of_nonneg_left (sub_le_sub_left hp.1.1 _) hhi
      rw [List.map_cons]
      refine ⟨div_nonneg hnonneg (by norm_num), ?_⟩
      rw [← mul_div_assoc]
      exact div_le_div_of_nonneg_right (hle.trans hfirst) (by norm_num)
  · intro before a b after e hperm horder hae heb hchord
    obtain ⟨horder', hnew⟩ := horder.insert hae heb
    have hdistinct' : ((e :: rows).map (·.simTime)).Nodup := by
      refine List.nodup_cons.mpr ⟨fun hmem => ?_, hdistinct⟩
      obtain ⟨r, hr, htime⟩ := List.mem_map.mp hmem
      exact hnew r (hperm.mem_iff.mpr hr) htime
    have hmiddle : (e :: rows).Perm (before ++ a :: e :: b :: after) := by
      refine (hperm.symm.cons e).trans ?_
      have happend : before ++ a :: e :: b :: after = (before ++ [a]) ++ e :: b :: after := by
        rw [List.append_assoc]
        rfl
      have happend' : before ++ a :: b :: after = (before ++ [a]) ++ b :: after := by
        rw [List.append_assoc]
        rfl
      rw [happend, happend']
      exact List.perm_middle.symm
    rw [computeEnergyCost, computeEnergyCost, mergeSort_eq hmiddle hdistinct' horder',
      mergeSort_eq hperm.symm hdistinct horder, trapezoidSum_eq, trapezoidSum_eq,
      List.map_append, List.map_append]
    simp only [List.map_cons]
    rw [Trapezoid.area_insert _ _ (hae.trans heb) hchord]

/-- Three rows, written in another order. -/
theorem energy_cost_three :
    computeEnergyCost ([⟨2, 100, 30⟩, ⟨0, 100, 10⟩, ⟨1, 100, 20⟩] : List (EnergyRow ℚ)) =
      computeEnergyCost [⟨0, 100, 10⟩, ⟨1, 100, 20⟩, ⟨2, 100, 30⟩] := by
  refine (energy_cost ?_).1 _ ?_
  · simp
  · exact ((List.Perm.swap _ _ _).cons _).trans (List.Perm.swap _ _ _)

end

end ExperimentMetrics

end MatrixFactory
