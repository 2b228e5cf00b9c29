/-
# The quality gate

What Stations 1-4 have done to a stack reaches the verdict of its end-of-line test through three
parts of the factory: the quality caches of the database artifact, the request of the test bench and
the sweep of the physics server.

The caches are shared by all stacks and used by all stations at any time.  The request for a stack
is nevertheless a function of the results of this stack since its profile was dropped last.  One
defect among them is enough to fail the test, whatever the temperatures of the server and its gases
are.  A stack without defects and with little deviation is passed, and a stack is never passed
where one with better results is not.
-/
import MatrixFactory.DamageOrder
import MatrixFactory.NewtonSolver
import MatrixFactory.Rework

namespace MatrixFactory

namespace QualityCaches

/-! ## The results of a stack -/

/-- The caches after what the stations have done to them. -/
def after (ops : List QualityOp) : QualityCaches := ops.foldl (fun c op => op.exec c) {}

/-- One operation, as far as the results of a stack are concerned. -/
def addResult (o : OrderId) (rs : List StationResult) : QualityOp → List StationResult
  | .record o' r => if o' = o then rs ++ [r] else rs
  | .invalidate o' => if o' = o then [] else rs

/-- The results of a stack since its profile was dropped last. -/
def sinceDropped (o : OrderId) (ops : List QualityOp) : List StationResult :=
  ops.foldl (addResult o) []

/-- The deviation of a run from its mean time. -/
def varianceRatio (r : StationResult) : ℚ :=
  if 0 < r.tMeanS then |r.tProcS - r.tMeanS| / r.tMeanS else 0

/-- The signal of a run. -/
def signal (r : StationResult) : MechanisticSignal :=
  ⟨r.ecsaRatio, r.damageIndex, r.pClampMpa, r.gdlPorosity⟩

/-- The profile of some results. -/
def profileOf (rs : List StationResult) : QualityProfile where
  defectCount := rs.countP (·.defect)
  stationsVisited := rs.length
  cumulativeVarianceRatio := (rs.map varianceRatio).sum

/-- The signal of some results; the first one is stored as it is. -/
def signalOf : List StationResult → MechanisticSignal
  | [] => {}
  | r :: rs => (rs.map signal).foldl MechanisticSignal.combine (signal r)

/-- The request for a stack with these results. -/
def requestOf (setpoints : TestSetpoints) (o : OrderId) (rs : List StationResult) :
    BatchTestRequest where
  stackId := o
  numCells := 100
  operatingTempK := setpoints.operatingTempK
  inletPressureH2Bar := setpoints.inletPressureH2Bar
  inletPressureO2Bar := setpoints.inletPressureO2Bar
  rInternalPenaltyOhmCm2 := rs.countP (·.defect) * (8 / 100) +
    (rs.map varianceRatio).sum * (2 / 100) / (max rs.length 1 : ℕ)
  activityDerateFraction := min (6 / 10) (rs.countP (·.defect) * (15 / 100))
  ecsaRatio := (signalOf rs).ecsaRatioMin
  pClampMpa := (signalOf rs).pClampMpaLast
  gdlPorosity := (signalOf rs).gdlPorosityLast

/-! ## What the caches hold -/

theorem profileOf_concat (rs : List StationResult) (r : StationResult) :
    profileOf (rs ++ [r]) = (profileOf rs).plus (delta r) := by
  simp only [profileOf, QualityProfile.plus, delta, varianceRatio, List.countP_append,
    List.countP_singleton, List.length_append, List.length_singleton, List.map_append,
    List.map_singleton, List.sum_append, List.sum_singleton]

theorem signalOf_concat {rs : List StationResult} (hrs : rs ≠ []) (r : StationResult) :
    signalOf (rs ++ [r]) = (signalOf rs).combine (signal r) := by
  obtain ⟨first, rest, rfl⟩ := List.exists_cons_of_ne_nil hrs
  simp only [List.cons_append, signalOf, List.map_append, List.map_singleton, List.foldl_append,
    List.foldl_cons, List.foldl_nil]

/-- The caches hold a stack with these results. -/
structure Holds (o : OrderId) (rs : List StationResult) (c : QualityCaches) : Prop where
  profiles : c.profiles o = if rs = [] then none else some (profileOf rs)
  signals : c.signals o = if rs = [] then none else some (signalOf rs)

variable {o : OrderId} {rs : List StationResult} {c : QualityCaches}

theorem Holds.record (h : Holds o rs c) (r : StationResult) :
    Holds o (rs ++ [r]) (c.record o r) := by
  have hne : rs ++ [r] ≠ [] := List.concat_ne_nil r rs
  have hprofiles : (c.record o r).profiles o =
      some ((c.profiles o).elim (delta r) fun old => old.plus (delta r)) :=
    Function.update_self _ _ _
  have hsignals : (c.record o r).signals o =
      some ((c.signals o).elim (signal r) fun old => old.combine (signal r)) :=
    Function.update_self _ _ _
  constructor
  · rw [if_neg hne, profileOf_concat, hprofiles, h.profiles]
    by_cases hrs : rs = []
    · subst hrs
      simp [profileOf, QualityProfile.plus]
    · rw [if_neg hrs]
      rfl
  · rw [if_neg hne, hsignals, h.signals]
    by_cases hrs : rs = []
    · subst hrs
      rfl
    · rw [if_neg hrs, signalOf_concat hrs]
      rfl

/-- **One operation** of any station. -/
theorem Holds.exec (h : Holds o rs c) (op : QualityOp) :
    Holds o (addResult o rs op) (op.exec c) := by
  by_cases hop : op.stackId = o
  · cases op with
    | record o' r =>
      obtain rfl : o' = o := hop
      rw [addResult, if_pos rfl]
      exact h.record r
    | invalidate o' =>
      obtain rfl : o' = o := hop
      rw [addResult, if_pos rfl]
      exact ⟨Function.update_self _ _ _, Function.update_self _ _ _⟩
  · obtain ⟨hprofiles, hsignals⟩ := agree_exec hop c
    have hresults : addResult o rs op = rs := by
      cases op with
      | record o' r => exact if_neg hop
      | invalidate o' => exact if_neg hop
    rw [hresults]
    exact ⟨hprofiles.trans h.profiles, hsignals.trans h.signals⟩

theorem holds_after (o : OrderId) (ops : List QualityOp) :
    Holds o (sinceDropped o ops) (after ops) := by
  induction ops using List.reverseRecOn with
  | nil => exact ⟨rfl, rfl⟩
  | append_singleton ops op ih =>
    rw [sinceDropped, after, List.foldl_concat, List.foldl_concat]
    exact ih.exec op

theorem Holds.peek (h : Holds o rs c) :
    c.peekQualityProfile o = profileOf rs ∧ c.peekMechanisticSignal o = signalOf rs := by
  rw [peekQualityProfile, peekMechanisticSignal, h.profiles, h.signals]
  by_cases hrs : rs = []
  · subst hrs
    exact ⟨rfl, rfl⟩
  · rw [if_neg hrs, if_neg hrs]
    exact ⟨rfl, rfl⟩

/-- The request after any use of the caches. -/
theorem request_after (ops : List QualityOp) (setpoints : TestSetpoints) (o : OrderId) :
    (after ops).request setpoints o = requestOf setpoints o (sinceDropped o ops) := by
  obtain ⟨hprofile, hsignal⟩ := (holds_after o ops).peek
  rw [request, hprofile, hsignal]
  simp only [QualityProfile.penalty, profileOf, requestOf]

/-- The smallest ECSA ratio of some results. -/
theorem isLeast_ecsaRatioMin (hrs : rs ≠ []) :
    IsLeast {x | ∃ r ∈ rs, r.ecsaRatio = x} (signalOf rs).ecsaRatioMin := by
  induction rs using List.reverseRecOn with
  | nil => exact absurd rfl hrs
  | append_singleton rs r ih =>
    rcases eq_or_ne rs [] with rfl | hne
    · refine ⟨⟨r, List.mem_cons_self, rfl⟩, ?_⟩
      rintro x ⟨r', hr', rfl⟩
      rw [List.mem_singleton.mp hr']
      exact le_rfl
    · obtain ⟨⟨r₀, hr₀, hmin⟩, hlower⟩ := ih hne
      rw [signalOf_concat hne]
      constructor
      · rcases min_choice (signalOf rs).ecsaRatioMin r.ecsaRatio with h | h
        · exact ⟨r₀, List.mem_append_left _ hr₀, hmin.trans h.symm⟩
        · exact ⟨r, List.mem_append_right _ List.mem_cons_self, h.symm⟩
      · rintro x ⟨r', hr', rfl⟩
        rcases List.mem_append.mp hr' with hr' | hr'
        · exact (min_le_left _ _).trans (hlower ⟨r', hr', rfl⟩)
        · rw [List.mem_singleton.mp hr']
          exact min_le_right _ _

/-- The order of the results has no effect on the smallest ECSA ratio. -/
theorem ecsaRatioMin_perm {rs' : List StationResult} (h : rs.Perm rs') :
    (signalOf rs).ecsaRatioMin = (signalOf rs').ecsaRatioMin := by
  rcases eq_or_ne rs [] with rfl | hrs
  · rw [h.nil_eq]
  · have hrs' : rs' ≠ [] := fun hnil => hrs (h.trans (.of_eq hnil)).eq_nil
    have hset : {x | ∃ r ∈ rs, r.ecsaRatio = x} = {x | ∃ r ∈ rs', r.ecsaRatio = x} := by
      ext x
      exact exists_congr fun r => and_congr_left fun _ => h.mem_iff
    exact (isLeast_ecsaRatioMin hrs).unique (hset ▸ isLeast_ecsaRatioMin hrs')

/-- **The request is a ledger of the stack's own results.**  Whatever the stations have done for all
stacks and in which order, the request for a stack is determined by its results since its profile
was dropped last: every defect costs `0.08` and a derating of `0.15` up to `0.6`, and the mean
deviation costs a fiftieth.  The penalty, the derating and the ECSA ratio do not depend on the order
of these results. -/
theorem quality_ledger (ops : List QualityOp) (setpoints : TestSetpoints) (o : OrderId) :
    (after ops).request setpoints o = requestOf setpoints o (sinceDropped o ops) ∧
      ∀ ops', (sinceDropped o ops).Perm (sinceDropped o ops') →
        ((after ops').request setpoints o).rInternalPenaltyOhmCm2 =
            ((after ops).request setpoints o).rInternalPenaltyOhmCm2 ∧
          ((after ops').request setpoints o).activityDerateFraction =
            ((after ops).request setpoints o).activityDerateFraction ∧
          ((after ops').request setpoints o).ecsaRatio =
            ((after ops).request setpoints o).ecsaRatio := by
  refine ⟨request_after ops setpoints o, fun ops' hperm => ?_⟩
  rw [request_after, request_after]
  have hcount := hperm.countP_eq (·.defect)
  have hsum := (hperm.map varianceRatio).sum_eq
  simp only [requestOf, hcount, hsum, hperm.length_eq, ecsaRatioMin_perm hperm, and_self]

end QualityCaches

/-! ## The sweep of a request -/

/-- The request as the server receives it: what the test bench does not set has its default. -/
noncomputable def BatchTestRequest.wire (r : BatchTestRequest) :
    BatchKernel.BatchTestRequest ℝ where
  numCells := r.numCells
  operatingTempK := r.operatingTempK
  inletPressureH2Bar := r.inletPressureH2Bar
  inletPressureO2Bar := r.inletPressureO2Bar
  currentDensities := []
  rInternalPenaltyOhmCm2 := r.rInternalPenaltyOhmCm2
  activityDerateFraction := r.activityDerateFraction
  rhAnode := 0
  ecsaRatio := r.ecsaRatio
  pClampMpa := r.pClampMpa
  gdlPorosity := r.gdlPorosity
  jLimDerateFraction := 0

namespace BatchKernel

variable {fluid : FluidData ℝ} {r r' : BatchTestRequest ℝ} {s : BatchServer ℝ} {q q' : SweepInput ℝ}

/-- How far the clamping pressure is from the one that the stack is made for. -/
noncomputable def clampDeviation (p : ℝ) : ℝ := |max 0.5 p - 4.25|

theorem computeContactResistance_eq (p g : ℝ) :
    (realLib fluid).computeContactResistance p g =
      0.0042 * (1 + 0.35 * (clampDeviation p / 4.25) + 0.25 * (clampDeviation p / 4.25) ^ 2) := by
  have hdev : 0 ≤ clampDeviation p := abs_nonneg _
  simp only [NumLib.computeContactResistance, pyMax_real, realLib]
  push_cast
  rw [max_eq_right]
  · unfold clampDeviation
    ring
  · unfold clampDeviation at hdev
    positivity

/-- The contacts have the more resistance the further the clamping pressure is from its nominal
value. -/
theorem computeContactResistance_mono {p p' : ℝ} (h : clampDeviation p ≤ clampDeviation p')
    (g g' : ℝ) : (realLib fluid).computeContactResistance p g ≤
      (realLib fluid).computeContactResistance p' g' := by
  have hdev : 0 ≤ clampDeviation p := abs_nonneg _
  rw [computeContactResistance_eq, computeContactResistance_eq]
  gcongr

theorem le_contactResistance (p g : ℝ) :
    0.0042 ≤ (realLib fluid).computeContactResistance p g := by
  have hdev : 0 ≤ clampDeviation p := abs_nonneg _
  rw [computeContactResistance_eq]
  have hextra : 0 ≤ 0.35 * (clampDeviation p / 4.25) + 0.25 * (clampDeviation p / 4.25) ^ 2 := by
    positivity
  linarith

/-- The sweep of a request without currents ends at 2.375. -/
theorem mem_jValues (hcurrents : r.currentDensities = []) (hderate : r.jLimDerateFraction = 0) :
    2.375 ∈ (realLib fluid).jValues r := by
  -- the ECSA ratio is not read
  have hr : BenchRequest { r with numCells := 100, ecsaRatio := 1 } :=
    ⟨rfl, hcurrents, hderate, le_rfl⟩
  have heq : (realLib fluid).jValues r =
      (realLib fluid).jValues { r with numCells := 100, ecsaRatio := 1 } := rfl
  rw [heq, jValues_eq hr]
  refine List.mem_map.mpr ⟨11, List.mem_range.mpr (by norm_num), ?_⟩
  norm_num

/-- **A stack that is passed has little resistance.** -/
theorem resistance_of_passed (hcurrents : r.currentDensities = [])
    (hderate : r.jLimDerateFraction = 0)
    (h : ((realLib fluid).runBatchTest r s).1.passed = true) :
    2.375 * ((realLib fluid).rInternalEffective r s + 0.005) ≤ 0.35 := by
  rw [NumLib.passed_iff r s lit_ne_zero_real.1 lit_ne_zero_real.2] at h
  obtain ⟨q, points, flags, hsweep, -, hpoints, -⟩ := h
  obtain ⟨hinput, -, failure, hloop, -⟩ := NumLib.sweep_eq_some hsweep
  obtain ⟨hjs, hcomputed⟩ := NumLib.sweepLoop_computed hloop
  have hmem : 2.375 ∈ points.map (·.current) := hjs ▸ mem_jValues hcurrents hderate
  obtain ⟨p, hp, hcurrent⟩ := List.mem_map.mp hmem
  obtain ⟨v, hv, -, hohm⟩ := (hcomputed p hp).voltage
  have hrInternal : q.rInternal = (realLib fluid).rInternalEffective r s := by
    obtain ⟨aH2, -, hinput⟩ := Option.bind_eq_some_iff.mp hinput
    obtain ⟨aO2, -, rfl⟩ := Option.map_eq_some_iff.mp hinput
    rfl
  -- the ohmic overpotential at the last current
  obtain ⟨j0, -, hv⟩ := Option.bind_eq_some_iff.mp hv
  obtain ⟨eOcv, -, hv⟩ := Option.bind_eq_some_iff.mp hv
  obtain ⟨jRatio, -, hv⟩ := Option.bind_eq_some_iff.mp hv
  obtain ⟨rMem, hrMem, hv⟩ := Option.bind_eq_some_iff.mp hv
  obtain ⟨ratio, -, hv⟩ := Option.bind_eq_some_iff.mp hv
  obtain ⟨slope, -, rfl⟩ := Option.map_eq_some_iff.mp hv
  have hge : 0.005 ≤ rMem := membraneResistance_ge hrMem
  have hlimit : p.etaOhm ≤ 0.35 := by
    have hnot := not_lt.mp (hpoints p hp).1
    have hlit : (realLib fluid).lit 0.35 = 0.35 := by
      simp only [realLib]
      norm_num
    rwa [hlit] at hnot
  rw [hohm, hcurrent, hrInternal] at hlimit
  linarith

/-- A stack with little resistance and enough of its gases is passed. -/
theorem passed_of_low (hr : BenchRequest r) (hs : 0 ≤ s.rInternal) (hcore : 298.15 ≤ s.tCore)
    (hcoreHi : s.tCore ≤ 358) (hinput : (realLib fluid).sweepInput r s = some q)
    (hlow : ¬(realLib fluid).lowActivation q)
    (hresistance : (realLib fluid).rInternalEffective r s ≤ 0.0688) :
    ((realLib fluid).runBatchTest r s).1.passed = true := by
  obtain ⟨hq, -, hrInternal, hecsa⟩ := benchInput hr hs hinput
  rw [passed_iff_clean hr hs hcore]
  refine ⟨q, hinput, hlow, ?_⟩
  apply clean_of_low hq (soundCatalyst hr hecsa hlow) (hrInternal ▸ hresistance)
    (sweepCurrents_jValues hr).current (between_start hcore)
  rw [length_jValues hr]
  push_cast
  linarith

/-- A request that is no worse than another: the same gases and catalyst, no more resistance and no
more derating. -/
structure NoWorse (fluid : FluidData ℝ) (s : BatchServer ℝ) (r r' : BatchTestRequest ℝ) : Prop where
  operatingTempK : r.operatingTempK = r'.operatingTempK
  inletPressureH2Bar : r.inletPressureH2Bar = r'.inletPressureH2Bar
  inletPressureO2Bar : r.inletPressureO2Bar = r'.inletPressureO2Bar
  rhAnode : r.rhAnode = r'.rhAnode
  ecsaRatio : r.ecsaRatio = r'.ecsaRatio
  derate : r.activityDerateFraction ≤ r'.activityDerateFraction
  rInternal : (realLib fluid).rInternalEffective r s ≤ (realLib fluid).rInternalEffective r' s

/-- The worse request has a sweep with more resistance and less of its gases. -/
theorem NoWorse.sweepInput (h : NoWorse fluid s r r')
    (hinput' : (realLib fluid).sweepInput r' s = some q') :
    ∃ q, (realLib fluid).sweepInput r s = some q ∧ Damaged q q' ∧ q'.aH2 ≤ q.aH2 ∧
      q'.aO2 ≤ q.aO2 := by
  have hactivity : ∀ raw, (realLib fluid).deratedActivity r' raw ≤
      (realLib fluid).deratedActivity r raw := fun raw =>
    deratedActivity_antitone r'.rInternalPenaltyOhmCm2 raw h.derate
  obtain ⟨aH2, hH2, hinput'⟩ := Option.bind_eq_some_iff.mp hinput'
  obtain ⟨aO2, hO2, rfl⟩ := Option.map_eq_some_iff.mp hinput'
  rw [← h.operatingTempK, ← h.inletPressureH2Bar, ← h.rhAnode] at hH2
  rw [← h.operatingTempK, ← h.inletPressureO2Bar] at hO2
  refine ⟨_, Option.bind_eq_some_iff.mpr ⟨aH2, hH2, Option.map_eq_some_iff.mpr ⟨aO2, hO2, rfl⟩⟩,
    ⟨h.rInternal, ?_⟩, hactivity aH2, hactivity aO2⟩
  simp only [NumLib.ecsaRatio, h.ecsaRatio]

/-- A request is passed where a worse one is. -/
theorem NoWorse.passed (h : NoWorse fluid s r r') (hr : BenchRequest r) (hr' : BenchRequest r')
    (hs : 0 ≤ s.rInternal) (hcore : 298.15 ≤ s.tCore)
    (hpassed : ((realLib fluid).runBatchTest r' s).1.passed = true) :
    ((realLib fluid).runBatchTest r s).1.passed = true := by
  rw [passed_iff_clean hr' hs hcore] at hpassed
  obtain ⟨q', hinput', hlow', hclean'⟩ := hpassed
  obtain ⟨q, hinput, hdamaged, hH2, hO2⟩ := h.sweepInput hinput'
  obtain ⟨hq, -, -, hecsa⟩ := benchInput hr hs hinput
  have hlow : ¬(realLib fluid).lowActivation q := by
    unfold NumLib.lowActivation at hlow' ⊢
    rw [hdamaged.ecsaRatio] at hlow'
    exact fun hless => hlow' (hless.imp_right (Or.imp hH2.trans_lt hO2.trans_lt))
  have hjs : (realLib fluid).jValues r' = (realLib fluid).jValues r := by
    rw [jValues_eq hr, jValues_eq hr']
  have hahead : Ahead 0 s.tCore s.tCore s.tCore s.tCore :=
    ⟨le_rfl, (add_zero _).ge, le_rfl, (add_zero _).ge⟩
  rw [passed_iff_clean hr hs hcore]
  refine ⟨q, hinput, hlow, Clean.of_damaged hdamaged hq (soundCatalyst hr hecsa hlow)
    (sweepCurrents_jValues hr).current (between_start hcore) hahead ?_ (hjs ▸ hclean')⟩
  have hmore : 0 ≤ q'.rInternal - q.rInternal := sub_nonneg.mpr hdamaged.rInternal
  rw [length_jValues hr]
  push_cast
  linarith

end BatchKernel

namespace QualityCaches

open BatchKernel

variable {fluid : FluidData ℝ} {setpoints : TestSetpoints} {o : OrderId}
  {rs rs' : List StationResult} {s : BatchServer ℝ}

/-! ## The signals -/

/-- What holds of the signals of single results, and is kept when they are combined, holds of the
signals of two stacks. -/
theorem signalOf_rel {R : MechanisticSignal → MechanisticSignal → Prop} (hempty : R {} {})
    (hcombine : ∀ p p' q q', R p p' → R q q' → R (p.combine q) (p'.combine q'))
    (h : List.Forall₂ (fun r r' => R (signal r) (signal r')) rs rs') :
    R (signalOf rs) (signalOf rs') := by
  cases h with
  | nil => exact hempty
  | cons hfirst hrest =>
    have hmap : List.Forall₂ R (List.map signal _) (List.map signal _) :=
      List.forall₂_map_left_iff.mpr (List.forall₂_map_right_iff.mpr hrest)
    exact List.rel_foldl (fun p p' hp q q' hq => hcombine p p' q q' hp hq) hfirst hmap

/-- How far the clamping pressure that the server takes is from the nominal one. -/
def deviation (p : ℚ) : ℚ := if p ≤ 0 then 0 else |max (1 / 2) p - 425 / 100|

theorem clampDeviation_wire (p : ℚ) :
    clampDeviation (if (p : ℝ) ≤ (realLib fluid).lit 0 then (realLib fluid).lit 4.25 else p) =
      (deviation p : ℝ) := by
  unfold clampDeviation deviation
  simp only [realLib, Rat.cast_le]
  split_ifs with hp
  · norm_num
  · push_cast
    norm_num

/-- The resistance at the request for a stack. -/
theorem rInternalEffective_wire (setpoints : TestSetpoints) (o : OrderId)
    (rs : List StationResult) (s : BatchServer ℝ) :
    (realLib fluid).rInternalEffective (requestOf setpoints o rs).wire s =
      s.rInternal + max 0 ((requestOf setpoints o rs).rInternalPenaltyOhmCm2 : ℝ) +
        0.0042 * (1 + 0.35 * ((deviation (signalOf rs).pClampMpaLast : ℝ) / 4.25) +
          0.25 * ((deviation (signalOf rs).pClampMpaLast : ℝ) / 4.25) ^ 2) := by
  rw [← @clampDeviation_wire fluid, ← @computeContactResistance_eq fluid _ 0]
  have hzero : (realLib fluid).lit 0 = 0 := Rat.cast_zero
  simp only [NumLib.rInternalEffective, pyMax_real, hzero, BatchTestRequest.wire]
  rfl

/-! ## The verdict on a stack -/

/-- A defect costs at least `0.08`. -/
theorem le_penalty (hdefect : ∃ r ∈ rs, r.defect = true) :
    8 / 100 ≤ (requestOf setpoints o rs).rInternalPenaltyOhmCm2 := by
  have hcount : 1 ≤ (profileOf rs).defectCount := List.countP_pos_iff.mpr hdefect
  apply QualityProfile.le_penalty hcount
  refine List.sum_nonneg fun x hx => ?_
  obtain ⟨r, -, rfl⟩ := List.mem_map.mp hx
  exact delta_nonneg r

/-- **A defect fails the test**, at every temperature of the server and whatever its gases are. -/
theorem not_passed_of_defect (hs : 6 / 100 ≤ s.rInternal) (hdefect : ∃ r ∈ rs, r.defect = true) :
    ¬((realLib fluid).runBatchTest (requestOf setpoints o rs).wire s).1.passed = true := by
  intro hpassed
  have hlittle := resistance_of_passed rfl rfl hpassed
  have hpenalty : (8 / 100 : ℝ) ≤ (requestOf setpoints o rs).rInternalPenaltyOhmCm2 := by
    have hcast : ((8 / 100 : ℚ) : ℝ) ≤ (requestOf setpoints o rs).rInternalPenaltyOhmCm2 :=
      Rat.cast_le.mpr (le_penalty hdefect)
    push_cast at hcast
    exact hcast
  have hserver : (6 / 100 : ℝ) ≤ s.rInternal := by
    have hcast : ((6 / 100 : ℚ) : ℝ) ≤ s.rInternal := Rat.cast_le.mpr hs
    push_cast at hcast
    exact hcast
  have hdev : (0 : ℝ) ≤ deviation (signalOf rs).pClampMpaLast := by
    rw [← @clampDeviation_wire fluid]
    exact abs_nonneg _
  have hcontact : 0 ≤ 0.35 * ((deviation (signalOf rs).pClampMpaLast : ℝ) / 4.25) +
      0.25 * ((deviation (signalOf rs).pClampMpaLast : ℝ) / 4.25) ^ 2 := by
    positivity
  have hmax := hpenalty.trans (le_max_right 0 _)
  rw [rInternalEffective_wire] at hlittle
  norm_num at hlittle hcontact
  linarith

/-- Results without defects, of a stack with a good catalyst and a clamping pressure near the
nominal one, that deviate from their mean times by a fifth on average at most; and a server that is
neither cold nor too warm and has enough of the gases for the setpoints. -/
structure Sound (fluid : FluidData ℝ) (setpoints : TestSetpoints) (s : BatchServer ℝ)
    (rs : List StationResult) : Prop where
  core : 298.15 ≤ s.tCore ∧ s.tCore ≤ 358
  variance : (rs.map varianceRatio).sum ≤ 2 / 10 * (max rs.length 1 : ℕ)
  ecsaRatio : ∀ r ∈ rs, 3 / 10 ≤ r.ecsaRatio ∧ r.ecsaRatio ≤ 1
  pClampMpa : ∀ r ∈ rs, |r.pClampMpa - 425 / 100| ≤ 1
  gases : ∃ aH2 aO2, 0.7 ≤ aH2 ∧ 0.7 ≤ aO2 ∧
    let t := if (setpoints.operatingTempK : ℝ) = (realLib fluid).lit 0 then
      (realLib fluid).lit 353.15 else setpoints.operatingTempK
    (realLib fluid).realGasActivity (setpoints.inletPressureH2Bar * (realLib fluid).lit 1e5) t .h2
        0 = some aH2 ∧
      (realLib fluid).realGasActivity (setpoints.inletPressureO2Bar * (realLib fluid).lit 1e5) t
        .o2 ((realLib fluid).lit 0) = some aO2

/-- The signals of a sound stack. -/
theorem Sound.signal (h : Sound fluid setpoints s rs) :
    (3 / 10 ≤ (signalOf rs).ecsaRatioMin ∧ (signalOf rs).ecsaRatioMin ≤ 1) ∧
      |(signalOf rs).pClampMpaLast - 425 / 100| ≤ 1 := by
  let P : MechanisticSignal → Prop := fun m =>
    (3 / 10 ≤ m.ecsaRatioMin ∧ m.ecsaRatioMin ≤ 1) ∧ |m.pClampMpaLast - 425 / 100| ≤ 1
  have hcombine : ∀ p q, P p → P q → P (p.combine q) := by
    rintro p q ⟨⟨hlo, hhi⟩, hclamp⟩ ⟨⟨hlo', -⟩, hclamp'⟩
    refine ⟨⟨le_min hlo hlo', (min_le_left _ _).trans hhi⟩, ?_⟩
    simp only [MechanisticSignal.combine]
    split_ifs
    · exact hclamp'
    · exact hclamp
  refine signalOf_rel (R := fun p _ => P p) ?_ (fun p _ q _ => hcombine p q)
    (List.forall₂_same.mpr fun r hr => ⟨h.ecsaRatio r hr, h.pClampMpa r hr⟩)
  simp only [P]
  norm_num

/-- The deviation of a clamping pressure near the nominal one. -/
theorem deviation_le_one {p : ℚ} (h : |p - 425 / 100| ≤ 1) : deviation p ≤ 1 := by
  obtain ⟨hlo, hhi⟩ := abs_le.mp h
  have hp : ¬p ≤ 0 := by linarith
  rw [deviation, if_neg hp, max_eq_right (by linarith)]
  exact h

theorem countP_defect (hgood : ∀ r ∈ rs, r.defect = false) : rs.countP (·.defect) = 0 := by
  rw [List.countP_eq_zero]
  intro r hr
  rw [hgood r hr]
  exact Bool.false_ne_true

/-- The penalty of a sound stack. -/
theorem Sound.penalty_le (h : Sound fluid setpoints s rs) (hgood : ∀ r ∈ rs, r.defect = false) :
    (requestOf setpoints o rs).rInternalPenaltyOhmCm2 ≤ 4 / 1000 := by
  have hpos : (0 : ℚ) < (max rs.length 1 : ℕ) := Nat.cast_pos.mpr (lt_max_of_lt_right one_pos)
  simp only [requestOf, countP_defect hgood]
  rw [Nat.cast_zero, zero_mul, zero_add, div_le_iff₀ hpos]
  linarith [h.variance]

/-- The resistance of a sound stack is within the limit. -/
theorem Sound.rInternal_le (h : Sound fluid setpoints s rs) (hs : s.rInternal = 6 / 100)
    (hgood : ∀ r ∈ rs, r.defect = false) :
    (realLib fluid).rInternalEffective (requestOf setpoints o rs).wire s ≤ 0.0688 := by
  have hpenalty : ((requestOf setpoints o rs).rInternalPenaltyOhmCm2 : ℝ) ≤ 4 / 1000 := by
    have hcast : ((requestOf setpoints o rs).rInternalPenaltyOhmCm2 : ℝ) ≤ (4 / 1000 : ℚ) :=
      Rat.cast_le.mpr (h.penalty_le hgood)
    push_cast at hcast
    exact hcast
  have hmax : max 0 ((requestOf setpoints o rs).rInternalPenaltyOhmCm2 : ℝ) ≤ 4 / 1000 :=
    max_le (by norm_num) hpenalty
  have hdev : (deviation (signalOf rs).pClampMpaLast : ℝ) ≤ 1 := by
    exact_mod_cast deviation_le_one h.signal.2
  have hdevPos : (0 : ℝ) ≤ deviation (signalOf rs).pClampMpaLast := by
    rw [← @clampDeviation_wire fluid]
    exact abs_nonneg _
  have hsquare : ((deviation (signalOf rs).pClampMpaLast : ℝ) / 4.25) ^ 2 ≤ (1 / 4.25) ^ 2 := by
    gcongr
  rw [rInternalEffective_wire, hs]
  push_cast
  norm_num at hsquare ⊢
  linarith

/-- Without derating a gas keeps its activity. -/
theorem le_deratedActivity {r : BatchKernel.BatchTestRequest ℝ} {raw : ℝ}
    (hr : r.activityDerateFraction = 0) (hraw : 0.7 ≤ raw) :
    0.7 ≤ (realLib fluid).deratedActivity r raw := by
  simp only [NumLib.deratedActivity, hr, realLib, npClip]
  norm_num at hraw ⊢
  split_ifs <;> linarith

/-- The catalyst of a sound stack. -/
theorem Sound.ecsaRatio_wire (h : Sound fluid setpoints s rs) :
    (requestOf setpoints o rs).wire.ecsaRatio ≤ 1 ∧
      0.3 ≤ (realLib fluid).ecsaRatio (requestOf setpoints o rs).wire := by
  obtain ⟨hlo, hhi⟩ := h.signal.1
  have hlo' : ((3 / 10 : ℚ) : ℝ) ≤ (signalOf rs).ecsaRatioMin := Rat.cast_le.mpr hlo
  have hhi' : ((signalOf rs).ecsaRatioMin : ℝ) ≤ 1 := by exact_mod_cast hhi
  refine ⟨hhi', ?_⟩
  simp only [NumLib.ecsaRatio, BatchTestRequest.wire, requestOf, realLib]
  push_cast at hlo' ⊢
  split_ifs
  · norm_num
  · exact le_trans (by norm_num) hlo'

/-- **A sound stack is passed.** -/
theorem Sound.passed (h : Sound fluid setpoints s rs) (hs : s.rInternal = 6 / 100)
    (hgood : ∀ r ∈ rs, r.defect = false) :
    ((realLib fluid).runBatchTest (requestOf setpoints o rs).wire s).1.passed = true := by
  obtain ⟨hecsaHi, hecsa⟩ := h.ecsaRatio_wire (o := o)
  obtain ⟨aH2, aO2, haH2, haO2, hH2, hO2⟩ := h.gases
  have hr : BenchRequest (requestOf setpoints o rs).wire := ⟨rfl, rfl, rfl, hecsaHi⟩
  have hderate : (requestOf setpoints o rs).wire.activityDerateFraction = 0 := by
    simp only [BatchTestRequest.wire, requestOf, countP_defect hgood]
    norm_num
  have hinput : (realLib fluid).sweepInput (requestOf setpoints o rs).wire s = some _ :=
    Option.bind_eq_some_iff.mpr ⟨aH2, hH2, Option.map_eq_some_iff.mpr ⟨aO2, hO2, rfl⟩⟩
  have hlits : (realLib fluid).lit 0.3 = 0.3 ∧ (realLib fluid).lit 0.7 = 0.7 := by
    simp only [realLib]
    norm_num
  refine passed_of_low hr (by rw [hs]; norm_num) h.core.1 h.core.2 hinput ?_
    (h.rInternal_le hs hgood)
  rw [NumLib.lowActivation, hlits.1, hlits.2]
  rintro (hless | hless | hless)
  · exact absurd hless (not_lt.mpr hecsa)
  · exact absurd hless (not_lt.mpr (le_deratedActivity hderate haH2))
  · exact absurd hless (not_lt.mpr (le_deratedActivity hderate haO2))

/-- **The quality gate.**  Whatever the stations have done for all stacks, a stack with a defect
among its results is not passed, and a sound one without defects is. -/
theorem quality_gate (fluid : FluidData ℝ) (ops : List QualityOp) (setpoints : TestSetpoints)
    (o : OrderId) {s : BatchServer ℝ} (hs : s.rInternal = 6 / 100) :
    ((∃ r ∈ sinceDropped o ops, r.defect = true) →
        ((realLib fluid).runBatchTest ((after ops).request setpoints o).wire s).1.passed = false) ∧
      (Sound fluid setpoints s (sinceDropped o ops) →
        (((realLib fluid).runBatchTest ((after ops).request setpoints o).wire s).1.passed = true ↔
          ∀ r ∈ sinceDropped o ops, r.defect = false)) := by
  rw [request_after]
  have hfails := @not_passed_of_defect fluid setpoints o (sinceDropped o ops) s hs.ge
  refine ⟨fun hdefect => Bool.eq_false_iff.mpr (hfails hdefect), fun hsound =>
    ⟨fun hpassed r hr => ?_, hsound.passed hs⟩⟩
  rw [← Bool.not_eq_true]
  exact fun hdefect => hfails ⟨r, hr, hdefect⟩ hpassed

/-- A server after its start has enough of the gases for the setpoints. -/
theorem sound_started (hvariance : (rs.map varianceRatio).sum ≤ 2 / 10 * (max rs.length 1 : ℕ))
    (hrs : ∀ r ∈ rs, r.ecsaRatio = 1 ∧ |r.pClampMpa - 425 / 100| ≤ 1) :
    Sound noFluids {} startedServer rs := by
  have hzero : (0 : ℝ) = (realLib noFluids).lit 0 := Rat.cast_zero.symm
  constructor
  · simp only [startedServer]
    norm_num
  · exact hvariance
  · intro r hr
    rw [(hrs r hr).1]
    norm_num
  · exact fun r hr => (hrs r hr).2
  · refine ⟨2, 2, by norm_num, by norm_num, ?_, realGasActivity_two .o2 _⟩
    exact (congrArg ((realLib noFluids).realGasActivity _ _ .h2) hzero).trans
      (realGasActivity_two .h2 _)

/-- The gate at a server after its start, for a stack that has come from Stations 1-4 on time, and
for the same stack with a defect at the last of them. -/
theorem quality_gate_started :
    let o : OrderId := ⟨"order_1", 0⟩
    let good : List QualityOp := List.replicate 4 (.record o (Rework.onTime false))
    ((realLib noFluids).runBatchTest
        ((after good).request {} o).wire startedServer).1.passed = true ∧
      ((realLib noFluids).runBatchTest
        ((after (good ++ [.record o (Rework.onTime true)])).request {} o).wire
          startedServer).1.passed = false := by
  intro o good
  have hs : startedServer.rInternal = 6 / 100 := by
    simp only [startedServer]
    norm_num
  have hgood : sinceDropped o good = List.replicate 4 (Rework.onTime false) := rfl
  have hbad : sinceDropped o (good ++ [.record o (Rework.onTime true)]) =
      List.replicate 4 (Rework.onTime false) ++ [Rework.onTime true] := rfl
  have hsound : Sound noFluids {} startedServer (sinceDropped o good) := by
    rw [hgood]
    apply sound_started
    · simp [varianceRatio, Rework.onTime]
    · intro r hr
      rw [List.eq_of_mem_replicate hr]
      simp only [Rework.onTime]
      norm_num
  constructor
  · rw [(quality_gate noFluids good {} o hs).2 hsound, hgood]
    intro r hr
    rw [List.eq_of_mem_replicate hr]
    rfl
  · apply (quality_gate noFluids _ {} o hs).1
    rw [hbad]
    exact ⟨Rework.onTime true, List.mem_append_right _ List.mem_cons_self, rfl⟩

/-! ## Better and worse results -/

/-- A result that is no worse than another. -/
structure NoWorse (r r' : StationResult) : Prop where
  defect : r.defect = true → r'.defect = true
  variance : varianceRatio r ≤ varianceRatio r'
  ecsaRatio : r.ecsaRatio = r'.ecsaRatio
  clamped : 0 < r.pClampMpa ↔ 0 < r'.pClampMpa
  clamp : deviation r.pClampMpa ≤ deviation r'.pClampMpa

/-- The signals of results that are no worse. -/
theorem signalOf_noWorse (h : List.Forall₂ NoWorse rs rs') :
    (signalOf rs).ecsaRatioMin = (signalOf rs').ecsaRatioMin ∧
      deviation (signalOf rs).pClampMpaLast ≤ deviation (signalOf rs').pClampMpaLast := by
  let R : MechanisticSignal → MechanisticSignal → Prop := fun m m' =>
    m.ecsaRatioMin = m'.ecsaRatioMin ∧ (0 < m.pClampMpaLast ↔ 0 < m'.pClampMpaLast) ∧
      deviation m.pClampMpaLast ≤ deviation m'.pClampMpaLast
  have hcombine : ∀ p p' q q', R p p' → R q q' → R (p.combine q) (p'.combine q') := by
    rintro p p' q q' ⟨hecsa, hpos, hdev⟩ ⟨hecsa', hpos', hdev'⟩
    refine ⟨congrArg₂ min hecsa hecsa', ?_⟩
    simp only [MechanisticSignal.combine, hpos']
    split_ifs with hq
    · exact ⟨hpos', hdev'⟩
    · exact ⟨hpos, hdev⟩
  have hrel : R (signalOf rs) (signalOf rs') :=
    signalOf_rel ⟨rfl, Iff.rfl, le_rfl⟩ hcombine
      (h.imp fun _ _ hr => ⟨hr.ecsaRatio, hr.clamped, hr.clamp⟩)
  exact ⟨hrel.1, hrel.2.2⟩

/-- The penalties of results that are no worse. -/
theorem penalty_noWorse {o' : OrderId} (h : List.Forall₂ NoWorse rs rs') :
    (requestOf setpoints o rs).rInternalPenaltyOhmCm2 ≤
        (requestOf setpoints o' rs').rInternalPenaltyOhmCm2 ∧
      (requestOf setpoints o rs).activityDerateFraction ≤
        (requestOf setpoints o' rs').activityDerateFraction := by
  have hcount : rs.countP (·.defect) ≤ rs'.countP (·.defect) := by
    induction h with
    | nil => exact le_rfl
    | cons hr _ ih =>
      rw [List.countP_cons, List.countP_cons]
      refine Nat.add_le_add ih ?_
      split_ifs with hd hd'
      · exact le_rfl
      · exact absurd (hr.defect hd) hd'
      · exact Nat.zero_le _
      · exact le_rfl
  have hsum : (rs.map varianceRatio).sum ≤ (rs'.map varianceRatio).sum :=
    List.Forall₂.sum_le_sum (List.forall₂_map_left_iff.mpr (List.forall₂_map_right_iff.mpr
      (h.imp fun _ _ hr => hr.variance)))
  have hcast : ((rs.countP (·.defect) : ℕ) : ℚ) ≤ (rs'.countP (·.defect) : ℕ) :=
    Nat.cast_le.mpr hcount
  simp only [requestOf, h.length_eq]
  constructor
  · gcongr
  · gcongr

/-- **A stack is never passed where one with better results is not.**  Two stacks have been to the
same number of stations since their profiles were dropped, and in between the stations have done
anything for other stacks.  Where the results of one are no worse than those of the other, it is
passed by every server that passes the other. -/
theorem quality_order (fluid : FluidData ℝ) {ops ops' : List QualityOp} {o o' : OrderId}
    (setpoints : TestSetpoints) {s : BatchServer ℝ} (hs : 0 ≤ s.rInternal)
    (hcore : 298.15 ≤ s.tCore)
    (h : List.Forall₂ NoWorse (sinceDropped o ops) (sinceDropped o' ops'))
    (hecsa : (signalOf (sinceDropped o ops)).ecsaRatioMin ≤ 1)
    (hpassed : ((realLib fluid).runBatchTest
      ((after ops').request setpoints o').wire s).1.passed = true) :
    ((realLib fluid).runBatchTest ((after ops).request setpoints o).wire s).1.passed = true := by
  rw [request_after] at hpassed ⊢
  obtain ⟨hratio, hclamp⟩ := signalOf_noWorse h
  obtain ⟨hpenalty, hderate⟩ := @penalty_noWorse setpoints o _ _ o' h
  have hecsaReal : ((signalOf (sinceDropped o ops)).ecsaRatioMin : ℝ) ≤ 1 := by
    exact_mod_cast hecsa
  have hratioReal : ((signalOf (sinceDropped o ops)).ecsaRatioMin : ℝ) =
      (signalOf (sinceDropped o' ops')).ecsaRatioMin := congrArg _ hratio
  have hdev : (0 : ℝ) ≤ deviation (signalOf (sinceDropped o ops)).pClampMpaLast := by
    rw [← @clampDeviation_wire fluid]
    exact abs_nonneg _
  have hnoWorse : BatchKernel.NoWorse fluid s (requestOf setpoints o (sinceDropped o ops)).wire
      (requestOf setpoints o' (sinceDropped o' ops')).wire := by
    refine ⟨rfl, rfl, rfl, rfl, hratioReal, Rat.cast_le.mpr hderate, ?_⟩
    rw [rInternalEffective_wire, rInternalEffective_wire]
    gcongr
  exact hnoWorse.passed ⟨rfl, rfl, rfl, hecsaReal⟩ ⟨rfl, rfl, rfl, hratioReal.ge.trans hecsaReal⟩ hs
    hcore hpassed

/-- A run that takes a tenth longer than its mean time and clamps a little too weakly. -/
def slowRun : StationResult where
  defect := false
  tProcS := 55 / 10
  tMeanS := 5
  pClampMpa := 4

/-- A stack with a slow run is passed, and so is one that has come on time. -/
theorem quality_order_slow :
    let o : OrderId := ⟨"order_1", 0⟩
    ((realLib noFluids).runBatchTest
      ((after [.record o (Rework.onTime false)]).request {} o).wire startedServer).1.passed =
        true := by
  intro o
  have hratio : varianceRatio slowRun = 1 / 10 ∧ varianceRatio (Rework.onTime false) = 0 := by
    simp only [varianceRatio, slowRun, Rework.onTime]
    norm_num
  have hdev : deviation (Rework.onTime false).pClampMpa ≤ deviation slowRun.pClampMpa := by
    simp only [deviation, slowRun, Rework.onTime]
    norm_num
  have hslow : Sound noFluids {} startedServer [slowRun] := by
    apply sound_started
    · rw [List.map_singleton, List.sum_singleton, hratio.1]
      norm_num
    · intro r hr
      rw [List.mem_singleton.mp hr]
      refine ⟨rfl, ?_⟩
      rw [abs_le]
      simp only [slowRun]
      norm_num
  have hs : startedServer.rInternal = 6 / 100 := by
    simp only [startedServer]
    norm_num
  apply @quality_order noFluids _ [.record o slowRun] o o {} startedServer
  · rw [hs]
    norm_num
  · exact hslow.core.1
  · refine .cons ⟨(fun h => by cases h), ?_, rfl, ?_, hdev⟩ .nil
    · rw [hratio.1, hratio.2]
      norm_num
    · simp only [Rework.onTime, slowRun]
      norm_num
  · exact le_rfl
  · rw [request_after]
    exact hslow.passed hs fun r hr => (List.mem_singleton.mp hr) ▸ rfl

end QualityCaches

end MatrixFactory
