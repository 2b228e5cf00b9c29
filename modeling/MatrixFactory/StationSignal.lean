/-
# The quality signal of a stack

Stations 1-4 log the physical quality of each run, and `recordMechanisticQuality` merges it into the
signal of the stack.  A station measures some of the quantities and puts a default for the others.
The smallest ECSA ratio and the largest damage index are kept whatever the order is.  Of the
clamping pressure and the porosity the last record counts, if it is positive, and the defaults
are: a record that is merged after the one of Station 4 undoes its measurement.
-/
import MatrixFactory.Rework

namespace MatrixFactory

/-! ## The records of the stations -/

/-- The station whose process a run simulates. -/
inductive ProcessKind
  | s1
  | s2
  | s3
  | s4
  | other
  deriving DecidableEq, Repr

/-- The name of a station decides on its process, or its step in the recipe. -/
def processKind (stationId : String) (recipeStep : ℤ) : ProcessKind :=
  if stationId = "S1" ∨ recipeStep = 1 then .s1
  else if stationId = "S2" ∨ recipeStep = 2 then .s2
  else if stationId = "S3" ∨ recipeStep = 3 then .s3
  else if stationId = "S4" ∨ recipeStep = 4 then .s4
  else .other

/-- `StationProcessResponse`, as far as it is recorded. -/
structure StationProcessResponse where
  procTimeS : ℚ
  isDefective : Bool
  ecsaRatio : ℚ
  damageIndex : ℚ
  pClampMpa : ℚ
  gdlPorosity : ℚ

/-- What a run of `processOrder` comes to: the physics server answers, or the station draws a
deviation of its time and whether there is a defect. -/
inductive ProcessOutcome
  | response (r : StationProcessResponse)
  | fallback (nextGaussian : ℚ) (defect : Bool)

/-- The bounds that the kernels of the physics server put on what a station measures. -/
def ProcessOutcome.InRange (kind : ProcessKind) : ProcessOutcome → Prop
  | .response r =>
    (kind = .s2 → 1 / 10 ≤ r.ecsaRatio ∧ r.ecsaRatio ≤ 1) ∧
      (kind = .s3 → 0 ≤ r.damageIndex ∧ r.damageIndex ≤ 2) ∧
      (kind = .s4 → 0 ≤ r.pClampMpa ∧ 1 / 100 ≤ r.gdlPorosity ∧ r.gdlPorosity ≤ 95 / 100)
  | .fallback _ _ => True

/-- The record of a run. -/
structure StationRecord where
  stationId : String
  recipeStep : ℤ
  tMeanS : ℚ
  tStdS : ℚ
  outcome : ProcessOutcome
  inRange : outcome.InRange (processKind stationId recipeStep)

namespace StationRecord

def kind (run : StationRecord) : ProcessKind := processKind run.stationId run.recipeStep

/-- What `processOrder` records: the defaults, and in their place what the station measures. -/
def result (run : StationRecord) : StationResult :=
  match run.outcome with
  | .response r =>
    { defect := r.isDefective
      tProcS := r.procTimeS
      tMeanS := run.tMeanS
      ecsaRatio := if run.kind = .s2 then r.ecsaRatio else 1
      damageIndex := if run.kind = .s3 then r.damageIndex else 0
      pClampMpa := if run.kind = .s4 then r.pClampMpa else 425 / 100
      gdlPorosity := if run.kind = .s4 then r.gdlPorosity else 78 / 100 }
  | .fallback g defect =>
    { defect
      tProcS := max (run.tMeanS * (1 / 10)) (min (run.tMeanS + g * run.tStdS) (run.tMeanS * 3))
      tMeanS := run.tMeanS
      ecsaRatio := if run.kind = .s2 then if defect then 65 / 100 else 1 else 1
      damageIndex := if run.kind = .s3 then if defect then 135 / 100 else 86 / 100 else 0
      pClampMpa := if run.kind = .s4 then if defect then 250 / 100 else 422 / 100 else 425 / 100
      gdlPorosity :=
        if run.kind = .s4 then if defect then 82 / 100 else 772 / 1000 else 78 / 100 }

/-- The ECSA ratio, if the station measures it. -/
def measuredEcsa (run : StationRecord) : Option ℚ :=
  if run.kind = .s2 then some run.result.ecsaRatio else none

/-- The damage index, if the station measures it. -/
def measuredDamage (run : StationRecord) : Option ℚ :=
  if run.kind = .s3 then some run.result.damageIndex else none

/-- The clamping pressure, if the station measures it. -/
def measuredClamp (run : StationRecord) : Option ℚ :=
  if run.kind = .s4 then some run.result.pClampMpa else none

/-- The porosity, if the station measures it. -/
def measuredPorosity (run : StationRecord) : Option ℚ :=
  if run.kind = .s4 then some run.result.gdlPorosity else none

end StationRecord

/-- What the stations have measured: the smallest ECSA ratio, the largest damage index and what
Station 4 has reported last, each with its default. -/
def measuredSignal (runs : List StationRecord) : MechanisticSignal where
  ecsaRatioMin := (runs.filterMap (·.measuredEcsa)).foldl min 1
  damageIndexMax := (runs.filterMap (·.measuredDamage)).foldl max 0
  pClampMpaLast := (runs.filterMap (·.measuredClamp)).getLast?.getD (425 / 100)
  gdlPorosityLast := (runs.filterMap (·.measuredPorosity)).getLast?.getD (78 / 100)

/-- The signal of a stack after its runs have been merged in this order. -/
def signalAfter (stackId : OrderId) (c : QualityCaches) (runs : List StationRecord) :
    MechanisticSignal :=
  (runs.foldl (fun c run => c.record stackId run.result) c).peekMechanisticSignal stackId

/-- The signal is right after every merge, and a record changes only what its station measures. -/
structure SignalRight (stackId : OrderId) (c : QualityCaches) (runs : List StationRecord) :
    Prop where
  measured : ∀ before, before <+: runs → signalAfter stackId c before = measuredSignal before
  ecsa : ∀ before run, before ++ [run] <+: runs → run.kind ≠ .s2 →
    (signalAfter stackId c (before ++ [run])).ecsaRatioMin =
      (signalAfter stackId c before).ecsaRatioMin
  damage : ∀ before run, before ++ [run] <+: runs → run.kind ≠ .s3 →
    (signalAfter stackId c (before ++ [run])).damageIndexMax =
      (signalAfter stackId c before).damageIndexMax
  clamp : ∀ before run, before ++ [run] <+: runs → run.kind ≠ .s4 →
    (signalAfter stackId c (before ++ [run])).pClampMpaLast =
        (signalAfter stackId c before).pClampMpaLast ∧
      (signalAfter stackId c (before ++ [run])).gdlPorosityLast =
        (signalAfter stackId c before).gdlPorosityLast

/-- The record `x` is followed by `y` without harm: a station other than Station 4 finds the
defaults in it, and Station 4 reports a positive clamping pressure or finds its own. -/
def Keeps (x y : StationRecord) : Prop :=
  (y.kind ≠ .s4 → x.result.pClampMpa = 425 / 100 ∧ x.result.gdlPorosity = 78 / 100) ∧
    (y.kind = .s4 → 0 < y.result.pClampMpa ∨ x.result.pClampMpa = y.result.pClampMpa)

instance decidableKeeps : DecidableRel Keeps := fun _ _ => inferInstanceAs (Decidable (_ ∧ _))

/-! ## What a record holds -/

namespace StationRecord

variable (run : StationRecord)

theorem ecsaRatio_of_ne (h : run.kind ≠ .s2) : run.result.ecsaRatio = 1 := by
  unfold result
  split
  · exact if_neg h
  · exact if_neg h

theorem damageIndex_of_ne (h : run.kind ≠ .s3) : run.result.damageIndex = 0 := by
  unfold result
  split
  · exact if_neg h
  · exact if_neg h

theorem pClampMpa_of_ne (h : run.kind ≠ .s4) : run.result.pClampMpa = 425 / 100 := by
  unfold result
  split
  · exact if_neg h
  · exact if_neg h

theorem gdlPorosity_of_ne (h : run.kind ≠ .s4) : run.result.gdlPorosity = 78 / 100 := by
  unfold result
  split
  · exact if_neg h
  · exact if_neg h

/-- What the physics server measures lies in its bounds, and so do the values of the fallback. -/
theorem inRange_result : run.result.ecsaRatio ≤ 1 ∧ 0 ≤ run.result.damageIndex ∧
    0 ≤ run.result.pClampMpa ∧ 0 < run.result.gdlPorosity := by
  have hrange := run.inRange
  cases hout : run.outcome with
  | response r =>
    rw [hout] at hrange
    obtain ⟨hecsa, hdamage, hclamp⟩ := hrange
    simp only [result, hout]
    refine ⟨?_, ?_, ?_, ?_⟩
    · split_ifs with h
      · exact (hecsa h).2
      · exact le_rfl
    · split_ifs with h
      · exact (hdamage h).1
      · exact le_rfl
    · split_ifs with h
      · exact (hclamp h).1
      · norm_num
    · split_ifs with h
      · linarith [(hclamp h).2.1]
      · norm_num
  | fallback g defect =>
    simp only [result, hout]
    refine ⟨?_, ?_, ?_, ?_⟩
    all_goals
      split_ifs
      all_goals norm_num

end StationRecord

/-! ## Merging one more record -/

variable {stackId : OrderId} {c : QualityCaches} {before runs : List StationRecord}
  {run : StationRecord}

/-- The signal of a stack without a record is the empty one. -/
theorem signalAfter_nil (hnew : c.signals stackId = none) : signalAfter stackId c [] = {} := by
  show (c.signals stackId).getD {} = {}
  rw [hnew]
  rfl

/-- The caches hold a signal of the stack from its first record on. -/
theorem signals_foldl (hne : before ≠ []) :
    (before.foldl (fun c run => c.record stackId run.result) c).signals stackId =
      some (signalAfter stackId c before) := by
  obtain ⟨earlier, run, rfl⟩ := List.eq_nil_or_concat' before |>.resolve_left hne
  rw [signalAfter, List.foldl_concat]
  simp only [QualityCaches.peekMechanisticSignal, QualityCaches.record, QualityCaches.merge,
    Function.update_self, Option.getD_some]

/-- One more record is combined with the signal; the first one is stored as it is. -/
theorem signalAfter_concat (hnew : c.signals stackId = none) (before : List StationRecord)
    (run : StationRecord) :
    signalAfter stackId c (before ++ [run]) =
      if before = [] then ⟨run.result.ecsaRatio, run.result.damageIndex, run.result.pClampMpa,
        run.result.gdlPorosity⟩
      else (signalAfter stackId c before).combine ⟨run.result.ecsaRatio, run.result.damageIndex,
        run.result.pClampMpa, run.result.gdlPorosity⟩ := by
  have hmerge : signalAfter stackId c (before ++ [run]) =
      ((before.foldl (fun c run => c.record stackId run.result) c).signals stackId).elim
        ⟨run.result.ecsaRatio, run.result.damageIndex, run.result.pClampMpa,
          run.result.gdlPorosity⟩ fun old => old.combine ⟨run.result.ecsaRatio,
            run.result.damageIndex, run.result.pClampMpa, run.result.gdlPorosity⟩ := by
    rw [signalAfter, List.foldl_concat]
    simp only [QualityCaches.peekMechanisticSignal, QualityCaches.record, QualityCaches.merge,
      Function.update_self, Option.getD_some]
  rw [hmerge]
  split_ifs with h
  · subst h
    rw [List.foldl_nil, hnew]
    rfl
  · rw [signals_foldl h]
    rfl

/-- The ECSA ratio and the damage index are merged like the first record too. -/
theorem worst_concat (hnew : c.signals stackId = none) (before : List StationRecord)
    (run : StationRecord) :
    (signalAfter stackId c (before ++ [run])).ecsaRatioMin =
        min (signalAfter stackId c before).ecsaRatioMin run.result.ecsaRatio ∧
      (signalAfter stackId c (before ++ [run])).damageIndexMax =
        max (signalAfter stackId c before).damageIndexMax run.result.damageIndex := by
  obtain ⟨hecsa, hdamage, -, -⟩ := run.inRange_result
  rw [signalAfter_concat hnew]
  split_ifs with h
  · subst h
    rw [signalAfter_nil hnew]
    exact ⟨(min_eq_right hecsa).symm, (max_eq_right hdamage).symm⟩
  · exact ⟨rfl, rfl⟩

/-- Of the clamping pressure and the porosity the last record counts, if it is positive. -/
theorem last_concat (hnew : c.signals stackId = none) (before : List StationRecord)
    (run : StationRecord) :
    (signalAfter stackId c (before ++ [run])).pClampMpaLast =
        (if before = [] ∨ 0 < run.result.pClampMpa then run.result.pClampMpa
          else (signalAfter stackId c before).pClampMpaLast) ∧
      (signalAfter stackId c (before ++ [run])).gdlPorosityLast = run.result.gdlPorosity := by
  obtain ⟨-, -, -, hporosity⟩ := run.inRange_result
  rw [signalAfter_concat hnew]
  split_ifs with h hor hor
  · exact ⟨rfl, rfl⟩
  · exact absurd (Or.inl h) hor
  · exact ⟨if_pos (hor.resolve_left h), if_pos hporosity⟩
  · exact ⟨if_neg fun hpos => hor (.inr hpos), if_pos hporosity⟩

/-! ## What is measured -/

/-- A record adds what its station measures, and changes nothing else of what is measured. -/
theorem measuredSignal_concat (before : List StationRecord) (run : StationRecord) :
    measuredSignal (before ++ [run]) =
      { ecsaRatioMin :=
          if run.kind = .s2 then min (measuredSignal before).ecsaRatioMin run.result.ecsaRatio
          else (measuredSignal before).ecsaRatioMin
        damageIndexMax :=
          if run.kind = .s3 then max (measuredSignal before).damageIndexMax run.result.damageIndex
          else (measuredSignal before).damageIndexMax
        pClampMpaLast :=
          if run.kind = .s4 then run.result.pClampMpa else (measuredSignal before).pClampMpaLast
        gdlPorosityLast :=
          if run.kind = .s4 then run.result.gdlPorosity
          else (measuredSignal before).gdlPorosityLast } := by
  simp only [measuredSignal, List.filterMap_append, List.filterMap_cons, List.filterMap_nil,
    StationRecord.measuredEcsa, StationRecord.measuredDamage, StationRecord.measuredClamp,
    StationRecord.measuredPorosity]
  cases run.kind <;> simp

/-- **The smallest ECSA ratio and the largest damage index** are kept whatever the order is. -/
theorem worst_measured (hnew : c.signals stackId = none) (runs : List StationRecord) :
    (signalAfter stackId c runs).ecsaRatioMin = (measuredSignal runs).ecsaRatioMin ∧
      (signalAfter stackId c runs).damageIndexMax = (measuredSignal runs).damageIndexMax ∧
      (signalAfter stackId c runs).ecsaRatioMin ≤ 1 ∧
      0 ≤ (signalAfter stackId c runs).damageIndexMax := by
  -- induction on the records in the order they are merged; the bounds make a default neutral
  induction runs using List.reverseRecOn with
  | nil =>
    rw [signalAfter_nil hnew]
    exact ⟨rfl, rfl, le_rfl, le_rfl⟩
  | append_singleton before run ih =>
    obtain ⟨hecsa, hdamage, hecsaLe, hdamageLe⟩ := ih
    obtain ⟨hmin, hmax⟩ := worst_concat hnew before run
    rw [measuredSignal_concat, hmin, hmax]
    refine ⟨?_, ?_, (min_le_left _ _).trans hecsaLe, hdamageLe.trans (le_max_left _ _)⟩
    · show _ = if _ then _ else _
      split_ifs with hkind
      · rw [hecsa]
      · rw [run.ecsaRatio_of_ne hkind, min_eq_left hecsaLe, hecsa]
    · show _ = if _ then _ else _
      split_ifs with hkind
      · rw [hdamage]
      · rw [run.damageIndex_of_ne hkind, max_eq_left hdamageLe, hdamage]

/-- Where the signal is right, it holds the clamping pressure and the porosity of the last
record. -/
theorem held_of_measured (hnew : c.signals stackId = none) (before : List StationRecord)
    (run : StationRecord)
    (h : signalAfter stackId c (before ++ [run]) = measuredSignal (before ++ [run])) :
    (measuredSignal (before ++ [run])).pClampMpaLast = run.result.pClampMpa ∧
      (measuredSignal (before ++ [run])).gdlPorosityLast = run.result.gdlPorosity := by
  obtain ⟨hclamp, hporosity⟩ := last_concat hnew before run
  rw [h] at hporosity
  refine ⟨?_, hporosity⟩
  by_cases hkind : run.kind = .s4
  · rw [measuredSignal_concat]
    exact if_pos hkind
  · rw [← h, hclamp, if_pos]
    rw [run.pClampMpa_of_ne hkind]
    norm_num

/-- Only the clamping pressure and the porosity can be wrong. -/
theorem eq_measured_iff (hnew : c.signals stackId = none) (runs : List StationRecord) :
    signalAfter stackId c runs = measuredSignal runs ↔
      (signalAfter stackId c runs).pClampMpaLast = (measuredSignal runs).pClampMpaLast ∧
        (signalAfter stackId c runs).gdlPorosityLast = (measuredSignal runs).gdlPorosityLast := by
  obtain ⟨hecsa, hdamage, -, -⟩ := worst_measured hnew runs
  constructor
  · intro h
    rw [h]
    exact ⟨rfl, rfl⟩
  · rintro ⟨hclamp, hporosity⟩
    generalize signalAfter stackId c runs = s at *
    generalize measuredSignal runs = m at *
    cases s
    cases m
    rw [MechanisticSignal.mk.injEq]
    exact ⟨hecsa, hdamage, hclamp, hporosity⟩

/-- The signal is right with one more record iff the record keeps what Station 4 has reported. -/
theorem measured_concat_iff (hnew : c.signals stackId = none) (before : List StationRecord)
    (run : StationRecord) (h : signalAfter stackId c before = measuredSignal before) :
    signalAfter stackId c (before ++ [run]) = measuredSignal (before ++ [run]) ↔
      ∀ x ∈ before.getLast?, Keeps x run := by
  obtain ⟨hclamp, hporosity⟩ := last_concat hnew before run
  rw [eq_measured_iff hnew, hclamp, hporosity, h, measuredSignal_concat]
  dsimp only
  rcases List.eq_nil_or_concat' before with rfl | ⟨earlier, x, rfl⟩
  · have hnone : ∀ x ∈ ([] : List StationRecord).getLast?, Keeps x run :=
      fun x hx => absurd hx (Option.not_mem_none x)
    rw [if_pos (.inl rfl), iff_true_right hnone]
    by_cases hkind : run.kind = .s4
    · rw [if_pos hkind, if_pos hkind]
      exact ⟨rfl, rfl⟩
    · rw [if_neg hkind, if_neg hkind]
      exact ⟨run.pClampMpa_of_ne hkind, run.gdlPorosity_of_ne hkind⟩
  · obtain ⟨hclampHeld, hporosityHeld⟩ := held_of_measured hnew earlier x h
    have hlast : ∀ y, y ∈ (earlier ++ [x]).getLast? ↔ y = x := fun y => by
      rw [List.getLast?_concat, Option.mem_some_iff, eq_comm]
    have hne : earlier ++ [x] ≠ [] := List.append_ne_nil_of_right_ne_nil _ (List.cons_ne_nil _ _)
    simp only [hlast, forall_eq, hclampHeld, hporosityHeld, Keeps]
    by_cases hkind : run.kind = .s4
    · rw [if_pos hkind, if_pos hkind]
      constructor
      · rintro ⟨hheld, -⟩
        refine ⟨fun hother => absurd hkind hother, fun _ => ?_⟩
        by_cases hpos : 0 < run.result.pClampMpa
        · exact .inl hpos
        · rw [if_neg (not_or.mpr ⟨hne, hpos⟩)] at hheld
          exact .inr hheld
      · rintro ⟨-, hkept⟩
        refine ⟨?_, rfl⟩
        split_ifs with hor
        · rfl
        · exact (hkept hkind).resolve_left fun hpos => hor (.inr hpos)
    · have hpos : 0 < run.result.pClampMpa := by
        rw [run.pClampMpa_of_ne hkind]
        norm_num
      rw [if_pos (.inr hpos), if_neg hkind, if_neg hkind, run.pClampMpa_of_ne hkind,
        run.gdlPorosity_of_ne hkind]
      constructor
      · rintro ⟨hclampEq, hporosityEq⟩
        exact ⟨fun _ => ⟨hclampEq.symm, hporosityEq.symm⟩, fun hs4 => absurd hs4 hkind⟩
      · rintro ⟨hkept, -⟩
        exact ⟨(hkept hkind).1.symm, (hkept hkind).2.symm⟩

/-- **The signal of a stack is what its stations have measured** iff of every two records that are
merged one after the other the second keeps the first. -/
theorem signalRight_iff (stackId : OrderId) {c : QualityCaches} (hnew : c.signals stackId = none)
    (runs : List StationRecord) :
    SignalRight stackId c runs ↔ runs.IsChain Keeps := by
  have hmeasured : (∀ before, before <+: runs →
      signalAfter stackId c before = measuredSignal before) ↔ runs.IsChain Keeps := by
    -- induction on the records in the order they are merged
    induction runs using List.reverseRecOn with
    | nil =>
      refine iff_of_true (fun before hpre => ?_) .nil
      rw [List.prefix_nil.mp hpre, signalAfter_nil hnew]
      rfl
    | append_singleton earlier run ih =>
      rw [List.isChain_append, ← ih]
      constructor
      · intro h
        have hearlier : ∀ before, before <+: earlier →
            signalAfter stackId c before = measuredSignal before :=
          fun before hpre => h before (hpre.trans (List.prefix_append _ _))
        have hkeeps := (measured_concat_iff hnew earlier run (hearlier _ List.prefix_rfl)).mp
          (h _ List.prefix_rfl)
        refine ⟨hearlier, .singleton run, fun x hx y hy => ?_⟩
        cases Option.mem_some_iff.mp hy
        exact hkeeps x hx
      · rintro ⟨hearlier, -, hkeeps⟩ before hpre
        rcases List.prefix_concat_iff.mp hpre with rfl | hpre
        · exact (measured_concat_iff hnew earlier run (hearlier _ List.prefix_rfl)).mpr
            fun x hx => hkeeps x hx run rfl
        · exact hearlier before hpre
  rw [← hmeasured]
  constructor
  · exact fun h => h.measured
  · intro h
    -- a record that is measured right changes nothing that its station does not measure
    have hstep : ∀ before run, before ++ [run] <+: runs →
        signalAfter stackId c before = measuredSignal before ∧
          signalAfter stackId c (before ++ [run]) = measuredSignal (before ++ [run]) :=
      fun before run hpre => ⟨h before ((List.prefix_append _ _).trans hpre), h _ hpre⟩
    refine ⟨h, fun before run hpre hkind => ?_, fun before run hpre hkind => ?_,
      fun before run hpre hkind => ?_⟩
    · rw [(hstep before run hpre).2, (hstep before run hpre).1, measuredSignal_concat]
      exact if_neg hkind
    · rw [(hstep before run hpre).2, (hstep before run hpre).1, measuredSignal_concat]
      exact if_neg hkind
    · rw [(hstep before run hpre).2, (hstep before run hpre).1, measuredSignal_concat]
      exact ⟨if_neg hkind, if_neg hkind⟩

/-- A run of a station on its own, with what is drawn when no server answers. -/
def drawnRun (stationId : String) (recipeStep : ℤ) (tMeanS : ℚ) (defect : Bool) :
    StationRecord where
  stationId
  recipeStep
  tMeanS
  tStdS := 1
  outcome := .fallback 0 defect
  inRange := trivial

/-- The four stations in their order, the last of them once more after a defect. -/
theorem signalRight_iff_inOrder :
    SignalRight ⟨"order_1", 0⟩ {} [drawnRun "S1" 1 20 false, drawnRun "S2" 2 12 true,
      drawnRun "S3" 3 8 false, drawnRun "S4" 4 24 true, drawnRun "S4" 4 24 false] :=
  (signalRight_iff ⟨"order_1", 0⟩ rfl _).mpr (by
    simp [Keeps, drawnRun, StationRecord.result, StationRecord.kind, processKind])

/-- A late completion of Station 1 puts its defaults over what Station 4 has measured. -/
theorem not_signalRight :
    ¬SignalRight ⟨"order_1", 0⟩ {} [drawnRun "S4" 4 24 true, drawnRun "S1" 1 20 false] := by
  intro h
  have hclamp := (h.clamp [drawnRun "S4" 4 24 true] (drawnRun "S1" 1 20 false) List.prefix_rfl
    (by decide)).1
  simp [signalAfter, drawnRun, StationRecord.result, StationRecord.kind, processKind,
    QualityCaches.peekMechanisticSignal, QualityCaches.record, QualityCaches.merge,
    MechanisticSignal.combine] at hclamp

end MatrixFactory
