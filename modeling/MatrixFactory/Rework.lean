/-
# Rework and the end-of-line test

Stations 1-4 log the result of every run in the quality caches of `DatabaseArtifact`, keyed by
the stack, which is the order.  The test bench reads the stack's profile and sends it to the
tester as physical penalties; a passed test drops the profile.  The order holon repeats a step
whose run was defective, and calls for the next step after a good one.

The profile counts every defective run, also one that a later run has made good.  Since only
a passed test drops it, and the retries of the test send the same request again, a stack
with a defective run never passes.  The caches' size limit and their expiry after 30 minutes
of wall-clock time are left out, as is the zero penalty used when the lookup fails.
-/
import MatrixFactory.OrderHolon
import MatrixFactory.ResourceHolon
import Mathlib.Tactic.IntervalCases
import Mathlib.Tactic.Positivity
import Mathlib.Tactic.NormNum

namespace MatrixFactory

/-! ## The quality caches -/

/-- `QualityProfile`; the default is `EMPTY`. -/
structure QualityProfile where
  defectCount : ℕ := 0
  stationsVisited : ℕ := 0
  cumulativeVarianceRatio : ℚ := 0
  deriving DecidableEq

def QualityProfile.plus (p q : QualityProfile) : QualityProfile where
  defectCount := p.defectCount + q.defectCount
  stationsVisited := p.stationsVisited + q.stationsVisited
  cumulativeVarianceRatio := p.cumulativeVarianceRatio + q.cumulativeVarianceRatio

/-- `MechanisticSignal`; the default is `EMPTY`. -/
structure MechanisticSignal where
  ecsaRatioMin : ℚ := 1
  damageIndexMax : ℚ := 0
  pClampMpaLast : ℚ := 425 / 100
  gdlPorosityLast : ℚ := 78 / 100
  deriving DecidableEq

def MechanisticSignal.combine (p q : MechanisticSignal) : MechanisticSignal where
  ecsaRatioMin := min p.ecsaRatioMin q.ecsaRatioMin
  damageIndexMax := max p.damageIndexMax q.damageIndexMax
  pClampMpaLast := if 0 < q.pClampMpaLast then q.pClampMpaLast else p.pClampMpaLast
  gdlPorosityLast := if 0 < q.gdlPorosityLast then q.gdlPorosityLast else p.gdlPorosityLast

/-- What a run at Stations 1-4 comes to. -/
structure StationResult where
  defect : Bool
  tProcS : ℚ
  tMeanS : ℚ
  ecsaRatio : ℚ := 1
  damageIndex : ℚ := 0
  pClampMpa : ℚ := 425 / 100
  gdlPorosity : ℚ := 78 / 100
  deriving DecidableEq

/-- `qualityProfilesCache` and `mechanisticSignalsCache`. -/
structure QualityCaches where
  profiles : OrderId → Option QualityProfile := fun _ => none
  signals : OrderId → Option MechanisticSignal := fun _ => none

namespace QualityCaches

/-- `Map.merge`. -/
def merge {α : Type} (key : OrderId) (delta : α) (f : α → α → α) (m : OrderId → Option α) :
    OrderId → Option α :=
  Function.update m key (some ((m key).elim delta fun old => f old delta))

/-- The change that a run makes to its stack's profile. -/
def delta (r : StationResult) : QualityProfile where
  defectCount := if r.defect then 1 else 0
  stationsVisited := 1
  cumulativeVarianceRatio := if 0 < r.tMeanS then |r.tProcS - r.tMeanS| / r.tMeanS else 0

/-- `recordStationQuality` and `recordMechanisticQuality` at the end of a run. -/
def record (stackId : OrderId) (r : StationResult) (c : QualityCaches) : QualityCaches where
  profiles := merge stackId (delta r) QualityProfile.plus c.profiles
  signals :=
    merge stackId ⟨r.ecsaRatio, r.damageIndex, r.pClampMpa, r.gdlPorosity⟩
      MechanisticSignal.combine c.signals

def peekQualityProfile (stackId : OrderId) (c : QualityCaches) : QualityProfile :=
  (c.profiles stackId).getD {}

def peekMechanisticSignal (stackId : OrderId) (c : QualityCaches) : MechanisticSignal :=
  (c.signals stackId).getD {}

def invalidateQualityProfile (stackId : OrderId) (c : QualityCaches) : QualityCaches where
  profiles := Function.update c.profiles stackId none
  signals := Function.update c.signals stackId none

end QualityCaches

/-! ## The test bench -/

/-- The set points of the test bench. -/
structure TestSetpoints where
  operatingTempK : ℚ := 350
  inletPressureH2Bar : ℚ := 2
  inletPressureO2Bar : ℚ := 2

/-- `BatchTestRequest`. -/
structure BatchTestRequest where
  stackId : OrderId
  numCells : ℕ
  operatingTempK : ℚ
  inletPressureH2Bar : ℚ
  inletPressureO2Bar : ℚ
  rInternalPenaltyOhmCm2 : ℚ
  activityDerateFraction : ℚ
  ecsaRatio : ℚ
  pClampMpa : ℚ
  gdlPorosity : ℚ
  deriving DecidableEq

/-- The resistance that a profile adds. -/
def QualityProfile.penalty (p : QualityProfile) : ℚ :=
  p.defectCount * (8 / 100) + p.cumulativeVarianceRatio * (2 / 100) / max p.stationsVisited 1

/-- The request that `processOrder` builds for a stack. -/
def QualityCaches.request (setpoints : TestSetpoints) (stackId : OrderId) (c : QualityCaches) :
    BatchTestRequest :=
  let profile := c.peekQualityProfile stackId
  let signal := c.peekMechanisticSignal stackId
  { stackId
    numCells := 100
    operatingTempK := setpoints.operatingTempK
    inletPressureH2Bar := setpoints.inletPressureH2Bar
    inletPressureO2Bar := setpoints.inletPressureO2Bar
    rInternalPenaltyOhmCm2 := profile.penalty
    activityDerateFraction := min (6 / 10) (profile.defectCount * (15 / 100))
    ecsaRatio := signal.ecsaRatioMin
    pClampMpa := signal.pClampMpaLast
    gdlPorosity := signal.gdlPorosityLast }

/-! ## The loop -/

/-- An order between two runs: the step it is called for, the steps after it, and how many
runs of Stations 1-4 it has had. -/
structure Rework where
  caches : QualityCaches := {}
  step : ℕ := 1
  remaining : List ℕ := [2, 3, 4, 5]
  completed : Bool := false
  stationRuns : ℕ := 0

/-- What another order does to the caches. -/
inductive QualityOp where
  | record (stackId : OrderId) (r : StationResult)
  | invalidate (stackId : OrderId)

namespace QualityOp

def stackId : QualityOp → OrderId
  | .record o _ | .invalidate o => o

def exec : QualityOp → QualityCaches → QualityCaches
  | .record o r, c => c.record o r
  | .invalidate o, c => c.invalidateQualityProfile o

end QualityOp

namespace Rework

variable (verdict : BatchTestRequest → Bool) (setpoints : TestSetpoints) (o : OrderId)
  (result : ℕ → StationResult) (others : ℕ → List QualityOp)

/-- The order holon's reaction to the result of a run: it repeats the step, goes on to the
next one, or completes the order. -/
def react (code : ResultCode) (s : Rework) : Rework :=
  match code, s.remaining with
  | .defect, _ => s
  | .ok, [] => { s with completed := true }
  | .ok, next :: rest => { s with step := next, remaining := rest }

/-- The next run of the order, at the station of its step. -/
def next (s : Rework) : Rework :=
  if s.completed then s
  else if s.step = 5 then
    if verdict (s.caches.request setpoints o) then
      { s with caches := s.caches.invalidateQualityProfile o }.react .ok
    else s.react .defect
  else
    { s with
      caches := s.caches.record o (result s.stationRuns)
      stationRuns := s.stationRuns + 1 }.react
        (if (result s.stationRuns).defect then .defect else .ok)

/-- The order after `k` of its runs; before each of them other orders use the caches. -/
def after : ℕ → Rework
  | 0 => {}
  | k + 1 =>
    let s := after k
    next verdict setpoints o result
      { s with caches := (others k).foldl (fun c op => op.exec c) s.caches }

end Rework

/-! ## The reaction of the order holon -/

/-- The step for which statements of an order holon call next. -/
def calledFor (o : OrderId) (body : List OrderStmt) : Option ℕ :=
  body.findSome? fun
    | .achieve (.callForProposals step _ o') => if o' = o then some step else none
    | _ => none

/-- `react` does what the order holon does: after a good run it records the order as completed,
or calls for the step that `react` goes on to. -/
theorem calledFor_complete {n : String} {b b' : OrderBeliefs} {x : OrderInput} {o : OrderId}
    {s : Rework} {code : List OrderStmt} {acts : List OrderAction}
    (hs : s.completed = false)
    (h : OrderHolon.exec n b (.ifRemaining o s.step s.remaining) x = .next b' code acts) :
    ((s.react .ok).completed ∧ .recordEvent o .completed ∈ code ∧ calledFor o code = none) ∨
      ((s.react .ok).completed = false ∧ calledFor o code = some (s.react .ok).step) := by
  cases hr : s.remaining with
  | nil =>
    rw [hr] at h
    cases h
    left
    simp [Rework.react, hr, calledFor]
  | cons next rest =>
    rw [hr] at h
    cases h
    right
    simp [Rework.react, hr, hs, calledFor]

/-- After a defective run it calls for the same step, whether it watches the step or not. -/
theorem calledFor_failed {n : String} {b : OrderBeliefs} {o : OrderId} {s : Rework}
    {reason station : String} {k : Option Attempt} {body : List OrderStmt}
    (h : OrderHolon.plan n b (.told ⟨.stepFailed o s.step reason, station⟩ k) = some body) :
    calledFor o body = some (s.react .defect).step := by
  simp only [OrderHolon.plan] at h
  split at h
  · cases h
    simp [calledFor, Rework.react]
  · cases h
    simp [calledFor, Rework.react]

/-! ## What the caches hold for a stack -/

namespace QualityCaches

variable {o : OrderId} {c c' : QualityCaches}

/-- Two states of the caches hold the same for a stack. -/
def Agree (o : OrderId) (c c' : QualityCaches) : Prop :=
  c.profiles o = c'.profiles o ∧ c.signals o = c'.signals o

theorem Agree.trans {c'' : QualityCaches} (h : Agree o c c') (h' : Agree o c' c'') :
    Agree o c c'' :=
  ⟨h.1.trans h'.1, h.2.trans h'.2⟩

/-- The request depends only on what the caches hold for the stack. -/
theorem Agree.request (h : Agree o c c') (setpoints : TestSetpoints) :
    c.request setpoints o = c'.request setpoints o := by
  rw [QualityCaches.request, QualityCaches.request, peekQualityProfile, peekQualityProfile,
    peekMechanisticSignal, peekMechanisticSignal, h.1, h.2]

theorem Agree.record (h : Agree o c c') (r : StationResult) :
    Agree o (c.record o r) (c'.record o r) := by
  constructor
  · simp only [QualityCaches.record, merge, Function.update_self, h.1]
  · simp only [QualityCaches.record, merge, Function.update_self, h.2]

theorem Agree.peek (h : Agree o c c') : c.peekQualityProfile o = c'.peekQualityProfile o := by
  rw [peekQualityProfile, peekQualityProfile, h.1]

/-- Other orders leave what the caches hold for a stack. -/
theorem agree_exec {op : QualityOp} (h : op.stackId ≠ o) (c : QualityCaches) :
    Agree o (op.exec c) c := by
  have hne : o ≠ op.stackId := Ne.symm h
  cases op with
  | record o' r =>
    constructor
    · exact Function.update_of_ne hne _ _
    · exact Function.update_of_ne hne _ _
  | invalidate o' =>
    constructor
    · exact Function.update_of_ne hne _ _
    · exact Function.update_of_ne hne _ _

theorem agree_foldl {ops : List QualityOp} (h : ∀ op ∈ ops, op.stackId ≠ o) (c : QualityCaches) :
    Agree o (ops.foldl (fun c op => op.exec c) c) c := by
  induction ops generalizing c with
  | nil => exact ⟨rfl, rfl⟩
  | cons op ops ih =>
    rw [List.foldl_cons]
    have htail := ih (fun op' hop' => h op' (List.mem_cons_of_mem op hop')) (op.exec c)
    exact htail.trans (agree_exec (h op List.mem_cons_self) c)

/-- A run adds to the profile of its stack. -/
theorem peek_record (o : OrderId) (r : StationResult) (c : QualityCaches) :
    (c.record o r).peekQualityProfile o = (c.peekQualityProfile o).plus (delta r) := by
  simp only [peekQualityProfile, record, merge, Function.update_self, Option.getD_some]
  cases c.profiles o with
  | none => simp [QualityProfile.plus]
  | some p => rfl

theorem delta_nonneg (r : StationResult) : 0 ≤ (delta r).cumulativeVarianceRatio := by
  simp only [delta]
  split
  · positivity
  · exact le_rfl

end QualityCaches

/-- One defective run costs a stack at least `0.08`. -/
theorem QualityProfile.le_penalty {p : QualityProfile} (hdefect : 1 ≤ p.defectCount)
    (hvariance : 0 ≤ p.cumulativeVarianceRatio) : 8 / 100 ≤ p.penalty := by
  have hcount : (1 : ℚ) ≤ p.defectCount := by exact_mod_cast hdefect
  have hrest : 0 ≤ p.cumulativeVarianceRatio * (2 / 100) / max p.stationsVisited 1 := by
    positivity
  rw [penalty]
  linarith

/-! ## The run of an order -/

namespace Rework

variable {verdict : BatchTestRequest → Bool} {setpoints : TestSetpoints} {o : OrderId}
  {result : ℕ → StationResult} {others : ℕ → List QualityOp}

/-- At Stations 1-4 the run is recorded. -/
theorem next_station {s : Rework} (hcompleted : s.completed = false) (hstep : s.step ≠ 5) :
    s.next verdict setpoints o result
      = { s with
          caches := s.caches.record o (result s.stationRuns)
          stationRuns := s.stationRuns + 1 }.react
            (if (result s.stationRuns).defect then .defect else .ok) := by
  rw [Rework.next, hcompleted, if_neg Bool.false_ne_true, if_neg hstep]

/-- A test that fails changes nothing. -/
theorem next_failed {s : Rework} (hcompleted : s.completed = false) (hstep : s.step = 5)
    (hverdict : verdict (s.caches.request setpoints o) = false) :
    s.next verdict setpoints o result = s := by
  rw [Rework.next, hcompleted, if_neg Bool.false_ne_true, if_pos hstep, hverdict,
    if_neg Bool.false_ne_true]
  rfl

/-- The caches after the first `k` runs, if the order were the only one. -/
def recorded (o : OrderId) (result : ℕ → StationResult) : ℕ → QualityCaches
  | 0 => {}
  | k + 1 => (recorded o result k).record o (result k)

/-- The order after `k` runs of Stations 1-4, all of them good. -/
structure Good (o : OrderId) (result : ℕ → StationResult) (k : ℕ) (s : Rework) : Prop where
  caches : QualityCaches.Agree o s.caches (recorded o result k)
  step : s.step = k + 1
  remaining : s.remaining = [2, 3, 4, 5].drop k
  completed : s.completed = false
  stationRuns : s.stationRuns = k

/-- Between its runs only the caches change, and not for the order. -/
theorem Good.between {k : ℕ} {s : Rework} (hs : Good o result k s) {ops : List QualityOp}
    (hops : ∀ op ∈ ops, op.stackId ≠ o) :
    Good o result k { s with caches := ops.foldl (fun c op => op.exec c) s.caches } :=
  { hs with caches := (QualityCaches.agree_foldl hops s.caches).trans hs.caches }

/-- A good run at Stations 1-4 takes the order to the next step. -/
theorem Good.next {k : ℕ} {s : Rework} (hs : Good o result k s) (hk : k < 4)
    (hgood : (result k).defect = false) :
    Good o result (k + 1) (s.next verdict setpoints o result) := by
  have hstep : s.step ≠ 5 := by
    rw [hs.step]
    omega
  have hremaining : s.remaining = (k + 2) :: [2, 3, 4, 5].drop (k + 1) := by
    rw [hs.remaining]
    interval_cases k <;> rfl
  rw [next_station hs.completed hstep, hs.stationRuns, hgood, if_neg Bool.false_ne_true]
  simp only [react, hremaining]
  exact ⟨hs.caches.record (result k), rfl, rfl, hs.completed, rfl⟩

theorem good_after (hothers : ∀ k, ∀ op ∈ others k, op.stackId ≠ o) {k : ℕ} (hk : k ≤ 4)
    (hgood : ∀ n < k, (result n).defect = false) :
    Good o result k (after verdict setpoints o result others k) := by
  induction k with
  | zero => exact ⟨⟨rfl, rfl⟩, rfl, rfl, rfl, rfl⟩
  | succ k ih =>
    have hs := ih (by omega) fun n hn => hgood n (by omega)
    exact (hs.between (hothers k)).next (by omega) (hgood k (by omega))

/-- An order at the test bench that is not completed. -/
structure Testing (o : OrderId) (c : QualityCaches) (s : Rework) : Prop where
  caches : QualityCaches.Agree o s.caches c
  step : s.step = 5
  completed : s.completed = false

theorem Testing.between {c : QualityCaches} {s : Rework} (hs : Testing o c s)
    {ops : List QualityOp} (hops : ∀ op ∈ ops, op.stackId ≠ o) :
    Testing o c { s with caches := ops.foldl (fun c op => op.exec c) s.caches } :=
  { hs with caches := (QualityCaches.agree_foldl hops s.caches).trans hs.caches }

/-- A test that fails is repeated with the same request. -/
theorem testing_after (hothers : ∀ k, ∀ op ∈ others k, op.stackId ≠ o) {c : QualityCaches}
    (hverdict : verdict (c.request setpoints o) = false) {k : ℕ}
    (hs : Testing o c (after verdict setpoints o result others k)) (d : ℕ) :
    Testing o c (after verdict setpoints o result others (k + d)) := by
  induction d with
  | zero => exact hs
  | succ d ih =>
    have hbetween := ih.between (hothers (k + d))
    rw [show k + (d + 1) = (k + d) + 1 from rfl, after, next_failed hbetween.completed
      hbetween.step (by rw [hbetween.caches.request, hverdict])]
    exact hbetween

/-- An order that has had a defective run: it is on its way to the test bench, and its
profile counts a defect. -/
structure Spoiled (o : OrderId) (s : Rework) : Prop where
  steps : (s.step :: s.remaining) <:+ [1, 2, 3, 4, 5]
  completed : s.completed = false
  defect : 1 ≤ (s.caches.peekQualityProfile o).defectCount
  variance : 0 ≤ (s.caches.peekQualityProfile o).cumulativeVarianceRatio

theorem Spoiled.between {s : Rework} (hs : Spoiled o s) {ops : List QualityOp}
    (hops : ∀ op ∈ ops, op.stackId ≠ o) :
    Spoiled o { s with caches := ops.foldl (fun c op => op.exec c) s.caches } := by
  have hpeek := (QualityCaches.agree_foldl hops s.caches).peek
  constructor
  · exact hs.steps
  · exact hs.completed
  · rw [hpeek]
    exact hs.defect
  · rw [hpeek]
    exact hs.variance

/-- A run at Stations 1-4 that is defective, or that follows one that was. -/
theorem spoiled_station {s : Rework} (hsteps : (s.step :: s.remaining) <:+ [1, 2, 3, 4, 5])
    (hcompleted : s.completed = false) (hstep : s.step ≠ 5)
    (hdefect : 1 ≤ (s.caches.peekQualityProfile o).defectCount ∨
      (result s.stationRuns).defect)
    (hvariance : 0 ≤ (s.caches.peekQualityProfile o).cumulativeVarianceRatio) :
    Spoiled o (s.next verdict setpoints o result) := by
  rw [next_station hcompleted hstep]
  generalize result s.stationRuns = r at hdefect
  have hpeek := QualityCaches.peek_record o r s.caches
  have hcount : 1 ≤ ((s.caches.record o r).peekQualityProfile o).defectCount := by
    rw [hpeek]
    show 1 ≤ (s.caches.peekQualityProfile o).defectCount + (if r.defect then 1 else 0)
    rcases hdefect with h | h
    · omega
    · rw [if_pos h]
      omega
  have hratio : 0 ≤ ((s.caches.record o r).peekQualityProfile o).cumulativeVarianceRatio := by
    rw [hpeek]
    exact add_nonneg hvariance (QualityCaches.delta_nonneg r)
  cases hd : r.defect with
  | true =>
    rw [if_pos rfl]
    exact ⟨hsteps, hcompleted, hcount, hratio⟩
  | false =>
    rw [if_neg Bool.false_ne_true]
    cases hr : s.remaining with
    | nil =>
      -- only the last step has none after it
      rw [hr] at hsteps
      obtain ⟨front, hfront⟩ := hsteps
      have hlast := congrArg List.getLast? hfront
      rw [List.getLast?_concat] at hlast
      exact absurd (Option.some_inj.mp hlast) hstep
    | cons next rest =>
      rw [hr] at hsteps
      have htail : (next :: rest) <:+ [1, 2, 3, 4, 5] :=
        (List.suffix_cons s.step (next :: rest)).trans hsteps
      exact ⟨htail, hcompleted, hcount, hratio⟩

/-- A further run of an order with a defect in its profile: the test fails, or the profile
still counts the defect. -/
theorem Spoiled.next {s : Rework} (hs : Spoiled o s)
    (hverdict : ∀ req : BatchTestRequest, 8 / 100 ≤ req.rInternalPenaltyOhmCm2 →
      verdict req = false) : Spoiled o (s.next verdict setpoints o result) := by
  by_cases hstep : s.step = 5
  · have hfail : verdict (s.caches.request setpoints o) = false :=
      hverdict _ (QualityProfile.le_penalty hs.defect hs.variance)
    rw [next_failed hs.completed hstep hfail]
    exact hs
  · exact spoiled_station hs.steps hs.completed hstep (Or.inl hs.defect) hs.variance

/-- **A stack with a defective run in its profile is tested for ever.** -/
theorem spoiled_after (hothers : ∀ k, ∀ op ∈ others k, op.stackId ≠ o)
    (hverdict : ∀ req : BatchTestRequest, 8 / 100 ≤ req.rInternalPenaltyOhmCm2 →
      verdict req = false) {k : ℕ}
    (hs : Spoiled o (after verdict setpoints o result others k)) (d : ℕ) :
    Spoiled o (after verdict setpoints o result others (k + d)) := by
  induction d with
  | zero => exact hs
  | succ d ih => exact (ih.between (hothers (k + d))).next hverdict

theorem recorded_variance_nonneg (k : ℕ) :
    0 ≤ ((recorded o result k).peekQualityProfile o).cumulativeVarianceRatio := by
  induction k with
  | zero => exact le_rfl
  | succ k ih =>
    rw [recorded, QualityCaches.peek_record]
    exact add_nonneg ih (QualityCaches.delta_nonneg _)

/-- An order whose first defective run is run `n` is never completed. -/
theorem not_completed_of_defect (hothers : ∀ k, ∀ op ∈ others k, op.stackId ≠ o)
    (hverdict : ∀ req : BatchTestRequest, 8 / 100 ≤ req.rInternalPenaltyOhmCm2 →
      verdict req = false) {n : ℕ} (hn : n < 4) (hdefect : (result n).defect)
    (hgood : ∀ m < n, (result m).defect = false) (k : ℕ) :
    (after verdict setpoints o result others k).completed = false := by
  rcases Nat.lt_or_ge n k with hlt | hge
  · obtain ⟨d, rfl⟩ := Nat.exists_eq_add_of_le (show n + 1 ≤ k from hlt)
    apply (spoiled_after hothers hverdict ?_ d).completed
    have hgood' : Good o result n (after verdict setpoints o result others n) :=
      good_after hothers (by omega) hgood
    have hs := hgood'.between (hothers n)
    apply spoiled_station
    · rw [hs.step, hs.remaining]
      interval_cases n <;> decide
    · exact hs.completed
    · rw [hs.step]
      omega
    · rw [hs.stationRuns]
      exact Or.inr hdefect
    · rw [hs.caches.peek]
      exact recorded_variance_nonneg n
  · exact (good_after hothers (by omega) fun m hm => hgood m (by omega)).completed

/-- An order with a defective run among its first four is never completed. -/
theorem not_completed (hothers : ∀ k, ∀ op ∈ others k, op.stackId ≠ o)
    (hverdict : ∀ req : BatchTestRequest, 8 / 100 ≤ req.rInternalPenaltyOhmCm2 →
      verdict req = false) (hdefect : ∃ n, n < 4 ∧ (result n).defect) (k : ℕ) :
    (after verdict setpoints o result others k).completed = false := by
  classical
  obtain ⟨hn, hfirst⟩ := Nat.find_spec hdefect
  apply not_completed_of_defect hothers hverdict hn hfirst
  intro m hm
  have hmin := Nat.find_min hdefect hm
  rw [not_and, Bool.not_eq_true] at hmin
  exact hmin (lt_trans hm hn)

/-- **When an order is completed**: exactly when none of its first four runs, those before
the test, is defective and the tester accepts the request built from their profile. -/
theorem reworked_iff (verdict : BatchTestRequest → Bool) (setpoints : TestSetpoints) (o : OrderId)
    (result : ℕ → StationResult) (others : ℕ → List QualityOp)
    (hothers : ∀ k, ∀ op ∈ others k, op.stackId ≠ o)
    (hverdict : ∀ req : BatchTestRequest, 8 / 100 ≤ req.rInternalPenaltyOhmCm2 →
      verdict req = false) :
    (∃ k, (after verdict setpoints o result others k).completed) ↔
      (∀ n < 4, (result n).defect = false) ∧
        verdict ((recorded o result 4).request setpoints o) := by
  constructor
  · rintro ⟨k, hk⟩
    have hgood : ∀ n < 4, (result n).defect = false := by
      by_contra hbad
      have hdefect : ∃ n, n < 4 ∧ (result n).defect := by simpa using hbad
      rw [not_completed hothers hverdict hdefect] at hk
      cases hk
    refine ⟨hgood, ?_⟩
    by_contra hfail
    have hgood4 : Good o result 4 (after verdict setpoints o result others 4) :=
      good_after hothers le_rfl hgood
    have htesting : Testing o (recorded o result 4) (after verdict setpoints o result others 4) :=
      ⟨hgood4.caches, hgood4.step, hgood4.completed⟩
    rcases Nat.lt_or_ge k 4 with hlt | hge
    · have hk' : Good o result k (after verdict setpoints o result others k) :=
        good_after hothers (by omega) fun n hn => hgood n (by omega)
      rw [hk'.completed] at hk
      cases hk
    · obtain ⟨d, rfl⟩ := Nat.exists_eq_add_of_le hge
      have := testing_after hothers (Bool.eq_false_iff.mpr hfail) htesting d
      rw [this.completed] at hk
      cases hk
  · rintro ⟨hgood, hpass⟩
    refine ⟨5, ?_⟩
    have hgood4 : Good o result 4 (after verdict setpoints o result others 4) :=
      good_after hothers le_rfl hgood
    have hs := hgood4.between (hothers 4)
    rw [after]
    generalize hbetween : ({ after verdict setpoints o result others 4 with
      caches := (others 4).foldl (fun c op => op.exec c)
        (after verdict setpoints o result others 4).caches } : Rework) = s at hs
    rw [next, hs.completed, if_neg Bool.false_ne_true, if_pos hs.step, hs.caches.request, hpass,
      if_pos rfl, react.eq_def]
    simp [hs.remaining]

/-- A run that takes its mean time. -/
def onTime (defect : Bool) : StationResult where
  defect := defect
  tProcS := 5
  tMeanS := 5

/-- A tester that accepts every stack without a defect penalty. -/
def tester (req : BatchTestRequest) : Bool := req.rInternalPenaltyOhmCm2 < 8 / 100

theorem tester_rejects (req : BatchTestRequest) (h : 8 / 100 ≤ req.rInternalPenaltyOhmCm2) :
    tester req = false := by
  simpa [tester] using h

theorem reworked_iff_onTime :
    ∃ k, (after tester {} ⟨"order_1", 0⟩ (fun _ => onTime false) (fun _ => []) k).completed := by
  apply (reworked_iff tester {} ⟨"order_1", 0⟩ (fun _ => onTime false) (fun _ => [])
    (fun _ => by simp) tester_rejects).mpr
  refine ⟨fun _ _ => rfl, ?_⟩
  decide +kernel

/-- The first run is defective and its retry good, as is every later run; the tester accepts
every stack without a defect penalty.  The order is never completed. -/
theorem not_reworked :
    ¬ ∀ result : ℕ → StationResult, (∃ m, ∀ n ≥ m, (result n).defect = false) →
      ∃ k, (after tester {} ⟨"order_1", 0⟩ result (fun _ => []) k).completed := by
  intro h
  obtain ⟨k, hk⟩ := h (fun n => onTime (n = 0)) ⟨1, fun n hn => by
    simp only [onTime, decide_eq_false_iff_not]
    omega⟩
  rw [not_completed (fun _ => by simp) tester_rejects ⟨0, by omega, rfl⟩] at hk
  cases hk

end Rework

end MatrixFactory
