/-
# The station artifacts

`BaseStationArtifact` (Stations 1-4) and `TestBenchArtifact` (Station 5) share one field
with the agents and the dashboard, `currentSummary`.  An operation of an artifact excludes the
others until it blocks: `processOrder` blocks until the tick loop has reached the end of its
processing time, or until the test bench has an answer.  The answer comes from callbacks of
the gRPC library, which run on other threads at any moment; a callback first wins the flag of
its call and then writes.

Everything that ends a run writes the summary without reading it.  It is the run's own as long
as nothing else has changed the summary while the run was under way.
-/
import MatrixFactory.ResourceHolon
import MatrixFactory.Lib.Runs

namespace MatrixFactory

/-- The artifact carries out `o`. -/
def StationSummary.busy (o : OrderId) : StationSummary := ⟨.busyProcessing, some o⟩

/-- The artifact is claimed for `o`. -/
def StationSummary.locked (o : OrderId) : StationSummary := ⟨.provisionalLock, some o⟩

/-- `StationSummary.IDLE`. -/
def StationSummary.free : StationSummary := ⟨.idle, none⟩

/-- `StationSummary.OFFLINE`. -/
def StationSummary.off : StationSummary := ⟨.offline, none⟩

/-! ## Stations 1-4 -/

/-- A call of `processOrder` that is blocked; `woken` when its latch has been released. -/
structure BaseRun where
  orderId : OrderId
  defect : Bool
  woken : Bool := false
  deriving DecidableEq

/-- `BaseStationArtifact`; `results` holds what `processOrder` has returned, newest first. -/
structure BaseStationArtifact where
  currentSummary : StationSummary := .free
  runs : List BaseRun := []
  results : List (OrderId × ResultCode) := []
  deriving DecidableEq

/-- The operations of a station, and the events a blocked call waits for. -/
inductive BaseStationOp where
  | claimStation (o : OrderId)
  | processOrder (o : OrderId) (defect : Bool)
  | wake (j : ℕ)
  | complete (j : ℕ)
  | setStationOffline
  | releaseStation
  deriving DecidableEq

namespace BaseStationArtifact

/-- One operation or event.  A failed operation changes nothing. -/
def exec (op : BaseStationOp) (s : BaseStationArtifact) : BaseStationArtifact :=
  match op with
  | .claimStation o =>
    if s.currentSummary.state = .idle then { s with currentSummary := .locked o } else s
  | .processOrder o defect =>
    if s.currentSummary = .locked o then
      { s with currentSummary := .busy o, runs := s.runs ++ [⟨o, defect, false⟩] }
    else s
  | .wake j =>
    match s.runs[j]? with
    | none => s
    | some r => { s with runs := s.runs.set j { r with woken := true } }
  | .complete j =>
    match s.runs[j]? with
    | none => s
    | some r =>
      if r.woken then
        { s with
          currentSummary := .free
          runs := s.runs.eraseIdx j
          results := (r.orderId, if r.defect then .defect else .ok) :: s.results }
      else s
  | .setStationOffline => { s with currentSummary := .off }
  | .releaseStation => { s with currentSummary := .free }

/-- A result changes the summary only while the station is busy for its order. -/
def OwnResult (s : BaseStationArtifact) : BaseStationOp → Prop
  | .complete j => ∀ r ∈ s.runs[j]?, (s.exec (.complete j)).currentSummary ≠ s.currentSummary →
      s.currentSummary = .busy r.orderId
  | _ => True

instance (s : BaseStationArtifact) (op : BaseStationOp) : Decidable (s.OwnResult op) := by
  cases op <;> unfold OwnResult <;> infer_instance

/-- The condition on an operation: while a run is under way, the station is neither claimed
nor set offline. -/
def Undisturbed (s : BaseStationArtifact) : BaseStationOp → Prop
  | .claimStation _ => s.currentSummary.state = .idle → s.runs = []
  | .setStationOffline => s.runs = []
  | _ => True

instance (s : BaseStationArtifact) (op : BaseStationOp) : Decidable (s.Undisturbed op) := by
  induction op using BaseStationOp.casesOn <;> unfold Undisturbed <;> infer_instance

/-- One run at most is under way; the station is busy with it, or has been released. -/
structure Invariant (s : BaseStationArtifact) : Prop where
  single : s.runs.length ≤ 1
  summary : ∀ r ∈ s.runs, s.currentSummary = .busy r.orderId ∨ s.currentSummary = .free

theorem Invariant.init : Invariant {} where
  single := Nat.zero_le 1
  summary := by simp

/-- A station that is locked or offline has no run under way. -/
theorem Invariant.runs_eq_nil {s : BaseStationArtifact} (hs : s.Invariant)
    (hbusy : ∀ o, s.currentSummary ≠ .busy o) (hfree : s.currentSummary ≠ .free) :
    s.runs = [] := by
  apply List.eq_nil_iff_forall_not_mem.mpr
  intro r hr
  rcases hs.summary r hr with h | h
  · exact hbusy r.orderId h
  · exact hfree h

/-- **An operation keeps the invariant** under the condition. -/
theorem Invariant.exec {s : BaseStationArtifact} {op : BaseStationOp} (hs : s.Invariant)
    (hop : s.Undisturbed op) : (s.exec op).Invariant := by
  cases op with
  | claimStation o =>
    simp only [BaseStationArtifact.exec]
    split
    · next hidle =>
      have hnil := hop hidle
      constructor <;> simp [hnil]
    · exact hs
  | processOrder o defect =>
    simp only [BaseStationArtifact.exec]
    split
    · next hlock =>
      have hnil : s.runs = [] := by
        apply hs.runs_eq_nil
        · intro o'
          rw [hlock]
          simp [StationSummary.locked, StationSummary.busy]
        · rw [hlock]
          simp [StationSummary.locked, StationSummary.free]
      rw [hnil]
      exact ⟨le_rfl, by simp⟩
    · exact hs
  | wake j =>
    simp only [BaseStationArtifact.exec]
    split
    · exact hs
    · next r hr =>
      refine ⟨by simpa using hs.single, ?_⟩
      intro r' hr'
      rcases List.mem_or_eq_of_mem_set hr' with hr' | rfl
      · exact hs.summary r' hr'
      · exact hs.summary r (List.mem_of_getElem? hr)
  | complete j =>
    simp only [BaseStationArtifact.exec]
    split
    · exact hs
    · split
      · refine ⟨le_trans (List.length_eraseIdx_le _ _) hs.single, ?_⟩
        intro r' _
        exact Or.inr rfl
      · exact hs
  | setStationOffline =>
    have hnil : s.runs = [] := hop
    constructor <;> simp [BaseStationArtifact.exec, hnil]
  | releaseStation => exact ⟨hs.single, fun r _ => Or.inr rfl⟩

theorem Invariant.ownResult {s : BaseStationArtifact} (hs : s.Invariant) (op : BaseStationOp) :
    s.OwnResult op := by
  cases op with
  | complete j =>
    intro r hr hne
    rcases hs.summary r (List.mem_of_getElem? hr) with h | h
    · exact h
    · exfalso
      apply hne
      simp only [BaseStationArtifact.exec, Option.mem_def.mp hr]
      split
      · exact h.symm
      · rfl
  | _ => trivial

/-- Where a run meets the condition, every result is its own. -/
theorem ownResult_along {ops : List BaseStationOp} {s : BaseStationArtifact} (hs : s.Invariant)
    (h : Runs.Along exec Undisturbed s ops) : Runs.Along exec OwnResult s ops :=
  (h.and_invariant (I := Invariant) (fun _ _ => Invariant.exec) hs).imp
    fun _ op h => h.1.ownResult op

/-- An operation that breaks the condition has a continuation in which a result is not its
own: the run that is under way wakes up and completes. -/
theorem not_ownResult_of_disturbed {s : BaseStationArtifact} {op : BaseStationOp}
    (h : ¬ s.Undisturbed op) :
    ¬ Runs.Along exec OwnResult s [op, .wake 0, .complete 0] := by
  have hlate : ∀ summary : StationSummary, summary ≠ .free → (∀ o, summary ≠ .busy o) →
      s.runs ≠ [] → s.exec op = { s with currentSummary := summary } →
      ¬ Runs.Along exec OwnResult s [op, .wake 0, .complete 0] := by
    intro summary hfree hbusy hne hexec hown
    obtain ⟨r, runs, hr⟩ := List.exists_cons_of_ne_nil hne
    obtain ⟨-, -, hown, -⟩ := hown
    rw [hexec] at hown
    have hwake : BaseStationArtifact.exec (.wake 0) { s with currentSummary := summary }
        = { s with currentSummary := summary, runs := { r with woken := true } :: runs } := by
      simp [BaseStationArtifact.exec, hr]
    rw [hwake] at hown
    refine hbusy r.orderId (hown { r with woken := true } rfl ?_)
    simpa [BaseStationArtifact.exec] using hfree.symm
  cases op with
  | claimStation o =>
    obtain ⟨hidle, hne⟩ := Classical.not_imp.mp h
    apply hlate (.locked o)
    · simp [StationSummary.locked, StationSummary.free]
    · simp [StationSummary.locked, StationSummary.busy]
    · exact hne
    · simp [BaseStationArtifact.exec, hidle]
  | setStationOffline =>
    apply hlate .off
    · simp [StationSummary.off, StationSummary.free]
    · simp [StationSummary.off, StationSummary.busy]
    · exact h
    · rfl
  | _ => exact absurd trivial h

end BaseStationArtifact

/-! ## Station 5 -/

/-- Where a call of `processOrder` at the test bench stands: it waits for its latch, it has
cancelled its RPC after 30 s and waits for the flag, or it has returned. -/
inductive TestStage where
  | awaiting
  | cancelling
  | returned
  deriving DecidableEq

/-- A call of `processOrder` with its RPC: whether `activeCalls` holds it, its flag in
`completedCalls`, and whether its latch has been counted down. -/
structure TestRun where
  stackId : OrderId
  active : Bool := true
  completed : Option Bool := some false
  latch : Bool := false
  stage : TestStage := .awaiting
  deriving DecidableEq

/-- The flag of the run has not been won. -/
def TestRun.undecided (r : TestRun) : Bool := r.completed = some false

/-- A result about to be written by the thread that has won the flag of a run. -/
structure TestWrite where
  run : ℕ
  stackId : OrderId
  summary : StationSummary
  deriving DecidableEq

/-- `TestBenchArtifact`; the index of a run stands for its correlation id, and `results`
holds what `processOrder` has returned, newest first. -/
structure TestBenchArtifact where
  currentSummary : StationSummary := .free
  runs : List TestRun := []
  writes : List TestWrite := []
  results : List (OrderId × ResultCode) := []
  deriving DecidableEq

/-- The operations of the test bench, the callbacks of its RPCs and the continuations of
its blocked calls, each for the run with the index. -/
inductive TestBenchOp where
  | claimStation (o : OrderId)
  | processOrder (o : OrderId)
  | onMessage (j : ℕ) (passed : Bool)
  | onClose (j : ℕ) (ok : Bool)
  | write (i : ℕ)
  | timeout (j : ℕ)
  | finish (j : ℕ)
  | cancelPendingRpc (j : ℕ)
  | setStationOffline
  | releaseStation
  deriving DecidableEq

namespace TestBenchArtifact

/-- The summary that a response of the tester stands for. -/
def verdict (passed : Bool) (o : OrderId) : StationSummary :=
  if passed then .free else ⟨.defectDetected, some o⟩

/-- The summary after an RPC has failed. -/
def lost (o : OrderId) : StationSummary := ⟨.offline, some o⟩

/-- Run `j` changes. -/
def update (j : ℕ) (f : TestRun → TestRun) (s : TestBenchArtifact) : TestBenchArtifact :=
  match s.runs[j]? with
  | none => s
  | some r => { s with runs := s.runs.set j (f r) }

/-- `compareAndSet(false, true)` on the flag of run `j` by a callback; the winner is about
to write. -/
def compareAndSet (j : ℕ) (summary : OrderId → StationSummary) (s : TestBenchArtifact) :
    TestBenchArtifact :=
  match s.runs[j]? with
  | none => s
  | some r =>
    if r.undecided then
      { s with
        runs := s.runs.set j { r with completed := some true }
        writes := s.writes ++ [⟨j, r.stackId, summary r.stackId⟩] }
    else s

/-- `cancelPendingRpc` on one RPC. -/
def cancel (r : TestRun) : TestRun :=
  { r with active := false, completed := none, latch := r.latch || (r.active && r.undecided) }

/-- `cancelPendingRpc`: every RPC is cancelled, and the flags are dropped. -/
def cancelled (s : TestBenchArtifact) : TestBenchArtifact :=
  { s with
    currentSummary :=
      if s.runs.any fun r => r.active && r.undecided then .free else s.currentSummary
    runs := s.runs.map cancel }

/-- The end of `processOrder`: its entries leave the maps, and the summary is the result. -/
def finished (j : ℕ) (r : TestRun) (s : TestBenchArtifact) : TestBenchArtifact :=
  { s with
    runs := s.runs.set j { r with active := false, completed := none, stage := .returned }
    results :=
      (r.stackId, if s.currentSummary.state = .idle then .ok else .defect) :: s.results }

/-- One operation, callback or continuation. -/
def exec (op : TestBenchOp) (s : TestBenchArtifact) : TestBenchArtifact :=
  match op with
  | .claimStation o =>
    if s.currentSummary.state = .idle then { s with currentSummary := .locked o } else s
  | .processOrder o =>
    if s.currentSummary = .locked o then
      { s with currentSummary := .busy o, runs := s.runs ++ [{ stackId := o }] }
    else s
  | .onMessage j passed => s.compareAndSet j (verdict passed)
  | .onClose j ok =>
    let s := s.update j fun r => { r with active := false }
    if ok then s else s.compareAndSet j lost
  | .write i =>
    match s.writes[i]? with
    | none => s
    | some w =>
      { s with currentSummary := w.summary, writes := s.writes.eraseIdx i }.update w.run
        fun r => { r with latch := true }
  | .timeout j =>
    s.update j fun r =>
      if r.stage = .awaiting ∧ r.latch = false then { r with stage := .cancelling } else r
  | .finish j =>
    match s.runs[j]? with
    | none => s
    | some r =>
      match r.stage with
      | .awaiting => if r.latch then s.finished j r else s
      | .cancelling =>
        -- the flag is tried once more; this thread writes at once
        if r.undecided then { s with currentSummary := lost r.stackId }.finished j r
        else s.finished j r
      | .returned => s
  | .cancelPendingRpc j =>
    match s.runs[j]? with
    | none => s
    | some r =>
      if r.stage = .returned then s
      else s.cancelled.update j fun r => { r with stage := .returned }
  | .setStationOffline => { s with currentSummary := .off }
  | .releaseStation => { s with currentSummary := .free }

/-- The orders whose results an operation writes. -/
def ends (s : TestBenchArtifact) : TestBenchOp → List OrderId
  | .write i => (s.writes[i]?.map (·.stackId)).toList
  | .finish j =>
    (s.runs[j]?.filter fun r => r.stage = .cancelling ∧ r.undecided).toList.map (·.stackId)
  | .cancelPendingRpc _ => (s.runs.filter fun r => r.active ∧ r.undecided).map (·.stackId)
  | _ => []

/-- A result changes the summary only while the test bench is busy for its order. -/
def OwnResult (s : TestBenchArtifact) (op : TestBenchOp) : Prop :=
  ∀ o ∈ s.ends op, (s.exec op).currentSummary ≠ s.currentSummary → s.currentSummary = .busy o

instance (s : TestBenchArtifact) (op : TestBenchOp) : Decidable (s.OwnResult op) :=
  inferInstanceAs (Decidable (∀ o ∈ s.ends op, _))

/-- The orders of the runs whose result has not been written. -/
def underWay (s : TestBenchArtifact) : List OrderId :=
  (s.runs.filter TestRun.undecided).map (·.stackId) ++ s.writes.map (·.stackId)

/-- The condition on an operation: while a run is under way, the test bench is neither
released nor set offline. -/
def Undisturbed (s : TestBenchArtifact) : TestBenchOp → Prop
  | .releaseStation | .setStationOffline => s.underWay = []
  | _ => True

instance (s : TestBenchArtifact) (op : TestBenchOp) : Decidable (s.Undisturbed op) := by
  induction op using TestBenchOp.casesOn <;> unfold Undisturbed <;> infer_instance

/-- One run at most is under way, and the test bench is busy with it. -/
structure Invariant (s : TestBenchArtifact) : Prop where
  single : s.underWay.length ≤ 1
  summary : ∀ o ∈ s.underWay, s.currentSummary = .busy o

theorem Invariant.init : Invariant {} where
  single := Nat.zero_le 1
  summary := by simp [underWay]

/-- Whatever is under way after an operation was so before, and the summary is the same. -/
theorem Invariant.of_subperm {s s' : TestBenchArtifact} (hs : s.Invariant)
    (hsub : List.Subperm s'.underWay s.underWay) (hsum : s'.currentSummary = s.currentSummary) :
    s'.Invariant where
  single := le_trans hsub.length_le hs.single
  summary o ho := by
    rw [hsum]
    exact hs.summary o (hsub.subset ho)

theorem Invariant.of_nil {s : TestBenchArtifact} (h : s.underWay = []) : s.Invariant where
  single := by rw [h]; exact Nat.zero_le 1
  summary := by simp [h]

/-- Nothing is under way at a test bench that is not busy. -/
theorem Invariant.underWay_eq_nil {s : TestBenchArtifact} (hs : s.Invariant)
    (hbusy : s.currentSummary.state ≠ .busyProcessing) : s.underWay = [] := by
  apply List.eq_nil_iff_forall_not_mem.mpr
  intro o ho
  apply hbusy
  rw [hs.summary o ho]
  rfl

/-- The runs that a filter keeps when one of them changes. -/
theorem filter_set {q : TestRun → Bool} {l : List TestRun} {j : ℕ} {r : TestRun}
    (hj : l[j]? = some r) (r' : TestRun) :
    ((l.filter q) = (l.take j).filter q ++ [r].filter q ++ (l.drop (j + 1)).filter q) ∧
      (l.set j r').filter q
        = (l.take j).filter q ++ [r'].filter q ++ (l.drop (j + 1)).filter q := by
  obtain ⟨hlt, rfl⟩ := List.getElem?_eq_some_iff.mp hj
  constructor
  · conv_lhs => rw [← List.take_append_drop j l, List.drop_eq_getElem_cons hlt]
    rw [List.filter_append, ← List.singleton_append, List.filter_append, List.append_assoc]
  · rw [List.set_eq_take_append_cons_drop, if_pos hlt, List.filter_append,
      ← List.singleton_append, List.filter_append, List.append_assoc]

/-- A change of a run that does not reopen it. -/
theorem subperm_set {s : TestBenchArtifact} {j : ℕ} {r : TestRun} (hj : s.runs[j]? = some r)
    {r' : TestRun} (hstack : r'.stackId = r.stackId) (hflag : r'.undecided → r.undecided) :
    List.Subperm { s with runs := s.runs.set j r' }.underWay s.underWay := by
  obtain ⟨h, h'⟩ := filter_set (q := TestRun.undecided) hj r'
  apply List.Sublist.subperm
  simp only [underWay, h, h']
  apply List.Sublist.append_right
  rw [List.map_append, List.map_append, List.map_append, List.map_append]
  apply List.Sublist.append_right
  apply List.Sublist.append_left
  by_cases hr' : r'.undecided
  · simp [hr', hflag hr', hstack]
  · simp [hr']

theorem Invariant.update {s : TestBenchArtifact} (hs : s.Invariant) (j : ℕ)
    {f : TestRun → TestRun} (hstack : ∀ r, (f r).stackId = r.stackId)
    (hflag : ∀ r, (f r).undecided → r.undecided) : (s.update j f).Invariant := by
  unfold TestBenchArtifact.update
  split
  · exact hs
  · next r hr => exact hs.of_subperm (subperm_set hr (hstack r) (hflag r)) rfl

/-- The run whose flag a callback wins stays under way until the result is written. -/
theorem Invariant.compareAndSet {s : TestBenchArtifact} (hs : s.Invariant) (j : ℕ)
    (summary : OrderId → StationSummary) : (s.compareAndSet j summary).Invariant := by
  unfold TestBenchArtifact.compareAndSet
  split
  · exact hs
  · next r hr =>
    split
    · next hflag =>
      refine hs.of_subperm ?_ rfl
      apply List.Perm.subperm
      obtain ⟨h, h'⟩ := filter_set (q := TestRun.undecided) hr { r with completed := some true }
      simp only [underWay, h, h']
      have hnot : TestRun.undecided { r with completed := some true } = false := rfl
      simp only [List.filter_cons, hflag, hnot, List.filter_nil, List.map_append, List.map_cons,
        List.map_nil, List.append_nil, List.append_assoc, if_true, Bool.false_eq_true, if_false]
      apply List.Perm.append_left
      rw [← List.append_assoc, List.singleton_append]
      exact List.perm_append_singleton _ _
    · exact hs

theorem Invariant.finished {s : TestBenchArtifact} (hs : s.Invariant) {j : ℕ} {r : TestRun}
    (hr : s.runs[j]? = some r) : (s.finished j r).Invariant :=
  hs.of_subperm (subperm_set hr rfl (by simp [TestRun.undecided])) rfl

/-- **An operation keeps the invariant** under the condition. -/
theorem Invariant.exec {s : TestBenchArtifact} {op : TestBenchOp} (hs : s.Invariant)
    (hop : s.Undisturbed op) : (s.exec op).Invariant := by
  cases op with
  | claimStation o =>
    simp only [TestBenchArtifact.exec]
    split
    · next hidle =>
      apply Invariant.of_nil
      exact hs.underWay_eq_nil (by rw [hidle]; simp)
    · exact hs
  | processOrder o =>
    simp only [TestBenchArtifact.exec]
    split
    · next hlock =>
      have hnil : s.underWay = [] :=
        hs.underWay_eq_nil (by rw [hlock]; simp [StationSummary.locked])
      obtain ⟨hruns, hwrites⟩ := List.append_eq_nil_iff.mp hnil
      have hnew : underWay { s with
          currentSummary := .busy o, runs := s.runs ++ [{ stackId := o }] } = [o] := by
        simp only [underWay, List.filter_append, List.map_append, hruns, hwrites]
        rfl
      refine ⟨by rw [hnew]; exact le_rfl, ?_⟩
      intro o' ho'
      rw [hnew] at ho'
      rw [List.mem_singleton.mp ho']
    · exact hs
  | onMessage j passed => exact hs.compareAndSet j _
  | onClose j ok =>
    have hclosed : (s.update j fun r => { r with active := false }).Invariant :=
      hs.update j (fun _ => rfl) fun _ h => h
    simp only [TestBenchArtifact.exec]
    split
    · exact hclosed
    · exact hclosed.compareAndSet j _
  | write i =>
    simp only [TestBenchArtifact.exec]
    split
    · exact hs
    · next w hw =>
      refine Invariant.update ?_ _ (fun _ => rfl) fun _ h => h
      apply Invariant.of_nil
      have hlen := hs.single
      obtain ⟨hlt, -⟩ := List.getElem?_eq_some_iff.mp hw
      apply List.eq_nil_of_length_eq_zero
      simp only [underWay, List.length_append, List.length_map, List.length_eraseIdx_of_lt hlt]
        at hlen ⊢
      omega
  | timeout j =>
    apply hs.update
    · intro r
      split <;> rfl
    · intro r h
      split at h <;> exact h
  | finish j =>
    simp only [TestBenchArtifact.exec]
    split
    · exact hs
    · next r hr =>
      split
      · split
        · exact hs.finished hr
        · exact hs
      · split
        · next hflag =>
          -- the run was the only one under way
          apply Invariant.of_nil
          have hlen := hs.single
          obtain ⟨h, h'⟩ := filter_set (q := TestRun.undecided) hr
            { r with active := false, completed := none, stage := .returned }
          apply List.eq_nil_of_length_eq_zero
          simp only [underWay, h, List.length_append, List.length_map] at hlen
          simp only [underWay, TestBenchArtifact.finished, h', List.length_append,
            List.length_map]
          have hnot : TestRun.undecided
              { r with active := false, completed := none, stage := .returned } = false := rfl
          simp only [List.filter_cons, hflag, hnot, if_true, List.filter_nil, List.length_cons,
            List.length_nil, Bool.false_eq_true, if_false] at hlen ⊢
          omega
        · exact hs.finished hr
      · exact hs
  | cancelPendingRpc j =>
    simp only [TestBenchArtifact.exec]
    split
    · exact hs
    · split
      · exact hs
      · refine Invariant.update ?_ _ (fun _ => rfl) fun _ h => h
        have hcleared : (s.runs.map cancel).filter TestRun.undecided = [] := by
          apply List.filter_eq_nil_iff.mpr
          intro r hr
          obtain ⟨r', -, rfl⟩ := List.mem_map.mp hr
          simp [cancel, TestRun.undecided]
        by_cases hany : s.runs.any fun r => r.active && r.undecided
        · -- the run cancelled was the only one under way, so no write is left
          apply Invariant.of_nil
          obtain ⟨r, hr, hflag⟩ := List.any_eq_true.mp hany
          have hpos : 0 < (s.runs.filter TestRun.undecided).length := by
            apply List.length_pos_of_mem (a := r)
            exact List.mem_filter.mpr ⟨hr, (Bool.and_eq_true_iff.mp hflag).2⟩
          have hlen := hs.single
          apply List.eq_nil_of_length_eq_zero
          simp only [underWay, List.length_append, List.length_map] at hlen
          simp only [underWay, cancelled, hcleared, List.map_nil, List.nil_append, List.length_map]
          omega
        · apply hs.of_subperm
          · apply List.Sublist.subperm
            simp only [underWay, cancelled, hcleared]
            exact List.sublist_append_right _ _
          · simp [cancelled, hany]
  | setStationOffline => exact Invariant.of_nil hop
  | releaseStation => exact Invariant.of_nil hop

theorem Invariant.ownResult {s : TestBenchArtifact} (hs : s.Invariant) (op : TestBenchOp) :
    s.OwnResult op := by
  intro o ho _
  apply hs.summary o
  cases op with
  | write i =>
    obtain ⟨w, hw, rfl⟩ := Option.map_eq_some_iff.mp (Option.mem_toList.mp ho)
    apply List.mem_append_right
    exact List.mem_map_of_mem (List.mem_of_getElem? hw)
  | finish j =>
    obtain ⟨r, hr, rfl⟩ := List.mem_map.mp ho
    obtain ⟨hj, hflag⟩ := Option.filter_eq_some_iff.mp (Option.mem_toList.mp hr)
    apply List.mem_append_left
    apply List.mem_map_of_mem
    exact List.mem_filter.mpr ⟨List.mem_of_getElem? hj, (of_decide_eq_true hflag).2⟩
  | cancelPendingRpc j =>
    obtain ⟨r, hr, rfl⟩ := List.mem_map.mp ho
    obtain ⟨hr, hflag⟩ := List.mem_filter.mp hr
    apply List.mem_append_left
    apply List.mem_map_of_mem
    exact List.mem_filter.mpr ⟨hr, (of_decide_eq_true hflag).2⟩
  | _ => cases ho

/-- Where a run meets the condition, every result is its own. -/
theorem ownResult_along {ops : List TestBenchOp} {s : TestBenchArtifact} (hs : s.Invariant)
    (h : Runs.Along exec Undisturbed s ops) : Runs.Along exec OwnResult s ops :=
  (h.and_invariant (I := Invariant) (fun _ _ => Invariant.exec) hs).imp
    fun _ op h => h.1.ownResult op

/-- A test bench that is released or set offline while a run waits for its answer: the
answer that the stack has failed is not the test bench's own any more. -/
theorem not_ownResult_of_undecided {s : TestBenchArtifact} {op : TestBenchOp}
    (hop : op = .releaseStation ∨ op = .setStationOffline) {j : ℕ} {r : TestRun}
    (hr : s.runs[j]? = some r) (hflag : r.undecided) :
    ¬ Runs.Along exec OwnResult s [op, .onMessage j false, .write s.writes.length] := by
  intro hown
  obtain ⟨-, -, hown, -⟩ := hown
  have hsame : (s.exec op).runs = s.runs ∧ (s.exec op).writes = s.writes := by
    rcases hop with rfl | rfl <;> exact ⟨rfl, rfl⟩
  have hidle : (s.exec op).currentSummary.activeOrderId = none := by
    rcases hop with rfl | rfl <;> rfl
  generalize s.exec op = s' at hown hsame hidle
  obtain ⟨hruns, hwrites⟩ := hsame
  have hwon : s'.exec (.onMessage j false) = { s' with
      runs := s'.runs.set j { r with completed := some true }
      writes := s'.writes ++ [⟨j, r.stackId, verdict false r.stackId⟩] } := by
    show s'.compareAndSet j _ = _
    rw [compareAndSet, hruns, hr]
    simp [hflag]
  rw [hwon, ← hwrites] at hown
  have hbusy := hown r.stackId (by simp [ends]) ?_
  · rw [show s'.currentSummary = .busy r.stackId from hbusy] at hidle
    cases hidle
  · intro hsum
    have hwritten : (verdict false r.stackId) = s'.currentSummary := by
      rw [← hsum]
      simp only [exec, List.getElem?_concat_length]
      unfold update
      split <;> rfl
    rw [← hwritten] at hidle
    cases hidle

end TestBenchArtifact

/-! ## What a run leaves -/

/-- What a run of `processOrder` may leave: a station that is free, if the run ended with
"ok". -/
def ResultCode.Leaves (code : ResultCode) (summary : StationSummary) : Prop :=
  code = .ok → summary = .free

instance (code : ResultCode) (summary : StationSummary) : Decidable (code.Leaves summary) :=
  inferInstanceAs (Decidable (_ → _))

/-- An idle summary names no order. -/
def StationSummary.Plain (summary : StationSummary) : Prop :=
  summary.state = .idle → summary = .free

theorem StationSummary.plain_of_ne {summary : StationSummary} (h : summary.state ≠ .idle) :
    summary.Plain := fun hidle => absurd hidle h

theorem StationSummary.plain_free : StationSummary.free.Plain := fun _ => rfl

/-- A result at stations 1-4 leaves the station free. -/
theorem BaseStationArtifact.leaves (op : BaseStationOp) (s : BaseStationArtifact) :
    (s.exec op).results = s.results ∨ ∃ o code, (s.exec op).results = (o, code) :: s.results ∧
      code.Leaves (s.exec op).currentSummary := by
  cases op with
  | complete j =>
    simp only [exec]
    (repeat' split) <;> first | exact Or.inl rfl | exact Or.inr ⟨_, _, rfl, fun _ => rfl⟩
  | setStationOffline | releaseStation => exact Or.inl rfl
  | _ =>
    left
    dsimp only [exec]
    (repeat' split) <;> rfl

namespace TestBenchArtifact

/-- The summary, and those about to be written, are free where they are idle. -/
structure Plain (s : TestBenchArtifact) : Prop where
  summary : s.currentSummary.Plain
  writes : ∀ w ∈ s.writes, w.summary.Plain

theorem Plain.update {s : TestBenchArtifact} (hs : s.Plain) (j : ℕ) (f : TestRun → TestRun) :
    (s.update j f).Plain := by
  unfold TestBenchArtifact.update
  split
  · exact hs
  · exact ⟨hs.summary, hs.writes⟩

theorem Plain.compareAndSet {s : TestBenchArtifact} (hs : s.Plain) (j : ℕ)
    {summary : OrderId → StationSummary} (h : ∀ o, (summary o).Plain) :
    (s.compareAndSet j summary).Plain := by
  unfold TestBenchArtifact.compareAndSet
  split
  · exact hs
  · split
    · refine ⟨hs.summary, fun w hw => ?_⟩
      rcases List.mem_append.mp hw with hw | hw
      · exact hs.writes w hw
      · obtain rfl := List.mem_singleton.mp hw
        exact h _
    · exact hs

theorem Plain.finish {s : TestBenchArtifact} (hs : s.Plain) (j : ℕ) :
    (s.exec (.finish j)).Plain := by
  simp only [exec]
  split
  · exact hs
  · split
    · split <;> exact ⟨hs.summary, hs.writes⟩
    · split
      · exact ⟨StationSummary.plain_of_ne (by simp [finished, lost]), hs.writes⟩
      · exact ⟨hs.summary, hs.writes⟩
    · exact hs

/-- An operation of the test bench writes no idle summary but the free one. -/
theorem Plain.exec {s : TestBenchArtifact} (hs : s.Plain) (op : TestBenchOp) :
    (s.exec op).Plain := by
  cases op with
  | claimStation o =>
    simp only [TestBenchArtifact.exec]
    split
    · exact ⟨StationSummary.plain_of_ne (by simp [StationSummary.locked]), hs.writes⟩
    · exact hs
  | processOrder o =>
    simp only [TestBenchArtifact.exec]
    split
    · exact ⟨StationSummary.plain_of_ne (by simp [StationSummary.busy]), hs.writes⟩
    · exact hs
  | onMessage j passed =>
    refine hs.compareAndSet j fun o => ?_
    cases passed with
    | true => exact StationSummary.plain_free
    | false => exact StationSummary.plain_of_ne (by simp [verdict])
  | onClose j ok =>
    simp only [TestBenchArtifact.exec]
    split
    · exact hs.update j _
    · exact (hs.update j _).compareAndSet j fun o => StationSummary.plain_of_ne (by simp [lost])
  | write i =>
    simp only [TestBenchArtifact.exec]
    split
    · exact hs
    · next w hw =>
      have hplain : Plain { s with currentSummary := w.summary, writes := s.writes.eraseIdx i } :=
        ⟨hs.writes w (List.mem_of_getElem? hw), fun w' hw' =>
          hs.writes w' (List.mem_of_mem_eraseIdx hw')⟩
      exact hplain.update _ _
  | timeout j => exact hs.update j _
  | finish j => exact hs.finish j
  | cancelPendingRpc j =>
    have hcancelled : s.cancelled.Plain := by
      refine ⟨?_, hs.writes⟩
      simp only [cancelled]
      split
      · exact StationSummary.plain_free
      · exact hs.summary
    simp only [TestBenchArtifact.exec]
    split
    · exact hs
    · split
      · exact hs
      · exact hcancelled.update j _
  | setStationOffline =>
    exact ⟨StationSummary.plain_of_ne (by simp [TestBenchArtifact.exec, StationSummary.off]),
      hs.writes⟩
  | releaseStation => exact ⟨StationSummary.plain_free, hs.writes⟩

@[simp] theorem update_results (j : ℕ) (f : TestRun → TestRun) (s : TestBenchArtifact) :
    (s.update j f).results = s.results := by
  unfold update
  split <;> rfl

@[simp] theorem compareAndSet_results (j : ℕ) (summary : OrderId → StationSummary)
    (s : TestBenchArtifact) : (s.compareAndSet j summary).results = s.results := by
  unfold compareAndSet
  (repeat' split) <;> rfl

/-- A result of the test bench is "ok" only if it leaves the station free. -/
theorem Plain.leaves {s : TestBenchArtifact} (hs : s.Plain) (op : TestBenchOp) :
    (s.exec op).results = s.results ∨ ∃ o code, (s.exec op).results = (o, code) :: s.results ∧
      code.Leaves (s.exec op).currentSummary := by
  have hfinished : ∀ {s : TestBenchArtifact}, s.currentSummary.Plain → ∀ j r,
      ∃ o code, (s.finished j r).results = (o, code) :: s.results ∧
        code.Leaves (s.finished j r).currentSummary := by
    refine fun hplain j r => ⟨_, _, rfl, fun hok => hplain ?_⟩
    by_contra hidle
    rw [if_neg hidle] at hok
    cases hok
  cases op with
  | finish j =>
    simp only [TestBenchArtifact.exec]
    split
    · exact Or.inl rfl
    · split
      · split
        · exact Or.inr (hfinished hs.summary j _)
        · exact Or.inl rfl
      · split
        · exact Or.inr (hfinished (StationSummary.plain_of_ne (by simp [lost])) j _)
        · exact Or.inr (hfinished hs.summary j _)
      · exact Or.inl rfl
  | onMessage j passed => exact Or.inl (compareAndSet_results j _ s)
  | timeout j => exact Or.inl (update_results j _ s)
  | setStationOffline | releaseStation => exact Or.inl rfl
  | _ =>
    left
    dsimp only [TestBenchArtifact.exec]
    (repeat' split) <;> simp [cancelled]

/-- In every run. -/
theorem plain_run (ops : List TestBenchOp) : (Runs.run exec ops {}).Plain :=
  Runs.run_invariant (fun _ op hs _ => hs.exec op)
    ⟨StationSummary.plain_free, fun _ h => by cases h⟩
    (Runs.along_of_forall (C := fun _ _ => True) fun _ _ _ => trivial)

end TestBenchArtifact

/-! ## Both implementations -/

/-- **A late result never overwrites what the artifact does for another order, and never
takes it out of `OFFLINE`**: in every run in which a station of Stations 1-4 is neither claimed
nor set offline, and the test bench neither released nor set offline, while a run is under
way, a result changes the summary only while the artifact is still busy for its order. -/
theorem results_own (ops : List BaseStationOp) (ops' : List TestBenchOp)
    (h : Runs.Along BaseStationArtifact.exec BaseStationArtifact.Undisturbed {} ops)
    (h' : Runs.Along TestBenchArtifact.exec TestBenchArtifact.Undisturbed {} ops') :
    Runs.Along BaseStationArtifact.exec BaseStationArtifact.OwnResult {} ops ∧
      Runs.Along TestBenchArtifact.exec TestBenchArtifact.OwnResult {} ops' := by
  constructor
  · exact BaseStationArtifact.ownResult_along .init h
  · exact TestBenchArtifact.ownResult_along .init h'

/-- Two orders, the second after a run that was released early but is not replaced. -/
def releasedRun : List BaseStationOp :=
  [.claimStation ⟨"order_1", 0⟩, .processOrder ⟨"order_1", 0⟩ true, .releaseStation, .wake 0,
    .complete 0, .claimStation ⟨"order_2", 0⟩, .processOrder ⟨"order_2", 0⟩ false, .wake 0,
    .complete 0]

/-- A stack that fails its test, one whose RPC times out, and a suspension after both. -/
def testedRun : List TestBenchOp :=
  [.claimStation ⟨"order_1", 0⟩, .processOrder ⟨"order_1", 0⟩, .onMessage 0 false, .write 0,
    .finish 0, .releaseStation, .claimStation ⟨"order_2", 0⟩, .processOrder ⟨"order_2", 0⟩,
    .timeout 1, .onClose 1 false, .write 0, .finish 1, .setStationOffline]

theorem results_own_tested :
    Runs.Along BaseStationArtifact.exec BaseStationArtifact.OwnResult {} releasedRun ∧
      Runs.Along TestBenchArtifact.exec TestBenchArtifact.OwnResult {} testedRun :=
  results_own releasedRun testedRun (by decide) (by decide)

/-- The station is released while it carries out the first order and claimed for a second;
then the first call wakes up. -/
def lateWakeUp : List BaseStationOp :=
  [.claimStation ⟨"order_1", 0⟩, .processOrder ⟨"order_1", 0⟩ false, .releaseStation,
    .claimStation ⟨"order_2", 0⟩, .wake 0, .complete 0]

/-- The test bench is suspended while it waits for the answer, which then arrives. -/
def lateAnswer : List TestBenchOp :=
  [.claimStation ⟨"order_1", 0⟩, .processOrder ⟨"order_1", 0⟩, .setStationOffline,
    .onMessage 0 true, .write 0]

/-- Without the condition a late result ends the lock of another order, and takes an
artifact out of `OFFLINE`. -/
theorem not_results_own :
    (¬ ∀ ops, Runs.Along BaseStationArtifact.exec BaseStationArtifact.OwnResult {} ops) ∧
      ¬ ∀ ops, Runs.Along TestBenchArtifact.exec TestBenchArtifact.OwnResult {} ops := by
  constructor
  · intro h
    exact absurd (h lateWakeUp) (by decide)
  · intro h
    exact absurd (h lateAnswer) (by decide)

end MatrixFactory
