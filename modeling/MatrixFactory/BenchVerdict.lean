/-
# The verdict of the test bench

What `processOrder` of the test bench returns, against the responses of the tester.  The callbacks,
the timeout and `cancelPendingRpc` compete for the flag of a call; the result is then read off the
summary, which anything else may have changed since.
-/
import MatrixFactory.StationArtifact

namespace MatrixFactory

open Runs

/-! ## The bench with its calls -/

/-- The test bench with what the RPC library has delivered: the responses, by run, and the runs
whose RPC is closed.  `written` are the runs whose result a callback has written into the
summary. -/
structure BenchCalls where
  bench : TestBenchArtifact := {}
  answered : List (ℕ × Bool) := []
  closed : List ℕ := []
  written : List ℕ := []
  deriving DecidableEq

namespace BenchCalls

/-- The run has been answered. -/
def Answered (t : BenchCalls) (j : ℕ) : Prop := ∃ b, (j, b) ∈ t.answered

/-- A response with `passed = true` was received for the run. -/
def Passed (t : BenchCalls) (j : ℕ) : Prop := (j, true) ∈ t.answered

/-- The call of `processOrder` has not returned. -/
def Open (t : BenchCalls) (j : ℕ) : Prop := ∃ r ∈ t.bench.runs[j]?, r.stage ≠ .returned

/-- The RPC of run `j` is under way, as the RPC library sees it: a unary call delivers one message
at most, and none once it is closed. -/
def Listening (t : BenchCalls) (j : ℕ) : Prop := j < t.bench.runs.length ∧ j ∉ t.closed

instance (t : BenchCalls) (j : ℕ) : Decidable (t.Answered j) :=
  decidable_of_iff ((j, true) ∈ t.answered ∨ (j, false) ∈ t.answered) (by
    simp [Answered, Bool.exists_bool, or_comm])

instance (t : BenchCalls) (j : ℕ) : Decidable (t.Open j) :=
  inferInstanceAs (Decidable (∃ r ∈ t.bench.runs[j]?, _))

instance (t : BenchCalls) (j : ℕ) : Decidable (t.Passed j) :=
  inferInstanceAs (Decidable (_ ∈ _))

instance (t : BenchCalls) (j : ℕ) : Decidable (t.Listening j) :=
  inferInstanceAs (Decidable (_ ∧ _))

/-- One step. -/
def exec (op : TestBenchOp) (t : BenchCalls) : BenchCalls :=
  match op with
  | .onMessage j passed =>
    if t.Listening j ∧ ¬t.Answered j then
      { t with bench := t.bench.exec op, answered := (j, passed) :: t.answered }
    else t
  | .onClose j _ =>
    if t.Listening j then { t with bench := t.bench.exec op, closed := j :: t.closed } else t
  | .write i =>
    { t with
      bench := t.bench.exec op
      written := (t.bench.writes[i]?.map (·.run)).toList ++ t.written }
  | op => { t with bench := t.bench.exec op }

/-- The summary says that the station is idle. -/
def Idle (t : BenchCalls) : Prop := t.bench.currentSummary.state = .idle

instance (t : BenchCalls) : Decidable t.Idle := inferInstanceAs (Decidable (_ = _))

/-- The result that a call of `processOrder` returns. -/
def result (t : BenchCalls) : ResultCode :=
  if t.bench.currentSummary.state = .idle then .ok else .defect

/-- Where a step returns from the call of `processOrder` of run `j`, the result is "ok" iff a
passing response was received for it. -/
def ReturnsVerdict (t : BenchCalls) (op : TestBenchOp) : Prop :=
  ∀ j, t.Open j → ¬(t.exec op).Open j → ((t.exec op).result = .ok ↔ t.Passed j)

/-- A passing response of the run has won the flag and is not written yet. -/
def PassPending (t : BenchCalls) (j : ℕ) : Prop :=
  ∃ w ∈ t.bench.writes, w.run = j ∧ w.summary.state = .idle

instance (t : BenchCalls) (j : ℕ) : Decidable (t.PassPending j) :=
  inferInstanceAs (Decidable (∃ w ∈ t.bench.writes, _))

/-- The step makes an idle station not idle, or the other way round. -/
def Changes (t : BenchCalls) : TestBenchOp → Prop
  | .releaseStation => ¬t.Idle
  | .setStationOffline | .claimStation _ => t.Idle
  | .write i => ∃ w ∈ t.bench.writes[i]?, ¬(w.summary.state = .idle ↔ t.Idle)
  | .finish j => t.Idle ∧ ∃ r ∈ t.bench.runs[j]?, r.stage = .cancelling ∧ r.undecided
  | _ => False

instance (t : BenchCalls) (op : TestBenchOp) : Decidable (t.Changes op) := by
  induction op using TestBenchOp.casesOn <;> unfold Changes <;> infer_instance

/-- The condition on a step.  Between the writing of a run's result and its return nothing changes
whether the station is idle.  A run whose flag was won and that returns before the result is
written finds the station as the result would leave it.  And `cancelPendingRpc` finds no RPC whose
flag is open. -/
def Settled (t : BenchCalls) (op : TestBenchOp) : Prop :=
  (t.Changes op → ∀ j ∈ t.written, ¬t.Open j) ∧
    match op with
    | .finish j => ∀ r ∈ t.bench.runs[j]?, r.stage = .cancelling → ¬r.undecided →
        j ∉ t.written → (t.Idle ↔ t.PassPending j)
    | .cancelPendingRpc j => t.Open j → (∀ r ∈ t.bench.runs, ¬(r.active ∧ r.undecided)) ∧
        (j ∉ t.written → (t.Idle ↔ t.PassPending j))
    | _ => True

instance (t : BenchCalls) (op : TestBenchOp) : Decidable (t.Settled op) := by
  induction op using TestBenchOp.casesOn <;> unfold Settled <;> infer_instance

theorem result_eq_ok {t : BenchCalls} : t.result = .ok ↔ t.Idle := by
  unfold result
  split_ifs with h
  · exact iff_of_true rfl h
  · exact iff_of_false nofun h

/-! ## The invariant -/

/-- **The invariant.** -/
structure Tracked (t : BenchCalls) : Prop where
  written : ∀ j ∈ t.written, t.Open j → (t.Idle ↔ t.Passed j)
  writtenDecided : ∀ j ∈ t.written, t.Answered j ∨ j ∈ t.closed
  pending : ∀ w ∈ t.bench.writes, (w.summary.state = .idle ↔ t.Passed w.run) ∧
    (t.Answered w.run ∨ w.run ∈ t.closed)
  undecided : ∀ (j : ℕ) r, t.bench.runs[j]? = some r → r.undecided = true → ¬t.Answered j
  latched : ∀ (j : ℕ) r, t.bench.runs[j]? = some r → r.stage = .awaiting → r.latch = true →
    j ∈ t.written
  passed : ∀ (j : ℕ) r, t.bench.runs[j]? = some r → r.stage ≠ .returned → t.Passed j →
    j ∈ t.written ∨ t.PassPending j
  waiting : ∀ (j : ℕ) r, t.bench.runs[j]? = some r → r.stage ≠ .returned → ¬t.Answered j →
    j ∉ t.closed → r.undecided = true ∧ r.active = true
  fresh : ∀ j, t.Answered j ∨ j ∈ t.closed → j < t.bench.runs.length

theorem tracked_init : Tracked {} where
  written _ h := nomatch h
  writtenDecided _ h := nomatch h
  pending _ h := nomatch h
  undecided _ _ h := nomatch h
  latched _ _ h := nomatch h
  passed _ _ h := nomatch h
  waiting _ _ h := nomatch h
  fresh j h := by
    rcases h with ⟨b, hb⟩ | h
    · cases hb
    · cases h

variable {t : BenchCalls}

theorem get_set {l : List TestRun} {j : ℕ} {r : TestRun} (hj : l[j]? = some r) (r' : TestRun)
    (k : ℕ) : (l.set j r')[k]? = if k = j then some r' else l[k]? := by
  obtain ⟨hlt, -⟩ := List.getElem?_eq_some_iff.mp hj
  rw [List.getElem?_set]
  by_cases hk : k = j
  · rw [if_pos hk.symm, if_pos hlt, if_pos hk]
  · rw [if_neg (Ne.symm hk), if_neg hk]

/-- The summary changes. -/
theorem Tracked.summary (h : t.Tracked) {c : StationSummary}
    (hc : (c.state = .idle ↔ t.Idle) ∨ ∀ j ∈ t.written, ¬t.Open j) :
    { t with bench := { t.bench with currentSummary := c } : BenchCalls }.Tracked where
  written j hj hopen := by
    rcases hc with hsame | hnone
    · exact hsame.trans (h.written j hj hopen)
    · exact absurd hopen (hnone j hj)
  writtenDecided := h.writtenDecided
  pending := h.pending
  undecided := h.undecided
  latched := h.latched
  passed := h.passed
  waiting := h.waiting
  fresh := h.fresh

/-- A call begins. -/
theorem Tracked.processOrder (h : t.Tracked) (o : OrderId) :
    { t with bench := { t.bench with
      runs := t.bench.runs ++ [{ stackId := o }] } : BenchCalls }.Tracked := by
  have hget : ∀ {j : ℕ} {r : TestRun}, (t.bench.runs ++ [{ stackId := o }])[j]? = some r →
      t.bench.runs[j]? = some r ∨ j = t.bench.runs.length ∧ r = { stackId := o } := by
    intro j r hr
    rw [List.getElem?_append] at hr
    split_ifs at hr with hlt
    · exact .inl hr
    · rw [List.getElem?_singleton] at hr
      split_ifs at hr with hj
      exact .inr ⟨by omega, (Option.some.inj hr).symm⟩
  have hnew : ∀ j, t.Answered j ∨ j ∈ t.closed → j ≠ t.bench.runs.length :=
    fun j hj => (h.fresh j hj).ne
  refine ⟨fun j hj hopen => ?_, h.writtenDecided, h.pending, fun j r hr hu => ?_,
    fun j r hr hs hl => ?_, fun j r hr hs hp => ?_, fun j r hr hs ha hc => ?_, fun j hj => ?_⟩
  · obtain ⟨r, hr, hs⟩ := hopen
    rcases hget hr with hr | ⟨rfl, -⟩
    · exact h.written j hj ⟨r, hr, hs⟩
    · exact absurd rfl (hnew _ (h.writtenDecided _ hj))
  · rcases hget hr with hr | ⟨rfl, -⟩
    · exact h.undecided j r hr hu
    · exact fun ha => hnew _ (.inl ha) rfl
  · rcases hget hr with hr | ⟨-, rfl⟩
    · exact h.latched j r hr hs hl
    · cases hl
  · rcases hget hr with hr | ⟨rfl, -⟩
    · exact h.passed j r hr hs hp
    · exact absurd rfl (hnew _ (.inl ⟨true, hp⟩))
  · rcases hget hr with hr | ⟨-, rfl⟩
    · exact h.waiting j r hr hs ha hc
    · exact ⟨rfl, rfl⟩
  · have hlt := h.fresh j hj
    exact hlt.trans_le (List.length_append ▸ Nat.le_add_right _ _)

/-- A run changes without its flag being won: it is closed, times out or returns. -/
theorem Tracked.setRun (h : t.Tracked) {j : ℕ} {r : TestRun} (hj : t.bench.runs[j]? = some r)
    (r' : TestRun) (closed : List ℕ) (hopen : r'.stage ≠ .returned → r.stage ≠ .returned)
    (hundecided : r'.undecided = true → r.undecided = true)
    (hlatched : r'.stage = .awaiting → r'.latch = true → r.stage = .awaiting ∧ r.latch = true)
    (hclosed : ∀ k, k ∈ t.closed → k ∈ closed)
    (hnew : ∀ k ∈ closed, k ∈ t.closed ∨ k = j)
    (hwaiting : r'.stage ≠ .returned → j ∉ closed → r.undecided = true → r.active = true →
      r'.undecided = true ∧ r'.active = true) :
    { t with
      bench := { t.bench with runs := t.bench.runs.set j r' }
      closed := closed : BenchCalls }.Tracked := by
  obtain ⟨hlt, -⟩ := List.getElem?_eq_some_iff.mp hj
  have hget := get_set hj r'
  refine ⟨fun k hk hopen' => ?_, fun k hk => (h.writtenDecided k hk).imp_right (hclosed k),
    fun w hw => ?_, fun k q hq hu => ?_, fun k q hq hs hl => ?_, fun k q hq hs hp => ?_,
    fun k q hq hs ha hc => ?_, fun k hk => ?_⟩
  · apply h.written k hk
    obtain ⟨q, hq, hs⟩ := hopen'
    rw [hget] at hq
    split_ifs at hq with hkj
    · cases hq
      exact ⟨r, hkj ▸ hj, hopen hs⟩
    · exact ⟨q, hq, hs⟩
  · exact ⟨(h.pending w hw).1, (h.pending w hw).2.imp_right (hclosed _)⟩
  · rw [hget] at hq
    split_ifs at hq with hkj
    · cases hq
      exact h.undecided k r (hkj ▸ hj) (hundecided hu)
    · exact h.undecided k q hq hu
  · rw [hget] at hq
    split_ifs at hq with hkj
    · cases hq
      obtain ⟨hs, hl⟩ := hlatched hs hl
      exact h.latched k r (hkj ▸ hj) hs hl
    · exact h.latched k q hq hs hl
  · rw [hget] at hq
    split_ifs at hq with hkj
    · cases hq
      exact h.passed k r (hkj ▸ hj) (hopen hs) hp
    · exact h.passed k q hq hs hp
  · rw [hget] at hq
    have hold : k ∉ t.closed := fun hk => hc (hclosed k hk)
    split_ifs at hq with hkj
    · cases hq
      obtain ⟨hu, hactive⟩ := h.waiting k r (hkj ▸ hj) (hopen hs) ha hold
      exact hwaiting hs (hkj ▸ hc) hu hactive
    · exact h.waiting k q hq hs ha hold
  · show k < (t.bench.runs.set j r').length
    rw [List.length_set]
    rcases hk with hk | hk
    · exact h.fresh k (.inl hk)
    · rcases hnew k hk with hk | rfl
      · exact h.fresh k (.inr hk)
      · exact hlt

/-- The flag of a run is won by a callback, whose result will say what has been received. -/
theorem Tracked.win (h : t.Tracked) {j : ℕ} {r : TestRun} (hj : t.bench.runs[j]? = some r)
    (hclosed : j ∈ t.closed) (hundecided : r.undecided = true) {c : StationSummary}
    (hc : c.state ≠ .idle) :
    { t with bench := { t.bench with
        runs := t.bench.runs.set j { r with completed := some true }
        writes := t.bench.writes ++ [⟨j, r.stackId, c⟩] } : BenchCalls }.Tracked := by
  have hnot := h.undecided j r hj hundecided
  have hset := h.setRun hj { r with completed := some true } t.closed id
    (fun hu => nomatch hu) (fun hs hl => ⟨hs, hl⟩) (fun _ => id) (fun _ => .inl)
    fun _ hc => absurd hclosed hc
  refine ⟨hset.written, hset.writtenDecided, fun w hw => ?_, hset.undecided, hset.latched,
    fun k q hq hs hp => ?_, hset.waiting, hset.fresh⟩
  · rcases List.mem_append.mp hw with hw | hw
    · exact h.pending w hw
    · obtain rfl := List.mem_singleton.mp hw
      exact ⟨iff_of_false hc fun hp => hnot ⟨true, hp⟩, .inr hclosed⟩
  · refine (hset.passed k q hq hs hp).imp_right ?_
    rintro ⟨w, hw, hrun, hidle⟩
    exact ⟨w, List.mem_append_left _ hw, hrun, hidle⟩

/-- A response is received, and wins the flag if the call is still open for it. -/
theorem Tracked.onMessage (h : t.Tracked) {j : ℕ} {passed : Bool} (hlisten : t.Listening j)
    (hnew : ¬t.Answered j) :
    { t with
      bench := t.bench.exec (.onMessage j passed)
      answered := (j, passed) :: t.answered : BenchCalls }.Tracked := by
  obtain ⟨r, hj⟩ : ∃ r, t.bench.runs[j]? = some r := ⟨_, List.getElem?_eq_getElem hlisten.1⟩
  have hne : ∀ {k}, t.Answered k ∨ k ∈ t.closed → k ≠ j := by
    rintro k hk rfl
    exact hk.elim hnew hlisten.2
  have hpassed : ∀ {k}, k ≠ j → ((k, true) ∈ (j, passed) :: t.answered ↔ t.Passed k) := by
    intro k hk
    simp [Passed, hk]
  have hanswered : ∀ {k}, t.Answered k → ∃ b, (k, b) ∈ (j, passed) :: t.answered :=
    fun ⟨b, hb⟩ => ⟨b, List.mem_cons_of_mem _ hb⟩
  have hbefore : ∀ {k}, k ≠ j → (∃ b, (k, b) ∈ (j, passed) :: t.answered) → t.Answered k := by
    rintro k hk ⟨b, hb⟩
    simp only [List.mem_cons, Prod.mk.injEq, hk, false_and, false_or] at hb
    exact ⟨b, hb⟩
  by_cases hundecided : r.undecided = true
  · have hbench : t.bench.exec (.onMessage j passed) = { t.bench with
        runs := t.bench.runs.set j { r with completed := some true }
        writes := t.bench.writes ++
          [⟨j, r.stackId, TestBenchArtifact.verdict passed r.stackId⟩] } := by
      simp [TestBenchArtifact.exec, TestBenchArtifact.compareAndSet, hj, hundecided]
    rw [hbench]
    have hget := get_set hj { r with completed := some true }
    have hverdict : (TestBenchArtifact.verdict passed r.stackId).state = .idle ↔
        (j, true) ∈ (j, passed) :: t.answered := by
      have hold : (j, true) ∉ t.answered := fun hmem => hnew ⟨true, hmem⟩
      cases passed <;> simp [TestBenchArtifact.verdict, StationSummary.free, hold]
    refine ⟨fun k hk hopen => ?_, fun k hk => ?_, fun w hw => ?_, fun k q hq hu => ?_,
      fun k q hq hs hl => ?_, fun k q hq hs hp => ?_, fun k q hq hs ha hc => ?_, fun k hk => ?_⟩
    · have hkj := hne (h.writtenDecided k hk)
      obtain ⟨q, hq, hs⟩ := hopen
      rw [hget, if_neg hkj] at hq
      exact (h.written k hk ⟨q, hq, hs⟩).trans (hpassed hkj).symm
    · exact (h.writtenDecided k hk).imp_left hanswered
    · rcases List.mem_append.mp hw with hw | hw
      · obtain ⟨hidle, hdecided⟩ := h.pending w hw
        exact ⟨hidle.trans (hpassed (hne hdecided)).symm, hdecided.imp_left hanswered⟩
      · obtain rfl := List.mem_singleton.mp hw
        exact ⟨hverdict, .inl ⟨passed, List.mem_cons_self⟩⟩
    · rw [hget] at hq
      split_ifs at hq with hkj
      · cases hq
        cases hu
      · exact fun ha => h.undecided k q hq hu (hbefore hkj ha)
    · rw [hget] at hq
      split_ifs at hq with hkj
      · cases hq
        exact h.latched k r (hkj ▸ hj) hs hl
      · exact h.latched k q hq hs hl
    · rw [hget] at hq
      split_ifs at hq with hkj
      · subst hkj
        exact .inr ⟨_, List.mem_append_right _ List.mem_cons_self, rfl, hverdict.mpr hp⟩
      · refine (h.passed k q hq hs ((hpassed hkj).mp hp)).imp_right ?_
        rintro ⟨w, hw, hrun, hidle⟩
        exact ⟨w, List.mem_append_left _ hw, hrun, hidle⟩
    · rw [hget] at hq
      split_ifs at hq with hkj
      · subst hkj
        exact absurd ⟨passed, List.mem_cons_self⟩ ha
      · exact h.waiting k q hq hs (fun hk => ha (hanswered hk)) hc
    · show k < (t.bench.runs.set j _).length
      rw [List.length_set]
      by_cases hkj : k = j
      · exact hkj ▸ hlisten.1
      · exact h.fresh k (hk.imp_left (hbefore hkj))
  · -- a call that is open and undisturbed has its flag open
    have hreturned : r.stage = .returned := by
      by_contra hs
      exact hundecided (h.waiting j r hj hs hnew hlisten.2).1
    have hbench : t.bench.exec (.onMessage j passed) = t.bench := by
      simp [TestBenchArtifact.exec, TestBenchArtifact.compareAndSet, hj, hundecided]
    rw [hbench]
    have hother : ∀ {k : ℕ} {q : TestRun}, t.bench.runs[k]? = some q → q.stage ≠ .returned →
        k ≠ j := by
      rintro k q hq hs rfl
      rw [hj] at hq
      cases hq
      exact hs hreturned
    refine ⟨fun k hk hopen => ?_, fun k hk => ?_, fun w hw => ?_, fun k q hq hu => ?_, h.latched,
      fun k q hq hs hp => ?_, fun k q hq hs ha hc => ?_, fun k hk => ?_⟩
    · exact (h.written k hk hopen).trans (hpassed (hne (h.writtenDecided k hk))).symm
    · exact (h.writtenDecided k hk).imp_left hanswered
    · obtain ⟨hidle, hdecided⟩ := h.pending w hw
      exact ⟨hidle.trans (hpassed (hne hdecided)).symm, hdecided.imp_left hanswered⟩
    · have hkj : k ≠ j := by
        rintro rfl
        rw [hj] at hq
        cases hq
        exact hundecided hu
      exact fun ha => h.undecided k q hq hu (hbefore hkj ha)
    · exact h.passed k q hq hs ((hpassed (hother hq hs)).mp hp)
    · exact h.waiting k q hq hs (fun hk => ha (hanswered hk)) hc
    · by_cases hkj : k = j
      · exact hkj ▸ hlisten.1
      · exact h.fresh k (hk.imp_left (hbefore hkj))

/-- The RPC is closed; a failure wins the flag if it is still open. -/
theorem Tracked.onClose (h : t.Tracked) {j : ℕ} (ok : Bool) (hlisten : t.Listening j) :
    { t with
      bench := t.bench.exec (.onClose j ok)
      closed := j :: t.closed : BenchCalls }.Tracked := by
  obtain ⟨r, hj⟩ : ∃ r, t.bench.runs[j]? = some r := ⟨_, List.getElem?_eq_getElem hlisten.1⟩
  have hclose := h.setRun hj { r with active := false } (j :: t.closed) id id
    (fun hs hl => ⟨hs, hl⟩) (fun _ hk => List.mem_cons_of_mem _ hk)
    (fun k hk => (List.mem_cons.mp hk).symm) fun _ hc => absurd List.mem_cons_self hc
  have hset : (t.bench.runs.set j { r with active := false })[j]? =
      some { r with active := false } := by
    rw [get_set hj, if_pos rfl]
  cases ok with
  | true =>
    have hbench : t.bench.exec (.onClose j true) =
        { t.bench with runs := t.bench.runs.set j { r with active := false } } := by
      simp [TestBenchArtifact.exec, TestBenchArtifact.update, hj]
    rw [hbench]
    exact hclose
  | false =>
    by_cases hundecided : r.undecided = true
    · have hwin := hclose.win hset List.mem_cons_self hundecided
        (c := TestBenchArtifact.lost r.stackId) fun h => by cases h
      have hbench : t.bench.exec (.onClose j false) = { t.bench with
          runs := (t.bench.runs.set j { r with active := false }).set j
            { r with active := false, completed := some true }
          writes := t.bench.writes ++
            [⟨j, r.stackId, TestBenchArtifact.lost r.stackId⟩] } := by
        have hundecided' : ({ r with active := false } : TestRun).undecided = true := hundecided
        simp only [TestBenchArtifact.exec, TestBenchArtifact.update, hj,
          TestBenchArtifact.compareAndSet, hset, hundecided', if_true, Bool.false_eq_true,
          if_false]
      rw [hbench]
      exact hwin
    · have hbench : t.bench.exec (.onClose j false) =
          { t.bench with runs := t.bench.runs.set j { r with active := false } } := by
        have hundecided' : ¬({ r with active := false } : TestRun).undecided = true := hundecided
        simp only [TestBenchArtifact.exec, TestBenchArtifact.update, hj,
          TestBenchArtifact.compareAndSet, hset, hundecided', Bool.false_eq_true, if_false]
      rw [hbench]
      exact hclose

/-- A result that has been written leaves the writes that wait. -/
theorem mem_eraseIdx_or {l : List TestWrite} {i : ℕ} {w w' : TestWrite} (hi : l[i]? = some w)
    (hmem : w' ∈ l) : w' = w ∨ w' ∈ l.eraseIdx i := by
  obtain ⟨hlt, rfl⟩ := List.getElem?_eq_some_iff.mp hi
  rw [← List.take_append_drop i l, List.drop_eq_getElem_cons hlt] at hmem
  rw [List.eraseIdx_eq_take_drop_succ, List.mem_append]
  rcases List.mem_append.mp hmem with hmem | hmem
  · exact .inr (.inl hmem)
  · exact (List.mem_cons.mp hmem).imp_right .inr

/-- The result of a run is written into the summary. -/
theorem Tracked.write (h : t.Tracked) {i : ℕ} {w : TestWrite} (hi : t.bench.writes[i]? = some w)
    (hsettled : t.Settled (.write i)) :
    { t with
      bench := t.bench.exec (.write i)
      written := w.run :: t.written : BenchCalls }.Tracked := by
  have hw := List.mem_of_getElem? hi
  obtain ⟨hverdict, hdecided⟩ := h.pending w hw
  have hsummary : (w.summary.state = .idle ↔ t.Idle) ∨ ∀ j ∈ t.written, ¬t.Open j := by
    by_cases hsame : w.summary.state = .idle ↔ t.Idle
    · exact .inl hsame
    · exact .inr (hsettled.1 ⟨w, hi, hsame⟩)
  -- the summary and the lists, with the runs as they were
  have hwrote : { t with
      bench := { t.bench with
        currentSummary := w.summary
        writes := t.bench.writes.eraseIdx i }
      written := w.run :: t.written : BenchCalls }.Tracked := by
    have hs := h.summary hsummary
    refine ⟨fun j hj hopen => ?_, fun j hj => ?_, fun w' hw' => ?_, h.undecided,
      fun j r hr hs hl => List.mem_cons_of_mem _ (h.latched j r hr hs hl),
      fun j r hr hs hp => ?_, h.waiting, h.fresh⟩
    · rcases List.mem_cons.mp hj with rfl | hj
      · exact hverdict
      · exact hs.written j hj hopen
    · rcases List.mem_cons.mp hj with rfl | hj
      · exact hdecided
      · exact h.writtenDecided j hj
    · exact h.pending w' (List.mem_of_mem_eraseIdx hw')
    · rcases h.passed j r hr hs hp with hj | ⟨w', hw', rfl, hidle⟩
      · exact .inl (List.mem_cons_of_mem _ hj)
      · rcases mem_eraseIdx_or hi hw' with rfl | hw'
        · exact .inl List.mem_cons_self
        · exact .inr ⟨w', hw', rfl, hidle⟩
  rcases hr : t.bench.runs[w.run]? with _ | r
  · have hbench : t.bench.exec (.write i) = { t.bench with
        currentSummary := w.summary
        writes := t.bench.writes.eraseIdx i } := by
      simp only [TestBenchArtifact.exec, hi, TestBenchArtifact.update, hr]
    rw [hbench]
    exact hwrote
  · have hbench : t.bench.exec (.write i) = { t.bench with
        currentSummary := w.summary
        writes := t.bench.writes.eraseIdx i
        runs := t.bench.runs.set w.run { r with latch := true } } := by
      simp only [TestBenchArtifact.exec, hi, TestBenchArtifact.update, hr]
    rw [hbench]
    have hget := get_set hr { r with latch := true }
    refine ⟨fun j hj hopen => ?_, hwrote.writtenDecided, hwrote.pending, fun j q hq hu => ?_,
      fun j q hq hs hl => ?_, fun j q hq hs hp => ?_, fun j q hq hs ha hc => ?_, fun j hj => ?_⟩
    · apply hwrote.written j hj
      obtain ⟨q, hq, hs⟩ := hopen
      rw [hget] at hq
      split_ifs at hq with hj
      · cases hq
        exact ⟨r, hj ▸ hr, hs⟩
      · exact ⟨q, hq, hs⟩
    · rw [hget] at hq
      split_ifs at hq with hj
      · cases hq
        exact h.undecided j r (hj ▸ hr) hu
      · exact h.undecided j q hq hu
    · rw [hget] at hq
      split_ifs at hq with hj
      · exact hj ▸ List.mem_cons_self
      · exact hwrote.latched j q hq hs hl
    · rw [hget] at hq
      split_ifs at hq with hj
      · exact .inl (hj ▸ List.mem_cons_self)
      · exact hwrote.passed j q hq hs hp
    · rw [hget] at hq
      split_ifs at hq with hj
      · cases hq
        exact h.waiting j r (hj ▸ hr) hs ha hc
      · exact h.waiting j q hq hs ha hc
    · show j < (t.bench.runs.set w.run _).length
      rw [List.length_set]
      exact h.fresh j hj

/-- 30 s are over. -/
theorem Tracked.timeout (h : t.Tracked) (j : ℕ) :
    { t with bench := t.bench.exec (.timeout j) : BenchCalls }.Tracked := by
  rcases hj : t.bench.runs[j]? with _ | r
  · have hbench : t.bench.exec (.timeout j) = t.bench := by
      simp only [TestBenchArtifact.exec, TestBenchArtifact.update, hj]
    rw [hbench]
    exact h
  · by_cases hwait : r.stage = .awaiting ∧ r.latch = false
    · have hbench : t.bench.exec (.timeout j) =
          { t.bench with runs := t.bench.runs.set j { r with stage := .cancelling } } := by
        simp only [TestBenchArtifact.exec, TestBenchArtifact.update, hj, if_pos hwait]
      rw [hbench]
      exact h.setRun hj _ t.closed (fun _ hs => by cases hwait.1.symm.trans hs) id
        (fun hs => by cases hs) (fun _ => id) (fun _ => .inl) fun _ _ hu hactive => ⟨hu, hactive⟩
    · have hbench : t.bench.exec (.timeout j) =
          { t.bench with runs := t.bench.runs.set j r } := by
        simp only [TestBenchArtifact.exec, TestBenchArtifact.update, hj, if_neg hwait]
      rw [hbench]
      exact h.setRun hj r t.closed id id (fun hs hl => ⟨hs, hl⟩) (fun _ => id) (fun _ => .inl)
        fun _ _ hu hactive => ⟨hu, hactive⟩

/-- A call returns. -/
theorem Tracked.returned (h : t.Tracked) {j : ℕ} {r : TestRun} (hj : t.bench.runs[j]? = some r)
    (results : List (OrderId × ResultCode)) :
    { t with bench := { t.bench with
        runs := t.bench.runs.set j
          { r with active := false, completed := none, stage := .returned }
        results := results } : BenchCalls }.Tracked := by
  have hset := h.setRun hj { r with active := false, completed := none, stage := .returned }
    t.closed (fun hs => absurd rfl hs) (fun hu => nomatch hu) (fun hs => nomatch hs)
    (fun _ => id) (fun _ => .inl) fun hs => absurd rfl hs
  exact ⟨hset.written, hset.writtenDecided, hset.pending, hset.undecided, hset.latched,
    hset.passed, hset.waiting, hset.fresh⟩

/-- What the continuation of an open call does. -/
theorem exec_finish {j : ℕ} {r : TestRun} (hj : t.bench.runs[j]? = some r)
    (hs : r.stage ≠ .returned) :
    (r.stage = .awaiting ∧ r.latch = true ∧
      t.bench.exec (.finish j) = t.bench.finished j r) ∨
    (r.stage = .awaiting ∧ r.latch = false ∧ t.bench.exec (.finish j) = t.bench) ∨
    (r.stage = .cancelling ∧ r.undecided = true ∧
      t.bench.exec (.finish j) =
        TestBenchArtifact.finished j r
          { t.bench with currentSummary := TestBenchArtifact.lost r.stackId }) ∨
    (r.stage = .cancelling ∧ r.undecided = false ∧
      t.bench.exec (.finish j) = t.bench.finished j r) := by
  match hstage : r.stage with
  | .awaiting =>
    match hlatch : r.latch with
    | true =>
      refine .inl ⟨rfl, rfl, ?_⟩
      simp only [TestBenchArtifact.exec, hj, hstage, hlatch, if_true]
    | false =>
      refine .inr (.inl ⟨rfl, rfl, ?_⟩)
      simp only [TestBenchArtifact.exec, hj, hstage, hlatch, Bool.false_eq_true, if_false]
  | .cancelling =>
    match hundecided : r.undecided with
    | true =>
      refine .inr (.inr (.inl ⟨rfl, rfl, ?_⟩))
      simp only [TestBenchArtifact.exec, hj, hstage, hundecided, if_true]
    | false =>
      refine .inr (.inr (.inr ⟨rfl, rfl, ?_⟩))
      simp only [TestBenchArtifact.exec, hj, hstage, hundecided, Bool.false_eq_true, if_false]
  | .returned => exact absurd hstage hs

/-- What the artifact records for a call that finishes is the result that is returned. -/
theorem results_finish {j : ℕ} {r : TestRun} (hj : t.bench.runs[j]? = some r)
    (hs : r.stage ≠ .returned) : (t.exec (.finish j)).bench = t.bench ∨
      (t.exec (.finish j)).bench.results =
        (r.stackId, (t.exec (.finish j)).result) :: t.bench.results := by
  show t.bench.exec (.finish j) = t.bench ∨ (t.bench.exec (.finish j)).results =
    (r.stackId, if (t.bench.exec (.finish j)).currentSummary.state = .idle then .ok else .defect) ::
      t.bench.results
  rcases exec_finish hj hs with ⟨-, -, hbench⟩ | ⟨-, -, hbench⟩ | ⟨-, -, hbench⟩ |
    ⟨-, -, hbench⟩
  · exact .inr (by rw [hbench]; rfl)
  · exact .inl hbench
  · exact .inr (by rw [hbench]; rfl)
  · exact .inr (by rw [hbench]; rfl)

/-- A call goes on after its latch, or after its timeout. -/
theorem Tracked.finish (h : t.Tracked) {j : ℕ} (hsettled : t.Settled (.finish j)) :
    { t with bench := t.bench.exec (.finish j) : BenchCalls }.Tracked := by
  by_cases hopen : t.Open j
  · obtain ⟨r, hj, hs⟩ := hopen
    rcases exec_finish hj hs with ⟨-, -, hbench⟩ | ⟨-, -, hbench⟩ | ⟨hstage, hundecided, hbench⟩ |
      ⟨-, -, hbench⟩
    · rw [hbench]
      exact h.returned hj _
    · rw [hbench]
      exact h
    · rw [hbench]
      refine (h.summary (c := TestBenchArtifact.lost r.stackId) ?_).returned hj _
      by_cases hidle : t.Idle
      · exact .inr (hsettled.1 ⟨hidle, r, hj, hstage, hundecided⟩)
      · exact .inl (iff_of_false nofun hidle)
    · rw [hbench]
      exact h.returned hj _
  · have hbench : t.bench.exec (.finish j) = t.bench := by
      rcases hj : t.bench.runs[j]? with _ | r
      · simp only [TestBenchArtifact.exec, hj]
      · have hs : r.stage = .returned := by
          by_contra hs
          exact hopen ⟨r, hj, hs⟩
        simp only [TestBenchArtifact.exec, hj, hs]
    rw [hbench]
    exact h

/-- Every RPC is cancelled, and none has its flag open. -/
theorem Tracked.cancelled (h : t.Tracked)
    (hnone : ∀ r ∈ t.bench.runs, ¬(r.active ∧ r.undecided)) :
    { t with bench := { t.bench with
        runs := t.bench.runs.map TestBenchArtifact.cancel } : BenchCalls }.Tracked := by
  have hget : ∀ {k : ℕ} {q : TestRun},
      (t.bench.runs.map TestBenchArtifact.cancel)[k]? = some q →
        ∃ r, t.bench.runs[k]? = some r ∧ q = { r with active := false, completed := none } := by
    intro k q hq
    rw [List.getElem?_map] at hq
    obtain ⟨r, hr, rfl⟩ := Option.map_eq_some_iff.mp hq
    have hflag : (r.active && r.undecided) = false := by
      have hr' := hnone r (List.mem_of_getElem? hr)
      simpa using hr'
    refine ⟨r, hr, ?_⟩
    simp only [TestBenchArtifact.cancel, hflag, Bool.or_false]
  refine ⟨fun k hk hopen => ?_, h.writtenDecided, h.pending, fun k q hq hu => ?_,
    fun k q hq hs hl => ?_, fun k q hq hs hp => ?_, fun k q hq hs ha hc => ?_, fun k hk => ?_⟩
  · obtain ⟨q, hq, hs⟩ := hopen
    obtain ⟨r, hr, rfl⟩ := hget hq
    exact h.written k hk ⟨r, hr, hs⟩
  · obtain ⟨r, -, rfl⟩ := hget hq
    cases hu
  · obtain ⟨r, hr, rfl⟩ := hget hq
    exact h.latched k r hr hs hl
  · obtain ⟨r, hr, rfl⟩ := hget hq
    exact h.passed k r hr hs hp
  · obtain ⟨r, hr, rfl⟩ := hget hq
    exact absurd (h.waiting k r hr hs ha hc).symm (hnone r (List.mem_of_getElem? hr))
  · show k < (t.bench.runs.map _).length
    rw [List.length_map]
    exact h.fresh k hk

/-- `cancelPendingRpc` of a call that is open, where no flag is open. -/
theorem exec_cancelPendingRpc {j : ℕ} {r : TestRun} (hj : t.bench.runs[j]? = some r)
    (hs : r.stage ≠ .returned) (hnone : ∀ r ∈ t.bench.runs, ¬(r.active ∧ r.undecided)) :
    t.bench.exec (.cancelPendingRpc j) = { t.bench with
      runs := (t.bench.runs.map TestBenchArtifact.cancel).set j
        { TestBenchArtifact.cancel r with stage := .returned } } := by
  have hany : (t.bench.runs.any fun r => r.active && r.undecided) = false := by
    apply List.any_eq_false.mpr
    intro r hr
    have hr' := hnone r hr
    simpa using hr'
  have hcancel : (t.bench.runs.map TestBenchArtifact.cancel)[j]? =
      some (TestBenchArtifact.cancel r) := by
    rw [List.getElem?_map, hj, Option.map_some]
  simp only [TestBenchArtifact.exec, hj, hs, if_false, TestBenchArtifact.cancelled, hany,
    Bool.false_eq_true, TestBenchArtifact.update, hcancel]

theorem Tracked.cancelPendingRpc (h : t.Tracked) {j : ℕ}
    (hsettled : t.Settled (.cancelPendingRpc j)) :
    { t with bench := t.bench.exec (.cancelPendingRpc j) : BenchCalls }.Tracked := by
  by_cases hopen : t.Open j
  · obtain ⟨r, hj, hs⟩ := hopen
    obtain ⟨hnone, -⟩ := hsettled.2 ⟨r, hj, hs⟩
    rw [exec_cancelPendingRpc hj hs hnone]
    refine (h.cancelled hnone).setRun (r := TestBenchArtifact.cancel r) ?_ _ t.closed
      (fun hs => absurd rfl hs) (fun hu => nomatch hu) (fun hs => nomatch hs) (fun _ => id)
      (fun _ => .inl) fun hs => absurd rfl hs
    show (t.bench.runs.map _)[j]? = _
    rw [List.getElem?_map, hj, Option.map_some]
  · have hbench : t.bench.exec (.cancelPendingRpc j) = t.bench := by
      rcases hj : t.bench.runs[j]? with _ | r
      · simp only [TestBenchArtifact.exec, hj]
      · have hs : r.stage = .returned := by
          by_contra hs
          exact hopen ⟨r, hj, hs⟩
        simp only [TestBenchArtifact.exec, hj, hs, if_true]
    rw [hbench]
    exact h

/-! ## Every run -/

theorem Tracked.claimStation (h : t.Tracked) {o : OrderId}
    (hsettled : t.Settled (.claimStation o)) :
    { t with bench := t.bench.exec (.claimStation o) : BenchCalls }.Tracked := by
  by_cases hidle : t.Idle
  · have hbench : t.bench.exec (.claimStation o) =
        { t.bench with currentSummary := .locked o } := if_pos hidle
    rw [hbench]
    exact h.summary (.inr (hsettled.1 hidle))
  · have hbench : t.bench.exec (.claimStation o) = t.bench := if_neg hidle
    rw [hbench]
    exact h

/-- **A step keeps the invariant** under the condition. -/
theorem Tracked.exec (h : t.Tracked) (op : TestBenchOp) (hsettled : t.Settled op) :
    (t.exec op).Tracked := by
  cases op with
  | claimStation o => exact h.claimStation hsettled
  | processOrder o =>
    show { t with bench := t.bench.exec (.processOrder o) : BenchCalls }.Tracked
    by_cases hlock : t.bench.currentSummary = .locked o
    · have hbench : t.bench.exec (.processOrder o) = { t.bench with
          currentSummary := .busy o
          runs := t.bench.runs ++ [{ stackId := o }] } := if_pos hlock
      rw [hbench]
      -- neither the lock nor the work of a station is idle
      have hidle : ¬t.Idle := by
        unfold Idle
        rw [hlock]
        intro hidle
        cases hidle
      exact (h.summary (c := .busy o)
        (.inl (iff_of_false (fun hbusy => by cases hbusy) hidle))).processOrder o
    · have hbench : t.bench.exec (.processOrder o) = t.bench := if_neg hlock
      rw [hbench]
      exact h
  | onMessage j passed =>
    simp only [BenchCalls.exec]
    split_ifs with hnew
    · exact h.onMessage hnew.1 hnew.2
    · exact h
  | onClose j ok =>
    simp only [BenchCalls.exec]
    split_ifs with hlisten
    · exact h.onClose ok hlisten
    · exact h
  | write i =>
    simp only [BenchCalls.exec]
    rcases hi : t.bench.writes[i]? with _ | w
    · have hbench : t.bench.exec (.write i) = t.bench := by
        simp only [TestBenchArtifact.exec, hi]
      rw [hbench]
      exact h
    · exact h.write hi hsettled
  | timeout j => exact h.timeout j
  | finish j => exact h.finish hsettled
  | cancelPendingRpc j => exact h.cancelPendingRpc hsettled
  | setStationOffline =>
    refine h.summary (c := .off) ?_
    by_cases hidle : t.Idle
    · exact .inr (hsettled.1 hidle)
    · exact .inl (iff_of_false (fun hoff => by cases hoff) hidle)
  | releaseStation =>
    refine h.summary (c := .free) ?_
    by_cases hidle : t.Idle
    · exact .inl (iff_of_true rfl hidle)
    · exact .inr (hsettled.1 hidle)

/-- The summary says what has been received for a call, where its result is written or the
station is as the result would leave it. -/
theorem Tracked.verdict (h : t.Tracked) {j : ℕ} (hopen : t.Open j)
    (hpending : j ∉ t.written → (t.Idle ↔ t.PassPending j)) : t.Idle ↔ t.Passed j := by
  by_cases hwritten : j ∈ t.written
  · exact h.written j hwritten hopen
  · refine (hpending hwritten).trans ⟨?_, ?_⟩
    · rintro ⟨w, hw, rfl, hidle⟩
      exact (h.pending w hw).1.mp hidle
    · obtain ⟨r, hr, hs⟩ := hopen
      exact fun hp => (h.passed j r hr hs hp).resolve_left hwritten

/-- A change of a run that does not return from its call. -/
theorem open_update {s : TestBenchArtifact} {f : TestRun → TestRun} {k : ℕ}
    (hf : ∀ r, r.stage ≠ .returned → (f r).stage ≠ .returned) {j : ℕ}
    (h : ∃ r, s.runs[j]? = some r ∧ r.stage ≠ .returned) :
    ∃ r, (s.update k f).runs[j]? = some r ∧ r.stage ≠ .returned := by
  obtain ⟨r, hr, hs⟩ := h
  unfold TestBenchArtifact.update
  rcases hk : s.runs[k]? with _ | q
  · exact ⟨r, hr, hs⟩
  · show ∃ r, (s.runs.set k (f q))[j]? = some r ∧ _
    rw [get_set hk]
    split_ifs with hjk
    · subst hjk
      rw [hk] at hr
      cases hr
      exact ⟨_, rfl, hf _ hs⟩
    · exact ⟨r, hr, hs⟩

theorem open_compareAndSet {s : TestBenchArtifact} {k : ℕ} {c : OrderId → StationSummary} {j : ℕ}
    (h : ∃ r, s.runs[j]? = some r ∧ r.stage ≠ .returned) :
    ∃ r, (s.compareAndSet k c).runs[j]? = some r ∧ r.stage ≠ .returned := by
  have hset := open_update (f := fun r => { r with completed := some true }) (k := k)
    (fun _ => id) h
  unfold TestBenchArtifact.update at hset
  unfold TestBenchArtifact.compareAndSet
  rcases hk : s.runs[k]? with _ | q
  · exact h
  · rw [hk] at hset
    by_cases hundecided : q.undecided = true
    · simp only [hundecided, if_true]
      exact hset
    · simp only [hundecided]
      exact h

/-- Only its own continuation, or the cancellation that its own failure calls for, returns from a
call. -/
theorem open_exec {op : TestBenchOp} {j : ℕ} (h : t.Open j) (hfinish : op ≠ .finish j)
    (hcancel : op ≠ .cancelPendingRpc j) : (t.exec op).Open j := by
  have hset : ∀ {k : ℕ} (q : TestRun) {l : List TestRun}, j ≠ k →
      (∃ r, l[j]? = some r ∧ r.stage ≠ .returned) →
        ∃ r, (l.set k q)[j]? = some r ∧ r.stage ≠ .returned := by
    rintro k q l hjk ⟨r, hr, hs⟩
    exact ⟨r, by rw [List.getElem?_set_ne (Ne.symm hjk), hr], hs⟩
  cases op with
  | claimStation o =>
    show ∃ r, (t.bench.exec (.claimStation o)).runs[j]? = some r ∧ _
    simp only [TestBenchArtifact.exec]
    split_ifs
    · exact h
    · exact h
  | processOrder o =>
    show ∃ r, (t.bench.exec (.processOrder o)).runs[j]? = some r ∧ _
    simp only [TestBenchArtifact.exec]
    split_ifs
    · obtain ⟨r, hr, hs⟩ := h
      obtain ⟨hlt, -⟩ := List.getElem?_eq_some_iff.mp hr
      exact ⟨r, (List.getElem?_append_left hlt).trans hr, hs⟩
    · exact h
  | onMessage k passed =>
    simp only [exec]
    split_ifs
    · exact open_compareAndSet h
    · exact h
  | onClose k ok =>
    simp only [exec]
    split_ifs
    · have hclosed := open_update (s := t.bench) (f := fun r => { r with active := false })
        (k := k) (fun _ => id) h
      show ∃ r, (t.bench.exec (.onClose k ok)).runs[j]? = some r ∧ _
      simp only [TestBenchArtifact.exec]
      split_ifs
      · exact hclosed
      · exact open_compareAndSet hclosed
    · exact h
  | write i =>
    show ∃ r, (t.bench.exec (.write i)).runs[j]? = some r ∧ _
    rcases hi : t.bench.writes[i]? with _ | w
    · simp only [TestBenchArtifact.exec, hi]
      exact h
    · simp only [TestBenchArtifact.exec, hi]
      exact open_update (f := fun r => { r with latch := true }) (fun _ hs => hs)
        (s := { t.bench with
          currentSummary := w.summary
          writes := t.bench.writes.eraseIdx i }) h
  | timeout k =>
    refine open_update (fun r hs => ?_) h
    split_ifs
    · intro hs'
      cases hs'
    · exact hs
  | finish k =>
    have hjk : j ≠ k := fun hjk => hfinish (hjk ▸ rfl)
    show ∃ r, (t.bench.exec (.finish k)).runs[j]? = some r ∧ _
    rcases hk : t.bench.runs[k]? with _ | q
    · simp only [TestBenchArtifact.exec, hk]
      exact h
    · simp only [TestBenchArtifact.exec, hk]
      split
      · split_ifs
        · exact hset _ hjk h
        · exact h
      · split_ifs
        · exact hset _ hjk h
        · exact hset _ hjk h
      · exact h
  | cancelPendingRpc k =>
    have hjk : j ≠ k := fun hjk => hcancel (hjk ▸ rfl)
    have hmap : ∃ r, (t.bench.runs.map TestBenchArtifact.cancel)[j]? = some r ∧
        r.stage ≠ .returned := by
      obtain ⟨r, hr, hs⟩ := h
      exact ⟨TestBenchArtifact.cancel r, by rw [List.getElem?_map, hr, Option.map_some], hs⟩
    show ∃ r, (t.bench.exec (.cancelPendingRpc k)).runs[j]? = some r ∧ _
    rcases hk : t.bench.runs[k]? with _ | q
    · simp only [TestBenchArtifact.exec, hk]
      exact h
    · simp only [TestBenchArtifact.exec, hk]
      split_ifs
      · exact h
      · have hcancelled : t.bench.cancelled.runs[k]? = some (TestBenchArtifact.cancel q) := by
          simp only [TestBenchArtifact.cancelled, List.getElem?_map, hk, Option.map_some]
        simp only [TestBenchArtifact.update, hcancelled]
        exact hset _ hjk hmap
  | setStationOffline => exact h
  | releaseStation => exact h

/-- **A step returns the verdict** under the condition. -/
theorem Tracked.returnsVerdict (h : t.Tracked) (op : TestBenchOp) (hsettled : t.Settled op) :
    t.ReturnsVerdict op := by
  intro j hopen hclosed
  rw [result_eq_ok]
  by_cases hfinish : op = .finish j
  · subst hfinish
    obtain ⟨r, hj, hs⟩ := hopen
    have hverdict := h.verdict ⟨r, hj, hs⟩
    show (t.bench.exec (.finish j)).currentSummary.state = .idle ↔ _
    rcases exec_finish hj hs with ⟨hstage, hlatch, hbench⟩ | ⟨-, -, hbench⟩ |
      ⟨-, hundecided, hbench⟩ | ⟨hstage, hundecided, hbench⟩
    · rw [hbench]
      exact hverdict fun hnot => absurd (h.latched j r hj hstage hlatch) hnot
    · refine absurd ?_ hclosed
      show ∃ r, (t.bench.exec (.finish j)).runs[j]? = some r ∧ _
      rw [hbench]
      exact ⟨r, hj, hs⟩
    · rw [hbench]
      exact iff_of_false nofun fun hp => h.undecided j r hj hundecided ⟨true, hp⟩
    · rw [hbench]
      exact hverdict (hsettled.2 r hj hstage (by simp [hundecided]))
  · by_cases hcancel : op = .cancelPendingRpc j
    · subst hcancel
      obtain ⟨r, hj, hs⟩ := hopen
      obtain ⟨hnone, hpending⟩ := hsettled.2 ⟨r, hj, hs⟩
      show (t.bench.exec (.cancelPendingRpc j)).currentSummary.state = .idle ↔ _
      rw [exec_cancelPendingRpc hj hs hnone]
      exact h.verdict ⟨r, hj, hs⟩ hpending
    · exact absurd (open_exec hopen hfinish hcancel) hclosed

/-- A stack passes its test, and a second one fails. -/
def benchedRun : List TestBenchOp :=
  [TestBenchOp.claimStation ⟨"order_1", 0⟩, .processOrder ⟨"order_1", 0⟩, .onMessage 0 true,
    .timeout 0, .onClose 0 true, .write 0, .finish 0, .claimStation ⟨"order_2", 0⟩,
    .processOrder ⟨"order_2", 0⟩, .onMessage 1 false, .write 0, .finish 1, .releaseStation]

end BenchCalls

end MatrixFactory
