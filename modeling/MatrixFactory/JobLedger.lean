/-
# No job is lost or doubled

Every job committed to an AMR is waiting in its queue, in progress, delivered, or
removed by a cancellation (`Ledger`).  The five local moves keep the ledger of one
AMR; `jobs_conserved` sums it over the fleet and counts the commits from the
operations of the run.
-/
import MatrixFactory.FleetRuns
import Mathlib.Algebra.Order.BigOperators.Group.List

namespace MatrixFactory

/-! ## Counting in a history -/

/-- The jobs committed for the order. -/
def committedCount (o : String) : List AMREvent → ℕ
  | [] => 0
  | .committed job :: h => committedCount o h + if job.orderId = o then 1 else 0
  | _ :: h => committedCount o h

/-- The signals `amr_arrived` for the order. -/
def arrivedCount (o : String) : List AMREvent → ℕ
  | [] => 0
  | .arrived o' _ :: h => arrivedCount o h + if o' = o then 1 else 0
  | _ :: h => arrivedCount o h

/-- The jobs that cancellations of the order removed. -/
def cancelledCount (o : String) : List AMREvent → ℕ
  | [] => 0
  | .cancelled o' dropped :: h => cancelledCount o h + if o' = o then dropped else 0
  | _ :: h => cancelledCount o h

/-- The jobs a move commits for the order. -/
def AMRMove.commits (o : String) : AMRMove → ℕ
  | .take job => if job.orderId = o then 1 else 0
  | _ => 0

/-- Commits and cancellations name their order. -/
def AMROp.NamesOrder : AMROp → Prop
  | .requestTransport _ job => job.orderId ≠ ""
  | .reserveTransport job => job.orderId ≠ ""
  | .cancelTransport _ orderId => orderId ≠ ""
  | _ => True

instance : DecidablePred AMROp.NamesOrder := fun op => by
  induction op using AMROp.casesOn <;> unfold AMROp.NamesOrder <;> infer_instance

namespace AMRSim

variable {pq : PriorityQueue STNode STNode.Le} {g : Grid}

/-- The jobs for the order that wait in the queue. -/
def waiting (o : String) (a : AMRSim) : ℕ := a.jobQueue.countP (·.orderId = o)

/-- The number of jobs for the order in progress: `1` while the AMR is committed to
the order or carries it. -/
def inProgress (o : String) (a : AMRSim) : ℕ :=
  if o ≠ "" ∧ (a.pendingOrderId = o ∨ a.carryingOrderId = o) then 1 else 0

/-- The ledger of one AMR. -/
structure Ledger (a : AMRSim) : Prop where
  carry : a.carryingOrderId = "" ∨ a.carryingOrderId = a.pendingOrderId
  queue : ∀ job ∈ a.jobQueue, job.orderId ≠ ""
  balance : ∀ o, committedCount o a.history =
    a.waiting o + a.inProgress o + arrivedCount o a.history + cancelledCount o a.history

theorem inProgress_eq {a : AMRSim}
    (hcarry : a.carryingOrderId = "" ∨ a.carryingOrderId = a.pendingOrderId) (o : String) :
    a.inProgress o = if o ≠ "" ∧ a.pendingOrderId = o then 1 else 0 := by
  unfold inProgress
  refine if_congr (and_congr_right fun ho => ?_) rfl rfl
  rcases hcarry with hc | hc
  · rw [hc]
    exact ⟨fun hp => hp.resolve_right (Ne.symm ho), Or.inl⟩
  · rw [hc, or_self]

/-- A move that touches neither queue nor order ids, and records nothing that is
counted. -/
theorem Ledger.of_eq {a a' : AMRSim} (h : a.Ledger) (hp : a'.pendingOrderId = a.pendingOrderId)
    (hc : a'.carryingOrderId = a.carryingOrderId ∨ a'.carryingOrderId = "")
    (hq : a'.jobQueue = a.jobQueue)
    (hh : a'.history = a.history ∨ ∃ o, a'.history = .transportBlocked o :: a.history) :
    a'.Ledger := by
  have hcarry : a'.carryingOrderId = "" ∨ a'.carryingOrderId = a'.pendingOrderId := by
    rcases hc with hc | hc
    · rw [hc, hp]
      exact h.carry
    · exact Or.inl hc
  refine ⟨hcarry, hq ▸ h.queue, fun o => ?_⟩
  have hprog : a'.inProgress o = a.inProgress o := by
    rw [inProgress_eq h.carry, inProgress_eq hcarry, hp]
  have hwait : a'.waiting o = a.waiting o := by rw [waiting, hq, waiting]
  rw [hprog, hwait]
  rcases hh with hh | ⟨o', hh⟩ <;> rw [hh] <;> exact h.balance o

/-! ## The local moves -/

/-- Starting a job on a free AMR puts it in progress. -/
theorem startJob_ledger {a : AMRSim} (hfree : a.IsFree) {job : TransportJob}
    (hid : job.orderId ≠ "") (hq : ∀ j ∈ a.jobQueue, j.orderId ≠ "")
    (hbal : ∀ o, committedCount o a.history = a.waiting o + (if job.orderId = o then 1 else 0) +
      arrivedCount o a.history + cancelledCount o a.history) : (a.startJob job).Ledger := by
  obtain ⟨-, hcarry, hpend⟩ := hfree
  have hfields : (a.startJob job).jobQueue = a.jobQueue ∧
      (a.startJob job).pendingOrderId = job.orderId ∧
      ((a.startJob job).carryingOrderId = "" ∨
        (a.startJob job).carryingOrderId = job.orderId) ∧
      (a.startJob job).history = .started job :: a.history := by
    by_cases hfrom : job.fromStation = "start"
    · simp [startJob_start hfrom]
    · simp [startJob_pickup hfrom]
  obtain ⟨hjq, hp, hc, hh⟩ := hfields
  have hc' : (a.startJob job).carryingOrderId = "" ∨
      (a.startJob job).carryingOrderId = (a.startJob job).pendingOrderId := hp ▸ hc
  refine ⟨hc', hjq ▸ hq, fun o => ?_⟩
  have hprog : (a.startJob job).inProgress o = if job.orderId = o then 1 else 0 := by
    rw [inProgress_eq hc', hp]
    exact if_congr ⟨And.right, fun ho => ⟨ho ▸ hid, ho⟩⟩ rfl rfl
  rw [hprog, waiting, hjq, hh]
  exact hbal o

theorem inProgress_of_isFree {a : AMRSim} (h : a.IsFree) (o : String) : a.inProgress o = 0 := by
  obtain ⟨-, hcarry, hpend⟩ := h
  rw [inProgress_eq (Or.inl hcarry), hpend]
  exact if_neg fun ⟨ho, hp⟩ => ho hp.symm

theorem Ledger.takeJob {a : AMRSim} (h : a.Ledger) {job : TransportJob} (hid : job.orderId ≠ "") :
    (a.takeJob job).Ledger := by
  unfold AMRSim.takeJob
  dsimp only
  split
  · next hfree =>
    refine startJob_ledger hfree hid h.queue fun o => ?_
    have hbal := h.balance o
    rw [inProgress_of_isFree (a := a) hfree] at hbal
    show committedCount o a.history + _ = a.waiting o + _ + arrivedCount o a.history +
      cancelledCount o a.history
    omega
  · refine ⟨h.carry, fun j hj => ?_, fun o => ?_⟩
    · rcases List.mem_append.mp hj with hj | hj
      · exact h.queue j hj
      · exact List.mem_singleton.mp hj ▸ hid
    · have hbal := h.balance o
      have hwait : (a.jobQueue ++ [job]).countP (·.orderId = o)
          = a.waiting o + if job.orderId = o then 1 else 0 := by
        simp [waiting, List.countP_append, List.countP_singleton]
      simp only [waiting, inProgress, committedCount, arrivedCount, cancelledCount] at hbal hwait ⊢
      omega

/-- Removing the jobs of an order from the queue. -/
theorem countP_filter_ne (c o : String) (q : List TransportJob) :
    q.countP (·.orderId = o) = (q.filter (·.orderId ≠ c)).countP (·.orderId = o) +
      if c = o then q.length - (q.filter (·.orderId ≠ c)).length else 0 := by
  have hlen := List.length_filter_le (fun j : TransportJob => decide (j.orderId ≠ c)) q
  induction q with
  | nil => simp
  | cons j q ih =>
    have hlen' := List.length_filter_le (fun j : TransportJob => decide (j.orderId ≠ c)) q
    have ih := ih hlen'
    by_cases hj : j.orderId = c
    · have hdrop : (j :: q).filter (fun j => decide (j.orderId ≠ c))
          = q.filter (fun j => decide (j.orderId ≠ c)) := by simp [hj]
      rw [hdrop, List.countP_cons, ih, List.length_cons]
      by_cases hco : c = o
      · simp only [hj, hco, decide_true, if_true]
        subst hco
        omega
      · simp [hj, hco]
    · have hkeep : (j :: q).filter (fun j => decide (j.orderId ≠ c))
          = j :: q.filter (fun j => decide (j.orderId ≠ c)) := by simp [hj]
      rw [hkeep, List.countP_cons, List.countP_cons, ih, List.length_cons, List.length_cons]
      split <;> omega

theorem Ledger.cancelJob {a : AMRSim} (h : a.Ledger) {c : String} (hc : c ≠ "") :
    (a.cancelJob c).Ledger := by
  have hcond : (c = a.pendingOrderId ∨ c = a.carryingOrderId) ↔ a.pendingOrderId = c := by
    rcases h.carry with hca | hca <;> rw [hca]
    · exact ⟨fun hor => (hor.resolve_right hc).symm, fun hp => Or.inl hp.symm⟩
    · rw [or_self, eq_comm]
  have hqueue : ∀ j ∈ a.jobQueue.filter (·.orderId ≠ c), j.orderId ≠ "" := fun j hj =>
    h.queue j (List.mem_of_mem_filter hj)
  unfold AMRSim.cancelJob
  dsimp only
  split
  · next hmatch =>
    refine ⟨Or.inl rfl, hqueue, fun o => ?_⟩
    have hbal := h.balance o
    have hsplit := countP_filter_ne c o a.jobQueue
    rw [inProgress_eq h.carry, hcond.mp hmatch] at hbal
    rw [inProgress_eq (Or.inl rfl)]
    simp only [waiting, committedCount, arrivedCount, cancelledCount] at hbal ⊢
    by_cases hco : c = o
    · subst hco
      simp only [if_true, ne_eq, hc, not_false_eq_true, and_self, true_and, Ne.symm hc,
        if_false] at hbal hsplit ⊢
      omega
    · by_cases ho : o = ""
      · subst ho
        simp only [hco, ne_eq, not_true_eq_false, false_and, if_false] at hbal hsplit ⊢
        omega
      · simp only [hco, Ne.symm ho, and_false, if_false] at hbal hsplit ⊢
        omega
  · next hmatch =>
    refine ⟨h.carry, hqueue, fun o => ?_⟩
    have hbal := h.balance o
    have hsplit := countP_filter_ne c o a.jobQueue
    simp only [waiting, inProgress, committedCount, arrivedCount, cancelledCount] at hbal ⊢
    split at hsplit <;> simp only [*, if_true, if_false] <;> omega

/-- The end of a leg delivers, loads, or leaves the job alone. -/
theorem Ledger.finishLeg {a : AMRSim} (h : a.Ledger) : a.finishLeg.Ledger := by
  unfold AMRSim.finishLeg
  split
  · next hdrop =>
    refine ⟨Or.inl rfl, h.queue, fun o => ?_⟩
    have hbal := h.balance o
    have hpend := h.carry.resolve_left hdrop.1
    rw [inProgress_eq h.carry, ← hpend] at hbal
    rw [inProgress_eq (Or.inl rfl)]
    simp only [waiting, committedCount, arrivedCount, cancelledCount] at hbal ⊢
    rw [hbal]
    by_cases ho : a.carryingOrderId = o
    · have hne : o ≠ "" := ho ▸ hdrop.1
      simp only [ho, hne, ne_eq, not_false_eq_true, and_self, true_and, Ne.symm hne, if_true,
        if_false]
      omega
    · simp only [ho, and_false, if_false]
      by_cases hne : o = ""
      · simp [hne]
      · simp [hne, Ne.symm hne]
  · split
    · next hpick =>
      have hcarry : a.pendingOrderId = "" ∨ a.pendingOrderId = a.pendingOrderId := Or.inr rfl
      refine ⟨hcarry, h.queue, fun o => ?_⟩
      have hbal := h.balance o
      rw [inProgress_eq h.carry] at hbal
      rw [inProgress_eq hcarry]
      exact hbal
    · exact h.of_eq rfl (Or.inl rfl) rfl (Or.inl rfl)

theorem Ledger.startQueued {a : AMRSim} (h : a.Ledger) : a.startQueued.Ledger := by
  unfold AMRSim.startQueued
  split
  · next hcond =>
    split
    · exact h
    · next job rest hq =>
      refine startJob_ledger (a := { a with jobQueue := rest }) hcond.2
        (h.queue job (hq ▸ List.mem_cons_self))
        (fun j hj => h.queue j (hq ▸ List.mem_cons_of_mem _ hj)) fun o => ?_
      have hbal := h.balance o
      have hwait : a.waiting o
          = rest.countP (·.orderId = o) + if job.orderId = o then 1 else 0 := by
        simp [waiting, hq, List.countP_cons]
      rw [inProgress_of_isFree hcond.2, hwait] at hbal
      exact hbal
  · exact h

/-- Popping a destination touches the job at most by giving up the load. -/
theorem planned_job (a : AMRSim) :
    a.planned.2.pendingOrderId = a.pendingOrderId ∧
      (a.planned.2.carryingOrderId = a.carryingOrderId ∨ a.planned.2.carryingOrderId = "") ∧
      a.planned.2.jobQueue = a.jobQueue ∧ a.planned.2.history = a.history := by
  unfold planned legTarget popDest
  (repeat' split) <;> simp

theorem Ledger.planLeg {a : AMRSim} (h : a.Ledger) (r : Reservations) :
    (AMRSim.planLeg pq g r a).2.Ledger := by
  obtain ⟨hp, hc, hq, hh⟩ := planned_job a
  rcases planLeg_cases pq g r a with ⟨path, -, -, -, -, heq⟩ | ⟨-, heq⟩ <;> rw [heq]
  · exact h.of_eq hp hc hq (Or.inl hh)
  · rw [denyLeg_eq]
    refine h.of_eq hp hc hq ?_
    dsimp only
    split
    · exact Or.inr ⟨_, congrArg _ hh⟩
    · exact Or.inl hh

theorem Ledger.advance {a : AMRSim} (h : a.Ledger) (dt : ℚ) : (a.advance dt).Ledger := by
  unfold AMRSim.advance
  split
  · exact h
  · dsimp only
    split <;> exact h.of_eq rfl (Or.inl rfl) rfl (Or.inl rfl)

theorem Ledger.stepAMR {a : AMRSim} (h : a.Ledger) (mtbf : Option ℚ) (draw : ℚ × ℚ) (dt : ℚ)
    (r : Reservations) : (a.stepAMR pq g mtbf draw dt r).2.Ledger := by
  rcases stepAMR_cases pq g mtbf draw dt r a with
    heq | heq | heq | ⟨-, -, -, heq⟩ | ⟨-, -, -, heq⟩ <;> rw [heq]
  · unfold repair
    split <;> exact h.of_eq rfl (Or.inl rfl) rfl (Or.inl rfl)
  · exact h.of_eq rfl (Or.inl rfl) rfl (Or.inl rfl)
  · exact h.of_eq rfl (Or.inl rfl) rfl (Or.inl rfl)
  · exact h.finishLeg.startQueued.planLeg r
  · exact h.advance dt

/-! ## Commits -/

theorem committedCount_startJob (o : String) (job : TransportJob) (a : AMRSim) :
    committedCount o (a.startJob job).history = committedCount o a.history := by
  by_cases h : job.fromStation = "start"
  · rw [startJob_start h]
    rfl
  · rw [startJob_pickup h]
    rfl

theorem committedCount_stepAMR (o : String) (mtbf : Option ℚ) (draw : ℚ × ℚ) (dt : ℚ)
    (r : Reservations) (a : AMRSim) :
    committedCount o (a.stepAMR pq g mtbf draw dt r).2.history = committedCount o a.history := by
  rcases stepAMR_cases pq g mtbf draw dt r a with
    heq | heq | heq | ⟨-, -, -, heq⟩ | ⟨-, -, -, heq⟩ <;> rw [heq]
  · unfold repair
    split <;> rfl
  · rfl
  · have hfin : committedCount o a.finishLeg.history = committedCount o a.history := by
      unfold finishLeg
      (repeat' split) <;> rfl
    have hstart : committedCount o a.finishLeg.startQueued.history
        = committedCount o a.finishLeg.history := by
      unfold startQueued
      split
      · split
        · rfl
        · exact committedCount_startJob _ _ _
      · rfl
    have hpl := (planned_job a.finishLeg.startQueued).2.2.2
    rw [← hfin, ← hstart, ← hpl]
    rcases planLeg_cases pq g r a.finishLeg.startQueued with
      ⟨path, -, -, -, -, hp⟩ | ⟨-, hp⟩ <;> rw [hp]
    · rfl
    · rw [denyLeg_eq]
      dsimp only
      split <;> rfl
  · unfold advance
    split
    · rfl
    · dsimp only
      split <;> rfl

variable (pq g) in
theorem committedCount_apply (o : String) (m : AMRMove) (a : AMRSim) :
    committedCount o (m.apply pq g a).history
      = committedCount o a.history + m.commits o := by
  cases m with
  | stay => rfl
  | take job =>
    show committedCount o (a.takeJob job).history = _
    unfold takeJob
    dsimp only
    split
    · rw [committedCount_startJob]
      rfl
    · rfl
  | cancel orderId =>
    show committedCount o (a.cancelJob orderId).history = _
    unfold cancelJob
    dsimp only
    split <;> rfl
  | breakDown d => rfl
  | step mtbf draw dt r => exact committedCount_stepAMR o mtbf draw dt r a

end AMRSim

/-! ## The fleet -/

namespace AMRArtifact

variable {pq : PriorityQueue STNode STNode.Le}

/-- A quantity summed over the fleet. -/
def total (f : AMRSim → ℕ) (s : AMRArtifact) : ℕ := (s.fleet.map f).sum

/-- The jobs an operation commits for the order: one, if there is an AMR to take
it. -/
def commits (o : String) (s : AMRArtifact) : AMROp → ℕ
  | .requestTransport amrId job =>
    if job.orderId = o ∧ amrId ∈ s.fleet.map (·.amrId) then 1 else 0
  | .reserveTransport job => if job.orderId = o ∧ s.fleet ≠ [] then 1 else 0
  | _ => 0

/-- The jobs a run commits for the order. -/
def jobsCommitted (pq : PriorityQueue STNode STNode.Le) (o : String) :
    AMRArtifact → List AMROp → ℕ
  | _, [] => 0
  | s, op :: ops => s.commits o op + jobsCommitted pq o (exec pq op s) ops

/-- Changing one entry of a list with distinct names. -/
theorem sum_map_of_name {f : AMRSim → AMRSim} {count : AMRSim → ℕ} {k : ℕ} {amrId : String}
    (hf : ∀ a, count (f a) = count a + k) {fleet : List AMRSim}
    (hnd : (fleet.map (·.amrId)).Nodup) :
    ((fleet.map fun a => if a.amrId = amrId then f a else a).map count).sum
      = (fleet.map count).sum + if amrId ∈ fleet.map (·.amrId) then k else 0 := by
  induction fleet with
  | nil => simp
  | cons a fleet ih =>
    obtain ⟨hnotin, hnd⟩ := List.nodup_cons.mp hnd
    rw [List.map_cons, List.map_cons, List.sum_cons, ih hnd, List.map_cons, List.sum_cons,
      List.map_cons]
    by_cases ha : a.amrId = amrId
    · subst ha
      rw [if_pos rfl, hf, if_neg hnotin, if_pos List.mem_cons_self]
      omega
    · have hmem : (amrId ∈ a.amrId :: fleet.map (·.amrId)) ↔ amrId ∈ fleet.map (·.amrId) := by
        simp [Ne.symm ha]
      rw [if_neg ha, if_congr hmem rfl rfl]
      omega

theorem sum_map_modify {f : AMRSim → AMRSim} {count : AMRSim → ℕ} {k : ℕ}
    (hf : ∀ a, count (f a) = count a + k) (fleet : List AMRSim) (i : ℕ)
    (hi : i < fleet.length) :
    ((fleet.modify i f).map count).sum = (fleet.map count).sum + k := by
  induction fleet generalizing i with
  | nil => exact absurd hi (Nat.not_lt_zero i)
  | cons a fleet ih =>
    cases i with
    | zero =>
      simp [hf]
      omega
    | succ i =>
      have := ih i (Nat.lt_of_succ_lt_succ hi)
      simp only [List.modify_succ_cons, List.map_cons, List.sum_cons, this]
      omega

/-- A quantity that an operation leaves alone at every AMR keeps its total. -/
theorem total_eq_of_forall {count : AMRSim → ℕ} {op : AMROp} (hop : op.IsTransport)
    (hcount : ∀ m a, op.Allows a.amrId m → ∀ g, count (m.apply pq g a) = count a)
    (s : AMRArtifact) : (exec pq op s).total count = s.total count := by
  refine congrArg List.sum (List.ext_getElem? fun i => ?_)
  rw [List.getElem?_map, List.getElem?_map]
  rcases hi : s.fleet[i]? with _ | a
  · have hlen : (exec pq op s).fleet.length ≤ i := by
      rw [length_exec]
      exact List.getElem?_eq_none_iff.mp hi
    rw [List.getElem?_eq_none_iff.mpr hlen]
  · obtain ⟨m, hm, hget⟩ := exec_fleet pq hop hi
    rw [hget, Option.map_some, Option.map_some, hcount m a hm]

/-- One operation adds the jobs it commits to the commits of the fleet. -/
theorem total_committed_exec (o : String) {op : AMROp} (hop : op.IsTransport) {s : AMRArtifact}
    (hnd : (s.fleet.map (·.amrId)).Nodup) :
    (exec pq op s).total (fun a => committedCount o a.history)
      = s.total (fun a => committedCount o a.history) + s.commits o op := by
  have htake : ∀ (job : TransportJob) (a : AMRSim),
      committedCount o (a.takeJob job).history
        = committedCount o a.history + if job.orderId = o then 1 else 0 := fun job a =>
    AMRSim.committedCount_apply pq s.grid o (.take job) a
  cases op with
  | requestTransport amrId job =>
    refine (sum_map_of_name (htake job) hnd).trans ?_
    by_cases hjob : job.orderId = o <;> simp [total, commits, hjob]
  | reserveTransport job =>
    show (reserveTransport job s).total _ = _
    unfold reserveTransport
    rcases hc : s.chosenAMR with _ | ⟨i, l⟩
    · simp [commits, chosenAMR_eq_none_iff.mp hc]
    · have hi := chosenAMR_lt hc
      have hne : s.fleet ≠ [] := fun h => by simp [h] at hi
      refine (sum_map_modify (htake job) s.fleet i hi).trans ?_
      simp [total, commits, hne]
  | _ =>
    refine (total_eq_of_forall hop (fun m a hm g => ?_) s).trans rfl
    rw [AMRSim.committedCount_apply]
    cases m <;> first
      | rfl
      | (simp [AMROp.Allows] at hm)

theorem ledger_apply {op : AMROp} (hop : op.NamesOrder) {a : AMRSim} (h : a.Ledger)
    {m : AMRMove} (hm : op.Allows a.amrId m) (g : Grid) : (m.apply pq g a).Ledger := by
  cases m with
  | stay => exact h
  | take job =>
    refine h.takeJob ?_
    cases op <;> simp [AMROp.Allows] at hm
    · exact hm.2 ▸ hop
    · exact hm ▸ hop
  | cancel orderId =>
    refine h.cancelJob ?_
    cases op <;> simp [AMROp.Allows] at hm
    exact hm.2 ▸ hop
  | breakDown d => exact h.of_eq rfl (Or.inl rfl) rfl (Or.inl rfl)
  | step mtbf draw dt r => exact h.stepAMR mtbf draw dt r

theorem ledger_init (cols rows count : ℕ) (mtbf : Option ℚ) :
    ∀ a ∈ (init cols rows count mtbf).fleet, a.Ledger := by
  intro a ha
  obtain ⟨i, -, rfl⟩ := List.mem_map.mp ha
  refine ⟨Or.inl rfl, by simp [initAMR], fun o => ?_⟩
  have hfree : (initAMR ⟨cols, rows⟩ i).IsFree := ⟨le_refl _, rfl, rfl⟩
  rw [AMRSim.inProgress_of_isFree hfree]
  rfl

variable (pq) in
/-- The commits of a run are what the AMRs' histories record. -/
theorem total_committed_run (o : String) {ops : List AMROp} (hops : ∀ op ∈ ops, op.IsTransport)
    {s : AMRArtifact} (hnd : (s.fleet.map (·.amrId)).Nodup) :
    (Runs.run (exec pq) ops s).total (fun a => committedCount o a.history)
      = s.total (fun a => committedCount o a.history) + jobsCommitted pq o s ops := by
  induction ops generalizing s with
  | nil => rfl
  | cons op ops ih =>
    have hop := hops op List.mem_cons_self
    rw [Runs.run_cons, ih (fun op' h => hops op' (List.mem_cons_of_mem _ h))
      ((exec_names pq hop s).symm ▸ hnd), total_committed_exec o hop hnd, jobsCommitted]
    omega

/-- **Jobs are conserved.**  In every reachable state the jobs committed for an order
are those that wait, are in progress, were delivered or were cancelled; and every AMR
accounts for the jobs that were committed to it. -/
theorem jobs_conserved (pq : PriorityQueue STNode STNode.Le) (cols rows count : ℕ)
    (mtbf : Option ℚ) {ops : List AMROp}
    (hops : ∀ op ∈ ops, op.WellFormed ∧ op.NamesOrder) (o : String) :
    let s := Runs.run (exec pq) ops (init cols rows count mtbf)
    jobsCommitted pq o (init cols rows count mtbf) ops
        = s.total (·.waiting o) + s.total (·.inProgress o)
          + s.total (fun a => arrivedCount o a.history)
          + s.total (fun a => cancelledCount o a.history) ∧
      ∀ a ∈ s.fleet, committedCount o a.history
        = a.waiting o + a.inProgress o + arrivedCount o a.history
          + cancelledCount o a.history := by
  intro s
  have htrans : ∀ op ∈ ops, op.IsTransport := fun op h => (hops op h).1.isTransport
  have hledger : ∀ a ∈ s.fleet, a.Ledger := by
    refine run_fleet_invariant (C := fun op _ _ => op.NamesOrder)
      (fun op a m hm hn hl => ledger_apply hn hl hm _) htrans rfl ?_
      (ledger_init cols rows count mtbf)
    exact Runs.along_of_forall fun s op hop a _ m _ => (hops op hop).2
  refine ⟨?_, fun a ha => (hledger a ha).balance o⟩
  have hrun := total_committed_run pq o htrans (nodup_init cols rows count mtbf)
  have hzero : (init cols rows count mtbf).total (fun a => committedCount o a.history) = 0 := by
    simp [total, init, initAMR, committedCount, Function.comp_def]
  rw [hzero, Nat.zero_add] at hrun
  rw [← hrun]
  show (s.fleet.map _).sum = (s.fleet.map _).sum + (s.fleet.map _).sum + (s.fleet.map _).sum
    + (s.fleet.map _).sum
  rw [← List.sum_map_add, ← List.sum_map_add, ← List.sum_map_add]
  exact congrArg List.sum (List.map_congr_left fun a ha => (hledger a ha).balance o)

/-- Two AMRs, two orders, one cancellation. -/
theorem jobs_conserved_two :
    let ops : List AMROp :=
      [.reserveTransport ⟨"start", "station_1", "ORD-1"⟩,
        .reserveTransport ⟨"start", "station_1", "ORD-2"⟩, .cancelTransport "AMR-2" "ORD-2",
        .updatePositions 1 1 fun _ => (0, 0)]
    let s := Runs.run (exec (.scan _)) ops (init 3 3 2 none)
    jobsCommitted (.scan _) "ORD-2" (init 3 3 2 none) ops
        = s.total (·.waiting "ORD-2") + s.total (·.inProgress "ORD-2")
          + s.total (fun a => arrivedCount "ORD-2" a.history)
          + s.total (fun a => cancelledCount "ORD-2" a.history) ∧
      ∀ a ∈ s.fleet, committedCount "ORD-2" a.history
        = a.waiting "ORD-2" + a.inProgress "ORD-2" + arrivedCount "ORD-2" a.history
          + cancelledCount "ORD-2" a.history :=
  jobs_conserved _ 3 3 2 none (by decide) "ORD-2"

end AMRArtifact

end MatrixFactory
