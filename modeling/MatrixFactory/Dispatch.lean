/-
# Dispatch: the choice of an AMR and the order of its jobs

`reserveTransport` commits a job to the first AMR of least load.  The load counts an
AMR that is not free as having one job more than its queue, and an AMR under repair
is not free: `dispatchesWell_iff` says in which states the choice and the reported
load are nevertheless those of an operational AMR with the fewest unfinished jobs.

A free AMR starts a committed job at once, also when older jobs wait in its queue.
`waitingJobs` replays the history of an AMR against a first-in first-out queue;
`startsInOrder_run` keeps the two in step along every run in which no commit finds
its AMR free with jobs waiting.
-/
import MatrixFactory.FleetRuns

namespace MatrixFactory

/-! ## The first element of least weight -/

/-- `i` is the first position of the list where `f` is least. -/
def FirstLeast {α : Type*} (f : α → ℕ) (l : List α) (i : ℕ) : Prop :=
  ∃ a, l[i]? = some a ∧ ∀ (j : ℕ) (b : α), l[j]? = some b → f a ≤ f b ∧ (j < i → f a < f b)

theorem FirstLeast.unique {α : Type*} {f : α → ℕ} {l : List α} {i i' : ℕ}
    (h : FirstLeast f l i) (h' : FirstLeast f l i') : i = i' := by
  obtain ⟨a, ha, hmin⟩ := h
  obtain ⟨a', ha', hmin'⟩ := h'
  obtain ⟨hle, hlt⟩ := hmin i' a' ha'
  obtain ⟨hle', hlt'⟩ := hmin' i a ha
  by_contra hne
  rcases Nat.lt_or_gt_of_ne hne with h | h
  · have := hlt' h
    omega
  · have := hlt h
    omega

/-- One more element: it is the new first least one, or the old one stays. -/
theorem FirstLeast.concat {α : Type*} {f : α → ℕ} {l : List α} {i : ℕ} {a : α}
    (h : FirstLeast f l i) (ha : l[i]? = some a) (b : α) :
    FirstLeast f (l ++ [b]) (if f b < f a then l.length else i) := by
  obtain ⟨a', ha', hmin⟩ := h
  obtain rfl : a = a' := Option.some.inj (ha.symm.trans ha')
  have hi : i < l.length := (List.getElem?_eq_some_iff.mp ha).1
  have hget : ∀ (j : ℕ) (c : α), (l ++ [b])[j]? = some c →
      l[j]? = some c ∧ j < l.length ∨ j = l.length ∧ c = b := by
    intro j c hc
    by_cases hj : j < l.length
    · rw [List.getElem?_append_left hj] at hc
      exact Or.inl ⟨hc, hj⟩
    · have hlen := (List.getElem?_eq_some_iff.mp hc).1
      rw [List.length_append, List.length_singleton] at hlen
      obtain rfl : j = l.length := by omega
      rw [List.getElem?_concat_length] at hc
      exact Or.inr ⟨rfl, (Option.some.inj hc).symm⟩
  split
  · next hlt =>
    refine ⟨b, List.getElem?_concat_length, ?_⟩
    intro j c hc
    rcases hget j c hc with ⟨hc, hj⟩ | ⟨rfl, rfl⟩
    · have := (hmin j c hc).1
      exact ⟨by omega, fun _ => by omega⟩
    · exact ⟨le_rfl, fun h => absurd h (lt_irrefl _)⟩
  · next hlt =>
    refine ⟨a, by rw [List.getElem?_append_left hi, ha], ?_⟩
    intro j c hc
    rcases hget j c hc with ⟨hc, hj⟩ | ⟨rfl, rfl⟩
    · exact hmin j c hc
    · exact ⟨by omega, fun h => by omega⟩

namespace AMRArtifact

/-! ## The chosen AMR -/

theorem leastLoaded_spec {fleet pre : List AMRSim} {b l : ℕ} {best : Option (ℕ × ℕ)}
    (hnone : best = none → pre = [])
    (hbest : ∀ i m, best = some (i, m) →
      FirstLeast AMRSim.load pre i ∧ pre[i]?.map AMRSim.load = some m)
    (h : leastLoaded pre.length best fleet = some (b, l)) :
    FirstLeast AMRSim.load (pre ++ fleet) b ∧ (pre ++ fleet)[b]?.map AMRSim.load = some l := by
  induction fleet generalizing pre best with
  | nil =>
    rw [List.append_nil]
    rcases best with _ | ⟨i, m⟩
    · simp [leastLoaded] at h
    · obtain ⟨rfl, rfl⟩ : i = b ∧ m = l := by simpa [leastLoaded] using h
      exact hbest _ _ rfl
  | cons a fleet ih =>
    have hlen : (pre ++ [a]).length = pre.length + 1 := by simp
    rw [show pre ++ a :: fleet = (pre ++ [a]) ++ fleet by simp]
    rcases best with _ | ⟨i, m⟩
    · obtain rfl : pre = [] := hnone rfl
      have hnext : leastLoaded ([] ++ [a]).length (some (0, a.load)) fleet = some (b, l) := h
      refine ih (by simp) ?_ hnext
      intro i m him
      obtain ⟨rfl, rfl⟩ : 0 = i ∧ a.load = m := by simpa using him
      refine ⟨⟨a, rfl, fun j b hb => ?_⟩, rfl⟩
      rcases j with _ | j
      · obtain rfl : a = b := by simpa using hb
        exact ⟨le_rfl, fun hlt => absurd hlt (lt_irrefl _)⟩
      · simp at hb
    · obtain ⟨hfirst, hm⟩ := hbest i m rfl
      obtain ⟨a₀, ha₀, rfl⟩ := Option.map_eq_some_iff.mp hm
      rw [leastLoaded, ← hlen] at h
      have hi : i < pre.length := (List.getElem?_eq_some_iff.mp ha₀).1
      refine ih (by split <;> simp) ?_ h
      intro i' m' him
      have hnext := hfirst.concat ha₀ a
      split at him
      · next hlt =>
        obtain ⟨rfl, rfl⟩ : pre.length = i' ∧ a.load = m' := by simpa using him
        rw [if_pos hlt] at hnext
        exact ⟨hnext, by simp⟩
      · next hlt =>
        obtain ⟨rfl, rfl⟩ : i = i' ∧ a₀.load = m' := by simpa using him
        rw [if_neg hlt] at hnext
        exact ⟨hnext, by rw [List.getElem?_append_left hi, ha₀]; rfl⟩

/-- **`reserveTransport` chooses the first AMR of least load.** -/
theorem chosenAMR_spec {s : AMRArtifact} {i l : ℕ} (h : s.chosenAMR = some (i, l)) :
    FirstLeast AMRSim.load s.fleet i ∧ s.fleet[i]?.map AMRSim.load = some l :=
  leastLoaded_spec (fun _ => rfl) (by simp)
    (show leastLoaded ([] : List AMRSim).length none s.fleet = some (i, l) from h)

end AMRArtifact

/-! ## Unfinished jobs -/

namespace AMRSim

/-- The AMR is not under repair. -/
def Operational (a : AMRSim) : Prop := a.downtimeRemainingS ≤ 0

instance (a : AMRSim) : Decidable a.Operational := by unfold Operational; infer_instance

/-- The AMR is committed to a job or carries one. -/
def HasJob (a : AMRSim) : Prop := ¬ (a.carryingOrderId = "" ∧ a.pendingOrderId = "")

instance (a : AMRSim) : Decidable a.HasJob := by unfold HasJob; infer_instance

/-- The jobs in progress and queued. -/
def unfinished (a : AMRSim) : ℕ := a.jobQueue.length + if a.HasJob then 1 else 0

theorem isFree_iff {a : AMRSim} : a.IsFree ↔ a.Operational ∧ ¬ a.HasJob := by
  unfold IsFree Operational HasJob
  rw [not_not]

theorem load_of_operational {a : AMRSim} (h : a.Operational) : a.load = a.unfinished := by
  unfold load unfinished
  by_cases hjob : a.HasJob
  · rw [if_pos hjob, if_neg (fun hfree => (isFree_iff.mp hfree).2 hjob)]
  · rw [if_neg hjob, if_pos (isFree_iff.mpr ⟨h, hjob⟩)]

/-- A broken AMR counts as having a job in progress. -/
theorem load_of_broken {a : AMRSim} (h : ¬ a.Operational) : a.load = a.jobQueue.length + 1 := by
  unfold load
  rw [if_neg (fun hfree => h (isFree_iff.mp hfree).1)]

theorem load_eq_unfinished_iff {a : AMRSim} :
    a.load = a.unfinished ↔ a.Operational ∨ a.HasJob := by
  by_cases h : a.Operational
  · simp [load_of_operational h, h]
  · rw [load_of_broken h, unfinished]
    by_cases hjob : a.HasJob <;> simp [h, hjob]

end AMRSim

namespace AMRArtifact

/-! ## What the dispatch promises -/

/-- `reserveTransport` commits the job to an operational AMR when there is one, to one
with the fewest unfinished jobs among these, and reports that number. -/
def DispatchesWell (s : AMRArtifact) (job : TransportJob) : Prop :=
  ∀ i l, s.chosenAMR = some (i, l) → ∃ a, s.fleet[i]? = some a ∧
    (s.reserveTransport job).fleet = s.fleet.modify i (·.takeJob job) ∧
    s.reserveTransportResult = (a.amrId, (a.unfinished : ℤ)) ∧
    ((∃ b ∈ s.fleet, b.Operational) → a.Operational) ∧
    (a.Operational → ∀ b ∈ s.fleet, b.Operational → a.unfinished ≤ b.unfinished)

/-- Some operational AMR has fewer unfinished jobs than every broken AMR counts, or
equally many and stands before it. -/
def OperationalFirst (s : AMRArtifact) : Prop :=
  ∃ i a, s.fleet[i]? = some a ∧ a.Operational ∧
    ∀ (j : ℕ) (b : AMRSim), s.fleet[j]? = some b → ¬ b.Operational →
      a.unfinished < b.jobQueue.length + 1 ∨
        a.unfinished = b.jobQueue.length + 1 ∧ i < j

/-- Every AMR is broken, and the first one with the shortest queue has a job in
progress. -/
def AllBrokenBusy (s : AMRArtifact) : Prop :=
  (∀ a ∈ s.fleet, ¬ a.Operational) ∧
    ∃ i a, s.fleet[i]? = some a ∧ a.HasJob ∧ FirstLeast (·.jobQueue.length) s.fleet i

theorem operational_chosen_iff {s : AMRArtifact} {i l : ℕ} {a : AMRSim}
    (hc : s.chosenAMR = some (i, l)) (ha : s.fleet[i]? = some a) :
    a.Operational ↔ s.OperationalFirst := by
  obtain ⟨⟨a', ha', hmin⟩, -⟩ := chosenAMR_spec hc
  obtain rfl : a = a' := Option.some.inj (ha.symm.trans ha')
  constructor
  · intro hop
    refine ⟨i, a, ha, hop, fun j b hb hbroken => ?_⟩
    obtain ⟨hle, hlt⟩ := hmin j b hb
    rw [a.load_of_operational hop, b.load_of_broken hbroken] at hle hlt
    by_cases hji : j < i
    · exact Or.inl (hlt hji)
    · have hne : i ≠ j := by
        rintro rfl
        obtain rfl : a = b := Option.some.inj (ha.symm.trans hb)
        exact hbroken hop
      omega
  · rintro ⟨k, b, hb, hop, hbefore⟩
    by_contra hbroken
    obtain ⟨hle, hlt⟩ := hmin k b hb
    have hcount := hbefore i a ha hbroken
    rw [b.load_of_operational hop, a.load_of_broken hbroken] at hle hlt
    rcases hcount with h | ⟨h, hki⟩
    · omega
    · have := hlt hki
      omega

theorem dispatchesWell_of_chosen {s : AMRArtifact} {job : TransportJob} {i l : ℕ} {a : AMRSim}
    (hc : s.chosenAMR = some (i, l)) (ha : s.fleet[i]? = some a) :
    s.DispatchesWell job ↔
      a.load = a.unfinished ∧ ((∃ b ∈ s.fleet, b.Operational) → a.Operational) := by
  obtain ⟨⟨a', ha', hmin⟩, hload⟩ := chosenAMR_spec hc
  obtain rfl : a = a' := Option.some.inj (ha.symm.trans ha')
  obtain rfl : a.load = l := by simpa [ha] using hload
  have hresult : s.reserveTransportResult = (a.amrId, (a.load : ℤ)) := by
    simp [reserveTransportResult, hc, ha]
  have hfleet : (s.reserveTransport job).fleet = s.fleet.modify i (·.takeJob job) := by
    simp [reserveTransport, hc]
  constructor
  · intro h
    obtain ⟨b, hb, -, hrep, hop, -⟩ := h i a.load hc
    obtain rfl : a = b := Option.some.inj (ha.symm.trans hb)
    rw [hresult, Prod.mk.injEq, Int.natCast_inj] at hrep
    exact ⟨hrep.2, hop⟩
  · rintro ⟨hrep, hop⟩ i' l' hc'
    obtain ⟨rfl, rfl⟩ : i = i' ∧ a.load = l' := by simpa [hc] using hc'
    refine ⟨a, ha, hfleet, by rw [hresult, hrep], hop, ?_⟩
    intro haop b hb hbop
    obtain ⟨j, hj⟩ := List.mem_iff_getElem?.mp hb
    have := (hmin j b hj).1
    rwa [a.load_of_operational haop, b.load_of_operational hbop] at this

/-- **The dispatch is right exactly when an operational AMR comes before every broken
one, or all are broken and the one chosen has a job in progress.** -/
theorem dispatchesWell_iff (s : AMRArtifact) (job : TransportJob) :
    s.DispatchesWell job ↔ s.fleet = [] ∨ s.OperationalFirst ∨ s.AllBrokenBusy := by
  rcases hc : s.chosenAMR with _ | ⟨i, l⟩
  · have hempty := chosenAMR_eq_none_iff.mp hc
    refine ⟨fun _ => Or.inl hempty, fun _ i l h => ?_⟩
    rw [hc] at h
    cases h
  have hne : s.fleet ≠ [] := by
    intro hnil
    rw [chosenAMR_eq_none_iff.mpr hnil] at hc
    cases hc
  obtain ⟨hfirst, hload⟩ := chosenAMR_spec hc
  obtain ⟨a, ha, -⟩ := Option.map_eq_some_iff.mp hload
  rw [dispatchesWell_of_chosen hc ha, AMRSim.load_eq_unfinished_iff,
    operational_chosen_iff hc ha, or_iff_right hne]
  by_cases hany : ∃ b ∈ s.fleet, b.Operational
  · have hnot : ¬ s.AllBrokenBusy := by
      rintro ⟨hall, -⟩
      obtain ⟨b, hb, hop⟩ := hany
      exact hall b hb hop
    constructor
    · rintro ⟨-, hop⟩
      exact Or.inl (hop hany)
    · rintro (hop | hbusy)
      · exact ⟨Or.inl hop, fun _ => hop⟩
      · exact absurd hbusy hnot
  · have hall : ∀ b ∈ s.fleet, ¬ b.Operational := fun b hb hop => hany ⟨b, hb, hop⟩
    have hfirst' : FirstLeast (·.jobQueue.length) s.fleet i := by
      obtain ⟨a', ha', hmin⟩ := hfirst
      refine ⟨a', ha', fun j b hb => ?_⟩
      have h := hmin j b hb
      rw [a'.load_of_broken (hall _ (List.mem_of_getElem? ha')),
        b.load_of_broken (hall _ (List.mem_of_getElem? hb))] at h
      exact ⟨Nat.le_of_succ_le_succ h.1, fun hj => Nat.lt_of_succ_lt_succ (h.2 hj)⟩
    have hbusy : a.HasJob ↔ s.AllBrokenBusy := by
      constructor
      · intro hjob
        exact ⟨hall, i, a, ha, hjob, hfirst'⟩
      · rintro ⟨-, k, b, hb, hjob, hk⟩
        obtain rfl := hfirst'.unique hk
        obtain rfl : a = b := Option.some.inj (ha.symm.trans hb)
        exact hjob
    rw [hbusy]
    exact and_iff_left fun h => absurd h hany

/-- With AMR-1 broken and AMR-2 on a job. -/
def brokenBesideBusy : List AMROp :=
  [.requestTransport "AMR-2" ⟨"start", "station_1", "ORD-1"⟩, .triggerBreakdown "AMR-1" 30]

/-- The next job is committed to the broken AMR-1. -/
theorem not_dispatchesWell :
    ¬ ∀ (pq : PriorityQueue STNode STNode.Le) (cols rows count : ℕ) (mtbf : Option ℚ)
      (ops : List AMROp) (job : TransportJob),
      (Runs.run (exec pq) ops (init cols rows count mtbf)).DispatchesWell job := by
  intro h
  have hwell := h (.scan _) 20 12 2 none brokenBesideBusy ⟨"start", "station_2", "ORD-2"⟩
  obtain ⟨a, ha, -, -, hop, -⟩ := hwell 0 1 (by decide)
  have hbroken : ∀ b, (Runs.run (exec (.scan _)) brokenBesideBusy
      (init 20 12 2 none)).fleet[0]? = some b → ¬ b.Operational := by decide
  have hother : ∃ b ∈ (Runs.run (exec (.scan _)) brokenBesideBusy (init 20 12 2 none)).fleet,
      b.Operational := by decide
  exact hbroken a ha (hop hother)

end AMRArtifact

/-! ## The order of the jobs of one AMR -/

/-- The jobs that wait after the events, oldest first: commits join at the end,
cancelled orders leave, and a start takes the oldest.  `none` when a job was started
out of turn. -/
def waitingJobs : List AMREvent → Option (List TransportJob)
  | [] => some []
  | .committed job :: h => (waitingJobs h).map (· ++ [job])
  | .started job :: h =>
    match waitingJobs h with
    | some (next :: rest) => if next = job then some rest else none
    | _ => none
  | .cancelled orderId _ :: h => (waitingJobs h).map (·.filter (·.orderId ≠ orderId))
  | .arrived _ _ :: h => waitingJobs h
  | .transportBlocked _ :: h => waitingJobs h

/-- Every start took the oldest job that was neither started nor cancelled. -/
def StartsInOrder (h : List AMREvent) : Prop := (waitingJobs h).isSome

instance (h : List AMREvent) : Decidable (StartsInOrder h) := by
  unfold StartsInOrder; infer_instance

/-- The jobs committed, oldest first. -/
def committedJobs : List AMREvent → List TransportJob
  | [] => []
  | .committed job :: h => committedJobs h ++ [job]
  | _ :: h => committedJobs h

/-- The jobs started, oldest first. -/
def startedJobs : List AMREvent → List TransportJob
  | [] => []
  | .started job :: h => startedJobs h ++ [job]
  | _ :: h => startedJobs h

/-- In order, the jobs started and the jobs waiting are committed one after the
other. -/
theorem sublist_committedJobs {h : List AMREvent} {w : List TransportJob}
    (hw : waitingJobs h = some w) : (startedJobs h ++ w).Sublist (committedJobs h) := by
  induction h generalizing w with
  | nil =>
    obtain rfl : [] = w := by simpa [waitingJobs] using hw
    exact List.Sublist.refl _
  | cons e h ih =>
    rcases e with job | job | ⟨o, c⟩ | o | ⟨o, n⟩
    · obtain ⟨w', hw', rfl⟩ := Option.map_eq_some_iff.mp hw
      rw [startedJobs, committedJobs, ← List.append_assoc]
      · exact (ih hw').append (List.Sublist.refl _)
      · exact nofun
    · rw [waitingJobs] at hw
      split at hw
      · next next rest hrest =>
        split at hw
        · next heq =>
          obtain rfl : rest = w := Option.some.inj hw
          subst heq
          rw [startedJobs, committedJobs, List.append_assoc]
          · exact ih hrest
          · exact nofun
        · cases hw
      · cases hw
    · exact ih hw
    · exact ih hw
    · obtain ⟨w', hw', rfl⟩ := Option.map_eq_some_iff.mp hw
      exact (List.Sublist.append (List.Sublist.refl _) List.filter_sublist).trans (ih hw')

namespace AMRSim

variable {pq : PriorityQueue STNode STNode.Le} {g : Grid}

/-- The queue of the AMR holds the jobs that wait according to its history. -/
def QueueInStep (a : AMRSim) : Prop := waitingJobs a.history = some a.jobQueue

theorem QueueInStep.of_eq {a a' : AMRSim} (h : a.QueueInStep) (hq : a'.jobQueue = a.jobQueue)
    (hh : a'.history = a.history ∨ (∃ o c, a'.history = .arrived o c :: a.history) ∨
      ∃ o, a'.history = .transportBlocked o :: a.history) : a'.QueueInStep := by
  unfold QueueInStep at *
  rw [hq, ← h]
  rcases hh with hh | ⟨o, c, hh⟩ | ⟨o, hh⟩ <;> rw [hh] <;> rfl

theorem startJob_queue (job : TransportJob) (a : AMRSim) :
    (a.startJob job).jobQueue = a.jobQueue ∧
      (a.startJob job).history = .started job :: a.history := by
  by_cases h : job.fromStation = "start"
  · rw [startJob_start h]
    exact ⟨rfl, rfl⟩
  · rw [startJob_pickup h]
    exact ⟨rfl, rfl⟩

/-- A commit keeps the queue in step unless it overtakes waiting jobs. -/
theorem QueueInStep.takeJob {a : AMRSim} (h : a.QueueInStep) {job : TransportJob}
    (hbehind : a.IsFree → a.jobQueue = []) : (a.takeJob job).QueueInStep := by
  unfold QueueInStep at *
  unfold AMRSim.takeJob
  dsimp only
  split
  · next hfree =>
    have hnil : a.jobQueue = [] := hbehind hfree
    obtain ⟨hq, hh⟩ := startJob_queue job { a with history := .committed job :: a.history }
    rw [hq, hh, hnil]
    simp [waitingJobs, h, hnil]
  · show (waitingJobs a.history).map (· ++ [job]) = _
    rw [h]
    rfl

theorem QueueInStep.cancelJob {a : AMRSim} (h : a.QueueInStep) (orderId : String) :
    (a.cancelJob orderId).QueueInStep := by
  unfold QueueInStep at *
  unfold AMRSim.cancelJob
  dsimp only
  split
  all_goals
    show (waitingJobs a.history).map (·.filter (·.orderId ≠ orderId)) = _
    rw [h]
    rfl

theorem QueueInStep.startQueued {a : AMRSim} (h : a.QueueInStep) : a.startQueued.QueueInStep := by
  unfold AMRSim.startQueued
  split
  · split
    · exact h
    · next job rest hjobs =>
      unfold QueueInStep at *
      obtain ⟨hq, hh⟩ := startJob_queue job { a with jobQueue := rest }
      rw [hq, hh]
      simp [waitingJobs, h, hjobs]
  · exact h

theorem QueueInStep.stepAMR {a : AMRSim} (h : a.QueueInStep) (mtbf : Option ℚ)
    (draw : ℚ × ℚ) (dt : ℚ) (r : Reservations) :
    (a.stepAMR pq g mtbf draw dt r).2.QueueInStep := by
  rcases stepAMR_cases pq g mtbf draw dt r a with
    hs | hs | hs | ⟨-, -, -, hs⟩ | ⟨-, -, -, hs⟩ <;> rw [hs]
  · unfold repair
    split <;> exact h
  · exact h
  · exact h
  · have hfin : a.finishLeg.QueueInStep := by
      unfold finishLeg
      split
      · exact h.of_eq rfl (Or.inr (Or.inl ⟨_, _, rfl⟩))
      · split <;> exact h
    have hplanned : a.finishLeg.startQueued.planned.2.QueueInStep := by
      refine hfin.startQueued.of_eq ?_ (Or.inl ?_) <;>
        (unfold planned legTarget popDest; (repeat' split) <;> rfl)
    rcases planLeg_cases pq g r a.finishLeg.startQueued with
      ⟨path, -, -, -, -, hp⟩ | ⟨-, hp⟩ <;> rw [hp]
    · exact hplanned
    · rw [denyLeg_eq]
      refine hplanned.of_eq rfl ?_
      dsimp only
      split
      · exact Or.inr (Or.inr ⟨_, rfl⟩)
      · exact Or.inl rfl
  · unfold advance
    split
    · exact h
    · dsimp only
      split <;> exact h

/-- Every move keeps the queue in step, commits only where they overtake no job. -/
theorem QueueInStep.apply {a : AMRSim} (h : a.QueueInStep) {m : AMRMove}
    (hm : ∀ job, m = .take job → a.IsFree → a.jobQueue = []) :
    (m.apply pq g a).QueueInStep := by
  rcases m with _ | job | orderId | downtimeS | ⟨mtbf, draw, dt, r⟩
  · exact h
  · exact h.takeJob (hm job rfl)
  · exact h.cancelJob orderId
  · exact h
  · exact h.stepAMR mtbf draw dt r

end AMRSim

namespace AMRArtifact

/-- The commit of the operation does not find its AMR free with jobs waiting. -/
def QueuesBehind (s : AMRArtifact) : AMROp → Prop
  | .requestTransport amrId _ =>
    ∀ a ∈ s.fleet, a.amrId = amrId → a.IsFree → a.jobQueue = []
  | .reserveTransport _ =>
    ∀ i a, FirstLeast AMRSim.load s.fleet i → s.fleet[i]? = some a → a.IsFree → a.jobQueue = []
  | _ => True

variable {pq : PriorityQueue STNode STNode.Le}

/-- Only a commit makes an AMR take a job. -/
theorem names_of_take {op : AMROp} {name : String} {job : TransportJob}
    (hallow : op.Allows name (.take job)) (hop : op.IsTransport) :
    (∃ job', op = .requestTransport name job') ∨ ∃ job', op = .reserveTransport job' := by
  cases op with
  | requestTransport amrId job' =>
    by_cases hid : amrId = name
    · exact Or.inl ⟨job', by rw [hid]⟩
    · rw [AMROp.Allows, if_neg hid] at hallow
      cases hallow
  | reserveTransport job' => exact Or.inr ⟨job', rfl⟩
  | cancelTransport amrId orderId =>
    simp only [AMROp.Allows] at hallow
    split at hallow <;> cases hallow
  | triggerBreakdown amrId d =>
    simp only [AMROp.Allows] at hallow
    split at hallow <;> cases hallow
  | updatePositions simTime dt draws =>
    obtain ⟨_, _, _, h⟩ := hallow
    cases h
  | setMtbfSeconds m => cases hallow
  | clearExpiredReservations => cases hallow
  | reserveTrajectory amrId goal => exact hop.elim

variable (pq) in
/-- Inversion of an operation at one AMR, with the commits behind the queue. -/
theorem exec_behind {op : AMROp} (hop : op.IsTransport) {s : AMRArtifact}
    (hbehind : s.QueuesBehind op) {i : ℕ} {a : AMRSim} (ha : s.fleet[i]? = some a) :
    ∃ m : AMRMove, (exec pq op s).fleet[i]? = some (m.apply pq s.grid a) ∧
      ∀ job, m = .take job → a.IsFree → a.jobQueue = [] := by
  by_cases hres : ∃ job, op = .reserveTransport job
  · obtain ⟨job, rfl⟩ := hres
    rcases hc : s.chosenAMR with _ | ⟨j, l⟩
    · rw [chosenAMR_eq_none_iff.mp hc] at ha
      simp at ha
    · by_cases hij : j = i
      · subst hij
        refine ⟨.take job, by simp [exec, reserveTransport, hc, ha, AMRMove.apply], ?_⟩
        exact fun _ _ hfree => hbehind j a (chosenAMR_spec hc).1 ha hfree
      · exact ⟨.stay, by simp [exec, reserveTransport, hc, hij, ha, AMRMove.apply],
          fun _ h => by cases h⟩
  · obtain ⟨m, hallow, hget⟩ := exec_fleet pq hop ha
    refine ⟨m, hget, ?_⟩
    rintro job rfl hfree
    rcases names_of_take hallow hop with ⟨job', rfl⟩ | h
    · exact hbehind a (List.mem_of_getElem? ha) rfl hfree
    · exact absurd h hres

theorem queueInStep_exec {op : AMROp} (hop : op.IsTransport) {s : AMRArtifact}
    (hbehind : s.QueuesBehind op) (hs : ∀ a ∈ s.fleet, a.QueueInStep) :
    ∀ a ∈ (exec pq op s).fleet, a.QueueInStep := by
  intro a' ha'
  obtain ⟨i, hi⟩ := List.mem_iff_getElem?.mp ha'
  have hlt : i < s.fleet.length := by
    rw [← length_exec pq op s]
    exact (List.getElem?_eq_some_iff.mp hi).1
  have ha := List.getElem?_eq_getElem hlt
  obtain ⟨m, hget, hm⟩ := exec_behind pq hop hbehind ha
  obtain rfl := Option.some.inj (hi.symm.trans hget)
  exact (hs _ (List.mem_of_getElem? ha)).apply hm

/-- **The jobs of every AMR are started in the order in which they were committed,
in every run in which no commit finds its AMR free with jobs waiting.** -/
theorem startsInOrder_run (pq : PriorityQueue STNode STNode.Le) (cols rows count : ℕ)
    (mtbf : Option ℚ) {ops : List AMROp} (hops : ∀ op ∈ ops, op.IsTransport)
    (hbehind : Runs.Along (exec pq) QueuesBehind (init cols rows count mtbf) ops) :
    ∀ a ∈ (Runs.run (exec pq) ops (init cols rows count mtbf)).fleet,
      StartsInOrder a.history ∧ (startedJobs a.history).Sublist (committedJobs a.history) := by
  have hinit : ∀ a ∈ (init cols rows count mtbf).fleet, a.QueueInStep := by
    intro a ha
    obtain ⟨i, -, rfl⟩ := List.mem_map.mp ha
    rfl
  have hall : Runs.Along (exec pq) (fun s op => op.IsTransport ∧ s.QueuesBehind op)
      (init cols rows count mtbf) ops := by
    rw [Runs.along_iff_split] at hbehind ⊢
    intro before op after hsplit
    exact ⟨hops op (by rw [hsplit]; simp), hbehind before op after hsplit⟩
  have hrun := Runs.run_invariant (I := fun s => ∀ a ∈ s.fleet, a.QueueInStep)
    (fun s op hs hC => queueInStep_exec hC.1 hC.2 hs) hinit hall
  intro a ha
  have hw : waitingJobs a.history = some a.jobQueue := hrun a ha
  refine ⟨by rw [StartsInOrder, hw]; rfl, ?_⟩
  exact (List.sublist_append_left _ _).trans (sublist_committedJobs hw)

/-- Two orders for one AMR, the second queued behind the first. -/
def queuedPair : List AMROp :=
  [.reserveTransport ⟨"start", "station_1", "ORD-1"⟩,
    .reserveTransport ⟨"start", "station_2", "ORD-2"⟩]

theorem startsInOrder_run_two :
    ∃ a, (Runs.run (exec (.scan _)) queuedPair (init 20 12 1 none)).fleet = [a] ∧
      StartsInOrder a.history ∧ (startedJobs a.history).Sublist (committedJobs a.history) := by
  have hbehind : ∀ (s : AMRArtifact) (job : TransportJob), (∀ a ∈ s.fleet, a.jobQueue = []) →
      s.QueuesBehind (.reserveTransport job) :=
    fun _ _ hs _ a _ ha _ => hs a (List.mem_of_getElem? ha)
  have hops : ∀ op ∈ queuedPair, op.IsTransport := by simp [queuedPair, AMROp.IsTransport]
  have hC : Runs.Along (exec (.scan _)) QueuesBehind (init 20 12 1 none) queuedPair :=
    ⟨hbehind _ _ (by decide), hbehind _ _ (by decide), trivial⟩
  have hlength : (Runs.run (exec (.scan _)) queuedPair (init 20 12 1 none)).fleet.length = 1 :=
    length_run queuedPair _
  obtain ⟨a, ha⟩ := List.length_eq_one_iff.mp hlength
  have hrun := startsInOrder_run (.scan _) 20 12 1 none hops hC
  exact ⟨a, ha, hrun a (by rw [ha]; exact List.mem_cons_self)⟩

/-- The first of two orders is cancelled, and a third is committed before the next
tick. -/
def overtakingOps : List AMROp :=
  [.reserveTransport ⟨"start", "station_1", "ORD-1"⟩,
    .reserveTransport ⟨"start", "station_2", "ORD-2"⟩, .cancelTransport "AMR-1" "ORD-1",
    .reserveTransport ⟨"start", "station_3", "ORD-3"⟩]

/-- The third order is started while the second waits. -/
theorem not_startsInOrder :
    ¬ ∀ (pq : PriorityQueue STNode STNode.Le) (cols rows count : ℕ) (mtbf : Option ℚ)
      (ops : List AMROp), (∀ op ∈ ops, op.IsTransport) →
      ∀ a ∈ (Runs.run (exec pq) ops (init cols rows count mtbf)).fleet,
        StartsInOrder a.history := by
  intro h
  have hstarts := h (.scan _) 20 12 1 none overtakingOps
    (by simp [AMROp.IsTransport, overtakingOps])
  have hno : ¬ ∀ a ∈ (Runs.run (exec (.scan _)) overtakingOps (init 20 12 1 none)).fleet,
      StartsInOrder a.history := by decide
  exact hno hstarts

end AMRArtifact

end MatrixFactory
