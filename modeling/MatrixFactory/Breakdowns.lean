/-
# Breakdowns

An AMR that is broken down stands still until its downtime is over.  Jobs may still be committed to
it: it is not free, so they wait in its queue.  It keeps its cell, its load and its destinations, it
raises no signal, and the first tick by which the downtime has passed puts it back into service.
-/
import MatrixFactory.FleetMotion

namespace MatrixFactory

variable {pq : PriorityQueue STNode STNode.Le}

namespace AMROp

/-- The time an operation takes. -/
def time : AMROp → ℚ
  | .updatePositions _ dt _ => dt
  | _ => 0

/-- The time a run takes. -/
def elapsed (ops : List AMROp) : ℚ := (ops.map time).sum

/-- The operation does not interfere with the AMR of that name: it neither cancels a job of it nor
breaks it down again, and hands no AMR a trajectory. -/
def Spares (name : String) : AMROp → Prop
  | .cancelTransport amrId _ => amrId ≠ name
  | .triggerBreakdown amrId _ => amrId ≠ name
  | .reserveTrajectory _ _ => False
  | .updatePositions _ dt _ => 0 ≤ dt
  | _ => True

instance (name : String) : DecidablePred (Spares name) := fun op => by
  induction op using AMROp.casesOn <;> unfold Spares <;> infer_instance

theorem Spares.isTransport {name : String} {op : AMROp} (h : op.Spares name) : op.IsTransport := by
  cases op <;> trivial

theorem Spares.time_nonneg {name : String} {op : AMROp} (h : op.Spares name) : 0 ≤ op.time := by
  cases op <;> first | exact le_rfl | exact h

@[simp] theorem elapsed_nil : elapsed [] = 0 := rfl

@[simp] theorem elapsed_cons (op : AMROp) (ops : List AMROp) :
    elapsed (op :: ops) = op.time + elapsed ops := by
  simp [elapsed]

theorem elapsed_nonneg {name : String} {ops : List AMROp} (h : ∀ op ∈ ops, op.Spares name) :
    0 ≤ elapsed ops := by
  apply List.sum_nonneg
  intro t ht
  obtain ⟨op, hop, rfl⟩ := List.mem_map.mp ht
  exact (h op hop).time_nonneg

end AMROp

namespace AMRSim

/-- `a'` is `a` after a time `t` out of service: only its queue has grown. -/
structure Suspended (a a' : AMRSim) (t : ℚ) : Prop where
  frozen : a'.frozen = a.frozen
  downtime : a'.downtimeRemainingS = a.downtimeRemainingS - t
  status : a'.status = a.status
  queue : a.jobQueue <+: a'.jobQueue
  silent : ∃ jobs : List TransportJob, a'.history = jobs.map .committed ++ a.history

variable {a b c : AMRSim} {t u : ℚ}

theorem Suspended.refl (a : AMRSim) : Suspended a a 0 where
  frozen := rfl
  downtime := (sub_zero _).symm
  status := rfl
  queue := List.prefix_rfl
  silent := ⟨[], rfl⟩

theorem Suspended.trans (h : Suspended a b t) (h' : Suspended b c u) : Suspended a c (t + u) where
  frozen := h'.frozen.trans h.frozen
  downtime := by rw [h'.downtime, h.downtime, sub_sub]
  status := h'.status.trans h.status
  queue := h.queue.trans h'.queue
  silent := by
    obtain ⟨jobs, hjobs⟩ := h.silent
    obtain ⟨jobs', hjobs'⟩ := h'.silent
    exact ⟨jobs' ++ jobs, by rw [hjobs', hjobs, List.map_append, List.append_assoc]⟩

theorem Suspended.amrId (h : Suspended a b t) : b.amrId = a.amrId := congrArg Prod.fst h.frozen

/-- A job committed to an AMR out of service waits. -/
theorem suspended_takeJob (h : 0 < a.downtimeRemainingS) (job : TransportJob) :
    Suspended a (a.takeJob job) 0 := by
  have hbusy : ¬ IsFree { a with history := .committed job :: a.history } :=
    fun hfree => absurd hfree.1 (not_le.mpr h)
  have heq : a.takeJob job =
      { a with history := .committed job :: a.history, jobQueue := a.jobQueue ++ [job] } :=
    if_neg hbusy
  rw [heq]
  exact ⟨rfl, (sub_zero _).symm, rfl, List.prefix_append _ _, [job], rfl⟩

theorem suspended_repair {dt : ℚ} (h : dt < a.downtimeRemainingS) :
    Suspended a (a.repair dt) dt := by
  have heq : a.repair dt = { a with downtimeRemainingS := a.downtimeRemainingS - dt } :=
    if_neg (not_le.mpr (sub_pos.mpr h))
  rw [heq]
  exact ⟨rfl, rfl, rfl, List.prefix_rfl, [], rfl⟩

/-- The tick that ends the downtime. -/
theorem repair_over {dt : ℚ} (h : a.downtimeRemainingS ≤ dt) :
    a.repair dt = { a with downtimeRemainingS := 0, status := .idle } :=
  if_pos (sub_nonpos.mpr h)

end AMRSim

namespace AMRArtifact

open AMRSim

/-- **One operation** that does not end the downtime of an AMR. -/
theorem exec_suspended {s : AMRArtifact} {i : ℕ} {a : AMRSim} (ha : s.fleet[i]? = some a)
    {op : AMROp} (hop : op.Spares a.amrId) (hbroken : 0 < a.downtimeRemainingS)
    (htime : op.time < a.downtimeRemainingS) :
    ∃ a', (exec pq op s).fleet[i]? = some a' ∧ Suspended a a' op.time := by
  obtain ⟨m, hm, hget⟩ := exec_fleet pq hop.isTransport ha
  refine ⟨_, hget, ?_⟩
  cases op with
  | setMtbfSeconds mtbf =>
    obtain rfl : m = .stay := hm
    exact Suspended.refl a
  | clearExpiredReservations =>
    obtain rfl : m = .stay := hm
    exact Suspended.refl a
  | reserveTrajectory amrId goal => exact hop.elim
  | triggerBreakdown amrId d =>
    obtain rfl : m = .stay := by simpa [AMROp.Allows, if_neg hop] using hm
    exact Suspended.refl a
  | cancelTransport amrId orderId =>
    obtain rfl : m = .stay := by simpa [AMROp.Allows, if_neg hop] using hm
    exact Suspended.refl a
  | requestTransport amrId job =>
    by_cases hid : amrId = a.amrId
    · obtain rfl : m = .take job := by simpa [AMROp.Allows, hid] using hm
      exact suspended_takeJob hbroken job
    · obtain rfl : m = .stay := by simpa [AMROp.Allows, hid] using hm
      exact Suspended.refl a
  | reserveTransport job =>
    rcases hm with rfl | rfl
    · exact Suspended.refl a
    · exact suspended_takeJob hbroken job
  | updatePositions simTime dt draws =>
    obtain ⟨mtbf, draw, r, rfl⟩ := hm
    show Suspended a (a.stepAMR pq s.grid mtbf draw dt r).2 dt
    rw [stepAMR_broken hbroken]
    exact suspended_repair htime

/-- A run that does not end the downtime of an AMR. -/
theorem run_suspended {ops : List AMROp} {s : AMRArtifact} {i : ℕ} {a : AMRSim}
    (ha : s.fleet[i]? = some a) (hops : ∀ op ∈ ops, op.Spares a.amrId)
    (hbroken : 0 < a.downtimeRemainingS) (htime : AMROp.elapsed ops < a.downtimeRemainingS) :
    ∃ a', (Runs.run (exec pq) ops s).fleet[i]? = some a' ∧
      Suspended a a' (AMROp.elapsed ops) := by
  induction ops generalizing s a with
  | nil => exact ⟨a, ha, Suspended.refl a⟩
  | cons op ops ih =>
    rw [AMROp.elapsed_cons] at htime ⊢
    have hrest := AMROp.elapsed_nonneg fun o ho => hops o (List.mem_cons_of_mem _ ho)
    obtain ⟨b, hb, hsusp⟩ := @exec_suspended pq s i a ha op
      (hops op List.mem_cons_self) hbroken (by linarith)
    have hdown := hsusp.downtime
    obtain ⟨a', ha', hsusp'⟩ := ih hb
      (fun o ho => hsusp.amrId ▸ hops o (List.mem_cons_of_mem _ ho))
      (by linarith) (by linarith)
    exact ⟨a', ha', hsusp.trans hsusp'⟩

/-- **A breakdown lasts as long as its downtime.**  Until then the AMR keeps everything but its
queue, and the tick by which it has passed puts the AMR back into service where it stands. -/
theorem breakdown_lasts (pq : PriorityQueue STNode STNode.Le) {s : AMRArtifact} {i : ℕ} {a : AMRSim}
    (ha : s.fleet[i]? = some a) {ops : List AMROp} (hops : ∀ op ∈ ops, op.Spares a.amrId)
    (htime : AMROp.elapsed ops < a.downtimeRemainingS) :
    ∃ a', (Runs.run (exec pq) ops s).fleet[i]? = some a' ∧ Suspended a a' (AMROp.elapsed ops) ∧
      ∀ (simTime dt : ℚ) (draws : ℕ → ℚ × ℚ),
        a.downtimeRemainingS ≤ AMROp.elapsed ops + dt →
          (exec pq (.updatePositions simTime dt draws) (Runs.run (exec pq) ops s)).fleet[i]? =
            some { a' with downtimeRemainingS := 0, status := .idle } := by
  have hbroken : 0 < a.downtimeRemainingS := (AMROp.elapsed_nonneg hops).trans_lt htime
  obtain ⟨a', ha', hsusp⟩ := @run_suspended pq ops s i a ha hops hbroken htime
  refine ⟨a', ha', hsusp, fun simTime dt draws hover => ?_⟩
  have hdown := hsusp.downtime
  obtain ⟨r, hr⟩ := @tick_fleet pq _ simTime dt draws i a' ha'
  rw [hr, stepAMR_broken (by linarith), repair_over (by linarith)]

/-- An AMR that breaks down for 30 s gets a job after 20 s and is back after 35 s. -/
theorem breakdown_lasts_thirty :
    let s := exec (.scan _) (.triggerBreakdown "AMR-1" 30) (init 20 12 1 none)
    let ops : List AMROp := [.updatePositions 20 20 fun _ => (0, 0),
      .reserveTransport ⟨"start", "station_1", "ORD-1"⟩]
    ∃ a', (Runs.run (exec (.scan _)) ops s).fleet[0]? = some a' ∧
      Suspended ((initAMR ⟨20, 12⟩ 0).breakDown 30) a' (AMROp.elapsed ops) ∧
      ∀ (simTime dt : ℚ) (draws : ℕ → ℚ × ℚ), 30 ≤ AMROp.elapsed ops + dt →
        (exec (.scan _) (.updatePositions simTime dt draws)
          (Runs.run (exec (.scan _)) ops s)).fleet[0]? =
            some { a' with downtimeRemainingS := 0, status := .idle } :=
  breakdown_lasts (.scan _) (a := (initAMR ⟨20, 12⟩ 0).breakDown 30) rfl (by decide)
    (by norm_num [AMROp.elapsed, AMROp.time, AMRSim.breakDown])

end AMRArtifact

end MatrixFactory
