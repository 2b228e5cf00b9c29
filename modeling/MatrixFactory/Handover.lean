/-
# Where loads are handed over

`stepAMR` reads "the leg is finished" off an empty path and the number of remaining
destinations.  A denied leg leaves the same trace: its destination has been popped
and is kept in `pendingDest`, and there is no path.  So an AMR whose leg to the
pickup or the drop-off was denied loads or unloads where it stands
(`DeniedHandover`).  In a run without such ticks every handover takes place at the
station of the job (`handovers_at_station`).
-/
import MatrixFactory.FleetRuns

namespace MatrixFactory

namespace AMRSim

variable {pq : PriorityQueue STNode STNode.Le} {g : Grid}

/-- The job started last. -/
def lastStarted : List AMREvent → Option TransportJob
  | [] => none
  | .started job :: _ => some job
  | _ :: h => lastStarted h

/-- Every arrival of the history happened at the station of the job then in
progress, and under its order id. -/
def ArrivalsAtTarget : List AMREvent → Prop
  | [] => True
  | .arrived o c :: h =>
    (∃ job, lastStarted h = some job ∧ job.orderId = o ∧ stationCell job.toStation = some c) ∧
      ArrivalsAtTarget h
  | _ :: h => ArrivalsAtTarget h

/-- Between `a` and its successor `a'`, an order is loaded only by the start of a job
without pickup or on the cell of the pickup station. -/
def LoadsAtPickup (a a' : AMRSim) : Prop :=
  a'.carryingOrderId ≠ "" → a'.carryingOrderId ≠ a.carryingOrderId →
    ∃ job, lastStarted a'.history = some job ∧ job.orderId = a'.carryingOrderId ∧
      (job.fromStation ≠ "start" → stationCell job.fromStation = some a.cell ∧ a'.cell = a.cell)

/-- The planning tick of an AMR whose leg to the drop-off or to the pickup has been
denied, away from that station. -/
def DeniedHandover (a : AMRSim) : Prop :=
  a.downtimeRemainingS ≤ 0 ∧ a.dwellRemaining ≤ 0 ∧ a.PathDone ∧
    (∃ d ∈ a.pendingDest, stationCell d ≠ some a.cell) ∧
    ((a.carryingOrderId ≠ "" ∧ a.destinations = []) ∨
      (a.pendingOrderId ≠ "" ∧ a.carryingOrderId = "" ∧ a.destinations.length = 1))

instance (a : AMRSim) : Decidable a.DeniedHandover := by
  unfold DeniedHandover; infer_instance

/-- The leg under way ends at the station, or waits to be planned. -/
def LegTo (a : AMRSim) (station : String) : Prop :=
  a.pendingDest = some station ∨
    (a.pendingDest = none ∧
      stationCell station = some (pathEnd a.cell (a.path.drop a.pathIndex)))

/-- The stages of a job in progress. -/
inductive Serves (a : AMRSim) (job : TransportJob) : Prop
  | toPlanPickup (hcarry : a.carryingOrderId = "") (hfrom : job.fromStation ≠ "start")
      (hdest : a.destinations = [job.fromStation, job.toStation])
  | toPickup (hcarry : a.carryingOrderId = "") (hfrom : job.fromStation ≠ "start")
      (hdest : a.destinations = [job.toStation]) (hleg : a.LegTo job.fromStation)
  | toPlanDropoff (hcarry : a.carryingOrderId = job.orderId)
      (hdest : a.destinations = [job.toStation])
  | toDropoff (hcarry : a.carryingOrderId = job.orderId) (hdest : a.destinations = [])
      (hleg : a.LegTo job.toStation)

/-- The bookkeeping of an AMR agrees with the job it started last. -/
structure JobOK (a : AMRSim) : Prop where
  busy : a.pendingOrderId ≠ "" → ∃ job, lastStarted a.history = some job ∧
    a.pendingOrderId = job.orderId ∧ a.Serves job
  free : a.pendingOrderId = "" → a.carryingOrderId = ""
  known : ∀ d, a.pendingDest = some d ∨ d ∈ a.destinations → (stationCell d).isSome
  queue : ∀ job ∈ a.jobQueue, job.Known
  arrivals : ArrivalsAtTarget a.history

/-- The stages between legs, where a leg is about to be planned. -/
structure Ready (a : AMRSim) : Prop extends JobOK a where
  dest : a.destinations = [] → a.pendingOrderId = ""
  length : a.pendingOrderId ≠ "" → a.carryingOrderId = "" → a.destinations.length = 2

/-! ## Moves that leave the job alone -/

theorem Serves.of_eq {a a' : AMRSim} {job : TransportJob} (h : a.Serves job)
    (hcarry : a'.carryingOrderId = a.carryingOrderId) (hdest : a'.destinations = a.destinations)
    (hleg : ∀ d, a.LegTo d → a'.LegTo d) : a'.Serves job := by
  cases h with
  | toPlanPickup hc hf hd => exact .toPlanPickup (hcarry.trans hc) hf (hdest.trans hd)
  | toPickup hc hf hd hl => exact .toPickup (hcarry.trans hc) hf (hdest.trans hd) (hleg _ hl)
  | toPlanDropoff hc hd => exact .toPlanDropoff (hcarry.trans hc) (hdest.trans hd)
  | toDropoff hc hd hl => exact .toDropoff (hcarry.trans hc) (hdest.trans hd) (hleg _ hl)

/-- A move that changes neither the job in progress nor where the leg ends. -/
theorem JobOK.of_eq {a a' : AMRSim} (h : a.JobOK) (hpend : a'.pendingOrderId = a.pendingOrderId)
    (hcarry : a'.carryingOrderId = a.carryingOrderId) (hdest : a'.destinations = a.destinations)
    (hpd : a'.pendingDest = a.pendingDest) (hleg : ∀ d, a.LegTo d → a'.LegTo d)
    (hlast : lastStarted a'.history = lastStarted a.history)
    (hq : ∀ job ∈ a'.jobQueue, job.Known) (harr : ArrivalsAtTarget a'.history) : a'.JobOK where
  busy hb := by
    obtain ⟨job, hjob, hid, hs⟩ := h.busy (hpend ▸ hb)
    exact ⟨job, hlast.trans hjob, hpend.trans hid, hs.of_eq hcarry hdest hleg⟩
  free hf := hcarry.trans (h.free (hpend ▸ hf))
  known d hd := h.known d (by rwa [hpd, hdest] at hd)
  queue := hq
  arrivals := harr

theorem JobOK.dwell {a : AMRSim} (h : a.JobOK) (d : ℚ) :
    JobOK { a with dwellRemaining := d } :=
  h.of_eq rfl rfl rfl rfl (fun _ hl => hl) rfl h.queue h.arrivals

theorem JobOK.breakDown {a : AMRSim} (h : a.JobOK) (d : ℚ) : (a.breakDown d).JobOK :=
  h.of_eq rfl rfl rfl rfl (fun _ hl => hl) rfl h.queue h.arrivals

theorem JobOK.repair {a : AMRSim} (h : a.JobOK) (dt : ℚ) : (a.repair dt).JobOK := by
  unfold AMRSim.repair
  split <;> exact h.of_eq rfl rfl rfl rfl (fun _ hl => hl) rfl h.queue h.arrivals

/-- Driving along the path keeps the end of the leg. -/
theorem LegTo.advance {a : AMRSim} {d : String} (h : a.LegTo d) (dt : ℚ) :
    (a.advance dt).LegTo d := by
  unfold AMRSim.advance
  split
  · exact h
  · next target htarget =>
    dsimp only
    split
    · rcases h with h | ⟨hnone, hcell⟩
      · exact Or.inl h
      · refine Or.inr ⟨hnone, hcell.trans ?_⟩
        obtain ⟨hlt, rfl⟩ := List.getElem?_eq_some_iff.mp htarget
        rw [List.drop_eq_getElem_cons hlt]
        rfl
    · exact h

theorem JobOK.advance {a : AMRSim} (h : a.JobOK) (dt : ℚ) : (a.advance dt).JobOK := by
  have hfields : (a.advance dt).pendingOrderId = a.pendingOrderId ∧
      (a.advance dt).carryingOrderId = a.carryingOrderId ∧
      (a.advance dt).destinations = a.destinations ∧
      (a.advance dt).pendingDest = a.pendingDest ∧
      (a.advance dt).jobQueue = a.jobQueue ∧ (a.advance dt).history = a.history := by
    unfold AMRSim.advance
    split
    · simp
    · dsimp only
      split <;> simp
  obtain ⟨h₁, h₂, h₃, h₄, h₅, h₆⟩ := hfields
  exact h.of_eq h₁ h₂ h₃ h₄ (fun _ hl => hl.advance dt) (h₆ ▸ rfl) (h₅ ▸ h.queue) (h₆ ▸ h.arrivals)

/-! ## Committing and cancelling -/

/-- A known job can be started on a free AMR. -/
theorem JobOK.startJob {a : AMRSim} (h : a.JobOK) {job : TransportJob} (hjob : job.Known) :
    (a.startJob job).Ready := by
  have hdest : ∀ d, a.pendingDest = some d → (stationCell d).isSome := fun d hd =>
    h.known d (Or.inl hd)
  by_cases hfrom : job.fromStation = "start"
  · rw [startJob_start hfrom]
    refine ⟨⟨fun _ => ⟨job, rfl, rfl, .toPlanDropoff rfl rfl⟩, fun hf => hf, ?_, h.queue,
      h.arrivals⟩, fun hd => by simp at hd, fun hp hc => absurd hc hp⟩
    exact fun d hd => hd.elim (hdest d) (fun hd => List.mem_singleton.mp hd ▸ hjob.2)
  · have hknown := hjob.1.resolve_left hfrom
    rw [startJob_pickup hfrom]
    refine ⟨⟨fun _ => ⟨job, rfl, rfl, .toPlanPickup rfl hfrom rfl⟩, fun _ => rfl, ?_, h.queue,
      h.arrivals⟩, fun hd => by simp at hd, fun _ _ => rfl⟩
    rintro d (hd | hd)
    · exact hdest d hd
    · rcases List.mem_pair.mp hd with rfl | rfl
      · exact hknown
      · exact hjob.2

theorem JobOK.takeJob {a : AMRSim} (h : a.JobOK) {job : TransportJob} (hjob : job.Known) :
    (a.takeJob job).JobOK := by
  have h' : JobOK { a with history := .committed job :: a.history } :=
    h.of_eq rfl rfl rfl rfl (fun _ hl => hl) rfl h.queue h.arrivals
  unfold AMRSim.takeJob
  dsimp only
  split
  · exact (h'.startJob hjob).toJobOK
  · refine h'.of_eq rfl rfl rfl rfl (fun _ hl => hl) rfl (fun j hj => ?_) h'.arrivals
    rcases List.mem_append.mp hj with hj | hj
    · exact h.queue j hj
    · exact List.mem_singleton.mp hj ▸ hjob

theorem JobOK.cancelJob {a : AMRSim} (h : a.JobOK) (orderId : String) :
    (a.cancelJob orderId).JobOK := by
  unfold AMRSim.cancelJob
  dsimp only
  split
  · refine ⟨fun hb => absurd rfl hb, fun _ => rfl, ?_, ?_, h.arrivals⟩
    · exact fun d hd => h.known d (hd.imp_right fun hd => by simp at hd)
    · exact fun j hj => h.queue j (List.mem_of_mem_filter hj)
  · exact h.of_eq rfl rfl rfl rfl (fun _ hl => hl) rfl
      (fun j hj => h.queue j (List.mem_of_mem_filter hj)) h.arrivals

/-! ## The planning tick -/

/-- With no path left and no leg denied elsewhere, the AMR stands at the end of its
leg. -/
theorem LegTo.arrived {a : AMRSim} {d : String} (h : a.LegTo d) (hdone : a.PathDone)
    (hpd : ∀ d ∈ a.pendingDest, stationCell d = some a.cell) : stationCell d = some a.cell := by
  rcases h with h | ⟨-, h⟩
  · exact hpd d h
  · have hdrop : a.path.drop a.pathIndex = [] := by
      rcases hdone with hnil | hlen
      · rw [hnil, List.drop_nil]
      · exact List.drop_eq_nil_of_le hlen
    rw [hdrop] at h
    exact h

/-- Unless a handover is due after a denial, the retained destination is the AMR's
own cell whenever a handover is due. -/
theorem retained_of_not_denied {a : AMRSim} (hdown : a.downtimeRemainingS ≤ 0)
    (hdwell : a.dwellRemaining ≤ 0) (hdone : a.PathDone) (hnd : ¬ a.DeniedHandover)
    (hdue : (a.carryingOrderId ≠ "" ∧ a.destinations = []) ∨
      (a.pendingOrderId ≠ "" ∧ a.carryingOrderId = "" ∧ a.destinations.length = 1)) :
    ∀ d ∈ a.pendingDest, stationCell d = some a.cell := by
  intro d hd
  by_contra hne
  exact hnd ⟨hdown, hdwell, hdone, ⟨d, hd, hne⟩, hdue⟩

/-- The end of a leg: drop-off, pickup, or neither, each at the right station. -/
theorem JobOK.finishLeg {a : AMRSim} (h : a.JobOK) (hdown : a.downtimeRemainingS ≤ 0)
    (hdwell : a.dwellRemaining ≤ 0) (hdone : a.PathDone) (hnd : ¬ a.DeniedHandover) :
    a.finishLeg.Ready ∧ a.LoadsAtPickup a.finishLeg := by
  have hret := retained_of_not_denied hdown hdwell hdone hnd
  have hidle : JobOK { a with status := .idle } :=
    h.of_eq rfl rfl rfl rfl (fun _ hl => hl) rfl h.queue h.arrivals
  unfold AMRSim.finishLeg
  by_cases hpend : a.pendingOrderId = ""
  · have hcarry := h.free hpend
    rw [if_neg (by simp [hcarry]), if_neg (by simp [hpend])]
    exact ⟨⟨hidle, fun _ => hpend, fun hb => absurd hpend hb⟩, fun hb => absurd hcarry hb⟩
  obtain ⟨job, hlast, hid, hserves⟩ := h.busy hpend
  have hne : job.orderId ≠ "" := hid ▸ hpend
  cases hserves with
  | toPlanPickup hcarry hfrom hdest =>
    rw [if_neg (by simp [hcarry]), if_neg (by simp [hdest])]
    exact ⟨⟨hidle, fun hd => by simp [hdest] at hd, fun _ _ => by simp [hdest]⟩,
      fun hb => absurd hcarry hb⟩
  | toPickup hcarry hfrom hdest hleg =>
    rw [if_neg (by simp [hcarry]), if_pos ⟨hpend, hcarry, by simp [hdest]⟩]
    have hcell := hleg.arrived hdone (hret (Or.inr ⟨hpend, hcarry, by simp [hdest]⟩))
    refine ⟨⟨⟨fun _ => ⟨job, hlast, hid, .toPlanDropoff hid hdest⟩, fun hf => absurd hf hpend,
      h.known, h.queue, h.arrivals⟩, fun hd => by simp [hdest] at hd,
      fun hp hc => absurd hc hp⟩, fun _ _ => ⟨job, hlast, hid.symm, fun _ => ⟨hcell, rfl⟩⟩⟩
  | toPlanDropoff hcarry hdest =>
    rw [if_neg (by simp [hdest]), if_neg (by simp [hcarry, hne])]
    exact ⟨⟨hidle, fun hd => by simp [hdest] at hd, fun _ hc => absurd (hcarry ▸ hc) hne⟩,
      fun _ hch => absurd rfl hch⟩
  | toDropoff hcarry hdest hleg =>
    have hc : a.carryingOrderId ≠ "" := hcarry ▸ hne
    rw [if_pos ⟨hc, hdest⟩]
    have hcell := hleg.arrived hdone (hret (Or.inl ⟨hc, hdest⟩))
    refine ⟨⟨⟨fun hb => absurd rfl hb, fun _ => rfl, h.known, h.queue,
      ⟨⟨job, hlast, hcarry.symm, hcell⟩, h.arrivals⟩⟩, fun _ => rfl, fun hb => absurd rfl hb⟩,
      fun hb => absurd rfl hb⟩

/-- The start of a job loads nothing, or loads the order of a job without pickup. -/
theorem loadsAtPickup_startJob (a b : AMRSim) (job : TransportJob) :
    a.LoadsAtPickup (b.startJob job) := by
  intro hc _
  by_cases hfrom : job.fromStation = "start"
  · exact ⟨job, rfl, by simp [startJob_start hfrom], fun hf => absurd hfrom hf⟩
  · simp [startJob_pickup hfrom] at hc

theorem Ready.startQueued {a b : AMRSim} (h : b.Ready) (hload : a.LoadsAtPickup b) :
    b.startQueued.Ready ∧ a.LoadsAtPickup b.startQueued := by
  unfold AMRSim.startQueued
  split
  · split
    · exact ⟨h, hload⟩
    · next job rest hq =>
      have hb : JobOK { b with jobQueue := rest } :=
        h.toJobOK.of_eq rfl rfl rfl rfl (fun _ hl => hl) rfl
          (fun j hj => h.queue j (hq ▸ List.mem_cons_of_mem _ hj)) h.arrivals
      exact ⟨hb.startJob (h.queue job (hq ▸ List.mem_cons_self)), loadsAtPickup_startJob _ _ _⟩
  · exact ⟨h, hload⟩

/-- The stages that a ready AMR can be in. -/
theorem Ready.stage {b : AMRSim} (h : b.Ready) (hpend : b.pendingOrderId ≠ "") :
    ∃ job, lastStarted b.history = some job ∧ b.pendingOrderId = job.orderId ∧
      ((b.carryingOrderId = "" ∧ job.fromStation ≠ "start" ∧
          b.destinations = [job.fromStation, job.toStation]) ∨
        (b.carryingOrderId = job.orderId ∧ b.destinations = [job.toStation])) := by
  obtain ⟨job, hlast, hid, hserves⟩ := h.busy hpend
  refine ⟨job, hlast, hid, ?_⟩
  cases hserves with
  | toPlanPickup hcarry hfrom hdest => exact Or.inl ⟨hcarry, hfrom, hdest⟩
  | toPickup hcarry hfrom hdest hleg => simpa [hdest] using h.length hpend hcarry
  | toPlanDropoff hcarry hdest => exact Or.inr ⟨hcarry, hdest⟩
  | toDropoff hcarry hdest hleg => exact absurd (h.dest hdest) hpend

/-- Popping a destination whose leg is then under way, or planning a leg that no
destination was popped for. -/
theorem Ready.leg {b c : AMRSim} (h : b.Ready) (hpend : c.pendingOrderId = b.pendingOrderId)
    (hcarry : c.carryingOrderId = b.carryingOrderId)
    (hlast : lastStarted c.history = lastStarted b.history) (hq : c.jobQueue = b.jobQueue)
    (harr : ArrivalsAtTarget c.history) (hpd : ∀ d ∈ c.pendingDest, (stationCell d).isSome)
    (hdest : c.destinations = b.destinations ∨
      ∃ d, b.destinations = d :: c.destinations ∧ c.LegTo d) : c.JobOK where
  busy hb := by
    obtain ⟨job, hjob, hid, hstage⟩ := h.stage (hpend ▸ hb)
    refine ⟨job, hlast.trans hjob, hpend.trans hid, ?_⟩
    rcases hdest with hdest | ⟨d, hdest, hleg⟩
    · rcases hstage with ⟨hc, hf, hd⟩ | ⟨hc, hd⟩
      · exact .toPlanPickup (hcarry.trans hc) hf (hdest.trans hd)
      · exact .toPlanDropoff (hcarry.trans hc) (hdest.trans hd)
    · rcases hstage with ⟨hc, hf, hd⟩ | ⟨hc, hd⟩
      · obtain ⟨rfl, hcd⟩ := List.cons.inj (hdest.symm.trans hd)
        exact .toPickup (hcarry.trans hc) hf hcd hleg
      · obtain ⟨rfl, hcd⟩ := List.cons.inj (hdest.symm.trans hd)
        exact .toDropoff (hcarry.trans hc) hcd hleg
  free hf := hcarry.trans (h.free (hpend ▸ hf))
  known d hd := by
    rcases hd with hd | hd
    · exact hpd d hd
    · refine h.known d (Or.inr ?_)
      rcases hdest with hdest | ⟨d', hdest, -⟩
      · exact hdest ▸ hd
      · exact hdest ▸ List.mem_cons_of_mem _ hd
  queue := hq ▸ h.queue
  arrivals := harr

/-- What the planning of a leg leaves of an AMR whose bookkeeping is `c` once the
destination has been popped. -/
structure Launched (c b : AMRSim) (popped : Option String) (target : Cell) : Prop where
  pend : c.pendingOrderId = b.pendingOrderId
  carry : c.carryingOrderId = b.carryingOrderId
  dest : c.destinations = b.destinations
  queue : c.jobQueue = b.jobQueue
  cell : c.cell = b.cell
  last : lastStarted c.history = lastStarted b.history
  arrivals : ArrivalsAtTarget b.history → ArrivalsAtTarget c.history
  leg : (c.pendingDest = popped ∨ c.pendingDest = b.pendingDest) ∧
    (c.pendingDest = popped ∨ pathEnd c.cell (c.path.drop c.pathIndex) = target)

theorem launched_driveLeg {b : AMRSim} {popped : Option String} {path : List Cell}
    {target : Cell} (hend : pathEnd b.cell path = target) :
    Launched (b.driveLeg path) b popped target :=
  ⟨rfl, rfl, rfl, rfl, rfl, rfl, id, Or.inr rfl, Or.inr hend⟩

theorem launched_denyLeg (b : AMRSim) (popped : Option String) (target : Cell) :
    Launched (b.denyLeg popped) b popped target := by
  rw [denyLeg_eq]
  refine ⟨rfl, rfl, rfl, rfl, rfl, ?_, ?_, Or.inl rfl, Or.inl rfl⟩
  · dsimp only
    split <;> rfl
  · dsimp only
    split <;> exact id

/-- Planning the next leg of a ready AMR keeps its bookkeeping in order. -/
theorem Ready.launched {b c : AMRSim} (h : b.Ready)
    (hc : Launched c b.planned.2 b.popDest.1 b.planned.1) :
    c.JobOK ∧ c.carryingOrderId = b.carryingOrderId ∧ c.cell = b.cell ∧
      lastStarted c.history = lastStarted b.history := by
  have hknown := h.known
  rcases hpd : b.pendingDest with _ | d
  · rcases hdest : b.destinations with _ | ⟨d, ds⟩
    · obtain ⟨hpop, hpl⟩ := planned_home hpd hdest
      have hfree := h.free (h.dest hdest)
      rw [hpl, hpop] at hc
      have hcarry : c.carryingOrderId = b.carryingOrderId := hc.carry.trans hfree.symm
      refine ⟨h.leg hc.pend hcarry hc.last hc.queue (hc.arrivals h.arrivals) ?_
        (Or.inl hc.dest), hcarry, hc.cell, hc.last⟩
      intro d hd
      rcases hc.leg.1 with hl | hl
      · simp [hl] at hd
      · simp [hl, hpd] at hd
    · obtain ⟨x, hx⟩ := Option.isSome_iff_exists.mp (hknown d (Or.inr (hdest ▸ List.mem_cons_self)))
      obtain ⟨hpop, hpl⟩ := planned_next hpd hdest hx
      rw [hpl, hpop] at hc
      refine ⟨h.leg hc.pend hc.carry hc.last hc.queue (hc.arrivals h.arrivals) ?_
        (Or.inr ⟨d, hdest.trans (congrArg _ hc.dest.symm), ?_⟩), hc.carry, hc.cell, hc.last⟩
      · intro d' hd'
        rcases hc.leg.1 with hl | hl
        · obtain rfl : d = d' := by simpa [hl] using hd'
          simp [hx]
        · simp [hl, hpd] at hd'
      · rcases hc.leg.2 with hl | hl
        · exact Or.inl hl
        · rcases hc.leg.1 with hl' | hl'
          · exact Or.inl hl'
          · exact Or.inr ⟨hl'.trans hpd, hx.trans (congrArg _ hl.symm)⟩
  · obtain ⟨x, hx⟩ := Option.isSome_iff_exists.mp (hknown d (Or.inl hpd))
    obtain ⟨hpop, hpl⟩ := planned_retained hpd hx
    rw [hpl, hpop] at hc
    refine ⟨h.leg hc.pend hc.carry hc.last hc.queue (hc.arrivals h.arrivals) ?_
      (Or.inl hc.dest), hc.carry, hc.cell, hc.last⟩
    intro d' hd'
    rcases hc.leg.1 with hl | hl
    · obtain rfl : d = d' := by simpa [hl] using hd'
      simp [hx]
    · simp [hl] at hd'

theorem JobOK.planLeg {a : AMRSim} (h : a.JobOK) (hdown : a.downtimeRemainingS ≤ 0)
    (hdwell : a.dwellRemaining ≤ 0) (hdone : a.PathDone) (hnd : ¬ a.DeniedHandover)
    (r : Reservations) :
    (AMRSim.planLeg pq g r a.finishLeg.startQueued).2.JobOK ∧
      a.LoadsAtPickup (AMRSim.planLeg pq g r a.finishLeg.startQueued).2 := by
  obtain ⟨hready, hload⟩ := h.finishLeg hdown hdwell hdone hnd
  obtain ⟨hready, hload⟩ := hready.startQueued hload
  generalize a.finishLeg.startQueued = b at hready hload
  have hlaunch : Launched (AMRSim.planLeg pq g r b).2 b.planned.2 b.popDest.1 b.planned.1 := by
    have hcell : b.planned.2.cell = b.cell := by
      unfold planned legTarget popDest
      (repeat' split) <;> rfl
    rcases planLeg_cases pq g r b with ⟨path, -, -, hend, -, heq⟩ | ⟨-, heq⟩
    · rw [heq]
      exact launched_driveLeg (hcell ▸ hend)
    · rw [heq]
      exact launched_denyLeg _ _ _
  obtain ⟨hok, hcarry, hcell, hlast⟩ := hready.launched hlaunch
  refine ⟨hok, fun hc hne => ?_⟩
  rw [hcarry] at hc hne
  rw [hcarry, hcell, hlast]
  exact hload hc hne

/-! ## Runs -/

/-- One move keeps the bookkeeping and loads only at the pickup. -/
theorem JobOK.apply {a : AMRSim} (h : a.JobOK) (m : AMRMove)
    (hjob : ∀ job, m = .take job → job.Known)
    (hnd : ∀ mtbf draw dt r, m = .step mtbf draw dt r → ¬ a.DeniedHandover) :
    (m.apply pq g a).JobOK ∧ a.LoadsAtPickup (m.apply pq g a) := by
  cases m with
  | stay => exact ⟨h, fun _ hne => absurd rfl hne⟩
  | take job =>
    refine ⟨h.takeJob (hjob job rfl), ?_⟩
    show a.LoadsAtPickup (a.takeJob job)
    unfold AMRSim.takeJob
    dsimp only
    split
    · exact loadsAtPickup_startJob _ _ _
    · exact fun _ hne => absurd rfl hne
  | cancel orderId =>
    refine ⟨h.cancelJob orderId, ?_⟩
    show a.LoadsAtPickup (a.cancelJob orderId)
    unfold AMRSim.cancelJob
    dsimp only
    split
    · exact fun hc => absurd rfl hc
    · exact fun _ hne => absurd rfl hne
  | breakDown d => exact ⟨h.breakDown d, fun _ hne => absurd rfl hne⟩
  | step mtbf draw dt r =>
    show (a.stepAMR pq g mtbf draw dt r).2.JobOK ∧
      a.LoadsAtPickup (a.stepAMR pq g mtbf draw dt r).2
    rcases stepAMR_cases pq g mtbf draw dt r a with
      heq | heq | heq | ⟨hdown, hdwell, hdone, heq⟩ | ⟨hdown, hdwell, hdone, heq⟩ <;> rw [heq]
    · refine ⟨h.repair dt, fun _ hne => absurd ?_ hne⟩
      unfold AMRSim.repair
      split <;> rfl
    · exact ⟨h.breakDown _, fun _ hne => absurd rfl hne⟩
    · exact ⟨h.dwell _, fun _ hne => absurd rfl hne⟩
    · exact h.planLeg hdown hdwell hdone (hnd mtbf draw dt r rfl) r
    · refine ⟨h.advance dt, fun _ hne => absurd ?_ hne⟩
      unfold AMRSim.advance
      split
      · rfl
      · dsimp only
        split <;> rfl

end AMRSim

namespace AMRArtifact

variable {pq : PriorityQueue STNode STNode.Le}

/-- In the run of `ops` from `s`, orders are loaded and delivered at the stations of
their jobs only. -/
def HandoversAtStation (pq : PriorityQueue STNode STNode.Le) (s : AMRArtifact)
    (ops : List AMROp) : Prop :=
  Runs.Along (exec pq) (fun s op => ∀ (i : ℕ) (a a' : AMRSim), s.fleet[i]? = some a →
    (exec pq op s).fleet[i]? = some a' → a.LoadsAtPickup a') s ops ∧
  ∀ a ∈ (Runs.run (exec pq) ops s).fleet, AMRSim.ArrivalsAtTarget a.history

theorem jobOK_init (cols rows count : ℕ) (mtbf : Option ℚ) :
    ∀ a ∈ (init cols rows count mtbf).fleet, a.JobOK := by
  intro a ha
  obtain ⟨i, -, rfl⟩ := List.mem_map.mp ha
  exact ⟨fun h => absurd rfl h, fun _ => rfl, by simp [initAMR], by simp [initAMR], trivial⟩

variable (pq) in
/-- One operation keeps the bookkeeping of every AMR and loads only at pickups. -/
theorem exec_jobOK {op : AMROp} (hop : op.WellFormed) {s : AMRArtifact}
    (hnd : op.IsTick → ∀ a ∈ s.fleet, ¬ a.DeniedHandover) (hs : ∀ a ∈ s.fleet, a.JobOK) {i : ℕ}
    {a a' : AMRSim} (ha : s.fleet[i]? = some a) (ha' : (exec pq op s).fleet[i]? = some a') :
    a'.JobOK ∧ a.LoadsAtPickup a' := by
  have hmem : a ∈ s.fleet := List.mem_of_getElem? ha
  obtain ⟨m, hm, hget⟩ := exec_fleet pq hop.isTransport ha
  obtain rfl : a' = m.apply pq s.grid a := by simpa [ha'] using hget
  refine (hs a hmem).apply m ?_ ?_
  · rintro job rfl
    cases op <;> simp [AMROp.Allows] at hm
    · exact hm.2 ▸ hop
    · exact hm ▸ hop
  · rintro mtbf draw dt r rfl
    cases op <;> simp [AMROp.Allows] at hm
    exact hnd trivial a hmem

/-- **Loads change hands at the stations of their jobs**, in every run in which no
tick finds an AMR with a denied leg due for a handover. -/
theorem handovers_at_station (pq : PriorityQueue STNode STNode.Le) (cols rows count : ℕ)
    (mtbf : Option ℚ) {ops : List AMROp} (hops : ∀ op ∈ ops, op.WellFormed)
    (hnd : Runs.Along (exec pq)
      (fun s op => op.IsTick → ∀ a ∈ s.fleet, ¬ a.DeniedHandover)
      (init cols rows count mtbf) ops) :
    HandoversAtStation pq (init cols rows count mtbf) ops := by
  have hinit := jobOK_init cols rows count mtbf
  generalize init cols rows count mtbf = s at hnd hinit
  induction ops generalizing s with
  | nil => exact ⟨trivial, fun a ha => (hinit a ha).arrivals⟩
  | cons op ops ih =>
    have hop := hops op List.mem_cons_self
    have hstep : ∀ (i : ℕ) (a a' : AMRSim), s.fleet[i]? = some a →
        (exec pq op s).fleet[i]? = some a' → a'.JobOK ∧ a.LoadsAtPickup a' :=
      fun _ _ _ ha ha' => exec_jobOK pq hop hnd.1 hinit ha ha'
    have hnext : ∀ a' ∈ (exec pq op s).fleet, a'.JobOK := by
      intro a' ha'
      obtain ⟨i, hi, rfl⟩ := List.getElem_of_mem ha'
      have hi' : i < s.fleet.length := by rwa [length_exec] at hi
      exact (hstep i _ _ (List.getElem?_eq_getElem hi') (List.getElem?_eq_getElem hi)).1
    obtain ⟨halong, harr⟩ := ih (fun o ho => hops o (List.mem_cons_of_mem _ ho)) _ hnd.2 hnext
    exact ⟨⟨fun i a a' ha ha' => (hstep i a a' ha ha').2, halong⟩, harr⟩

/-- A single delivery, without pickup. -/
theorem handovers_at_station_single :
    HandoversAtStation (.scan _) (init 3 3 1 none)
      [.reserveTransport ⟨"start", "station_1", "ORD-1"⟩, .updatePositions 1 1 fun _ => (0, 0),
        .updatePositions 2 1 fun _ => (0, 0), .updatePositions 3 1 fun _ => (0, 0),
        .updatePositions 4 1 fun _ => (0, 0), .updatePositions 5 1 fun _ => (0, 0)] :=
  handovers_at_station _ 3 3 1 none (by decide) (by with_unfolding_all decide)

/-- Six AMRs in three rows.  AMR-4 stands on its dock `(4, 2)`; the reservations of its
neighbours deny its leg to station_1 at `(2, 2)`, and at its next planning tick it
signals the arrival of ORD-5 from the dock. -/
def congestedOps : List AMROp :=
  let tick : AMROp := .updatePositions 0 4 fun _ => (0, 0)
  [.requestTransport "AMR-6" ⟨"station_1", "station_2", "ORD-1"⟩,
    .requestTransport "AMR-2" ⟨"station_2", "station_1", "ORD-2"⟩,
    .requestTransport "AMR-1" ⟨"start", "station_2", "ORD-3"⟩, tick, tick,
    .requestTransport "AMR-3" ⟨"station_2", "station_1", "ORD-4"⟩, tick,
    .requestTransport "AMR-4" ⟨"start", "station_1", "ORD-5"⟩, tick, tick, tick]

theorem congested_run :
    (Runs.run (exec (.scan _)) congestedOps (init 7 3 6 none)).fleet[3]?.map (·.history)
      = some [.arrived "ORD-5" ⟨4, 2⟩, .started ⟨"start", "station_1", "ORD-5"⟩,
          .committed ⟨"start", "station_1", "ORD-5"⟩] := by
  with_unfolding_all decide

theorem not_handovers_at_station :
    ¬ ∀ (pq : PriorityQueue STNode STNode.Le) (cols rows count : ℕ) (mtbf : Option ℚ)
      (ops : List AMROp), (∀ op ∈ ops, op.WellFormed) →
        HandoversAtStation pq (init cols rows count mtbf) ops := by
  intro h
  obtain ⟨-, harr⟩ := h (.scan _) 7 3 6 none congestedOps (by decide)
  obtain ⟨a, ha, hhist⟩ := Option.map_eq_some_iff.mp congested_run
  have hbad := harr a (List.mem_of_getElem? ha)
  rw [hhist] at hbad
  obtain ⟨⟨job, hjob, -, hcell⟩, -⟩ := hbad
  obtain rfl : (⟨"start", "station_1", "ORD-5"⟩ : TransportJob) = job := by
    simpa [AMRSim.lastStarted] using hjob
  exact absurd hcell (by decide)

end AMRArtifact

end MatrixFactory
