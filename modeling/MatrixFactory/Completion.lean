/-
# A lone AMR completes its job

The ticks of a fleet of one, from the commit of a job to its delivery.  A planner
answer without cells stands both for "no route" and for "already there", and
`stepAMR` takes it for a denial.  An AMR that stands on the cell of the pickup
station therefore retains that station in `pendingDest` for ever; in every other case
the job is delivered once (`completes_iff`).
-/
import MatrixFactory.JobLedger
import MatrixFactory.ClearRoute
import MatrixFactory.Lib.Countdown

namespace MatrixFactory

/-! ## One tick of a fleet of one -/

/-- The tick of a fleet of one that does not break down. -/
def soloTick (pq : PriorityQueue STNode STNode.Le) (g : Grid) (dt : ℚ)
    (x : Reservations × AMRSim) : Reservations × AMRSim :=
  let y := x.2.stepAMR pq g none (0, 0) dt x.1
  (y.1.refreshGridOccupancy g [(y.2.amrId, y.2.cell)], y.2)

/-- The state after `n` ticks. -/
def soloRun (pq : PriorityQueue STNode STNode.Le) (g : Grid) (dt : ℕ → ℚ)
    (x : Reservations × AMRSim) : ℕ → Reservations × AMRSim
  | 0 => x
  | n + 1 => soloTick pq g (dt n) (soloRun pq g dt x n)

section Solo

variable (pq : PriorityQueue STNode STNode.Le) (g : Grid)

theorem stepAMR_none (draw draw' : ℚ × ℚ) (dt : ℚ) (r : Reservations) (a : AMRSim) :
    a.stepAMR pq g none draw dt r = a.stepAMR pq g none draw' dt r := by
  unfold AMRSim.stepAMR AMRSim.FailsThisTick
  simp

theorem soloTick_dwell (dt : ℚ) {r : Reservations} {a : AMRSim} (hdown : a.downtimeRemainingS ≤ 0)
    (hdwell : 0 < a.dwellRemaining) :
    soloTick pq g dt (r, a) = (r.refreshGridOccupancy g [(a.amrId, a.cell)],
      { a with dwellRemaining := a.dwellRemaining - dt }) := by
  simp [soloTick, AMRSim.stepAMR, AMRSim.FailsThisTick, not_lt.mpr hdown, hdwell]

theorem soloTick_plan (dt : ℚ) {r : Reservations} {a : AMRSim} (hdown : a.downtimeRemainingS ≤ 0)
    (hdwell : a.dwellRemaining ≤ 0) (hdone : a.PathDone) :
    soloTick pq g dt (r, a) =
      let y := AMRSim.planLeg pq g r a.finishLeg.startQueued
      (y.1.refreshGridOccupancy g [(y.2.amrId, y.2.cell)], y.2) := by
  simp [soloTick, AMRSim.stepAMR, AMRSim.FailsThisTick, not_lt.mpr hdown, not_lt.mpr hdwell, hdone]

theorem soloTick_advance (dt : ℚ) {r : Reservations} {a : AMRSim}
    (hdown : a.downtimeRemainingS ≤ 0) (hdwell : a.dwellRemaining ≤ 0) (hdone : ¬ a.PathDone) :
    soloTick pq g dt (r, a) =
      (r.refreshGridOccupancy g [((a.advance dt).amrId, (a.advance dt).cell)], a.advance dt) := by
  simp [soloTick, AMRSim.stepAMR, AMRSim.FailsThisTick, not_lt.mpr hdown, not_lt.mpr hdwell, hdone]

end Solo

/-! ## Driving to the end of a leg -/

/-- The fields that dwelling and driving leave alone. -/
def AMRSim.jobView (a : AMRSim) :=
  (a.amrId, a.secPerCell, a.downtimeRemainingS, a.carryingOrderId, a.pendingOrderId,
    a.destinations, a.pendingDest, a.jobQueue, a.history)

/-- Where the current leg ends. -/
def AMRSim.stop (a : AMRSim) : Cell := pathEnd a.cell (a.path.drop a.pathIndex)

/-- The cells left to drive. -/
def AMRSim.left (a : AMRSim) : ℕ := a.path.length - a.pathIndex

/-- `y` is reached from `x` by dwelling and driving on one leg. -/
structure Coasts (g : Grid) (x y : Reservations × AMRSim) : Prop where
  job : y.2.jobView = x.2.jobView
  stop : y.2.stop = x.2.stop
  owned : x.1.OwnedBy x.2.amrId → y.1.OwnedBy x.2.amrId
  edges : ∀ c₀, x.1.EdgesFrom g c₀ → y.1.EdgesFrom g c₀

namespace Coasts

variable {pq : PriorityQueue STNode STNode.Le} {g : Grid} {x y z : Reservations × AMRSim}

theorem refl (x : Reservations × AMRSim) : Coasts g x x := ⟨rfl, rfl, id, fun _ => id⟩

theorem amrId (h : Coasts g x y) : y.2.amrId = x.2.amrId := congrArg Prod.fst h.job

theorem trans (h : Coasts g x y) (h' : Coasts g y z) : Coasts g x z where
  job := h'.job.trans h.job
  stop := h'.stop.trans h.stop
  owned ho := h.amrId ▸ h'.owned (h.amrId.symm ▸ h.owned ho)
  edges c₀ he := h'.edges c₀ (h.edges c₀ he)

theorem down (h : Coasts g x y) : y.2.downtimeRemainingS = x.2.downtimeRemainingS :=
  congrArg (fun v => v.2.2.1) h.job

theorem speed (h : Coasts g x y) : y.2.secPerCell = x.2.secPerCell :=
  congrArg (fun v => v.2.1) h.job

/-- A tick that changes only what coasting may change. -/
theorem of_refresh {r : Reservations} {a : AMRSim} (a' : AMRSim) (hjob : a'.jobView = a.jobView)
    (hstop : a'.stop = a.stop) :
    Coasts g (r, a) (r.refreshGridOccupancy g [(a'.amrId, a'.cell)], a') where
  job := hjob
  stop := hstop
  owned ho := by
    rw [show a'.amrId = a.amrId from congrArg Prod.fst hjob]
    exact ho.refresh _
  edges _ he := he.refresh _

theorem dwell {dt : ℚ} (hdown : x.2.downtimeRemainingS ≤ 0) (hdwell : 0 < x.2.dwellRemaining) :
    Coasts g x (soloTick pq g dt x) := by
  obtain ⟨r, a⟩ := x
  rw [soloTick_dwell pq g dt hdown hdwell]
  exact of_refresh { a with dwellRemaining := a.dwellRemaining - dt } rfl rfl

end Coasts

theorem AMRSim.pathDone_iff (a : AMRSim) : a.PathDone ↔ a.left = 0 := by
  unfold AMRSim.PathDone AMRSim.left
  constructor
  · rintro (h | h)
    · simp [h]
    · omega
  · intro h
    exact Or.inr (by omega)

theorem AMRSim.stop_of_pathDone {a : AMRSim} (h : a.PathDone) : a.stop = a.cell := by
  rw [AMRSim.pathDone_iff, AMRSim.left] at h
  rw [AMRSim.stop, List.drop_eq_nil_of_le (by omega), pathEnd]

/-- One tick of driving: on the way to the next cell, or onto it. -/
theorem AMRSim.advance_cases {a : AMRSim} (hdone : ¬ a.PathDone) (dt : ℚ) :
    (a.advance dt).jobView = a.jobView ∧ (a.advance dt).stop = a.stop ∧
      (a.advance dt).dwellRemaining = a.dwellRemaining ∧
      ((a.progress + dt / a.secPerCell < 1 ∧ (a.advance dt).left = a.left ∧
          (a.advance dt).progress = a.progress + dt / a.secPerCell) ∨
        (a.advance dt).left < a.left) := by
  rw [AMRSim.pathDone_iff] at hdone
  unfold AMRSim.left at hdone
  have hlt : a.pathIndex < a.path.length := by omega
  have hdrop : a.path.drop a.pathIndex = a.path[a.pathIndex] :: a.path.drop (a.pathIndex + 1) :=
    List.drop_eq_getElem_cons hlt
  unfold AMRSim.advance
  rw [List.getElem?_eq_getElem hlt]
  dsimp only
  by_cases hprog : 1 ≤ a.progress + dt / a.secPerCell
  · rw [if_pos hprog]
    refine ⟨rfl, ?_, rfl, Or.inr ?_⟩
    · simp only [AMRSim.stop, hdrop]
      rfl
    · simp only [AMRSim.left]
      omega
  · rw [if_neg hprog]
    exact ⟨rfl, rfl, rfl, Or.inl ⟨not_le.mp hprog, rfl, rfl⟩⟩

section Driving

variable (pq : PriorityQueue STNode STNode.Le) (g : Grid) {dt : ℕ → ℚ}
  (x₀ : Reservations × AMRSim)

/-- The pause before a leg ends. -/
theorem dwell_ends (hclock : Clock dt) {n : ℕ}
    (hdown : (soloRun pq g dt x₀ n).2.downtimeRemainingS ≤ 0) :
    ∃ m ≥ n, Coasts g (soloRun pq g dt x₀ n) (soloRun pq g dt x₀ m) ∧
      (soloRun pq g dt x₀ m).2.dwellRemaining ≤ 0 ∧
      (soloRun pq g dt x₀ m).2.left = (soloRun pq g dt x₀ n).2.left := by
  set x := soloRun pq g dt x₀ n with hx
  refine hclock.eventually
    (P := fun d m => Coasts g x (soloRun pq g dt x₀ m) ∧
      (soloRun pq g dt x₀ m).2.dwellRemaining = d ∧ (soloRun pq g dt x₀ m).2.left = x.2.left)
    ?_ (d := x.2.dwellRemaining) ⟨.refl _, rfl, rfl⟩
  rintro m d ⟨hcoast, hd, hleft⟩
  by_cases hpos : 0 < d
  · have hdown' := hcoast.down ▸ hdown
    have htick : soloRun pq g dt x₀ (m + 1) = soloTick pq g (dt m) (soloRun pq g dt x₀ m) := rfl
    have hstep := soloTick_dwell pq g (dt m) (r := (soloRun pq g dt x₀ m).1) hdown' (hd ▸ hpos)
    rw [htick]
    refine Or.inl ⟨hpos, hcoast.trans (.dwell hdown' (hd ▸ hpos)), ?_, ?_⟩
    · rw [show soloTick pq g (dt m) (soloRun pq g dt x₀ m) = _ from hstep, hd]
    · rw [show soloTick pq g (dt m) (soloRun pq g dt x₀ m) = _ from hstep]
      exact hleft
  · exact Or.inr ⟨m, le_refl _, hcoast, hd ▸ not_lt.mp hpos, hleft⟩

/-- The next cell of the path is reached. -/
theorem edge_ends (hclock : Clock dt) {n : ℕ}
    (hdown : (soloRun pq g dt x₀ n).2.downtimeRemainingS ≤ 0)
    (hspeed : 0 < (soloRun pq g dt x₀ n).2.secPerCell)
    (hdwell : (soloRun pq g dt x₀ n).2.dwellRemaining ≤ 0)
    (hdone : ¬ (soloRun pq g dt x₀ n).2.PathDone) :
    ∃ m ≥ n, Coasts g (soloRun pq g dt x₀ n) (soloRun pq g dt x₀ m) ∧
      (soloRun pq g dt x₀ m).2.left < (soloRun pq g dt x₀ n).2.left := by
  set x := soloRun pq g dt x₀ n with hx
  refine hclock.eventually
    (P := fun d m => Coasts g x (soloRun pq g dt x₀ m) ∧
      (soloRun pq g dt x₀ m).2.dwellRemaining ≤ 0 ∧
      (soloRun pq g dt x₀ m).2.left = x.2.left ∧
      (1 - (soloRun pq g dt x₀ m).2.progress) * x.2.secPerCell = d)
    ?_ (d := (1 - x.2.progress) * x.2.secPerCell) ⟨.refl _, hdwell, rfl, rfl⟩
  rintro m d ⟨hcoast, hdw, hleft, hd⟩
  have hnd : ¬ (soloRun pq g dt x₀ m).2.PathDone := by
    rw [AMRSim.pathDone_iff, hleft, ← AMRSim.pathDone_iff]
    exact hdone
  have htick : soloRun pq g dt x₀ (m + 1) = _ :=
    soloTick_advance pq g (dt m) (r := (soloRun pq g dt x₀ m).1)
      (hcoast.down ▸ hdown) hdw hnd
  obtain ⟨hjob, hstop, hdw', hprog⟩ := AMRSim.advance_cases hnd (dt m)
  have hnext : Coasts g x (soloRun pq g dt x₀ (m + 1)) := by
    rw [htick]
    exact hcoast.trans (Coasts.of_refresh _ hjob hstop)
  rw [hcoast.speed] at hprog
  rcases hprog with ⟨hlt, hleft', hp⟩ | hlt
  · refine Or.inl ⟨?_, hnext, ?_, ?_, ?_⟩
    · rw [← hd]
      refine mul_pos ?_ hspeed
      have := div_pos (hclock.pos m) hspeed
      linarith
    · rw [htick]
      exact hdw'.trans_le hdw
    · rw [htick]
      exact hleft'.trans hleft
    · rw [htick]
      show (1 - ((soloRun pq g dt x₀ m).2.advance (dt m)).progress) * x.2.secPerCell = _
      rw [hp, ← hd]
      field_simp
      ring
  · refine Or.inr ⟨m + 1, Nat.le_succ m, hnext, ?_⟩
    rw [htick]
    exact hlt.trans_eq hleft

/-- **Every leg is driven to its end.** -/
theorem leg_ends (hclock : Clock dt) {n : ℕ}
    (hdown : (soloRun pq g dt x₀ n).2.downtimeRemainingS ≤ 0)
    (hspeed : 0 < (soloRun pq g dt x₀ n).2.secPerCell) :
    ∃ m ≥ n, Coasts g (soloRun pq g dt x₀ n) (soloRun pq g dt x₀ m) ∧
      (soloRun pq g dt x₀ m).2.dwellRemaining ≤ 0 ∧ (soloRun pq g dt x₀ m).2.PathDone := by
  induction hl : (soloRun pq g dt x₀ n).2.left using Nat.strong_induction_on generalizing n with
  | _ l ih =>
    obtain ⟨m, hm, hcoast, hdwell, hleft⟩ := dwell_ends pq g x₀ hclock hdown
    by_cases hdone : (soloRun pq g dt x₀ m).2.PathDone
    · exact ⟨m, hm, hcoast, hdwell, hdone⟩
    · obtain ⟨m', hm', hcoast', hlt⟩ := edge_ends pq g x₀ hclock
        (hcoast.down ▸ hdown) (hcoast.speed ▸ hspeed) hdwell hdone
      have hall := hcoast.trans hcoast'
      obtain ⟨k, hk, hcoast'', hend⟩ := ih _ (by omega) (hall.down ▸ hdown)
        (hall.speed ▸ hspeed) rfl
      exact ⟨k, hm.trans (hm'.trans hk), hall.trans hcoast'', hend⟩

end Driving

/-! ## Resting -/

/-- The cells at which arrivals of the order were signalled, latest first. -/
def arrivalCells (o : String) : List AMREvent → List Cell
  | [] => []
  | .arrived o' c :: h => if o' = o then c :: arrivalCells o h else arrivalCells o h
  | _ :: h => arrivalCells o h

theorem length_arrivalCells (o : String) (h : List AMREvent) :
    (arrivalCells o h).length = arrivedCount o h := by
  induction h with
  | nil => rfl
  | cons e h ih =>
    cases e with
    | arrived o' c =>
      rw [arrivalCells, arrivedCount]
      split <;> simp [ih]
    | _ => exact ih

/-- The AMR has no job, and the arrivals `k` of the order behind it. -/
structure Resting (o : String) (k : List Cell) (a : AMRSim) : Prop where
  down : a.downtimeRemainingS ≤ 0
  pend : a.pendingOrderId = ""
  carry : a.carryingOrderId = ""
  queue : a.jobQueue = []
  arrivals : arrivalCells o a.history = k

section Rest

variable {pq : PriorityQueue STNode STNode.Le} {g : Grid} {o : String} {k : List Cell}

/-- The planning of a leg with no job to plan for. -/
theorem Resting.planLeg {a : AMRSim} (h : Resting o k a) (r : Reservations) :
    Resting o k (AMRSim.planLeg pq g r a).2 := by
  obtain ⟨hp, hc, hq, hh⟩ := AMRSim.planned_job a
  have hdown : a.planned.2.downtimeRemainingS = a.downtimeRemainingS := by
    unfold AMRSim.planned AMRSim.legTarget AMRSim.popDest
    (repeat' split) <;> rfl
  have hcarry : a.planned.2.carryingOrderId = "" := hc.elim (·.trans h.carry) id
  rcases AMRSim.planLeg_cases pq g r a with ⟨path, -, -, -, -, heq⟩ | ⟨-, heq⟩ <;>
    rw [heq]
  · exact ⟨hdown.trans_le h.down, hp.trans h.pend, hcarry, hq.trans h.queue,
      (congrArg _ hh).trans h.arrivals⟩
  · rw [AMRSim.denyLeg_eq]
    refine ⟨hdown.trans_le h.down, hp.trans h.pend, hcarry, hq.trans h.queue, ?_⟩
    rw [← h.arrivals, ← hh]
    dsimp only
    split <;> rfl

/-- Without a job, the end of a leg changes only the status. -/
theorem Resting.finishLeg {a : AMRSim} (h : Resting o k a) :
    Resting o k a.finishLeg.startQueued := by
  have hfin : a.finishLeg = { a with status := .idle } := by
    unfold AMRSim.finishLeg
    rw [if_neg (by simp [h.carry]), if_neg (by simp [h.pend])]
  have hstart : a.finishLeg.startQueued = { a with status := .idle } := by
    rw [hfin]
    unfold AMRSim.startQueued
    split
    · simp [h.queue]
    · rfl
  rw [hstart]
  exact ⟨h.down, h.pend, h.carry, h.queue, h.arrivals⟩

theorem Resting.tick {x : Reservations × AMRSim} (h : Resting o k x.2) (dt : ℚ) :
    Resting o k (soloTick pq g dt x).2 := by
  obtain ⟨r, a⟩ := x
  by_cases hdwell : 0 < a.dwellRemaining
  · rw [soloTick_dwell pq g dt h.down hdwell]
    exact ⟨h.down, h.pend, h.carry, h.queue, h.arrivals⟩
  by_cases hdone : a.PathDone
  · rw [soloTick_plan pq g dt h.down (not_lt.mp hdwell) hdone]
    exact h.finishLeg.planLeg r
  · rw [soloTick_advance pq g dt h.down (not_lt.mp hdwell) hdone]
    have hjob := (AMRSim.advance_cases hdone dt).1
    simp only [AMRSim.jobView, Prod.mk.injEq] at hjob
    obtain ⟨-, -, hd, hc, hp, -, -, hq, hh⟩ := hjob
    exact ⟨hd.trans_le h.down, hp.trans h.pend, hc.trans h.carry, hq.trans h.queue,
      (congrArg _ hh).trans h.arrivals⟩

variable (pq g) in
/-- An AMR without a job stays without one. -/
theorem Resting.run (dt : ℕ → ℚ) (x₀ : Reservations × AMRSim) {n : ℕ}
    (h : Resting o k (soloRun pq g dt x₀ n).2) {m : ℕ} (hm : n ≤ m) :
    Resting o k (soloRun pq g dt x₀ m).2 := by
  induction m, hm using Nat.le_induction with
  | base => exact h
  | succ m _ ih => exact ih.tick _

end Rest

/-! ## The legs of a job -/

section Legs

variable {pq : PriorityQueue STNode STNode.Le} {g : Grid} {dt : ℕ → ℚ}
  {x₀ : Reservations × AMRSim} {job : TransportJob} {k : List Cell}

/-- The AMR, operational and with an empty queue, is in the given stage of the job. -/
structure OnJob (job : TransportJob) (k : List Cell) (carrying : String) (dests : List String)
    (a : AMRSim) : Prop where
  down : a.downtimeRemainingS ≤ 0
  speed : 0 < a.secPerCell
  pend : a.pendingOrderId = job.orderId
  carry : a.carryingOrderId = carrying
  dest : a.destinations = dests
  queue : a.jobQueue = []
  arrivals : arrivalCells job.orderId a.history = k

theorem OnJob.of_jobView {carrying : String} {dests : List String} {a a' : AMRSim}
    (h : OnJob job k carrying dests a) (hv : a'.jobView = a.jobView) :
    OnJob job k carrying dests a' := by
  simp only [AMRSim.jobView, Prod.mk.injEq] at hv
  obtain ⟨-, hs, hd, hc, hp, hdest, -, hq, hh⟩ := hv
  exact ⟨hd.trans_le h.down, hs ▸ h.speed, hp.trans h.pend, hc.trans h.carry, hdest.trans h.dest,
    hq.trans h.queue, (congrArg _ hh).trans h.arrivals⟩

/-- At the end of the first leg to plan, nothing is loaded. -/
theorem OnJob.finish_pickup {a : AMRSim}
    (h : OnJob job k "" [job.fromStation, job.toStation] a) :
    a.finishLeg.startQueued = { a with status := .idle } := by
  have hfin : a.finishLeg = { a with status := .idle } := by
    unfold AMRSim.finishLeg
    rw [if_neg (by simp [h.carry]), if_neg (by simp [h.dest])]
  rw [hfin]
  unfold AMRSim.startQueued
  rw [if_neg (by simp [h.dest])]

/-- At the pickup, the order is loaded. -/
theorem OnJob.finish_load {a : AMRSim} (ho : job.orderId ≠ "")
    (h : OnJob job k "" [job.toStation] a) :
    a.finishLeg.startQueued = { a with carryingOrderId := job.orderId, status := .loading } := by
  have hfin : a.finishLeg = { a with carryingOrderId := job.orderId, status := .loading } := by
    unfold AMRSim.finishLeg
    rw [if_neg (by simp [h.carry]), if_pos (by simp [h.pend, ho, h.carry, h.dest]), h.pend]
  rw [hfin]
  unfold AMRSim.startQueued
  rw [if_neg (by simp [h.dest])]

/-- At the destination, the arrival is signalled and the AMR is free. -/
theorem OnJob.finish_arrive {a : AMRSim} (ho : job.orderId ≠ "")
    (h : OnJob job k job.orderId [] a) :
    Resting job.orderId (a.cell :: k) a.finishLeg.startQueued := by
  have hfin : Resting job.orderId (a.cell :: k) a.finishLeg := by
    unfold AMRSim.finishLeg
    rw [if_pos ⟨h.carry.symm ▸ ho, h.dest⟩]
    refine ⟨h.down, rfl, rfl, h.queue, ?_⟩
    simp [arrivalCells, h.carry, h.arrivals]
  have hstart : a.finishLeg.startQueued = a.finishLeg := by
    unfold AMRSim.startQueued
    split
    · simp [hfin.queue]
    · rfl
  rw [hstart]
  exact hfin

variable (pq) in
/-- **The first leg is granted**, unless the AMR stands at its end. -/
theorem OnJob.plan_pickup (hfit : g.FitsKey) {r : Reservations} {a : AMRSim} {target : Cell}
    (h : OnJob job k "" [job.fromStation, job.toStation] a) (hpd : a.pendingDest = none)
    (hfrom : stationCell job.fromStation = some target) (hne : target ≠ a.cell)
    (hcell : g.InBounds a.cell) (htarget : g.InBounds target) (hown : r.OwnedBy a.amrId)
    (hedges : r.EdgesFrom g a.cell) (hdwell : a.dwellRemaining ≤ 0) (hdone : a.PathDone) (d : ℚ) :
    let y := soloTick pq g d (r, a)
    OnJob job k "" [job.toStation] y.2 ∧ y.2.pendingDest = none ∧ y.2.stop = target ∧
      y.2.amrId = a.amrId ∧ y.1.OwnedBy a.amrId ∧ y.1.EdgesFrom g a.cell := by
  rw [soloTick_plan pq g d h.down hdwell hdone, h.finish_pickup]
  obtain ⟨q, hq, htimed, hend, hlen⟩ :=
    spaceTimeAStar_route hfit pq hown hedges hcell htarget
  obtain ⟨hpop, hpl⟩ := AMRSim.planned_next (a := { a with status := .idle }) hpd h.dest hfrom
  have hqne : q ≠ [] := by
    rintro rfl
    exact hne hend.symm
  rcases AMRSim.planLeg_cases pq g r { a with status := .idle } with
    ⟨path, -, -, -, hpath, heq⟩ | ⟨hdeny, -⟩
  · rw [hpl] at hpath heq
    obtain rfl : q = path := Option.some.inj (hq.symm.trans hpath)
    rw [heq]
    refine ⟨⟨h.down, h.speed, h.pend, h.carry, rfl, h.queue, h.arrivals⟩, hpd, hend, rfl, ?_, ?_⟩
    · exact Reservations.OwnedBy.refresh (hown.commitFrom 0 none q) _
    · exact (hedges.commitReservation hcell rfl htimed hend (hlen rfl)).refresh _
  · rw [hpl] at hdeny
    rcases hdeny with hd | hd
    · exact absurd (hq.symm.trans hd) (by simp)
    · exact absurd (Option.some.inj (hq.symm.trans hd)) hqne

variable (pq) in
/-- The second leg ends at the destination: driven there, or denied because the AMR is
there already. -/
theorem OnJob.plan_dropoff (hfit : g.FitsKey) {r : Reservations} {a : AMRSim} {c₀ target : Cell}
    (ho : job.orderId ≠ "") (h : OnJob job k "" [job.toStation] a) (hpd : a.pendingDest = none)
    (hto : stationCell job.toStation = some target) (hcell : g.InBounds a.cell)
    (htarget : g.InBounds target) (hown : r.OwnedBy a.amrId) (hedges : r.EdgesFrom g c₀)
    (hdwell : a.dwellRemaining ≤ 0) (hdone : a.PathDone) (d : ℚ) :
    let y := soloTick pq g d (r, a)
    OnJob job k job.orderId [] y.2 ∧ y.2.stop = target := by
  rw [soloTick_plan pq g d h.down hdwell hdone, h.finish_load ho]
  obtain ⟨q, hq, -, hend, -⟩ := spaceTimeAStar_route hfit pq hown hedges hcell htarget
  obtain ⟨hpop, hpl⟩ := AMRSim.planned_next
    (a := { a with carryingOrderId := job.orderId, status := .loading }) hpd h.dest hto
  rcases AMRSim.planLeg_cases pq g r
    { a with carryingOrderId := job.orderId, status := .loading } with
    ⟨path, -, -, -, hpath, heq⟩ | ⟨hdeny, heq⟩
  · rw [hpl] at hpath heq
    obtain rfl : q = path := Option.some.inj (hq.symm.trans hpath)
    rw [heq]
    exact ⟨⟨h.down, h.speed, h.pend, rfl, rfl, h.queue, h.arrivals⟩, hend⟩
  · rw [hpl] at hdeny heq
    obtain rfl : q = [] := by
      rcases hdeny with hd | hd
      · exact absurd (hq.symm.trans hd) (by simp)
      · exact Option.some.inj (hq.symm.trans hd)
    rw [heq, AMRSim.denyLeg_eq]
    refine ⟨⟨h.down, h.speed, h.pend, rfl, rfl, h.queue, ?_⟩, hend⟩
    dsimp only
    split
    · exact h.arrivals
    · exact h.arrivals

variable (pq g x₀) in
/-- **A job is delivered** from every cell other than that of its pickup station. -/
theorem OnJob.delivered (hclock : Clock dt) (hfit : g.FitsKey) (ho : job.orderId ≠ "")
    {pickup dropoff : Cell} (hfrom : stationCell job.fromStation = some pickup)
    (hto : stationCell job.toStation = some dropoff) (hpickup : g.InBounds pickup)
    (hdropoff : g.InBounds dropoff)
    (h : OnJob job k "" [job.fromStation, job.toStation] x₀.2) (hpd : x₀.2.pendingDest = none)
    (hpath : x₀.2.path = []) (hcell : g.InBounds x₀.2.cell) (hne : pickup ≠ x₀.2.cell)
    (hown : x₀.1.OwnedBy x₀.2.amrId) (hedges : x₀.1.EdgesFrom g x₀.2.cell) :
    ∃ N, ∀ n ≥ N, Resting job.orderId (dropoff :: k) (soloRun pq g dt x₀ n).2 := by
  have hpdv : ∀ {x y}, Coasts g x y → y.2.pendingDest = x.2.pendingDest := fun hc =>
    congrArg (fun v => v.2.2.2.2.2.2.1) hc.job
  -- to the first planning tick, without moving
  obtain ⟨m₁, -, hc₁, hdw₁, hd₁⟩ := leg_ends pq g x₀ (n := 0) hclock h.down h.speed
  have h₁ := h.of_jobView hc₁.job
  have hcell₁ : (soloRun pq g dt x₀ m₁).2.cell = x₀.2.cell := by
    have hstop := hc₁.stop
    rw [AMRSim.stop_of_pathDone hd₁] at hstop
    rw [hstop]
    simp [AMRSim.stop, soloRun, hpath, pathEnd]
  obtain ⟨h₂, hpd₂, hstop₂, hid₂, hown₂, hedges₂⟩ := h₁.plan_pickup pq hfit
    ((hpdv hc₁).trans hpd) hfrom (hcell₁.symm ▸ hne) (hcell₁.symm ▸ hcell) hpickup
    (hc₁.amrId.symm ▸ hc₁.owned hown) (hcell₁.symm ▸ hc₁.edges _ hedges) hdw₁ hd₁ (dt m₁)
  -- along the first leg
  obtain ⟨m₂, -, hc₂, hdw₂, hd₂⟩ := leg_ends pq g x₀ (n := m₁ + 1) hclock h₂.down
    h₂.speed
  have h₃ := h₂.of_jobView hc₂.job
  have hcell₂ : (soloRun pq g dt x₀ m₂).2.cell = pickup := by
    rw [← AMRSim.stop_of_pathDone hd₂]
    exact hc₂.stop.trans hstop₂
  obtain ⟨h₄, hstop₄⟩ := h₃.plan_dropoff pq hfit ho ((hpdv hc₂).trans hpd₂) hto
    (hcell₂.symm ▸ hpickup) hdropoff (hc₂.amrId.symm ▸ hc₂.owned (hid₂.symm ▸ hown₂))
    (hc₂.edges _ hedges₂) hdw₂ hd₂ (dt m₂)
  -- along the second leg
  obtain ⟨m₃, -, hc₃, hdw₃, hd₃⟩ := leg_ends pq g x₀ (n := m₂ + 1) hclock h₄.down
    h₄.speed
  have h₅ := h₄.of_jobView hc₃.job
  have hcell₃ : (soloRun pq g dt x₀ m₃).2.cell = dropoff := by
    rw [← AMRSim.stop_of_pathDone hd₃]
    exact hc₃.stop.trans hstop₄
  have hrest : Resting job.orderId (dropoff :: k) (soloRun pq g dt x₀ (m₃ + 1)).2 := by
    show Resting _ _ (soloTick pq g (dt m₃) (soloRun pq g dt x₀ m₃)).2
    rw [show soloTick pq g (dt m₃) (soloRun pq g dt x₀ m₃) = _ from
      soloTick_plan pq g (dt m₃) (r := (soloRun pq g dt x₀ m₃).1) h₅.down hdw₃ hd₃, ← hcell₃]
    exact (h₅.finish_arrive ho).planLeg _
  exact ⟨m₃ + 1, fun n hn => hrest.run pq g dt x₀ hn⟩

end Legs

/-! ## Standing at the pickup -/

section Stuck

variable {pq : PriorityQueue STNode STNode.Le} {g : Grid} {job : TransportJob} {k : List Cell}

/-- The AMR stands at its pickup station and has that station still to go to. -/
structure Stuck (job : TransportJob) (k : List Cell) (a : AMRSim) : Prop where
  down : a.downtimeRemainingS ≤ 0
  cell : stationCell job.fromStation = some a.cell
  path : a.path = []
  pend : a.pendingOrderId = job.orderId
  arrivals : arrivalCells job.orderId a.history = k
  stage : (a.carryingOrderId = "" ∧ a.destinations = [job.fromStation, job.toStation] ∧
      a.pendingDest = none) ∨
    (a.destinations = [job.toStation] ∧ a.pendingDest = some job.fromStation)

/-- At the end of the empty path nothing is delivered. -/
theorem Stuck.finish {a : AMRSim} (h : Stuck job k a) :
    Stuck job k a.finishLeg.startQueued := by
  obtain ⟨hdown, hcell, hpath, hpend, harr, hstage⟩ := h
  have hdest : a.destinations ≠ [] := by
    rcases hstage with ⟨-, hd, -⟩ | ⟨hd, -⟩ <;> simp [hd]
  have hfin : Stuck job k a.finishLeg ∧ a.finishLeg.destinations = a.destinations := by
    unfold AMRSim.finishLeg
    rw [if_neg (by simp [hdest])]
    split
    · next hload =>
      refine ⟨⟨hdown, hcell, hpath, hpend, harr, ?_⟩, rfl⟩
      rcases hstage with ⟨-, hd, -⟩ | hstage
      · simp [hd] at hload
      · exact Or.inr hstage
    · exact ⟨⟨hdown, hcell, hpath, hpend, harr, hstage⟩, rfl⟩
  unfold AMRSim.startQueued
  rw [if_neg (by simp [hfin.2, hdest])]
  exact hfin.1

/-- The planner answers the empty path, and the pickup station is retained. -/
theorem Stuck.planLeg {a : AMRSim} (h : Stuck job k a) (r : Reservations) :
    Stuck job k (AMRSim.planLeg pq g r a).2 := by
  obtain ⟨hdown, hcell, hpath, hpend, harr, hstage⟩ := h
  obtain ⟨b, hpop, hpl, hbd, hbp, hb⟩ : ∃ b : AMRSim, a.popDest.1 = some job.fromStation ∧
      a.planned = (a.cell, b) ∧ b.destinations = [job.toStation] ∧
      b.pendingOrderId = a.pendingOrderId ∧ b.downtimeRemainingS = a.downtimeRemainingS ∧
      b.cell = a.cell ∧ b.history = a.history := by
    rcases hstage with ⟨-, hd, hp⟩ | ⟨hd, hp⟩
    · obtain ⟨hpop, hpl⟩ := AMRSim.planned_next hp hd hcell
      exact ⟨_, hpop, hpl, rfl, rfl, rfl, rfl, rfl⟩
    · obtain ⟨hpop, hpl⟩ := AMRSim.planned_retained hp hcell
      exact ⟨_, hpop, hpl, hd, rfl, rfl, rfl, rfl⟩
  rcases AMRSim.planLeg_cases pq g r a with ⟨path, hne, -, -, hs, -⟩ | ⟨-, heq⟩
  · rw [hpl, spaceTimeAStar_self] at hs
    exact absurd (Option.some.inj hs).symm hne
  · rw [heq, hpl, hpop, AMRSim.denyLeg_eq]
    refine ⟨hb.1.trans_le hdown, hcell.trans (congrArg _ hb.2.1.symm), rfl, hbp.trans hpend, ?_,
      Or.inr ⟨hbd, rfl⟩⟩
    rw [← harr, ← hb.2.2]
    dsimp only
    split <;> rfl

theorem Stuck.tick {x : Reservations × AMRSim} (h : Stuck job k x.2) (dt : ℚ) :
    Stuck job k (soloTick pq g dt x).2 := by
  obtain ⟨r, a⟩ := x
  by_cases hdwell : 0 < a.dwellRemaining
  · rw [soloTick_dwell pq g dt h.down hdwell]
    exact ⟨h.down, h.cell, h.path, h.pend, h.arrivals, h.stage⟩
  · rw [soloTick_plan pq g dt h.down (not_lt.mp hdwell) (Or.inl h.path)]
    exact h.finish.planLeg r

variable (pq g) in
theorem Stuck.run (dt : ℕ → ℚ) (x₀ : Reservations × AMRSim) (h : Stuck job k x₀.2) (n : ℕ) :
    Stuck job k (soloRun pq g dt x₀ n).2 := by
  induction n with
  | zero => exact h
  | succ n ih => exact ih.tick _

end Stuck

/-! ## The artifact -/

namespace AMRArtifact

variable {pq : PriorityQueue STNode STNode.Le}

/-- The first `n` ticks of a schedule. -/
def ticks (simTime dt : ℕ → ℚ) (draws : ℕ → ℕ → ℚ × ℚ) (n : ℕ) : List AMROp :=
  (List.range n).map fun k => .updatePositions (simTime k) (dt k) (draws k)

/-- From some tick on, the arrival of the job's order has been signalled once more than
before the commit, and every AMR is free. -/
def Completes (pq : PriorityQueue STNode STNode.Le) (s : AMRArtifact) (job : TransportJob)
    (simTime dt : ℕ → ℚ) (draws : ℕ → ℕ → ℚ × ℚ) : Prop :=
  ∃ N, ∀ n ≥ N,
    let s' := Runs.run (exec pq) (.reserveTransport job :: ticks simTime dt draws n) s
    s'.total (fun a => arrivedCount job.orderId a.history)
        = s.total (fun a => arrivedCount job.orderId a.history) + 1 ∧
      ∀ a ∈ s'.fleet, a.IsFree

/-- The fleet is one free AMR inside the grid, without breakdowns and with nothing but
its own occupancy in the table. -/
structure Fresh (s : AMRArtifact) (a : AMRSim) : Prop where
  fleet : s.fleet = [a]
  mtbf : s.mtbfSeconds = none
  free : a.IsFree
  queue : a.jobQueue = []
  dest : a.pendingDest = none
  speed : 0 < a.secPerCell
  cell : s.grid.InBounds a.cell
  owned : s.reservations.OwnedBy a.amrId
  edges : s.reservations.edgeReservations = []

variable (pq) in
/-- A tick of a fleet of one. -/
theorem exec_tick_solo {s : AMRArtifact} {a : AMRSim} (hfleet : s.fleet = [a])
    (hmtbf : s.mtbfSeconds = none) (simTime dt : ℚ) (draws : ℕ → ℚ × ℚ) :
    let s' := exec pq (.updatePositions simTime dt draws) s
    s'.grid = s.grid ∧ s'.mtbfSeconds = none ∧
      s'.reservations = (soloTick pq s.grid dt (s.reservations, a)).1 ∧
      s'.fleet = [(soloTick pq s.grid dt (s.reservations, a)).2] := by
  have horder : planningOrder [a] = [0] := rfl
  simp only [exec, updatePositions, hfleet, hmtbf, horder, Runs.run_cons, Runs.run_nil, stepAt,
    List.getElem?_cons_zero, soloTick, stepAMR_none _ _ (draws 0) (0, 0)]
  simp

theorem run_ticks_solo {s : AMRArtifact} {a : AMRSim} (hfleet : s.fleet = [a])
    (hmtbf : s.mtbfSeconds = none) (simTime dt : ℕ → ℚ) (draws : ℕ → ℕ → ℚ × ℚ) (n : ℕ) :
    let s' := Runs.run (exec pq) (ticks simTime dt draws n) s
    s'.grid = s.grid ∧ s'.mtbfSeconds = none ∧
      s'.reservations = (soloRun pq s.grid dt (s.reservations, a) n).1 ∧
      s'.fleet = [(soloRun pq s.grid dt (s.reservations, a) n).2] := by
  induction n with
  | zero => exact ⟨rfl, hmtbf, rfl, hfleet⟩
  | succ n ih =>
    obtain ⟨hg, hm, hr, hf⟩ := ih
    have hsplit : ticks simTime dt draws (n + 1)
        = ticks simTime dt draws n ++ [.updatePositions (simTime n) (dt n) (draws n)] := by
      simp [ticks, List.range_succ]
    have hstep := exec_tick_solo pq hf hm (simTime n) (dt n) (draws n)
    rw [hg, hr] at hstep
    rw [hsplit]
    simp only [Runs.run_append, Runs.run_cons, Runs.run_nil]
    exact hstep

/-- The commit of a job to a fleet of one. -/
theorem exec_reserve_solo {s : AMRArtifact} {a : AMRSim} (hs : s.Fresh a) (job : TransportJob) :
    exec pq (.reserveTransport job) s = { s with fleet := [a.takeJob job] } := by
  have hchosen : s.chosenAMR = some (0, a.load) := by
    rw [chosenAMR, hs.fleet]
    rfl
  simp [exec, reserveTransport, hchosen, hs.fleet]

theorem takeJob_of_free {a : AMRSim} (hfree : a.IsFree) {job : TransportJob}
    (hfrom : job.fromStation ≠ "start") :
    a.takeJob job =
      { a with
        destinations := [job.fromStation, job.toStation]
        carryingOrderId := ""
        pendingOrderId := job.orderId
        path := []
        progress := 0
        history := .started job :: .committed job :: a.history } := by
  unfold AMRSim.takeJob
  rw [if_pos (show AMRSim.IsFree { a with history := .committed job :: a.history } from hfree),
    AMRSim.startJob_pickup hfrom]

variable (pq) in
/-- The run of a fleet of one after the commit. -/
theorem run_solo {s : AMRArtifact} {a : AMRSim} (hs : s.Fresh a) (job : TransportJob)
    (simTime dt : ℕ → ℚ) (draws : ℕ → ℕ → ℚ × ℚ) (n : ℕ) :
    (Runs.run (exec pq) (.reserveTransport job :: ticks simTime dt draws n) s).fleet
      = [(soloRun pq s.grid dt (s.reservations, a.takeJob job) n).2] := by
  rw [Runs.run_cons, exec_reserve_solo hs]
  exact (run_ticks_solo (s := { s with fleet := [a.takeJob job] }) rfl hs.mtbf simTime dt draws
    n).2.2.2

theorem mem_stationCells {station : String} {c : Cell} (h : stationCell station = some c) :
    c ∈ stationCells := by
  obtain ⟨i, -, hi⟩ := Option.bind_eq_some_iff.mp h
  exact List.mem_of_getElem? hi

/-- While no arrival is added to its history, the AMR has not completed the job. -/
theorem total_ne_of_arrivals {s : AMRArtifact} {a : AMRSim} (hs : s.Fresh a) {job : TransportJob}
    {simTime dt : ℕ → ℚ} {draws : ℕ → ℕ → ℚ × ℚ} {n : ℕ}
    (harr : arrivalCells job.orderId
        (soloRun pq s.grid dt (s.reservations, a.takeJob job) n).2.history
      = arrivalCells job.orderId a.history) :
    (Runs.run (exec pq) (.reserveTransport job :: ticks simTime dt draws n) s).total
        (fun a => arrivedCount job.orderId a.history)
      ≠ s.total (fun a => arrivedCount job.orderId a.history) + 1 := by
  rw [total, total, hs.fleet, run_solo pq hs, List.map_singleton, List.sum_singleton,
    List.map_singleton, List.sum_singleton, ← length_arrivalCells, harr, length_arrivalCells]
  omega

/-- **An AMR on the cell of the pickup station never completes the job.** -/
theorem not_completes_of_at_pickup {s : AMRArtifact} {a : AMRSim} (hs : s.Fresh a)
    {job : TransportJob} (hcell : stationCell job.fromStation = some a.cell)
    (simTime dt : ℕ → ℚ) (draws : ℕ → ℕ → ℚ × ℚ) :
    ¬ Completes pq s job simTime dt draws := by
  rintro ⟨N, hN⟩
  have hstart : job.fromStation ≠ "start" := by
    intro h
    rw [h, show stationCell "start" = none by decide] at hcell
    cases hcell
  have hstuck : Stuck job (arrivalCells job.orderId a.history) (a.takeJob job) := by
    rw [takeJob_of_free hs.free hstart]
    exact ⟨hs.free.1, hcell, rfl, rfl, rfl, Or.inl ⟨rfl, rfl, hs.dest⟩⟩
  exact total_ne_of_arrivals hs (hstuck.run pq s.grid dt (s.reservations, a.takeJob job) N).arrivals
    (hN N le_rfl).1

/-- The factory's grid with one AMR, standing on station_1. -/
def atStation1 : AMRSim := { initAMR ⟨20, 12⟩ 0 with cell := ⟨2, 2⟩, next := ⟨2, 2⟩ }

/-- The factory with that AMR as its fleet. -/
def loneAtStation1 : AMRArtifact := { init 20 12 1 none with fleet := [atStation1] }

theorem fresh_loneAtStation1 : loneAtStation1.Fresh atStation1 where
  fleet := rfl
  mtbf := rfl
  free := by decide
  queue := rfl
  dest := rfl
  speed := by norm_num [atStation1, initAMR]
  cell := by decide
  owned _ _ := Or.inl rfl
  edges := rfl

end AMRArtifact

end MatrixFactory
