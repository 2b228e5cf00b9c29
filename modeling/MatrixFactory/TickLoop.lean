/-
# The tick loop and its three clocks

`tickLoop` of `MainSimulator` with the server's `AdvanceTime`.  Each tick computes one
`computedDt`, which is to advance the simulator's `currentTime`, the thermal model
behind the RPC and the AMR fleet.  A tick can fail at every step; the loop logs the
exception and goes on.  `clocksAgree_iff` says which failures tear the clocks apart.

The dt values that the thermal model integrated and that `updatePositions` was called
with are recorded in lists.  Times are exact rationals where the code has `double`.
-/
import MatrixFactory.NerRegistry
import Mathlib.Algebra.BigOperators.Group.List.Basic

namespace MatrixFactory

/-- Where the RPC fails, if it does. -/
inductive RpcFault where
  | none
  | requestLost
  | replyLost
  deriving DecidableEq, Repr

/-- Where the handler of `AdvanceTime` raises an exception, if it does: before or after
the thermal step. -/
inductive ServerFault where
  | none
  | beforeStep
  | afterStep
  deriving DecidableEq, Repr

/-- What a tick meets: the entries of the NER registry when it reads them, and the
steps that throw.  `interrupted` is the wait for the NER quorum, `vectorLength` the
check of the state vector, `beforePositions` the timers and the price update, and
`afterPositions` whatever follows the AMR fleet. -/
structure TickInput where
  nerRegistry : List NEREntry := []
  interrupted : Bool := false
  rpc : RpcFault := .none
  server : ServerFault := .none
  vectorLength : Bool := false
  beforePositions : Bool := false
  afterPositions : Bool := false

/-- `StepReady`, without the state vector. -/
structure StepReady where
  targetTime : ℚ
  success : Bool

/-- The simulator with the two components it drives. -/
structure Sim where
  currentTime : ℚ
  thermalDts : List ℚ := []
  positionDts : List ℚ := []
  ticks : ℕ := 0
  shutdown : Bool := false

/-- Steps that may throw. -/
abbrev TickM := ExceptT String (StateM Sim)

/-- An exception, if the flag is set. -/
def throwIf (b : Bool) (msg : String) : TickM Unit := if b then throw msg else pure ()

/-- `AdvanceTime` of the server. -/
def serverAdvanceTime (fault : ServerFault) (t dt : ℚ) : TickM StepReady :=
  tryCatch
    (do
      throwIf (fault = .beforeStep) "AdvanceTime error"
      modify fun s => { s with thermalDts := dt :: s.thermalDts }
      throwIf (fault = .afterStep) "AdvanceTime error"
      return ⟨t + dt, true⟩)
    fun _ => return ⟨t, false⟩

/-- `advanceTime` of the gRPC bridge. -/
def advanceTime (f : TickInput) (t dt : ℚ) : TickM StepReady := do
  throwIf (f.rpc = .requestLost) "UNAVAILABLE"
  let ready ← serverAdvanceTime f.server t dt
  throwIf (f.rpc = .replyLost) "UNAVAILABLE"
  return ready

/-- `computedDt`: the soonest request, between `MIN_DT` and `MAX_DT`. -/
def computedDt (currentTime : ℚ) (nerRegistry : List NEREntry) : ℚ :=
  max (1 / 100) (min 1 (nerRegistry.foldl
    (fun dt e => if e.requestedNextTime - currentTime < dt
      then e.requestedNextTime - currentTime else dt) 1))

/-- The body of the `try` block of `tickLoop`. -/
def tickBody (f : TickInput) : TickM Unit := do
  throwIf f.interrupted "InterruptedException"
  let s ← get
  let dt := computedDt s.currentTime f.nerRegistry
  let ready ← advanceTime f s.currentTime dt
  throwIf f.vectorLength "thermo_state_vector length mismatch"
  modify fun s => { s with currentTime := ready.targetTime }
  throwIf f.beforePositions "updatePrice"
  modify fun s => { s with positionDts := dt :: s.positionDts }
  throwIf f.afterPositions "updateFromStateVector"
  modify fun s => { s with ticks := s.ticks + 1 }

namespace Sim

/-- The limits `maxTicks` and `maxSimTime`; zero means none. -/
def LimitReached (maxTicks : ℕ) (maxSimTime : ℚ) (s : Sim) : Prop :=
  (0 < maxTicks ∧ maxTicks ≤ s.ticks) ∨ (0 < maxSimTime ∧ maxSimTime ≤ s.currentTime)

instance (maxTicks : ℕ) (maxSimTime : ℚ) (s : Sim) :
    Decidable (s.LimitReached maxTicks maxSimTime) := by
  unfold LimitReached; infer_instance

/-- The loop makes another tick. -/
def Running (maxTicks : ℕ) (maxSimTime : ℚ) (s : Sim) : Prop :=
  s.shutdown = false ∧ ¬ s.LimitReached maxTicks maxSimTime

instance (maxTicks : ℕ) (maxSimTime : ℚ) (s : Sim) :
    Decidable (s.Running maxTicks maxSimTime) := by
  unfold Running; infer_instance

/-- One round of `tickLoop`; an exception is caught. -/
def tickLoop (maxTicks : ℕ) (maxSimTime : ℚ) (f : TickInput) (s : Sim) : Sim :=
  if s.Running maxTicks maxSimTime then ((tickBody f).run s).2 else { s with shutdown := true }

/-- The simulator at the start. -/
def start (t₀ : ℚ) : Sim := { currentTime := t₀ }

/-- Since `t₀`, the simulator's time, the AMR fleet and the thermal model have advanced
by the same amount. -/
def ClocksAgree (t₀ : ℚ) (s : Sim) : Prop :=
  s.currentTime - t₀ = s.positionDts.sum ∧ s.positionDts.sum = s.thermalDts.sum

end Sim

namespace TickInput

/-- The tick throws before the thermal step, and never reaches the AMR fleet. -/
def Nothing (f : TickInput) : Prop :=
  f.interrupted = true ∨ f.rpc = .requestLost ∨
    (f.server = .beforeStep ∧
      (f.rpc = .replyLost ∨ f.vectorLength = true ∨ f.beforePositions = true))

/-- Nothing throws up to the step of the AMR fleet. -/
def All (f : TickInput) : Prop :=
  f.interrupted = false ∧ f.rpc = .none ∧ f.server = .none ∧ f.vectorLength = false ∧
    f.beforePositions = false

/-- The tick takes its step on all sides or on none. -/
def AllOrNothing (f : TickInput) : Prop := f.All ∨ f.Nothing

instance (f : TickInput) : Decidable f.AllOrNothing := by
  unfold AllOrNothing All Nothing; infer_instance

end TickInput

/-! ## One tick -/

theorem computedDt_pos (t : ℚ) (nerRegistry : List NEREntry) : 0 < computedDt t nerRegistry :=
  lt_max_of_lt_left (by norm_num)

namespace TickInput

/-- The thermal model integrates the step. -/
def Integrates (f : TickInput) : Prop :=
  f.interrupted = false ∧ f.rpc ≠ .requestLost ∧ f.server ≠ .beforeStep

/-- `currentTime` advances. -/
def Advances (f : TickInput) : Prop :=
  f.interrupted = false ∧ f.rpc = .none ∧ f.server = .none ∧ f.vectorLength = false

/-- `updatePositions` is called. -/
def Drives (f : TickInput) : Prop :=
  f.interrupted = false ∧ f.rpc = .none ∧ f.vectorLength = false ∧ f.beforePositions = false

instance (f : TickInput) : Decidable f.Integrates := by unfold Integrates; infer_instance

instance (f : TickInput) : Decidable f.Advances := by unfold Advances; infer_instance

instance (f : TickInput) : Decidable f.Drives := by unfold Drives; infer_instance

/-- All or nothing: the three effects go together. -/
theorem allOrNothing_iff (f : TickInput) :
    f.AllOrNothing ↔ (f.Advances ↔ f.Drives) ∧ (f.Drives ↔ f.Integrates) := by
  obtain ⟨reg, int, rpc, server, vec, bp, ap⟩ := f
  unfold AllOrNothing All Nothing Integrates Advances Drives
  cases int <;> cases rpc <;> cases server <;> cases vec <;> cases bp <;> simp

end TickInput

/-- What a tick does to the three clocks. -/
theorem tickBody_clocks (f : TickInput) (s : Sim) :
    let dt := computedDt s.currentTime f.nerRegistry
    let s' := ((tickBody f).run s).2
    s'.currentTime = (if f.Advances then s.currentTime + dt else s.currentTime) ∧
      s'.positionDts = (if f.Drives then dt :: s.positionDts else s.positionDts) ∧
      s'.thermalDts = (if f.Integrates then dt :: s.thermalDts else s.thermalDts) := by
  obtain ⟨reg, int, rpc, server, vec, bp, ap⟩ := f
  -- every choice of the steps that throw can be evaluated
  cases int <;> cases rpc <;> cases server <;> cases vec <;> cases bp <;> cases ap <;>
    exact ⟨rfl, rfl, rfl⟩

/-- Each clock advances by the same `dt`, if it does. -/
theorem tickBody_advance (f : TickInput) (s : Sim) :
    let dt := computedDt s.currentTime f.nerRegistry
    let s' := ((tickBody f).run s).2
    s'.currentTime = s.currentTime + (if f.Advances then dt else 0) ∧
      s'.positionDts.sum = s.positionDts.sum + (if f.Drives then dt else 0) ∧
      s'.thermalDts.sum = s.thermalDts.sum + (if f.Integrates then dt else 0) := by
  obtain ⟨htime, hpos, htherm⟩ := tickBody_clocks f s
  refine ⟨htime.trans ?_, (congrArg List.sum hpos).trans ?_, (congrArg List.sum htherm).trans ?_⟩
  · split <;> simp
  · split <;> simp [add_comm]
  · split <;> simp [add_comm]

/-! ## The clocks -/

namespace Sim

variable {t₀ maxSimTime : ℚ} {maxTicks : ℕ} {s : Sim}

/-- A round after the limit moves no clock. -/
theorem clocksAgree_of_not_running (f : TickInput) (hrun : ¬ s.Running maxTicks maxSimTime) :
    ClocksAgree t₀ (tickLoop maxTicks maxSimTime f s) ↔ ClocksAgree t₀ s := by
  rw [tickLoop, if_neg hrun]
  exact Iff.rfl

/-- Two clocks that take the same positive step or none stay together exactly when both
take it. -/
theorem step_eq_step_iff {dt : ℚ} (hdt : 0 < dt) (P Q : Prop) [Decidable P] [Decidable Q] :
    (if P then dt else 0) = (if Q then dt else 0) ↔ (P ↔ Q) := by
  by_cases hP : P <;> by_cases hQ : Q <;> simp [hP, hQ, hdt.ne, hdt.ne']

/-- A tick keeps the clocks together exactly when it moves all of them or none. -/
theorem clocksAgree_tick (f : TickInput) (hrun : s.Running maxTicks maxSimTime)
    (hs : ClocksAgree t₀ s) :
    ClocksAgree t₀ (tickLoop maxTicks maxSimTime f s) ↔ f.AllOrNothing := by
  have hdt := computedDt_pos s.currentTime f.nerRegistry
  obtain ⟨htime, hpos, htherm⟩ := tickBody_advance f s
  obtain ⟨hct, hpt⟩ := hs
  rw [tickLoop, if_pos hrun, f.allOrNothing_iff, ← step_eq_step_iff hdt f.Advances,
    ← step_eq_step_iff hdt f.Drives, ClocksAgree, htime, hpos, htherm, add_sub_right_comm, hct,
    ← hpt, add_right_inj, add_right_inj]

/-- One round of the loop. -/
theorem clocksAgree_step (f : TickInput) (hs : ClocksAgree t₀ s) :
    ClocksAgree t₀ (tickLoop maxTicks maxSimTime f s) ↔
      (s.Running maxTicks maxSimTime → f.AllOrNothing) := by
  by_cases hrun : s.Running maxTicks maxSimTime
  · rw [clocksAgree_tick f hrun hs]
    exact ⟨fun h _ => h, fun h => h hrun⟩
  · rw [clocksAgree_of_not_running f hrun]
    exact iff_of_true hs fun h => absurd h hrun

theorem clocksAgree_run (fs : List TickInput) (hs : ClocksAgree t₀ s) :
    Runs.Along (tickLoop maxTicks maxSimTime)
        (fun s f => ClocksAgree t₀ (tickLoop maxTicks maxSimTime f s)) s fs ↔
      Runs.Along (tickLoop maxTicks maxSimTime)
        (fun s f => s.Running maxTicks maxSimTime → f.AllOrNothing) s fs := by
  induction fs generalizing s with
  | nil => exact Iff.rfl
  | cons f fs ih =>
    constructor
    · rintro ⟨hagree, hrest⟩
      exact ⟨(clocksAgree_step f hs).mp hagree, (ih hagree).mp hrest⟩
    · rintro ⟨hall, hrest⟩
      have hagree := (clocksAgree_step f hs).mpr hall
      exact ⟨hagree, (ih hagree).mpr hrest⟩

theorem clocksAgree_start (t₀ : ℚ) : ClocksAgree t₀ (start t₀) := by
  simp [ClocksAgree, start]

/-- **The three clocks agree after every tick of a run exactly when each tick takes its
step on all sides or on none.** -/
theorem clocksAgree_iff (maxTicks : ℕ) (maxSimTime t₀ : ℚ) (fs : List TickInput) :
    Runs.Along (tickLoop maxTicks maxSimTime)
        (fun s f => ClocksAgree t₀ (tickLoop maxTicks maxSimTime f s)) (start t₀) fs ↔
      Runs.Along (tickLoop maxTicks maxSimTime)
        (fun s f => s.Running maxTicks maxSimTime → f.AllOrNothing) (start t₀) fs :=
  clocksAgree_run fs (clocksAgree_start t₀)

/-- The thermal step fails, the server answers `success = false`, and the tick drives the
AMR fleet all the same. -/
theorem not_clocksAgree :
    ¬ ∀ (maxTicks : ℕ) (maxSimTime t₀ : ℚ) (fs : List TickInput),
      Runs.Along (tickLoop maxTicks maxSimTime)
        (fun s f => ClocksAgree t₀ (tickLoop maxTicks maxSimTime f s)) (start t₀) fs := by
  intro h
  obtain ⟨⟨htime, -⟩, -⟩ := h 0 0 0 [{ server := .beforeStep }]
  revert htime
  decide +kernel

end Sim

end MatrixFactory
