/-
# Batch tests and the advance of time

`AdvanceTime` and `RunBatchTest` of the physics server, on the thermal model of the stack and the
shared state vector.  `AdvanceTime` holds the lock throughout.  A batch test reads the model,
computes its sweep, writes the end of the sweep to the model and then mirrors the points of the
sweep into the vector, each under the lock; in between anything can happen.

The kernels of the electrochemistry are parameters, and the numbers are of any type with the four
operations.
-/
import MatrixFactory.Lib.Runs
import Mathlib.Algebra.Order.Ring.Unbundled.Rat
import Mathlib.Logic.Function.Basic

namespace MatrixFactory

open Runs

/-- The parameters and the temperatures of `StackThermalModel`. -/
structure StackThermalModel (V : Type) where
  cCore : V
  cSkin : V
  hAInternal : V
  hAExternal : V
  tCore : V
  tSkin : V
  deriving DecidableEq, Repr

/-- The state vector, without the filling of the tank, which nothing here reads. -/
structure ThermoState (V : Type) where
  h2TankPressureBar : V
  chillerTempK : V
  compressorPowerKw : V
  stackVoltageV : V
  stackCurrentACm2 : V
  stackTempK : V
  stackCoreTempK : V
  stackSkinTempK : V
  deriving DecidableEq, Repr

/-- A point of a sweep. -/
structure SweepPoint (V : Type) where
  current : V
  voltage : V
  core : V
  skin : V
  deriving DecidableEq, Repr

/-- The kernels, for requests of the type `R`: the heat of `AdvanceTime`, its heater included, from
the current as it is read and as it is used, the core temperature and the tank's pressure; the
compressor's power; the current densities of a test, and the voltage and the heat at one of them and
a core temperature.  `tiny` tells the currents below `1e-10`, and `half` is `0.5`. -/
structure BatchEnv (V R : Type) where
  zero : V
  half : V
  tiny : V → Bool
  heat : V → V → V → V → V
  power : V → V
  jValues : R → List V
  jValues_ne_nil : ∀ r, jValues r ≠ []
  voltage : R → V → V → V
  sweepHeat : R → V → V → V
  sweepDt : V

/-- Where a batch test is. -/
inductive BatchPhase (V : Type)
  /-- before it reads the temperatures -/
  | started
  /-- the sweep is computed -/
  | swept (points : List (SweepPoint V))
  /-- the model is written, `rest` is still to be mirrored -/
  | mirroring (rest : List (SweepPoint V))
  deriving DecidableEq, Repr

/-- A batch test.  `stale` tells that time has advanced since it read the temperatures. -/
structure BatchTest (V R : Type) where
  request : R
  phase : BatchPhase V
  stale : Bool

/-- What the temperatures of the vector come from. -/
inductive VectorSource (V : Type)
  /-- the model -/
  | model
  /-- the last point of the test that wrote the model last -/
  | lastPoint (p : SweepPoint V)
  /-- neither of them -/
  | other
  deriving DecidableEq, Repr

/-- The server, with the tests that are under way.  `writer` is the test that has written the
model since time advanced last, `undone` tells that a test has written what it computed before
time advanced. -/
structure SimBridge (V R : Type) where
  thermal : StackThermalModel V
  state : ThermoState V
  tests : ℕ → Option (BatchTest V R)
  writer : Option ℕ
  source : VectorSource V
  undone : Bool

/-- Where an exception leaves `AdvanceTime`, if there is one: the thermal model has not been
stepped then. -/
inductive AdvanceOutcome
  | done
  | failedBefore
  | failedAfterCurrent
  deriving DecidableEq, Repr

/-- What can happen: `AdvanceTime`, and the steps of a batch test. -/
inductive BridgeOp (V R : Type)
  | advanceTime (dt : V) (outcome : AdvanceOutcome)
  | runBatchTest (k : ℕ) (request : R)
  | sweep (k : ℕ)
  | writeModel (k : ℕ)
  | mirror (k : ℕ)
  | answer (k : ℕ)
  | abort (k : ℕ)

variable {V R : Type}

namespace SimBridge

/-- After the start. -/
def start (m : StackThermalModel V) (state : ThermoState V) : SimBridge V R where
  thermal := m
  state := { state with
    stackTempK := m.tCore, stackCoreTempK := m.tCore, stackSkinTempK := m.tSkin }
  tests _ := none
  writer := none
  source := .model
  undone := false

/-- A test goes on. -/
def goOn (k : ℕ) (test : BatchTest V R) (s : SimBridge V R) : SimBridge V R :=
  { s with tests := Function.update s.tests k (some test) }

/-- A test is over. -/
def finish (k : ℕ) (s : SimBridge V R) : SimBridge V R :=
  { s with tests := Function.update s.tests k none }

/-- The end of the sweep is written to the model. -/
def writeModel (k : ℕ) (test : BatchTest V R) (points : List (SweepPoint V)) (s : SimBridge V R) :
    SimBridge V R :=
  match points.getLast? with
  | none => s
  | some p =>
    { s.goOn k { test with phase := .mirroring points } with
      thermal := { s.thermal with tCore := p.core, tSkin := p.skin }
      writer := some k
      source := .other
      undone := s.undone || test.stale }

/-- No test is under way. -/
def Quiet (s : SimBridge V R) : Prop := ∀ k, s.tests k = none

theorem goOn_self (k : ℕ) (test : BatchTest V R) (s : SimBridge V R) :
    (s.goOn k test).tests k = some test := Function.update_self _ _ _

theorem goOn_of_ne {k k' : ℕ} (hk : k' ≠ k) (test : BatchTest V R) (s : SimBridge V R) :
    (s.goOn k test).tests k' = s.tests k' := Function.update_of_ne hk _ _

/-- While a test goes on the server is not quiet. -/
theorem not_quiet {s : SimBridge V R} {k : ℕ} {test : BatchTest V R}
    (h : s.tests k = some test) : ¬ s.Quiet :=
  fun hquiet => nomatch h.symm.trans (hquiet k)

theorem finish_self (k : ℕ) (s : SimBridge V R) : (s.finish k).tests k = none :=
  Function.update_self _ _ _

theorem finish_of_ne {k k' : ℕ} (hk : k' ≠ k) (s : SimBridge V R) :
    (s.finish k).tests k' = s.tests k' := Function.update_of_ne hk _ _

end SimBridge

/-! ## The thermal model and the sweep -/

variable [Add V] [Sub V] [Mul V] [Div V]

/-- `StackThermalModel.step`, as far as the temperatures are concerned. -/
def StackThermalModel.step (m : StackThermalModel V) (dt qGen tCoolant : V) : StackThermalModel V :=
  let dCore := (qGen - m.hAInternal * (m.tCore - m.tSkin)) / m.cCore
  let dSkin := (m.hAInternal * (m.tCore - m.tSkin) - m.hAExternal * (m.tSkin - tCoolant)) / m.cSkin
  { m with tCore := m.tCore + dt * dCore, tSkin := m.tSkin + dt * dSkin }

/-- `_thermal_step_jit`. -/
def thermalStepJit (m : StackThermalModel V) (core skin dt qGen tCoolant : V) : V × V :=
  let qInt := (core - skin) * m.hAInternal
  let qExt := (skin - tCoolant) * m.hAExternal
  (core + (qGen - qInt) / m.cCore * dt, skin + (qInt - qExt) / m.cSkin * dt)

/-- The loop of `batch_polarization_sweep_thermal`. -/
def sweepFrom (env : BatchEnv V R) (m : StackThermalModel V) (r : R) (tCoolant : V) :
    List V → V → V → List (SweepPoint V)
  | [], _, _ => []
  | j :: js, core, skin =>
    let next := thermalStepJit m core skin env.sweepDt (env.sweepHeat r j core) tCoolant
    ⟨j, env.voltage r j core, core, skin⟩ :: sweepFrom env m r tCoolant js next.1 next.2

/-- `batch_polarization_sweep_thermal`; both temperatures begin at that of the core. -/
def batchSweep (env : BatchEnv V R) (m : StackThermalModel V) (tCoolant : V) (r : R) :
    List (SweepPoint V) :=
  sweepFrom env m r tCoolant (env.jValues r) m.tCore m.tCore

namespace SimBridge

/-- `AdvanceTime`. -/
def advanceTime (env : BatchEnv V R) (dt : V) (outcome : AdvanceOutcome) (s : SimBridge V R) :
    SimBridge V R :=
  let j := if env.tiny s.state.stackCurrentACm2 then env.zero else s.state.stackCurrentACm2
  match outcome with
  | .failedBefore => s
  | .failedAfterCurrent => { s with state := { s.state with stackCurrentACm2 := j } }
  | .done =>
    let qGen := env.heat s.state.stackCurrentACm2 j s.state.stackCoreTempK
      s.state.h2TankPressureBar
    let thermal := s.thermal.step dt qGen s.state.chillerTempK
    { s with
      thermal := thermal
      state := { s.state with
        stackCurrentACm2 := j
        stackCoreTempK := thermal.tCore
        stackSkinTempK := thermal.tSkin
        stackTempK := thermal.tCore
        compressorPowerKw := env.power s.state.stackCurrentACm2 }
      tests := fun k => (s.tests k).map fun test => { test with stale := true }
      writer := none
      source := .model }

/-- A point of the sweep is mirrored into the vector. -/
def mirror (env : BatchEnv V R) (k : ℕ) (test : BatchTest V R) (p : SweepPoint V)
    (rest : List (SweepPoint V)) (s : SimBridge V R) : SimBridge V R :=
  { s.goOn k { test with phase := .mirroring rest } with
    state := { s.state with
      stackCurrentACm2 := p.current
      stackVoltageV := p.voltage
      stackCoreTempK := p.core
      stackSkinTempK := p.skin
      stackTempK := env.half * (p.core + p.skin) }
    source := if rest = [] ∧ s.writer = some k then .lastPoint p else .other
    undone := s.undone || test.stale }

/-- One step. -/
def exec (env : BatchEnv V R) (op : BridgeOp V R) (s : SimBridge V R) : SimBridge V R :=
  match op with
  | .advanceTime dt outcome => s.advanceTime env dt outcome
  | .runBatchTest k request =>
    match s.tests k with
    | none => s.goOn k ⟨request, .started, false⟩
    | some _ => s
  | .sweep k =>
    match s.tests k with
    | some ⟨request, .started, _⟩ =>
      s.goOn k ⟨request, .swept (batchSweep env s.thermal s.state.chillerTempK request), false⟩
    | _ => s
  | .writeModel k =>
    match s.tests k with
    | some ⟨request, .swept points, stale⟩ =>
      s.writeModel k ⟨request, .swept points, stale⟩ points
    | _ => s
  | .mirror k =>
    match s.tests k with
    | some ⟨request, .mirroring (p :: rest), stale⟩ =>
      s.mirror env k ⟨request, .mirroring (p :: rest), stale⟩ p rest
    | _ => s
  | .answer k =>
    match s.tests k with
    | some ⟨_, .mirroring [], _⟩ =>
      { s.finish k with state := { s.state with stackCurrentACm2 := env.zero } }
    | _ => s
  | .abort k => s.finish k

/-! ## What is meant to hold -/

/-- The temperatures of the vector are those of the model, the stack's being that of the core. -/
def Agrees (s : SimBridge V R) : Prop :=
  s.state.stackCoreTempK = s.thermal.tCore ∧ s.state.stackSkinTempK = s.thermal.tSkin ∧
    s.state.stackTempK = s.thermal.tCore

/-- When no call is under way the vector agrees with the model, and no advance of time has been
undone. -/
structure Consistent (s : SimBridge V R) : Prop where
  agrees : s.Quiet → s.Agrees
  kept : s.undone = false

/-- The temperatures of the vector come from the model, or from the last point of the test that
wrote the model last, and at that point core and skin have the core's temperature on average. -/
def Settled (env : BatchEnv V R) (s : SimBridge V R) : Prop :=
  match s.source with
  | .model => True
  | .lastPoint p => env.half * (p.core + p.skin) = p.core
  | .other => False

/-- The condition on a step: a test writes to the model or to the vector only if time has not
advanced since it read the temperatures, and the last test that is under way ends only when the
vector is settled. -/
def Orderly (env : BatchEnv V R) (s : SimBridge V R) : BridgeOp V R → Prop
  | .writeModel k => ∀ request points stale,
      s.tests k = some ⟨request, .swept points, stale⟩ → stale = false
  | .mirror k => ∀ request p rest stale,
      s.tests k = some ⟨request, .mirroring (p :: rest), stale⟩ → stale = false
  | .answer k => ∀ request stale, s.tests k = some ⟨request, .mirroring [], stale⟩ →
      (∀ k', k' ≠ k → s.tests k' = none) → s.Settled env
  | .abort k => ∀ test, s.tests k = some test →
      (∀ k', k' ≠ k → s.tests k' = none) → s.Settled env
  | _ => True

/-! ## What the steps keep -/

/-- The temperatures of the vector, by what they come from. -/
def SourceOk (env : BatchEnv V R) (s : SimBridge V R) : Prop :=
  match s.source with
  | .model => s.Agrees
  | .lastPoint p => s.state.stackCoreTempK = p.core ∧ s.state.stackSkinTempK = p.skin ∧
      s.state.stackTempK = env.half * (p.core + p.skin) ∧
      s.thermal.tCore = p.core ∧ s.thermal.tSkin = p.skin
  | .other => True

/-- A computed sweep has points, and the test that wrote the model last has still the point to
mirror that it wrote, if any. -/
def PhaseOk (s : SimBridge V R) (k : ℕ) : BatchPhase V → Prop
  | .started => True
  | .swept points => points ≠ []
  | .mirroring rest => s.writer = some k →
      ∀ p ∈ rest.getLast?, s.thermal.tCore = p.core ∧ s.thermal.tSkin = p.skin

/-- **The invariant.** -/
structure Invariant (env : BatchEnv V R) (s : SimBridge V R) : Prop where
  kept : s.undone = false
  source : s.SourceOk env
  tests : ∀ k, ∀ test ∈ s.tests k, s.PhaseOk k test.phase
  settled : s.Quiet → s.Settled env

variable {env : BatchEnv V R} {s : SimBridge V R}

omit [Sub V] [Div V] in
theorem Invariant.consistent (h : Invariant env s) : s.Consistent := by
  refine ⟨fun hquiet => ?_, h.kept⟩
  have hsettled := h.settled hquiet
  have hsource := h.source
  unfold Settled at hsettled
  unfold SourceOk at hsource
  split at hsettled
  · next hs =>
    rw [hs] at hsource
    exact hsource
  · next p hs =>
    rw [hs] at hsource
    obtain ⟨hcore, hskin, hstack, htcore, htskin⟩ := hsource
    exact ⟨hcore.trans htcore.symm, hskin.trans htskin.symm,
      (hstack.trans hsettled).trans htcore.symm⟩
  · exact hsettled.elim

omit [Sub V] [Div V] in
theorem invariant_start (m : StackThermalModel V) (state : ThermoState V) :
    Invariant env (start m state) :=
  ⟨rfl, ⟨rfl, rfl, rfl⟩, fun _ _ htest => (nomatch htest), fun _ => trivial⟩

/-- A sweep has a point. -/
theorem batchSweep_ne_nil (m : StackThermalModel V) (tCoolant : V) (r : R) :
    batchSweep env m tCoolant r ≠ [] := by
  unfold batchSweep
  cases hj : env.jValues r with
  | nil => exact absurd hj (env.jValues_ne_nil r)
  | cons j js => exact List.cons_ne_nil _ _

omit [Sub V] [Div V] in
/-- A test goes on without a write. -/
theorem Invariant.goOn (h : Invariant env s) {k : ℕ} {test : BatchTest V R}
    (htest : s.PhaseOk k test.phase) : Invariant env (s.goOn k test) := by
  refine ⟨h.kept, h.source, fun k' test' htest' => ?_, fun hquiet =>
    absurd hquiet (not_quiet (goOn_self k test s))⟩
  by_cases hk : k' = k
  · subst hk
    rw [goOn_self] at htest'
    rw [← Option.some.inj htest']
    exact htest
  · rw [goOn_of_ne hk] at htest'
    exact h.tests k' test' htest'

/-- Time advances: the vector comes from the model. -/
theorem Invariant.advanceTime (h : Invariant env s) (dt : V) (outcome : AdvanceOutcome) :
    Invariant env (s.advanceTime env dt outcome) := by
  cases outcome with
  | failedBefore => exact h
  | failedAfterCurrent => exact ⟨h.kept, h.source, h.tests, h.settled⟩
  | done =>
    refine ⟨h.kept, ⟨rfl, rfl, rfl⟩, fun k test htest => ?_, fun _ => trivial⟩
    obtain ⟨test', htest', rfl⟩ := Option.map_eq_some_iff.1 htest
    have hphase := h.tests k test' htest'
    show PhaseOk _ k test'.phase
    match hp : test'.phase with
    | .started => trivial
    | .swept points =>
      rw [hp] at hphase
      exact hphase
    | .mirroring rest => exact fun hw => nomatch hw

omit [Sub V] [Div V] in
/-- A test writes the end of its sweep to the model. -/
theorem Invariant.writeModel (h : Invariant env s) {k : ℕ} {test : BatchTest V R}
    {points : List (SweepPoint V)} (hstale : test.stale = false) :
    Invariant env (s.writeModel k test points) := by
  unfold SimBridge.writeModel
  split
  · exact h
  · next p hp =>
    refine ⟨?_, trivial, fun k' test' htest' => ?_, fun hquiet =>
      absurd hquiet (not_quiet (goOn_self k _ s))⟩
    · show (s.undone || test.stale) = false
      rw [h.kept, hstale]
      rfl
    · by_cases hk : k' = k
      · subst hk
        have heq : some _ = some test' := (goOn_self k' _ s).symm.trans htest'
        rw [← Option.some.inj heq]
        intro _ q hq
        rw [hp] at hq
        rw [← Option.some.inj hq]
        exact ⟨rfl, rfl⟩
      · have hphase := h.tests k' test' ((goOn_of_ne hk _ s).symm.trans htest')
        match hph : test'.phase with
        | .started => trivial
        | .swept points =>
          rw [hph] at hphase
          exact hphase
        | .mirroring rest => exact fun hw => absurd (Option.some.inj hw).symm hk

omit [Sub V] [Div V] in
/-- A test mirrors a point. -/
theorem Invariant.mirror (h : Invariant env s) {k : ℕ} {test : BatchTest V R} {p : SweepPoint V}
    {rest : List (SweepPoint V)} (htest : s.tests k = some test)
    (hphase : test.phase = .mirroring (p :: rest)) (hstale : test.stale = false) :
    Invariant env (s.mirror env k test p rest) := by
  have hlast := h.tests k test htest
  rw [hphase] at hlast
  refine ⟨?_, ?_, fun k' test' htest' => ?_, fun hquiet =>
    absurd hquiet (not_quiet (goOn_self k _ s))⟩
  · show (s.undone || test.stale) = false
    rw [h.kept, hstale]
    rfl
  · by_cases hsource : rest = [] ∧ s.writer = some k
    · have hval := hlast hsource.2 p (by rw [hsource.1]; rfl)
      unfold SourceOk SimBridge.mirror
      rw [if_pos hsource]
      exact ⟨rfl, rfl, rfl, hval.1, hval.2⟩
    · unfold SourceOk SimBridge.mirror
      rw [if_neg hsource]
      trivial
  · by_cases hk : k' = k
    · subst hk
      have heq : some _ = some test' := (goOn_self k' _ s).symm.trans htest'
      rw [← Option.some.inj heq]
      intro hw q hq
      cases rest with
      | nil => cases hq
      | cons q' rest => exact hlast hw q hq
    · exact h.tests k' test' ((goOn_of_ne hk _ s).symm.trans htest')

omit [Sub V] [Div V] in
/-- A test is over. -/
theorem Invariant.finish (h : Invariant env s) {k : ℕ}
    (hsettled : (∀ k', k' ≠ k → s.tests k' = none) → s.Settled env) :
    Invariant env (s.finish k) := by
  refine ⟨h.kept, h.source, fun k' test' htest' => ?_, fun hquiet => ?_⟩
  · by_cases hk : k' = k
    · subst hk
      rw [finish_self] at htest'
      cases htest'
    · rw [finish_of_ne hk] at htest'
      exact h.tests k' test' htest'
  · exact hsettled fun k' hk => (finish_of_ne hk s).symm.trans (hquiet k')

/-- **One step** that meets the condition keeps the invariant. -/
theorem Invariant.exec (h : Invariant env s) {op : BridgeOp V R} (hop : s.Orderly env op) :
    Invariant env (s.exec env op) := by
  unfold SimBridge.exec
  match op with
  | .advanceTime dt outcome => exact h.advanceTime dt outcome
  | .runBatchTest k request =>
    dsimp only
    split
    · exact h.goOn trivial
    · exact h
  | .sweep k =>
    dsimp only
    split
    · exact h.goOn (batchSweep_ne_nil _ _ _)
    · exact h
  | .writeModel k =>
    dsimp only
    split
    · next request points stale htest => exact h.writeModel (hop request points stale htest)
    · exact h
  | .mirror k =>
    dsimp only
    split
    · next request p rest stale htest =>
      exact h.mirror htest rfl (hop request p rest stale htest)
    · exact h
  | .answer k =>
    dsimp only
    split
    · next request stale htest =>
      have hfinish := h.finish (hop request stale htest)
      exact ⟨hfinish.kept, hfinish.source, hfinish.tests, hfinish.settled⟩
    · exact h
  | .abort k =>
    refine h.finish fun hothers => ?_
    match htest : s.tests k with
    | some test => exact hop test htest hothers
    | none =>
      refine h.settled fun k' => ?_
      by_cases hk : k' = k
      · rw [hk, htest]
      · exact hothers k' hk

/-- **In every run whose steps meet the condition**, whenever no call is under way the vector agrees
with the model, and no advance of time is undone. -/
theorem consistent_run (env : BatchEnv V R) (m : StackThermalModel V) (state : ThermoState V)
    {ops : List (BridgeOp V R)} (h : Along (exec env) (Orderly env) (start m state) ops) :
    (run (exec env) ops (start m state)).Consistent :=
  (run_invariant (I := Invariant env) (fun _ _ hs hop => hs.exec hop) (invariant_start m state)
    h).consistent

/-! ## A run that meets the condition, and two that do not -/

instance [DecidableEq V] (env : BatchEnv V R) (s : SimBridge V R) : Decidable (s.Settled env) := by
  unfold Settled
  split <;> infer_instance

/-- Kernels without current, with the heater; a request is the list of its current densities after
the first one. -/
def heaterOnly : BatchEnv ℚ (List ℚ) where
  zero := 0
  half := 1 / 2
  tiny j := decide (j < 1 / 10000000000)
  heat _ _ core _ := if core < 35315 / 100 then min 5000 ((35315 / 100 - core) * 1000) else 0
  power _ := 0
  jValues r := 0 :: r
  jValues_ne_nil _ := List.cons_ne_nil _ _
  voltage _ _ _ := 0
  sweepHeat _ _ _ := 0
  sweepDt := 1 / 2

/-- The stack at its standby temperature. -/
def standby : StackThermalModel ℚ := ⟨12500, 12500, 500, 50, 35315 / 100, 35315 / 100⟩

/-- The vector after the start. -/
def vectorAtStart : ThermoState ℚ :=
  ⟨3, 29815 / 100, 0, 0, 0, 35315 / 100, 35315 / 100, 35315 / 100⟩

/-- Time advances before and after a test with one point. -/
theorem consistent_run_onePoint : (run (exec heaterOnly) [.advanceTime 1 .done, .runBatchTest 0 [],
    .sweep 0, .writeModel 0, .mirror 0, .answer 0, .advanceTime 1 .done]
    (start standby vectorAtStart)).Consistent := by
  apply consistent_run
  refine ⟨trivial, trivial, trivial, ?_, ?_, ?_, trivial, trivial⟩
  · rintro _ _ _ ⟨⟩
    rfl
  · rintro _ _ _ _ ⟨⟩
    rfl
  · intro _ _ _ _
    decide +kernel

/-- After a test with two points, with nothing in between, the stack's temperature in the vector is
not that of the model; and a test writes what it has computed before time advanced. -/
theorem not_consistent :
    (¬ (run (exec heaterOnly) [.runBatchTest 0 [1 / 20], .sweep 0, .writeModel 0, .mirror 0,
      .mirror 0, .answer 0] (start standby vectorAtStart)).Consistent) ∧
    ¬ (run (exec heaterOnly) [.runBatchTest 0 [1 / 20], .sweep 0, .advanceTime 1 .done,
      .writeModel 0] (start standby vectorAtStart)).Consistent := by
  constructor
  · intro h
    have hquiet : (run (exec heaterOnly) [.runBatchTest 0 [1 / 20], .sweep 0, .writeModel 0,
        .mirror 0, .mirror 0, .answer 0] (start standby vectorAtStart)).Quiet := by
      intro k
      cases k <;> rfl
    exact absurd (h.agrees hquiet).2.2 (by decide +kernel)
  · intro h
    exact absurd h.kept (by decide)

end SimBridge

end MatrixFactory
