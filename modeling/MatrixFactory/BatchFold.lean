/-
# The temperatures that a batch test leaves

A batch test against the steps of the thermal model over all points of its sweep, from the
temperatures before it.  The sweep begins with the core's temperature for both nodes, and its last
point stands for the temperatures before the last step, so a difference remains; the linear part of
the steps carries it along.
-/
import MatrixFactory.ThermalStability

namespace MatrixFactory

open Runs

variable {V R : Type} [Field V]

/-! ## The sweep as a fold -/

/-- The heat of each sweep point. -/
def sweepHeats (env : BatchEnv V R) (m : StackThermalModel V) (r : R) (tCoolant : V) : List V :=
  (batchSweep env m tCoolant r).map fun p => env.sweepHeat r p.current p.core

/-- `StackThermalModel.step` over all points of the sweep. -/
def sweepSteps (env : BatchEnv V R) (m : StackThermalModel V) (r : R) (tCoolant : V) :
    StackThermalModel V :=
  (sweepHeats env m r tCoolant).foldl (fun m q => m.step env.sweepDt q tCoolant) m

/-- A whole test, with nothing in between. -/
def testRun (env : BatchEnv V R) (k : ℕ) (r : R) : List (BridgeOp V R) :=
  BridgeOp.runBatchTest k r :: .sweep k :: .writeModel k ::
    (List.replicate (env.jValues r).length (BridgeOp.mirror k) ++ [BridgeOp.answer k])

/-- How the temperatures change from the heat of one point to that of the next. -/
def heatChanges (m : StackThermalModel V) (dt : V) : List V → List (V × V)
  | q :: q' :: heats => (dt * (q' - q) / m.cCore, 0) :: heatChanges m dt (q' :: heats)
  | _ => []

/-- The difference that remains: the first step from the temperatures before the test against the
core's temperature for both, carried along with the changes of the heat. -/
def sweepDifference (env : BatchEnv V R) (m : StackThermalModel V) (r : R) (tCoolant : V) : V × V :=
  match sweepHeats env m r tCoolant with
  | [] => 0
  | q :: heats => (m.pairMap env.sweepDt).moved (heatChanges m env.sweepDt (q :: heats))
      (thermalStepJit m m.tCore m.tSkin env.sweepDt q tCoolant - (m.tCore, m.tCore))

/-! ## Steps of the model and of the sweep -/

/-- The model at other temperatures. -/
def StackThermalModel.at (m : StackThermalModel V) (x : V × V) : StackThermalModel V :=
  { m with tCore := x.1, tSkin := x.2 }

/-- A step of the model is the step of the sweep. -/
theorem step_eq (m : StackThermalModel V) (x : V × V) (dt q tCoolant : V) :
    (m.at x).step dt q tCoolant = m.at (thermalStepJit m x.1 x.2 dt q tCoolant) := by
  simp only [StackThermalModel.step, StackThermalModel.at, thermalStepJit,
    StackThermalModel.mk.injEq, true_and]
  constructor <;> ring

/-- The steps change the temperatures only. -/
theorem foldl_step (m : StackThermalModel V) (dt tCoolant : V) (heats : List V) (x : V × V) :
    heats.foldl (fun m q => m.step dt q tCoolant) (m.at x) =
      m.at (heats.foldl (fun x q => thermalStepJit m x.1 x.2 dt q tCoolant) x) := by
  induction heats generalizing x with
  | nil => rfl
  | cons q heats ih => rw [List.foldl_cons, step_eq, ih, List.foldl_cons]

/-- Two steps differ by the linear part of the difference and by that of the heats. -/
theorem thermalStepJit_sub (m : StackThermalModel V) (x y : V × V) (dt q q' tCoolant : V) :
    thermalStepJit m y.1 y.2 dt q' tCoolant - thermalStepJit m x.1 x.2 dt q tCoolant =
      (m.pairMap dt).apply (y - x) + (dt * (q' - q) / m.cCore, 0) := by
  ext
  · simp only [thermalStepJit, PairMap.apply, StackThermalModel.pairMap,
      StackThermalModel.coreGain, Prod.fst_sub, Prod.snd_sub, Prod.fst_add]
    ring
  · simp only [thermalStepJit, PairMap.apply, StackThermalModel.pairMap,
      StackThermalModel.skinGain, StackThermalModel.coolantGain, Prod.fst_sub, Prod.snd_sub,
      Prod.snd_add]
    ring

variable {env : BatchEnv V R} {m : StackThermalModel V} {r : R} {tCoolant : V}

variable (env m r tCoolant) in
/-- **All steps from `y` against the last point of a sweep from `x`.**  The difference of the first
step from `x` is carried through the rest of the sweep. -/
theorem foldl_sub_last (j : V) (js : List V) (x y : V × V) :
    ∃ p, (sweepFrom env m r tCoolant (j :: js) x.1 x.2).getLast? = some p ∧
      ((sweepFrom env m r tCoolant (j :: js) x.1 x.2).map
          fun p => env.sweepHeat r p.current p.core).foldl
          (fun x q => thermalStepJit m x.1 x.2 env.sweepDt q tCoolant) y - (p.core, p.skin) =
        (m.pairMap env.sweepDt).moved
          (heatChanges m env.sweepDt ((sweepFrom env m r tCoolant (j :: js) x.1 x.2).map
            fun p => env.sweepHeat r p.current p.core))
          (thermalStepJit m y.1 y.2 env.sweepDt (env.sweepHeat r j x.1) tCoolant - x) := by
  induction js generalizing j x y with
  | nil => exact ⟨_, rfl, rfl⟩
  | cons j' js ih =>
    obtain ⟨p, hlast, hfold⟩ := ih j'
      (thermalStepJit m x.1 x.2 env.sweepDt (env.sweepHeat r j x.1) tCoolant)
      (thermalStepJit m y.1 y.2 env.sweepDt (env.sweepHeat r j x.1) tCoolant)
    refine ⟨p, ?_, ?_⟩
    · rw [sweepFrom, List.getLast?_cons, hlast]
      rfl
    · rw [sweepFrom, List.map_cons, List.foldl_cons]
      rw [hfold, thermalStepJit_sub]
      rfl

/-- The model after a whole test. -/
theorem thermal_testRun {k : ℕ} {s : SimBridge V R} (hfree : s.tests k = none) {p : SweepPoint V}
    (hlast : (batchSweep env s.thermal s.state.chillerTempK r).getLast? = some p) :
    (run (SimBridge.exec env) (testRun env k r) s).thermal = s.thermal.at (p.core, p.skin) := by
  have hmirror : ∀ (ops : List (BridgeOp V R)) (s : SimBridge V R),
      (∀ op ∈ ops, op = .mirror k ∨ op = .answer k) →
        (run (SimBridge.exec env) ops s).thermal = s.thermal := by
    intro ops
    induction ops with
    | nil => exact fun s _ => rfl
    | cons op ops ih =>
      intro s hops
      rw [run_cons, ih _ fun op hop => hops op (List.mem_cons_of_mem _ hop)]
      rcases hops op List.mem_cons_self with rfl | rfl
      · rw [SimBridge.exec]
        split <;> rfl
      · rw [SimBridge.exec]
        split <;> rfl
  rw [testRun, run_cons, run_cons, run_cons, hmirror]
  · simp [SimBridge.exec, hfree, SimBridge.goOn, SimBridge.writeModel, hlast,
      StackThermalModel.at]
  · intro op hop
    rcases List.mem_append.mp hop with hop | hop
    · exact .inl (List.eq_of_mem_replicate hop)
    · exact .inr (List.mem_singleton.mp hop)

/-- **A test leaves what the steps over all its points would iff the difference that the sweep
leaves out, carried to its end, is zero.** -/
theorem batch_test_fold (env : BatchEnv V R) (k : ℕ) (r : R) (s : SimBridge V R)
    (hfree : s.tests k = none) :
    (run (SimBridge.exec env) (testRun env k r) s).thermal =
        sweepSteps env s.thermal r s.state.chillerTempK ↔
      sweepDifference env s.thermal r s.state.chillerTempK = 0 := by
  obtain ⟨j, js, hjs⟩ := List.exists_cons_of_ne_nil (env.jValues_ne_nil r)
  obtain ⟨p, hlast, hfold⟩ := foldl_sub_last env s.thermal r
    s.state.chillerTempK j js (s.thermal.tCore, s.thermal.tCore)
    (s.thermal.tCore, s.thermal.tSkin)
  rw [thermal_testRun hfree (by rw [batchSweep, hjs]; exact hlast)]
  have hsteps : sweepSteps env s.thermal r s.state.chillerTempK =
      s.thermal.at ((sweepHeats env s.thermal r s.state.chillerTempK).foldl
        (fun x q => thermalStepJit s.thermal x.1 x.2 env.sweepDt q s.state.chillerTempK)
        (s.thermal.tCore, s.thermal.tSkin)) :=
    foldl_step s.thermal env.sweepDt s.state.chillerTempK _ (s.thermal.tCore, s.thermal.tSkin)
  have hdifference : sweepDifference env s.thermal r s.state.chillerTempK =
      (sweepHeats env s.thermal r s.state.chillerTempK).foldl
        (fun x q => thermalStepJit s.thermal x.1 x.2 env.sweepDt q s.state.chillerTempK)
        (s.thermal.tCore, s.thermal.tSkin) - (p.core, p.skin) := by
    rw [sweepDifference, sweepHeats, batchSweep, hjs, hfold]
    rfl
  rw [hsteps, hdifference, sub_eq_zero]
  constructor
  · intro h
    have hpair := congrArg (fun m => (m.tCore, m.tSkin)) h
    exact hpair.symm
  · exact fun h => by rw [h]

/-- The stack at the temperature of the coolant. -/
def coldStack : StackThermalModel ℚ := ⟨12500, 12500, 500, 50, 29815 / 100, 29815 / 100⟩

theorem batch_test_fold_cold :
    (run (SimBridge.exec SimBridge.heaterOnly) (testRun SimBridge.heaterOnly 0 [1 / 20])
      (SimBridge.start coldStack SimBridge.vectorAtStart)).thermal =
      sweepSteps SimBridge.heaterOnly coldStack [1 / 20] (29815 / 100) :=
  (batch_test_fold SimBridge.heaterOnly 0 [1 / 20]
    (SimBridge.start coldStack SimBridge.vectorAtStart) rfl).mpr (by decide +kernel)

/-- At the standby temperature a test with the one current 0 leaves the skin as it is, while the
step of its point cools it. -/
theorem not_batch_test_fold : ¬∀ (env : BatchEnv ℚ (List ℚ)) (k : ℕ) (r : List ℚ)
    (s : SimBridge ℚ (List ℚ)), s.tests k = none → s.thermal.Accepts env.sweepDt →
      (run (SimBridge.exec env) (testRun env k r) s).thermal =
        sweepSteps env s.thermal r s.state.chillerTempK := by
  intro hall
  have haccepts : SimBridge.standby.Accepts SimBridge.heaterOnly.sweepDt := by
    norm_num [StackThermalModel.Accepts, StackThermalModel.rate, SimBridge.standby,
      SimBridge.heaterOnly]
  have h := hall SimBridge.heaterOnly 0 []
    (SimBridge.start SimBridge.standby SimBridge.vectorAtStart) rfl haccepts
  exact absurd h (by decide +kernel)

end MatrixFactory
