/-
# The chain of thermal nodes along the coolant

A step of `StackThermalModelND`.  The loop of `step_stack_thermal_nd_jit` carries the coolant and the
removed heat from node to node; what a node conducts to its neighbour is what the neighbour receives
in the next round.  At or below `1e-6` of flow the coolant is not heated.
-/
import MatrixFactory.Lib.Numerals
import Mathlib.Algebra.BigOperators.Group.List.Basic
import Mathlib.Tactic.FieldSimp
import Mathlib.Tactic.LinearCombination
import Mathlib.Tactic.NormNum
import Mathlib.Tactic.Ring

namespace MatrixFactory

open scoped Numerals

/-! ## The loop over the cells -/

variable {V : Type} [Field V] [LinearOrder V]

/-- The parameters that are the same for all cells. -/
structure CellParams (V : Type) where
  qGenPerCell : V
  coolantMassFlow : V
  dt : V
  cCell : V
  cpCoolant : V
  hACellExt : V
  hAInterCell : V

/-- What the loop carries from cell to cell. -/
structure CoolantState (V : Type) where
  tCoolant : V
  qRemovedTotal : V
  deriving DecidableEq

/-- Above this flow the coolant is heated. -/
def flowGuard : V := 1 / 10 ^ 6

/-- Conduction from a neighbour, where there is one. -/
def qCond (hAInterCell cell : V) : Option V → V
  | some neighbour => (neighbour - cell) * hAInterCell
  | none => 0

/-- One round of the loop: the cell's new temperature and the coolant behind the cell; `none` is a
`ZeroDivisionError`. -/
def cellRound (p : CellParams V) (left : Option V) (cell : V) (right : Option V)
    (s : CoolantState V) : Option (V × CoolantState V) :=
  let qCoolant := (cell - s.tCoolant) * p.hACellExt
  let qRemovedTotal := s.qRemovedTotal + qCoolant
  let qCondLeft := qCond p.hAInterCell cell left
  let qCondRight := qCond p.hAInterCell cell right
  if p.cCell = 0 then none
  else
    let dTdt := (p.qGenPerCell + qCondLeft + qCondRight - qCoolant) / p.cCell
    let tNew := cell + p.dt * dTdt
    if flowGuard < p.coolantMassFlow then
      if p.coolantMassFlow * p.cpCoolant = 0 then none
      else some (tNew, ⟨s.tCoolant + qCoolant / (p.coolantMassFlow * p.cpCoolant), qRemovedTotal⟩)
    else some (tNew, ⟨s.tCoolant, qRemovedTotal⟩)

/-- The loop from a cell on; `left` is the cell before it. -/
def cellLoop (p : CellParams V) (left : Option V) :
    List V → CoolantState V → Option (List V × CoolantState V)
  | [], s => some ([], s)
  | cell :: cells, s => do
    let (tNew, s) ← cellRound p left cell cells.head? s
    let (tNews, s) ← cellLoop p (some cell) cells s
    return (tNew :: tNews, s)

/-- The loop of `step_stack_thermal_nd_jit`, with the coolant behind the last cell. -/
def coolantLoop (tCell : List V) (p : CellParams V) (coolantInlet : V) :
    Option (List V × CoolantState V) :=
  cellLoop p none tCell ⟨coolantInlet, 0⟩

/-- `step_stack_thermal_nd_jit` -/
def stepStackThermalNdJit (tCell : List V) (p : CellParams V) (coolantInlet : V) :
    Option (List V × V) :=
  (coolantLoop tCell p coolantInlet).map fun r => (r.1, r.2.qRemovedTotal)

/-! ## The model -/

/-- `StackThermalModelND`, its array as long as `n_cells`. -/
structure StackThermalModelND (V : Type) where
  nCells : ℕ
  tInitial : V
  tCell : List V
  length_tCell : tCell.length = nCells
  cCell : V
  cpCoolant : V
  hACellExt : V
  hAInterCell : V
  lastQOutput : V

/-- What a call of `step` is given. -/
structure StepInput (V : Type) where
  dt : V
  qGenTotal : V
  coolantInlet : V
  coolantMassFlow : V

/-- The parameters of the loop, as `step` passes them. -/
def StackThermalModelND.params (m : StackThermalModelND V) (x : StepInput V) : CellParams V where
  qGenPerCell := x.qGenTotal / m.nCells
  coolantMassFlow := x.coolantMassFlow
  dt := x.dt
  cCell := m.cCell
  cpCoolant := m.cpCoolant
  hACellExt := m.hACellExt
  hAInterCell := m.hAInterCell

/-- The loop fills the new array. -/
theorem length_cellLoop {p : CellParams V} {cells tNews : List V} {left : Option V}
    {s s' : CoolantState V} (h : cellLoop p left cells s = some (tNews, s')) :
    tNews.length = cells.length := by
  induction cells generalizing left s s' tNews with
  | nil =>
    obtain ⟨rfl, -⟩ := Prod.mk.inj (Option.some.inj h)
    rfl
  | cons cell cells ih =>
    obtain ⟨⟨tNew, t⟩, -, h⟩ := Option.bind_eq_some_iff.mp h
    obtain ⟨⟨tNews', u⟩, hrest, h⟩ := Option.bind_eq_some_iff.mp h
    obtain ⟨rfl, -⟩ := Prod.mk.inj (Option.some.inj h)
    rw [List.length_cons, ih hrest, List.length_cons]

theorem length_stepStackThermalNdJit {tCell tNew : List V} {p : CellParams V}
    {coolantInlet qRemoved : V}
    (h : stepStackThermalNdJit tCell p coolantInlet = some (tNew, qRemoved)) :
    tNew.length = tCell.length := by
  obtain ⟨⟨tNews, s⟩, hloop, h⟩ := Option.map_eq_some_iff.mp h
  obtain ⟨rfl, -⟩ := Prod.mk.inj h
  exact length_cellLoop hloop

namespace StackThermalModelND

/-- A new model. -/
def init (nCells : ℕ) (tInitial cCell cpCoolant hACellExt hAInterCell : V) :
    StackThermalModelND V where
  nCells := nCells
  tInitial := tInitial
  tCell := List.replicate nCells tInitial
  length_tCell := List.length_replicate
  cCell := cCell
  cpCoolant := cpCoolant
  hACellExt := hACellExt
  hAInterCell := hAInterCell
  lastQOutput := 0

/-- `step`; `none` is a `ZeroDivisionError`. -/
def step (m : StackThermalModelND V) (x : StepInput V) : Option (StackThermalModelND V) :=
  if m.nCells = 0 then none
  else match h : stepStackThermalNdJit m.tCell (m.params x) x.coolantInlet with
    | none => none
    | some (tCell, qRemoved) => some { m with
        tCell := tCell
        length_tCell := (length_stepStackThermalNdJit h).trans m.length_tCell
        lastQOutput := qRemoved }

/-- The coolant's temperature behind the last cell. -/
def coolantOut (m : StackThermalModelND V) (x : StepInput V) : Option V :=
  (coolantLoop m.tCell (m.params x) x.coolantInlet).map fun r => r.2.tCoolant

/-- The heat stored in the cells. -/
def storedHeat (m : StackThermalModelND V) : V :=
  m.cCell * m.tCell.sum

/-- The steps of a run, and the heat that they leave in the cells. -/
def run (m : StackThermalModelND V) : List (StepInput V) → Option (StackThermalModelND V × V)
  | [] => some (m, 0)
  | x :: xs => do
    let m' ← m.step x
    let (m'', heat) ← m'.run xs
    return (m'', x.dt * (x.qGenTotal - m'.lastQOutput) + heat)

end StackThermalModelND

/-! ## One round -/

/-- A round that divides by zero. -/
def CellParams.DividesByZero (p : CellParams V) : Prop :=
  p.cCell = 0 ∨ flowGuard < p.coolantMassFlow ∧ p.coolantMassFlow * p.cpCoolant = 0

theorem cellRound_eq_none {p : CellParams V} {left right : Option V} {cell : V}
    {s : CoolantState V} : cellRound p left cell right s = none ↔ p.DividesByZero := by
  unfold cellRound CellParams.DividesByZero
  dsimp only
  split_ifs with hc hflow hcp
  · exact iff_of_true rfl (.inl hc)
  · exact iff_of_true rfl (.inr ⟨hflow, hcp⟩)
  · refine iff_of_false not_false ?_
    rintro (h | ⟨-, h⟩)
    · exact hc h
    · exact hcp h
  · refine iff_of_false not_false ?_
    rintro (h | ⟨h, -⟩)
    · exact hc h
    · exact hflow h

/-- What a round does to the cell and to the coolant. -/
structure RoundSpec (p : CellParams V) (qCondBoth : V) (cell tNew : V) (s s' : CoolantState V) :
    Prop where
  heat : p.cCell * (tNew - cell) =
    p.dt * (p.qGenPerCell + qCondBoth - (s'.qRemovedTotal - s.qRemovedTotal))
  heated : flowGuard < p.coolantMassFlow → s'.qRemovedTotal - s.qRemovedTotal =
    p.coolantMassFlow * p.cpCoolant * (s'.tCoolant - s.tCoolant)
  unheated : p.coolantMassFlow ≤ flowGuard → s'.tCoolant = s.tCoolant

theorem cellRound_spec {p : CellParams V} {left right : Option V} {cell tNew : V}
    {s s' : CoolantState V} (h : cellRound p left cell right s = some (tNew, s')) :
    RoundSpec p (qCond p.hAInterCell cell left + qCond p.hAInterCell cell right) cell tNew s s' := by
  unfold cellRound at h
  dsimp only at h
  split_ifs at h with hc hflow hcp
  · obtain ⟨rfl, rfl⟩ := Prod.mk.inj (Option.some.inj h)
    refine ⟨?_, fun _ => ?_, fun hle => absurd hflow hle.not_gt⟩
    · field_simp
      ring
    · dsimp only
      rw [add_sub_cancel_left, add_sub_cancel_left, mul_div_cancel₀ _ hcp]
  · obtain ⟨rfl, rfl⟩ := Prod.mk.inj (Option.some.inj h)
    refine ⟨?_, fun hlt => absurd hlt hflow, fun _ => rfl⟩
    field_simp
    ring

/-! ## The whole loop -/

/-- The conduction into the first of the cells from the one before it. -/
def qCondIn (p : CellParams V) (left : Option V) (cells : List V) : V :=
  match cells.head? with
  | some cell => qCond p.hAInterCell cell left
  | none => 0

omit [LinearOrder V] in
/-- What a cell conducts to the next one is what that one receives. -/
theorem qCond_head (p : CellParams V) (cell : V) (cells : List V) :
    qCond p.hAInterCell cell cells.head? + qCondIn p (some cell) cells = 0 := by
  cases cells with
  | nil => exact add_zero 0
  | cons next cells =>
    show (next - cell) * p.hAInterCell + (cell - next) * p.hAInterCell = 0
    ring

theorem cellLoop_eq_none {p : CellParams V} {cells : List V} {left : Option V}
    {s : CoolantState V} :
    cellLoop p left cells s = none ↔ cells ≠ [] ∧ p.DividesByZero := by
  induction cells generalizing left s with
  | nil => simp [cellLoop]
  | cons cell cells ih =>
    rw [and_iff_right (List.cons_ne_nil cell cells), cellLoop]
    cases hround : cellRound p left cell cells.head? s with
    | none => exact iff_of_true rfl (cellRound_eq_none.mp hround)
    | some r =>
      obtain ⟨tNew, t⟩ := r
      have hzero : ¬p.DividesByZero := fun h => by
        rw [cellRound_eq_none.mpr h] at hround
        cases hround
      refine iff_of_false (fun h => ?_) hzero
      cases hrest : cellLoop p (some cell) cells t with
      | none => exact hzero (ih.mp hrest).2
      | some r' =>
        rw [Option.bind_eq_bind, Option.bind_some] at h
        dsimp only at h
        rw [hrest] at h
        cases h

/-- **The loop from a cell on**: the conduction between its cells cancels, that into its first one
remains. -/
theorem cellLoop_spec {p : CellParams V} {cells tNews : List V} {left : Option V}
    {s s' : CoolantState V} (h : cellLoop p left cells s = some (tNews, s')) :
    p.cCell * (List.zipWith (· - ·) tNews cells).sum = p.dt * (cells.length * p.qGenPerCell +
      qCondIn p left cells - (s'.qRemovedTotal - s.qRemovedTotal)) ∧
    (flowGuard < p.coolantMassFlow → s'.qRemovedTotal - s.qRemovedTotal =
      p.coolantMassFlow * p.cpCoolant * (s'.tCoolant - s.tCoolant)) ∧
    (p.coolantMassFlow ≤ flowGuard → s'.tCoolant = s.tCoolant) := by
  induction cells generalizing left s s' tNews with
  | nil =>
    obtain ⟨rfl, rfl⟩ := Prod.mk.inj (Option.some.inj h)
    simp [qCondIn]
  | cons cell cells ih =>
    obtain ⟨⟨tNew, t⟩, hround, h⟩ := Option.bind_eq_some_iff.mp h
    obtain ⟨⟨tNews', u⟩, hrest, h⟩ := Option.bind_eq_some_iff.mp h
    obtain ⟨rfl, rfl⟩ := Prod.mk.inj (Option.some.inj h)
    have hcell := cellRound_spec hround
    obtain ⟨hheat, hheated, hunheated⟩ := ih hrest
    have hcond := qCond_head p cell cells
    refine ⟨?_, fun hflow => ?_, fun hflow => (hunheated hflow).trans (hcell.unheated hflow)⟩
    · have hin : qCondIn p left (cell :: cells) = qCond p.hAInterCell cell left := rfl
      rw [List.zipWith_cons_cons, List.sum_cons, mul_add, hcell.heat, hheat, hin, List.length_cons]
      push_cast
      linear_combination p.dt * hcond
    · linear_combination hheated hflow + hcell.heated hflow

/-! ## A step of the model -/

omit [LinearOrder V] in
theorem sum_zipWith_sub {as bs : List V} (h : as.length = bs.length) :
    (List.zipWith (· - ·) as bs).sum = as.sum - bs.sum := by
  induction as generalizing bs with
  | nil =>
    obtain rfl := List.length_eq_zero_iff.mp h.symm
    exact (sub_zero 0).symm
  | cons a as ih =>
    cases bs with
    | nil => exact absurd h (Nat.succ_ne_zero _)
    | cons b bs =>
      rw [List.zipWith_cons_cons, List.sum_cons, List.sum_cons, List.sum_cons, ih (Nat.succ.inj h)]
      ring

namespace StackThermalModelND

variable {m m' : StackThermalModelND V} {x : StepInput V}

/-- A step is a loop over the cells, which keeps all but the temperatures and the heat. -/
theorem step_eq_some (h : m.step x = some m') : m.nCells ≠ 0 ∧ ∃ s,
    coolantLoop m.tCell (m.params x) x.coolantInlet = some (m'.tCell, s) ∧
      m'.lastQOutput = s.qRemovedTotal ∧ m'.nCells = m.nCells ∧ m'.cCell = m.cCell := by
  unfold step at h
  split_ifs at h with hn
  split at h
  · cases h
  · rename_i tCell qRemoved hjit
    obtain ⟨⟨tNews, s⟩, hloop, hpair⟩ := Option.map_eq_some_iff.mp hjit
    obtain ⟨rfl, rfl⟩ := Prod.mk.inj hpair
    obtain rfl := Option.some.inj h
    exact ⟨hn, s, hloop, rfl, rfl, rfl⟩

theorem step_eq_none :
    m.step x = none ↔ m.nCells = 0 ∨ (m.params x).DividesByZero := by
  unfold step
  split_ifs with hn
  · exact iff_of_true rfl (.inl hn)
  · have hcells : m.tCell ≠ [] := by
      intro hnil
      rw [← m.length_tCell, hnil] at hn
      exact hn rfl
    rw [or_iff_right hn]
    split
    · rename_i hjit
      exact iff_of_true rfl (cellLoop_eq_none.mp (Option.map_eq_none_iff.mp hjit)).2
    · rename_i tCell qRemoved hjit
      refine iff_of_false nofun fun hzero => ?_
      have hloop : coolantLoop m.tCell (m.params x) x.coolantInlet = none :=
        cellLoop_eq_none.mpr ⟨hcells, hzero⟩
      rw [stepStackThermalNdJit, hloop] at hjit
      cases hjit

variable [IsStrictOrderedRing V]

/-- A coolant that is heated flows. -/
theorem dividesByZero_iff : (m.params x).DividesByZero ↔
    m.cCell = 0 ∨ flowGuard < x.coolantMassFlow ∧ m.cpCoolant = 0 := by
  refine or_congr Iff.rfl (and_congr_right fun hflow => ?_)
  have hguard : (0 : V) < flowGuard := by
    rw [flowGuard]
    positivity
  exact mul_eq_zero_iff_left (hguard.trans hflow).ne'

/-- What the cells gain is what was generated less what was removed. -/
theorem step_heat (h : m.step x = some m') :
    m.cCell * (List.zipWith (· - ·) m'.tCell m.tCell).sum =
      x.dt * (x.qGenTotal - m'.lastQOutput) := by
  obtain ⟨hn, s, hloop, hremoved, -, -⟩ := step_eq_some h
  have hheat := (cellLoop_spec hloop).1
  have hin : qCondIn (m.params x) none m.tCell = 0 := by
    unfold qCondIn
    cases m.tCell.head? <;> rfl
  have hgen : (m.tCell.length : V) * (m.params x).qGenPerCell = x.qGenTotal := by
    rw [m.length_tCell]
    exact mul_div_cancel₀ _ (Nat.cast_ne_zero.mpr hn)
  rw [hin, hgen, add_zero, sub_zero, ← hremoved] at hheat
  exact hheat

/-- **A step conserves energy**, and above `1e-6` of flow the removed heat is the rise of the
coolant's enthalpy. -/
theorem step_conserves (m : StackThermalModelND V) (x : StepInput V) :
    (m.step x = none ↔ m.nCells = 0 ∨ m.cCell = 0 ∨
      flowGuard < x.coolantMassFlow ∧ m.cpCoolant = 0) ∧
    ∀ m', m.step x = some m' → ∃ tOut, m.coolantOut x = some tOut ∧
      m.cCell * (List.zipWith (· - ·) m'.tCell m.tCell).sum =
        x.dt * (x.qGenTotal - m'.lastQOutput) ∧
      (flowGuard < x.coolantMassFlow →
        m'.lastQOutput = x.coolantMassFlow * m.cpCoolant * (tOut - x.coolantInlet)) ∧
      (x.coolantMassFlow ≤ flowGuard → tOut = x.coolantInlet) := by
  refine ⟨by rw [step_eq_none, dividesByZero_iff], fun m' h => ?_⟩
  obtain ⟨-, s, hloop, hremoved, -, -⟩ := step_eq_some h
  obtain ⟨-, hheated, hunheated⟩ := cellLoop_spec hloop
  refine ⟨s.tCoolant, by rw [coolantOut, hloop]; rfl, step_heat h, fun hflow => ?_, hunheated⟩
  have hrise := hheated hflow
  rw [sub_zero, ← hremoved] at hrise
  exact hrise

/-- Three cells of different temperatures. -/
def threeCells : StackThermalModelND ℚ :=
  { init 3 300 250 4184 (1 / 2) 10 with tCell := [300, 310, 305], length_tCell := rfl }

theorem step_conserves_three : ∃ (m' : StackThermalModelND ℚ) (tOut : ℚ),
    threeCells.step ⟨1, 60, 290, 1 / 20⟩ = some m' ∧
      threeCells.coolantOut ⟨1, 60, 290, 1 / 20⟩ = some tOut ∧
      250 * (List.zipWith (· - ·) m'.tCell [300, 310, 305]).sum = 1 * (60 - m'.lastQOutput) ∧
      m'.lastQOutput = 1 / 20 * 4184 * (tOut - 290) := by
  obtain ⟨hnone, hsome⟩ := step_conserves threeCells ⟨1, 60, 290, 1 / 20⟩
  have hstep : threeCells.step ⟨1, 60, 290, 1 / 20⟩ ≠ none := by
    rw [Ne, hnone]
    norm_num [threeCells, init]
  obtain ⟨m', hm'⟩ := Option.ne_none_iff_exists'.mp hstep
  obtain ⟨tOut, hout, hheat, hflow, -⟩ := hsome m' hm'
  exact ⟨m', tOut, hm', hout, hheat, hflow (by norm_num [flowGuard])⟩

/-- One cell. -/
def oneCell : StackThermalModelND ℚ := init 1 310 250 4184 (1 / 2) 10

/-- A flow below `1e-6` takes heat away and is not heated. -/
theorem not_step_conserves : ¬ ∀ (m : StackThermalModelND ℚ) (x : StepInput ℚ), 1 ≤ m.nCells →
    0 < x.coolantMassFlow → ∀ m' ∈ m.step x, ∀ tOut ∈ m.coolantOut x,
      m'.lastQOutput = x.coolantMassFlow * m.cpCoolant * (tOut - x.coolantInlet) := by
  intro h
  have hloop : ∃ t, coolantLoop oneCell.tCell (oneCell.params ⟨1, 60, 290, 1 / 10 ^ 7⟩) 290 =
      some (t, ⟨290, 10⟩) := by
    norm_num [oneCell, init, params, coolantLoop, cellLoop, cellRound, flowGuard]
  obtain ⟨t, hloop⟩ := hloop
  have hstep : oneCell.step ⟨1, 60, 290, 1 / 10 ^ 7⟩ ≠ none := by
    rw [Ne, step_eq_none, dividesByZero_iff]
    norm_num [oneCell, init, flowGuard]
  obtain ⟨m', hm'⟩ := Option.ne_none_iff_exists'.mp hstep
  obtain ⟨-, s, hloop', hremoved, -, -⟩ := step_eq_some hm'
  obtain ⟨-, rfl⟩ := Prod.mk.inj (Option.some.inj (hloop.symm.trans hloop'))
  have hout : oneCell.coolantOut ⟨1, 60, 290, 1 / 10 ^ 7⟩ = some 290 := by
    rw [coolantOut, hloop]
    rfl
  have hrise := h oneCell ⟨1, 60, 290, 1 / 10 ^ 7⟩ le_rfl (by norm_num) m' hm' 290 hout
  rw [hremoved] at hrise
  norm_num at hrise

/-! ## Runs -/

theorem stored_step (h : m.step x = some m') :
    m'.storedHeat = m.storedHeat + x.dt * (x.qGenTotal - m'.lastQOutput) := by
  obtain ⟨-, s, hloop, -, -, hcap⟩ := step_eq_some h
  have hheat := step_heat h
  rw [sum_zipWith_sub (length_cellLoop hloop)] at hheat
  rw [storedHeat, storedHeat, hcap]
  linear_combination hheat

/-- **A run conserves energy**: the heat of its steps is in the cells. -/
theorem run_storedHeat {xs : List (StepInput V)} {heat : V} (h : m.run xs = some (m', heat)) :
    m'.storedHeat = m.storedHeat + heat := by
  induction xs generalizing m heat with
  | nil =>
    obtain ⟨rfl, rfl⟩ := Prod.mk.inj (Option.some.inj h)
    rw [add_zero]
  | cons x xs ih =>
    obtain ⟨m₁, hstep, h⟩ := Option.bind_eq_some_iff.mp h
    obtain ⟨⟨m₂, heat'⟩, hrest, h⟩ := Option.bind_eq_some_iff.mp h
    obtain ⟨rfl, rfl⟩ := Prod.mk.inj (Option.some.inj h)
    rw [ih hrest, stored_step hstep]
    ring

end StackThermalModelND

end MatrixFactory
