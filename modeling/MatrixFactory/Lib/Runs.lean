/-
# Runs of a deterministic step function

`run step ops s` feeds a list of operations to a total step function.  `Along`
says that a condition holds at every step of such a run, in the state before the
step; `run_invariant` is the induction that turns "one step preserves `I` under
the condition" into "every run does".
-/
import Mathlib.Data.List.Basic

namespace Runs

variable {S O : Type*} (step : O → S → S)

/-- The state after the operations `ops`, taken from the left. -/
def run : List O → S → S
  | [], s => s
  | o :: ops, s => run ops (step o s)

/-- The condition `C` holds at every step of the run, in the state the step starts
from. -/
def Along (C : S → O → Prop) : S → List O → Prop
  | _, [] => True
  | s, o :: ops => C s o ∧ Along C (step o s) ops

@[simp] theorem run_nil (s : S) : run step [] s = s := rfl

@[simp] theorem run_cons (o : O) (ops : List O) (s : S) :
    run step (o :: ops) s = run step ops (step o s) := rfl

@[simp] theorem along_nil (C : S → O → Prop) (s : S) : Along step C s [] := trivial

@[simp] theorem along_cons (C : S → O → Prop) (s : S) (o : O) (ops : List O) :
    Along step C s (o :: ops) ↔ C s o ∧ Along step C (step o s) ops := Iff.rfl

instance decidableAlong (C : S → O → Prop) [∀ s o, Decidable (C s o)] (s : S) (ops : List O) :
    Decidable (Along step C s ops) :=
  match ops with
  | [] => .isTrue trivial
  | o :: ops => have := decidableAlong C (step o s) ops; inferInstanceAs (Decidable (_ ∧ _))

theorem run_append (ops ops' : List O) (s : S) :
    run step (ops ++ ops') s = run step ops' (run step ops s) := by
  induction ops generalizing s with
  | nil => rfl
  | cons o ops ih => exact ih (step o s)

theorem along_append (C : S → O → Prop) (ops ops' : List O) (s : S) :
    Along step C s (ops ++ ops') ↔ Along step C s ops ∧ Along step C (run step ops s) ops' := by
  induction ops generalizing s with
  | nil => simp
  | cons o ops ih => simp [ih, and_assoc]

/-- A condition along a run, at each of its positions. -/
theorem along_iff_split (C : S → O → Prop) (ops : List O) (s : S) :
    Along step C s ops ↔
      ∀ before o after, ops = before ++ o :: after → C (run step before s) o := by
  induction ops generalizing s with
  | nil => simp
  | cons o ops ih =>
    rw [along_cons, ih]
    constructor
    · rintro ⟨ho, hops⟩ (_ | ⟨o', before⟩) o'' after h
      · cases h
        exact ho
      · cases h
        exact hops before o'' after rfl
    · intro h
      refine ⟨h [] o ops rfl, fun before o' after heq => ?_⟩
      exact h (o :: before) o' after (by rw [heq, List.cons_append])

variable {step}

/-- A step that preserves `I` under `C` preserves it over every run along `C`. -/
theorem run_invariant {I : S → Prop} {C : S → O → Prop}
    (hstep : ∀ s o, I s → C s o → I (step o s)) {ops : List O} {s : S} (hs : I s)
    (hC : Along step C s ops) : I (run step ops s) := by
  induction ops generalizing s with
  | nil => exact hs
  | cons o ops ih => exact ih (hstep s o hs hC.1) hC.2

/-- A condition that every step meets holds along every run. -/
theorem along_of_forall {C : S → O → Prop} {ops : List O} {s : S}
    (h : ∀ s, ∀ o ∈ ops, C s o) : Along step C s ops := by
  induction ops generalizing s with
  | nil => trivial
  | cons o ops ih =>
    exact ⟨h s o List.mem_cons_self, ih fun s o ho => h s o (List.mem_cons_of_mem _ ho)⟩

theorem Along.imp {C C' : S → O → Prop} (h : ∀ s o, C s o → C' s o) {ops : List O} {s : S}
    (hC : Along step C s ops) : Along step C' s ops := by
  induction ops generalizing s with
  | nil => trivial
  | cons o ops ih => exact ⟨h s o hC.1, ih hC.2⟩

/-- An invariant may be used to discharge a further condition along the run. -/
theorem Along.and_invariant {I : S → Prop} {C : S → O → Prop}
    (hstep : ∀ s o, I s → C s o → I (step o s)) {ops : List O} {s : S} (hs : I s)
    (hC : Along step C s ops) : Along step (fun s o => I s ∧ C s o) s ops := by
  induction ops generalizing s with
  | nil => trivial
  | cons o ops ih => exact ⟨⟨hs, hC.1⟩, ih (hstep s o hs hC.1) hC.2⟩

end Runs
