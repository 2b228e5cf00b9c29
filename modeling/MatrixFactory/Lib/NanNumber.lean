/-
# Numbers with a NaN

The numbers of an ordered field, and one value that is none of them.  An operation with it gives it
again, and every comparison with it is false; so of two values that are not numbers neither is
below the other, and `max` and `min` of a program that compares with `<` depend on the order of
their arguments.
-/
import Mathlib.Algebra.Order.Field.Basic
import Mathlib.Tactic.NormNum

/-- A number, or the value that is none. -/
inductive NanNumber (K : Type*) where
  | nan
  | num (x : K)
  deriving DecidableEq

namespace NanNumber

variable {K : Type*}

/-- The value is a number. -/
def IsNumber (x : NanNumber K) : Prop := ∃ a, x = num a

instance (x : NanNumber K) : Decidable x.IsNumber :=
  match x with
  | nan => .isFalse fun ⟨_, h⟩ => nomatch h
  | num a => .isTrue ⟨a, rfl⟩

theorem isNumber_num (a : K) : (num a).IsNumber := ⟨a, rfl⟩

theorem not_isNumber_nan : ¬(nan : NanNumber K).IsNumber := fun ⟨_, h⟩ => nomatch h

theorem eq_nan {x : NanNumber K} (h : ¬x.IsNumber) : x = nan := by
  rcases x with _ | a
  · rfl
  · exact absurd ⟨a, rfl⟩ h

/-! ## Operations -/

/-- A function of numbers. -/
def map (f : K → K) : NanNumber K → NanNumber K
  | nan => nan
  | num a => num (f a)

/-- A function of two numbers. -/
def map₂ (f : K → K → K) : NanNumber K → NanNumber K → NanNumber K
  | num a, num b => num (f a b)
  | _, _ => nan

section

variable [Field K]

instance : Add (NanNumber K) := ⟨map₂ (· + ·)⟩
instance : Sub (NanNumber K) := ⟨map₂ (· - ·)⟩
instance : Mul (NanNumber K) := ⟨map₂ (· * ·)⟩
instance : Div (NanNumber K) := ⟨map₂ (· / ·)⟩
instance : Neg (NanNumber K) := ⟨map Neg.neg⟩

variable {a b : K} {x y : NanNumber K}

@[simp] theorem num_add : num a + num b = num (a + b) := rfl
@[simp] theorem num_sub : num a - num b = num (a - b) := rfl
@[simp] theorem num_mul : num a * num b = num (a * b) := rfl
@[simp] theorem num_div : num a / num b = num (a / b) := rfl
@[simp] theorem neg_num : -num a = num (-a) := rfl

@[simp] theorem nan_add : nan + x = nan := rfl
@[simp] theorem nan_sub : nan - x = nan := rfl
@[simp] theorem nan_mul : nan * x = nan := rfl
@[simp] theorem nan_div : nan / x = nan := rfl
@[simp] theorem neg_nan : -(nan : NanNumber K) = nan := rfl

@[simp] theorem add_nan : x + nan = nan := by cases x <;> rfl
@[simp] theorem sub_nan : x - nan = nan := by cases x <;> rfl
@[simp] theorem mul_nan : x * nan = nan := by cases x <;> rfl
@[simp] theorem div_nan : x / nan = nan := by cases x <;> rfl

end

/-! ## Comparisons -/

section

variable [LinearOrder K]

/-- `<`, false where one side is no number. -/
protected def Lt : NanNumber K → NanNumber K → Prop
  | num a, num b => a < b
  | _, _ => False

/-- `≤`, false where one side is no number. -/
protected def Le : NanNumber K → NanNumber K → Prop
  | num a, num b => a ≤ b
  | _, _ => False

instance : LT (NanNumber K) := ⟨NanNumber.Lt⟩
instance : LE (NanNumber K) := ⟨NanNumber.Le⟩

instance decidableLt : DecidableLT (NanNumber K) := fun x y =>
  match x, y with
  | num a, num b => inferInstanceAs (Decidable (a < b))
  | nan, _ => .isFalse id
  | num _, nan => .isFalse id

instance decidableLe : DecidableLE (NanNumber K) := fun x y =>
  match x, y with
  | num a, num b => inferInstanceAs (Decidable (a ≤ b))
  | nan, _ => .isFalse id
  | num _, nan => .isFalse id

variable {a b : K} {x y : NanNumber K}

@[simp] theorem num_lt : num a < num b ↔ a < b := Iff.rfl
@[simp] theorem num_le : num a ≤ num b ↔ a ≤ b := Iff.rfl
@[simp] theorem not_nan_lt : ¬nan < x := id
@[simp] theorem not_nan_le : ¬nan ≤ x := id

@[simp] theorem not_lt_nan : ¬x < nan := by
  rcases x with _ | a
  · exact id
  · exact id

@[simp] theorem not_le_nan : ¬x ≤ nan := by
  rcases x with _ | a
  · exact id
  · exact id

/-- Of two numbers one is at most the other where it is not above. -/
theorem le_of_not_lt (hx : x.IsNumber) (hy : y.IsNumber) (h : ¬y < x) : x ≤ y := by
  obtain ⟨a, rfl⟩ := hx
  obtain ⟨b, rfl⟩ := hy
  exact not_lt.mp h

theorem not_lt_of_le (h : x ≤ y) : ¬y < x := by
  rcases x with _ | a
  · exact absurd h not_nan_le
  · rcases y with _ | b
    · exact not_nan_lt
    · exact not_lt.mpr h

theorem isNumber_of_le (h : x ≤ y) : x.IsNumber ∧ y.IsNumber := by
  rcases x with _ | a
  · exact absurd h not_nan_le
  · rcases y with _ | b
    · exact absurd h not_le_nan
    · exact ⟨⟨a, rfl⟩, b, rfl⟩

end

/-! ## Closure -/

section

variable [Field K] {x y : NanNumber K}

theorem IsNumber.add (hx : x.IsNumber) (hy : y.IsNumber) : (x + y).IsNumber := by
  obtain ⟨a, rfl⟩ := hx
  obtain ⟨b, rfl⟩ := hy
  exact ⟨a + b, rfl⟩

theorem IsNumber.sub (hx : x.IsNumber) (hy : y.IsNumber) : (x - y).IsNumber := by
  obtain ⟨a, rfl⟩ := hx
  obtain ⟨b, rfl⟩ := hy
  exact ⟨a - b, rfl⟩

theorem IsNumber.mul (hx : x.IsNumber) (hy : y.IsNumber) : (x * y).IsNumber := by
  obtain ⟨a, rfl⟩ := hx
  obtain ⟨b, rfl⟩ := hy
  exact ⟨a * b, rfl⟩

theorem IsNumber.div (hx : x.IsNumber) (hy : y.IsNumber) : (x / y).IsNumber := by
  obtain ⟨a, rfl⟩ := hx
  obtain ⟨b, rfl⟩ := hy
  exact ⟨a / b, rfl⟩

theorem IsNumber.neg (hx : x.IsNumber) : (-x).IsNumber := by
  obtain ⟨a, rfl⟩ := hx
  exact ⟨-a, rfl⟩

end

end NanNumber
