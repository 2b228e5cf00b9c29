/-
# Double-precision numbers

A double is not a number, an infinity or a rational number; its two zeros are one.  An operation on
rational numbers rounds the exact result to the nearest multiple of its last bit, to the even one of
two, and gives an infinity from `2 ^ 1024` on.

Two kinds of rules follow.  `exists_ofRat` bounds the error of one rounding, and the rules of
`Within` carry bounds through a formula.  The rules of `IsFinite` say that what is not a finite
number stays so: a formula of sums, products and quotients by constants is finite only if each of
its inputs is.
-/
import Mathlib.Data.Int.Log
import Mathlib.Data.Rat.Floor
import Mathlib.Tactic.Linarith
import Mathlib.Tactic.Positivity

/-- A double-precision number. -/
inductive Double where
  | nan
  | infinite (negative : Bool)
  | finite (q : ℚ)
  deriving DecidableEq

namespace Double

/-! ## Rounding -/

/-- The nearest integer, the even one of two. -/
def nearest (x : ℚ) : ℤ :=
  if x - ⌊x⌋ < 1 / 2 then ⌊x⌋
  else if 1 / 2 < x - ⌊x⌋ then ⌊x⌋ + 1
  else if ⌊x⌋ % 2 = 0 then ⌊x⌋ else ⌊x⌋ + 1

/-- The exponent of the last bit of `q`. -/
def lastBit (q : ℚ) : ℤ := max (Int.log 2 |q| - 52) (-1074)

/-- The double nearest to `q`. -/
def ofRat (q : ℚ) : Double :=
  let r : ℚ := nearest (q / 2 ^ lastBit q) * 2 ^ lastBit q
  if 2 ^ 1024 ≤ |r| then infinite (decide (r < 0)) else finite r

theorem nearest_error (x : ℚ) : |(nearest x : ℚ) - x| ≤ 1 / 2 := by
  have hle : (⌊x⌋ : ℚ) ≤ x := Int.floor_le x
  have hlt : x < ⌊x⌋ + 1 := Int.lt_floor_add_one x
  unfold nearest
  rw [abs_le]
  split_ifs <;> push_cast <;> constructor <;> linarith

theorem nearest_nonneg {x : ℚ} (hx : 0 ≤ x) : 0 ≤ nearest x := by
  have h : 0 ≤ ⌊x⌋ := Int.floor_nonneg.2 hx
  unfold nearest
  split_ifs <;> omega

/-- The last bit of a number below `2 ^ k`. -/
theorem lastBit_le {q : ℚ} (hq : q ≠ 0) {k : ℤ} (hk : -1021 ≤ k) (hlt : |q| < 2 ^ k) :
    lastBit q ≤ k - 53 := by
  have hlog : Int.log 2 |q| < k := by
    rw [← Int.lt_zpow_iff_log_lt Nat.one_lt_two (abs_pos.2 hq)]
    exact_mod_cast hlt
  unfold lastBit
  omega

/-- **The error of a rounding**: half a last bit. -/
theorem exists_ofRat {q : ℚ} {k : ℤ} (hk : -1021 ≤ k) (hk' : k ≤ 1023) (hlt : |q| < 2 ^ k) :
    ∃ r, ofRat q = finite r ∧ |r - q| ≤ 2 ^ (k - 54) ∧ (0 ≤ q → 0 ≤ r) := by
  have hscale : (0 : ℚ) < 2 ^ lastBit q := zpow_pos two_pos _
  have herror : |(nearest (q / 2 ^ lastBit q) : ℚ) * 2 ^ lastBit q - q| ≤ 2 ^ (k - 54) := by
    by_cases hq : q = 0
    · rw [hq, zero_div]
      have hzero : nearest 0 = 0 := by simp [nearest]
      rw [hzero, Int.cast_zero, zero_mul, sub_zero, abs_zero]
      exact (zpow_pos two_pos _).le
    have hsplit : (nearest (q / 2 ^ lastBit q) : ℚ) * 2 ^ lastBit q - q =
        ((nearest (q / 2 ^ lastBit q) : ℚ) - q / 2 ^ lastBit q) * 2 ^ lastBit q := by
      rw [sub_mul, div_mul_cancel₀ q hscale.ne']
    calc |(nearest (q / 2 ^ lastBit q) : ℚ) * 2 ^ lastBit q - q|
        = |(nearest (q / 2 ^ lastBit q) : ℚ) - q / 2 ^ lastBit q| * 2 ^ lastBit q := by
          rw [hsplit, abs_mul, abs_of_pos hscale]
      _ ≤ 1 / 2 * 2 ^ lastBit q := mul_le_mul_of_nonneg_right (nearest_error _) hscale.le
      _ ≤ 1 / 2 * 2 ^ (k - 53) := by
          refine mul_le_mul_of_nonneg_left ?_ (by norm_num)
          exact zpow_le_zpow_right₀ one_le_two (lastBit_le hq hk hlt)
      _ = 2 ^ (k - 54) := by
          rw [show k - 53 = (k - 54) + 1 by ring, zpow_add_one₀ two_ne_zero]
          ring
  refine ⟨(nearest (q / 2 ^ lastBit q) : ℚ) * 2 ^ lastBit q, ?_, herror, fun hpos => ?_⟩
  · unfold ofRat
    rw [if_neg]
    rw [not_le]
    have hbig : (2 : ℚ) ^ k ≤ 2 ^ 1023 := by
      rw [← zpow_natCast]
      exact zpow_le_zpow_right₀ one_le_two hk'
    have hsmall : (2 : ℚ) ^ (k - 54) ≤ 2 ^ k := zpow_le_zpow_right₀ one_le_two (by omega)
    calc |(nearest (q / 2 ^ lastBit q) : ℚ) * 2 ^ lastBit q|
        = |((nearest (q / 2 ^ lastBit q) : ℚ) * 2 ^ lastBit q - q) + q| := by rw [sub_add_cancel]
      _ ≤ |(nearest (q / 2 ^ lastBit q) : ℚ) * 2 ^ lastBit q - q| + |q| := abs_add_le _ _
      _ < 2 ^ (k - 54) + 2 ^ k := add_lt_add_of_le_of_lt herror hlt
      _ ≤ 2 ^ 1023 + 2 ^ 1023 := add_le_add (hsmall.trans hbig) hbig
      _ = 2 ^ 1024 := by rw [← two_mul, ← pow_succ']
  · exact mul_nonneg (Int.cast_nonneg (nearest_nonneg (div_nonneg hpos hscale.le))) hscale.le

/-! ## Operations -/

/-- The sum. -/
protected def add : Double → Double → Double
  | finite p, finite q => ofRat (p + q)
  | infinite s, infinite t => if s = t then infinite s else nan
  | infinite s, finite _ => infinite s
  | finite _, infinite s => infinite s
  | _, _ => nan

/-- The negation. -/
protected def neg : Double → Double
  | finite q => finite (-q)
  | infinite s => infinite (!s)
  | nan => nan

/-- The product. -/
protected def mul : Double → Double → Double
  | finite p, finite q => ofRat (p * q)
  | infinite s, infinite t => infinite (s != t)
  | infinite s, finite q => if q = 0 then nan else infinite (s != decide (q < 0))
  | finite q, infinite s => if q = 0 then nan else infinite (s != decide (q < 0))
  | _, _ => nan

/-- The quotient. -/
protected def div : Double → Double → Double
  | finite p, finite q =>
    if q = 0 then if p = 0 then nan else infinite (decide (p < 0)) else ofRat (p / q)
  | infinite s, finite q => infinite (s != decide (q < 0))
  | finite _, infinite _ => finite 0
  | _, _ => nan

instance : Add Double := ⟨Double.add⟩
instance : Neg Double := ⟨Double.neg⟩
instance : Sub Double := ⟨fun x y => x + -y⟩
instance : Mul Double := ⟨Double.mul⟩
instance : Div Double := ⟨Double.div⟩

/-- The absolute value. -/
def abs : Double → Double
  | finite q => finite |q|
  | infinite _ => infinite false
  | nan => nan

/-- The order, which nothing but numbers and infinities stand in. -/
protected def Lt : Double → Double → Prop
  | finite p, finite q => p < q
  | infinite s, finite _ => s = true
  | finite _, infinite s => s = false
  | infinite s, infinite t => s = true ∧ t = false
  | _, _ => False

/-- The order with equality. -/
protected def Le : Double → Double → Prop
  | finite p, finite q => p ≤ q
  | infinite s, finite _ => s = true
  | finite _, infinite s => s = false
  | infinite s, infinite t => s = true ∨ t = false
  | _, _ => False

instance : LT Double := ⟨Double.Lt⟩
instance : LE Double := ⟨Double.Le⟩

instance decidableLt (x y : Double) : Decidable (x < y) := by
  show Decidable (Double.Lt x y)
  unfold Double.Lt
  split <;> infer_instance

instance decidableLe (x y : Double) : Decidable (x ≤ y) := by
  show Decidable (Double.Le x y)
  unfold Double.Le
  split <;> infer_instance

/-- The smaller one of two doubles that are numbers or infinities. -/
def minimum (x y : Double) : Double := if x = nan ∨ y = nan then nan else if y < x then y else x

/-- The larger one of two doubles that are numbers or infinities. -/
def maximum (x y : Double) : Double := if x = nan ∨ y = nan then nan else if x < y then y else x

/-- The exponent of the last bit of the square root of `q`. -/
def sqrtBit (q : ℚ) : ℤ := Int.log 2 q / 2 - 52

/-- The square root. -/
def sqrt : Double → Double
  | finite q =>
    if q < 0 then nan
    else
      let n : ℚ := Nat.sqrt ⌊q / 4 ^ sqrtBit q⌋₊
      finite ((if (n + 1 / 2) ^ 2 < q / 4 ^ sqrtBit q then n + 1 else n) * 2 ^ sqrtBit q)
  | infinite false => infinite false
  | _ => nan

variable {p q : ℚ} {x y : Double}

@[simp] theorem finite_lt_finite : finite p < finite q ↔ p < q := Iff.rfl

@[simp] theorem finite_le_finite : finite p ≤ finite q ↔ p ≤ q := Iff.rfl

theorem finite_add_finite : finite p + finite q = ofRat (p + q) := (rfl)

theorem finite_sub_finite : finite p - finite q = ofRat (p - q) := by
  show ofRat (p + -q) = _
  rw [sub_eq_add_neg]

theorem finite_mul_finite : finite p * finite q = ofRat (p * q) := (rfl)

theorem finite_div_finite (hq : q ≠ 0) : finite p / finite q = ofRat (p / q) := if_neg hq

theorem ofRat_ne_nan (q : ℚ) : ofRat q ≠ nan := by
  unfold ofRat
  dsimp only
  split <;> exact Double.noConfusion

/-- A comparison with what is not a number fails. -/
theorem ne_nan_of_lt (h : x < y) : x ≠ nan := by
  rintro rfl
  exact h

theorem lt_asymm (h : x < y) : ¬ y < x := by
  rcases x with _ | s | p <;> rcases y with _ | t | q
  case finite.finite => exact not_lt.2 (finite_lt_finite.1 h).le
  case infinite.finite => exact fun h' : s = false => Bool.noConfusion (h'.symm.trans h)
  case finite.infinite => exact fun h' : t = true => Bool.noConfusion (h'.symm.trans h)
  case infinite.infinite => exact fun h' : _ ∧ _ => Bool.noConfusion (h'.2.symm.trans h.1)
  all_goals exact absurd h id

theorem eq_of_not_lt (hx : x ≠ nan) (hy : y ≠ nan) (h : ¬ x < y) (h' : ¬ y < x) : x = y := by
  rcases x with _ | s | p <;> rcases y with _ | t | q
  case finite.finite =>
    exact congrArg finite (le_antisymm (not_lt.1 h') (not_lt.1 h))
  case infinite.finite => cases s <;> first | exact absurd rfl h | exact absurd rfl h'
  case finite.infinite => cases t <;> first | exact absurd rfl h | exact absurd rfl h'
  case infinite.infinite =>
    cases s <;> cases t <;> first | rfl | exact absurd ⟨rfl, rfl⟩ h | exact absurd ⟨rfl, rfl⟩ h'
  all_goals first | exact absurd rfl hx | exact absurd rfl hy

theorem minimum_comm (x y : Double) : minimum x y = minimum y x := by
  unfold minimum
  by_cases hnan : x = nan ∨ y = nan
  · rw [if_pos hnan, if_pos hnan.symm]
  · have hnan' : ¬ (y = nan ∨ x = nan) := fun h => hnan h.symm
    rw [if_neg hnan, if_neg hnan']
    obtain ⟨hx, hy⟩ := not_or.1 hnan
    by_cases hlt : y < x
    · rw [if_pos hlt, if_neg (lt_asymm hlt)]
    · by_cases hlt' : x < y
      · rw [if_neg hlt, if_pos hlt']
      · rw [if_neg hlt, if_neg hlt', eq_of_not_lt hx hy hlt' hlt]

/-- Whatever is a number or an infinity is clamped to a number. -/
theorem exists_clamp (hx : x ≠ nan) (hpq : p ≤ q) :
    ∃ r, maximum (finite p) (minimum (finite q) x) = finite r ∧ p ≤ r ∧ r ≤ q := by
  have hmin : ∃ y, minimum (finite q) x = y ∧ y ≠ nan ∧ (∀ r, y = finite r → r ≤ q) ∧
      y ≠ infinite false := by
    refine ⟨_, rfl, ?_⟩
    unfold minimum
    rw [if_neg (by rintro (h | h); exacts [Double.noConfusion h, hx h])]
    split
    · next hlt =>
      refine ⟨hx, fun r hr => ?_, ?_⟩
      · rw [hr] at hlt
        exact (finite_lt_finite.1 hlt).le
      · rintro rfl
        exact Bool.noConfusion (show false = true from hlt)
    · exact ⟨Double.noConfusion, fun r hr => by cases hr; exact le_rfl, Double.noConfusion⟩
  obtain ⟨y, hy, hnan, hle, hinf⟩ := hmin
  rw [hy]
  unfold maximum
  rw [if_neg (by rintro (h | h); exacts [Double.noConfusion h, hnan h])]
  split
  · next hlt =>
    rcases y with _ | s | r
    · exact absurd rfl hnan
    · rcases s with _ | _
      · exact absurd rfl hinf
      · exact absurd (show true = false from hlt) Bool.noConfusion
    · exact ⟨r, rfl, (finite_lt_finite.1 hlt).le, hle r rfl⟩
  · exact ⟨p, rfl, le_rfl, hpq⟩

/-! ## Finite results -/

/-- The double is a finite number. -/
def IsFinite (x : Double) : Prop := ∃ q, x = finite q

theorem isFinite_finite (q : ℚ) : IsFinite (finite q) := ⟨q, rfl⟩

theorem not_isFinite_nan : ¬ IsFinite nan := fun ⟨_, h⟩ => nomatch h

theorem not_isFinite_infinite (s : Bool) : ¬ IsFinite (infinite s) := fun ⟨_, h⟩ => nomatch h

/-- A finite sum has finite terms. -/
theorem IsFinite.of_add (h : IsFinite (x + y)) : IsFinite x ∧ IsFinite y := by
  rcases x with _ | s | p <;> rcases y with _ | t | q
  case finite.finite => exact ⟨isFinite_finite p, isFinite_finite q⟩
  case infinite.infinite =>
    change IsFinite (if s = t then infinite s else nan) at h
    split at h
    · exact absurd h (not_isFinite_infinite s)
    · exact absurd h not_isFinite_nan
  all_goals first
    | exact absurd h not_isFinite_nan
    | exact absurd h (not_isFinite_infinite _)

theorem IsFinite.of_neg (h : IsFinite (-x)) : IsFinite x := by
  rcases x with _ | s | q
  · exact absurd h not_isFinite_nan
  · exact absurd h (not_isFinite_infinite _)
  · exact isFinite_finite q

theorem IsFinite.of_sub (h : IsFinite (x - y)) : IsFinite x ∧ IsFinite y :=
  ⟨(IsFinite.of_add h).1, (IsFinite.of_add h).2.of_neg⟩

theorem IsFinite.of_mul (h : IsFinite (x * y)) : IsFinite x ∧ IsFinite y := by
  rcases x with _ | s | p <;> rcases y with _ | t | q
  case finite.finite => exact ⟨isFinite_finite p, isFinite_finite q⟩
  case infinite.finite =>
    change IsFinite (if q = 0 then nan else infinite _) at h
    split at h
    · exact absurd h not_isFinite_nan
    · exact absurd h (not_isFinite_infinite _)
  case finite.infinite =>
    change IsFinite (if p = 0 then nan else infinite _) at h
    split at h
    · exact absurd h not_isFinite_nan
    · exact absurd h (not_isFinite_infinite _)
  all_goals first
    | exact absurd h not_isFinite_nan
    | exact absurd h (not_isFinite_infinite _)

/-- A finite quotient has a finite dividend. -/
theorem IsFinite.of_div (h : IsFinite (x / y)) : IsFinite x := by
  rcases x with _ | s | p
  · rcases y with _ | t | q <;> exact absurd h not_isFinite_nan
  · rcases y with _ | t | q
    · exact absurd h not_isFinite_nan
    · exact absurd h not_isFinite_nan
    · exact absurd h (not_isFinite_infinite _)
  · exact isFinite_finite p

theorem IsFinite.of_abs (h : IsFinite (abs x)) : IsFinite x := by
  rcases x with _ | s | q
  · exact absurd h not_isFinite_nan
  · exact absurd h (not_isFinite_infinite _)
  · exact isFinite_finite q

theorem IsFinite.of_sqrt (h : IsFinite (sqrt x)) : IsFinite x := by
  rcases x with _ | s | q
  · exact absurd h not_isFinite_nan
  · rcases s with _ | _
    · exact absurd h (not_isFinite_infinite _)
    · exact absurd h not_isFinite_nan
  · exact isFinite_finite q

/-- A finite sum of a loop has a finite start and finite terms. -/
theorem IsFinite.of_foldl {α : Type*} {f : α → Double} {l : List α}
    (h : IsFinite (l.foldl (fun s i => s + f i) x)) :
    IsFinite x ∧ ∀ i ∈ l, IsFinite (f i) := by
  induction l generalizing x with
  | nil => exact ⟨h, fun i hi => absurd hi List.not_mem_nil⟩
  | cons i l ih =>
    obtain ⟨hx, hl⟩ := ih h
    refine ⟨hx.of_add.1, fun j hj => ?_⟩
    rcases List.mem_cons.1 hj with rfl | hj
    · exact hx.of_add.2
    · exact hl j hj

/-! ## Bounds -/

/-- The double is a number of magnitude `b` at most. -/
def Bounded (b : ℚ) (x : Double) : Prop := ∃ q, x = finite q ∧ |q| ≤ b

/-- The double is a number from zero to `b`. -/
def Within (b : ℚ) (x : Double) : Prop := ∃ q, x = finite q ∧ 0 ≤ q ∧ q ≤ b

variable {a b c : ℚ}

theorem Within.bounded (h : Within b x) : Bounded b x := by
  obtain ⟨q, rfl, hpos, hle⟩ := h
  exact ⟨q, rfl, (abs_of_nonneg hpos).trans_le hle⟩

theorem Within.mono (h : Within a x) (hab : a ≤ b) : Within b x := by
  obtain ⟨q, rfl, hpos, hle⟩ := h
  exact ⟨q, rfl, hpos, hle.trans hab⟩

theorem Bounded.abs (h : Bounded b x) : Within b x.abs := by
  obtain ⟨q, rfl, hle⟩ := h
  exact ⟨|q|, rfl, abs_nonneg q, hle⟩

/-- The error of rounding a number below `2 ^ k`, for a natural number `k`. -/
theorem exists_ofRat_nat (k : ℕ) (hk : k ≤ 1023) (hlt : |q| < 2 ^ k) :
    ∃ r, ofRat q = finite r ∧ |r - q| ≤ 2 ^ k / 2 ^ 54 ∧ (0 ≤ q → 0 ≤ r) := by
  have hsplit : (2 : ℚ) ^ ((k : ℤ) - 54) = 2 ^ k / 2 ^ 54 := by
    rw [zpow_sub₀ two_ne_zero, zpow_natCast]
    rfl
  rw [← hsplit]
  refine exists_ofRat (by omega) (by omega) ?_
  rwa [zpow_natCast]

theorem bounded_ofRat (k : ℕ) (hk : k ≤ 1023) (hq : |q| ≤ b) (hb : b < 2 ^ k) :
    Bounded (b + 2 ^ k / 2 ^ 54) (ofRat q) := by
  obtain ⟨r, hr, herror, -⟩ := exists_ofRat_nat k hk (hq.trans_lt hb)
  refine ⟨r, hr, ?_⟩
  calc |r| = |q + (r - q)| := by rw [add_sub_cancel]
    _ ≤ |q| + |r - q| := abs_add_le _ _
    _ ≤ b + 2 ^ k / 2 ^ 54 := add_le_add hq herror

theorem within_ofRat (k : ℕ) (hk : k ≤ 1023) (hpos : 0 ≤ q) (hq : q ≤ b) (hb : b < 2 ^ k) :
    Within (b + 2 ^ k / 2 ^ 54) (ofRat q) := by
  have habs : |q| ≤ b := (abs_of_nonneg hpos).trans_le hq
  obtain ⟨r, hr, hle⟩ := bounded_ofRat k hk habs hb
  obtain ⟨r', hr', -, hpos'⟩ := exists_ofRat_nat k hk (habs.trans_lt hb)
  rw [hr] at hr'
  cases hr'
  exact ⟨r, hr, hpos' hpos, (le_abs_self r).trans hle⟩

/-- A literal is close to its number. -/
theorem exists_literal (hlow : 1 / 100 ≤ c) (hhigh : c ≤ 1000) :
    ∃ r, ofRat c = finite r ∧ 9 / 10 * c ≤ r ∧ r ≤ 11 / 10 * c := by
  have habs : |c| < 2 ^ 10 := by
    rw [abs_of_nonneg (by linarith)]
    linarith
  obtain ⟨r, hr, herror, -⟩ := exists_ofRat_nat 10 (by norm_num) habs
  obtain ⟨hneg, hpos⟩ := abs_le.1 herror
  norm_num at hneg hpos
  exact ⟨r, hr, by linarith, by linarith⟩

theorem within_literal (hlow : 1 / 100 ≤ c) (hhigh : c ≤ 1000) :
    Within (11 / 10 * c) (ofRat c) := by
  obtain ⟨r, hr, hlow', hhigh'⟩ := exists_literal hlow hhigh
  exact ⟨r, hr, by linarith, hhigh'⟩

theorem ofRat_zero : ofRat 0 = finite 0 := by
  unfold ofRat
  simp [nearest]

theorem Bounded.sub (k : ℕ) (hk : k ≤ 1023) (hx : Bounded a x) (hy : Bounded b y)
    (h : a + b < 2 ^ k) : Bounded (a + b + 2 ^ k / 2 ^ 54) (x - y) := by
  obtain ⟨p, rfl, hp⟩ := hx
  obtain ⟨q, rfl, hq⟩ := hy
  rw [finite_sub_finite]
  exact bounded_ofRat k hk ((abs_sub p q).trans (add_le_add hp hq)) h

theorem Bounded.sq (k : ℕ) (hk : k ≤ 1023) (hx : Bounded a x) (h : a ^ 2 < 2 ^ k) :
    Within (a ^ 2 + 2 ^ k / 2 ^ 54) (x * x) := by
  obtain ⟨p, rfl, hp⟩ := hx
  rw [finite_mul_finite, ← sq]
  exact within_ofRat k hk (sq_nonneg p) (sq_le_sq' (abs_le.1 hp).1 (abs_le.1 hp).2) h

theorem Within.add (k : ℕ) (hk : k ≤ 1023) (hx : Within a x) (hy : Within b y)
    (h : a + b < 2 ^ k) : Within (a + b + 2 ^ k / 2 ^ 54) (x + y) := by
  obtain ⟨p, rfl, hp, hpa⟩ := hx
  obtain ⟨q, rfl, hq, hqb⟩ := hy
  exact within_ofRat k hk (add_nonneg hp hq) (add_le_add hpa hqb) h

theorem Within.mul (k : ℕ) (hk : k ≤ 1023) (hx : Within a x) (hy : Within b y)
    (h : a * b < 2 ^ k) : Within (a * b + 2 ^ k / 2 ^ 54) (x * y) := by
  obtain ⟨p, rfl, hp, hpa⟩ := hx
  obtain ⟨q, rfl, hq, hqb⟩ := hy
  exact within_ofRat k hk (mul_nonneg hp hq) (mul_le_mul hpa hqb hq (hp.trans hpa)) h

theorem Within.div (k : ℕ) (hk : k ≤ 1023) (hx : Within a x) (hb : 0 < b) (hbc : b ≤ c)
    (h : a / b < 2 ^ k) : Within (a / b + 2 ^ k / 2 ^ 54) (x / finite c) := by
  obtain ⟨p, rfl, hp, hpa⟩ := hx
  rw [finite_div_finite (hb.trans_le hbc).ne']
  exact within_ofRat k hk (div_nonneg hp (hb.le.trans hbc))
    (div_le_div₀ (hp.trans hpa) hpa hb hbc) h

/-- The sum of a loop. -/
theorem Within.foldl {α : Type*} (k : ℕ) (hk : k ≤ 1023) {f : α → Double} {l : List α}
    (hl : ∀ i ∈ l, Within b (f i)) (hx : Within a x)
    (h : a + l.length * (b + 2 ^ k / 2 ^ 54) < 2 ^ k) :
    Within (a + l.length * (b + 2 ^ k / 2 ^ 54)) (l.foldl (fun s i => s + f i) x) := by
  induction l generalizing a x with
  | nil => exact hx.mono (by rw [List.length_nil, Nat.cast_zero, zero_mul, add_zero])
  | cons i l ih =>
    have hi : Within b (f i) := hl i List.mem_cons_self
    have hb : 0 ≤ b := by
      obtain ⟨q, -, hq, hqb⟩ := hi
      exact hq.trans hqb
    have herror : (0 : ℚ) ≤ 2 ^ k / 2 ^ 54 := by positivity
    have hrest : (0 : ℚ) ≤ l.length * (b + 2 ^ k / 2 ^ 54) := by positivity
    have hsplit : a + (i :: l).length * (b + 2 ^ k / 2 ^ 54) =
        a + b + 2 ^ k / 2 ^ 54 + l.length * (b + 2 ^ k / 2 ^ 54) := by
      rw [List.length_cons, Nat.cast_succ]
      ring
    rw [hsplit] at h ⊢
    exact ih (fun j hj => hl j (List.mem_cons_of_mem i hj))
      (hx.add k hk hi (by linarith)) h

/-- The square of a square root is at most four times its argument. -/
theorem Within.sqrt (hb : 0 ≤ b) (hx : Within (b ^ 2) x) : Within (2 * b) x.sqrt := by
  obtain ⟨q, rfl, hq, hqb⟩ := hx
  have hscale : (0 : ℚ) < 2 ^ sqrtBit q := zpow_pos two_pos _
  have hscale' : (4 : ℚ) ^ sqrtBit q = (2 ^ sqrtBit q) ^ 2 := by
    rw [show (4 : ℚ) = 2 ^ (2 : ℤ) by norm_num, ← zpow_mul, mul_comm, zpow_mul]
    rfl
  set n : ℕ := Nat.sqrt ⌊q / 4 ^ sqrtBit q⌋₊ with hn
  have hsq : (n : ℚ) ^ 2 ≤ q / 4 ^ sqrtBit q := by
    have hfloor : ((n ^ 2 : ℕ) : ℚ) ≤ ⌊q / 4 ^ sqrtBit q⌋₊ :=
      Nat.cast_le.2 (Nat.sqrt_le' _)
    rw [Nat.cast_pow] at hfloor
    exact hfloor.trans (Nat.floor_le (div_nonneg hq (hscale' ▸ sq_nonneg _)))
  set m : ℚ := if (n + 1 / 2 : ℚ) ^ 2 < q / 4 ^ sqrtBit q then n + 1 else n with hm
  have hmpos : 0 ≤ m := by
    rw [hm]
    split_ifs <;> positivity
  have hmsq : m ^ 2 ≤ 4 * (q / 4 ^ sqrtBit q) := by
    rw [hm]
    split_ifs with h
    · nlinarith [Nat.cast_nonneg (α := ℚ) n]
    · nlinarith [sq_nonneg (n : ℚ)]
  have hroot : sqrt (finite q) = finite (m * 2 ^ sqrtBit q) := by
    show (if q < 0 then nan else _) = _
    rw [if_neg hq.not_gt]
  refine ⟨_, hroot, mul_nonneg hmpos hscale.le, ?_⟩
  refine le_of_sq_le_sq ?_ (by positivity)
  calc (m * 2 ^ sqrtBit q) ^ 2 = m ^ 2 * 4 ^ sqrtBit q := by
        rw [mul_pow, ← hscale']
    _ ≤ 4 * (q / 4 ^ sqrtBit q) * 4 ^ sqrtBit q := by
        refine mul_le_mul_of_nonneg_right hmsq ?_
        rw [hscale']
        exact sq_nonneg _
    _ = 4 * q := by
        rw [mul_assoc, div_mul_cancel₀ q (hscale' ▸ (pow_pos hscale 2).ne')]
    _ ≤ 4 * b ^ 2 := by linarith
    _ = (2 * b) ^ 2 := by ring

end Double
