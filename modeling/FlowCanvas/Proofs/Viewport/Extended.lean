import FlowCanvas.Viewport.Scalar
import Mathlib.Algebra.Order.Field.Rat

/-!
# Extended fractions

A double is a fraction, one of two infinite numbers, or no number at all.  Extended fractions are
these without a bound on the fractions, so that nothing is rounded; there is one zero, which counts
as positive where it divides.

The two operations of `Scalar` that decide between numbers need a comparison only, and they are the
same for all kinds of numbers that are compared as extended fractions (`Scalar.HasValue`): they take
the larger and the smaller number, and what is no number gives way to the other.

## Main definitions

* `Extended` — the fractions, two infinite numbers, and what is no number.
* `Extended.maxNum`, `Extended.minNum` — the larger and the smaller of two; what is no number gives
  way.
* `Scalar.HasValue` — numbers of a kind are compared by what they stand for.

## Main results

* `value_larger`, `value_smaller` — which of two numbers is taken.
-/

namespace FlowCanvas

/-! ### Their order -/

/-- A fraction, an infinite number, or what is no number. -/
inductive Extended
  /-- The infinite number below all fractions. -/
  | negInf
  | fin (q : ℚ)
  /-- The infinite number above all fractions. -/
  | posInf
  /-- No number. -/
  | nan
  deriving DecidableEq

namespace Extended

/-- The first number is at most the second one. What is no number cannot be compared. -/
def le : Extended → Extended → Bool
  | nan, _ => false
  | _, nan => false
  | negInf, _ => true
  | _, posInf => true
  | fin x, fin y => x ≤ y
  | _, _ => false

instance : LE Extended := ⟨fun x y => x.le y = true⟩

instance : DecidableLE Extended := fun x y => decidable_of_iff (x.le y = true) Iff.rfl

/-- The larger one of two numbers; what is no number gives way. -/
def maxNum : Extended → Extended → Extended
  | nan, y => y
  | x, nan => x
  | x, y => if x ≤ y then y else x

/-- The smaller one of two numbers; what is no number gives way. -/
def minNum : Extended → Extended → Extended
  | nan, y => y
  | x, nan => x
  | x, y => if y ≤ x then y else x

theorem not_nan_le (x : Extended) : ¬ nan ≤ x := Bool.false_ne_true

theorem not_le_nan (x : Extended) : ¬ x ≤ nan := by cases x <;> exact Bool.false_ne_true

theorem ne_nan_of_le_left {x y : Extended} (h : x ≤ y) : x ≠ nan := by
  rintro rfl
  exact not_nan_le y h

theorem ne_nan_of_le_right {x y : Extended} (h : x ≤ y) : y ≠ nan := by
  rintro rfl
  exact not_le_nan x h

theorem fin_le_fin {x y : ℚ} : fin x ≤ fin y ↔ x ≤ y := decide_eq_true_iff

/-- Numbers can be compared, one way or the other. -/
theorem le_or_le {x y : Extended} (hx : x ≠ nan) (hy : y ≠ nan) : x ≤ y ∨ y ≤ x := by
  cases x with
  | nan => exact absurd rfl hx
  | negInf =>
    left
    cases y with
    | nan => exact absurd rfl hy
    | _ => rfl
  | posInf =>
    right
    cases y with
    | nan => exact absurd rfl hy
    | _ => rfl
  | fin p =>
    cases y with
    | nan => exact absurd rfl hy
    | negInf => exact .inr rfl
    | posInf => exact .inl rfl
    | fin q => exact (le_total p q).imp fin_le_fin.mpr fin_le_fin.mpr

theorem le_self {x : Extended} (h : x ≠ nan) : x ≤ x := (le_or_le h h).elim id id

@[simp] theorem nan_maxNum (y : Extended) : maxNum nan y = y := rfl

@[simp] theorem nan_minNum (y : Extended) : minNum nan y = y := rfl

@[simp] theorem maxNum_nan (x : Extended) : maxNum x nan = x := by cases x <;> rfl

@[simp] theorem minNum_nan (x : Extended) : minNum x nan = x := by cases x <;> rfl

theorem maxNum_of_ne {x : Extended} (hx : x ≠ nan) (y : Extended) :
    maxNum x y = if x ≤ y then y else x := by
  cases y with
  | nan => rw [maxNum_nan, if_neg (not_le_nan x)]
  | _ =>
    cases x with
    | nan => exact absurd rfl hx
    | _ => rfl

theorem minNum_of_ne {x : Extended} (hx : x ≠ nan) (y : Extended) :
    minNum x y = if y ≤ x then y else x := by
  cases y with
  | nan => rw [minNum_nan, if_neg (not_nan_le x)]
  | _ =>
    cases x with
    | nan => exact absurd rfl hx
    | _ => rfl

theorem le_maxNum_right (x : Extended) {y : Extended} (hy : y ≠ nan) : y ≤ maxNum x y := by
  by_cases hx : x = nan
  · rw [hx, nan_maxNum]
    exact le_self hy
  · rw [maxNum_of_ne hx]
    split
    · exact le_self hy
    · next h => exact (le_or_le hx hy).resolve_left h

theorem minNum_le_right (x : Extended) {y : Extended} (hy : y ≠ nan) : minNum x y ≤ y := by
  by_cases hx : x = nan
  · rw [hx, nan_minNum]
    exact le_self hy
  · rw [minNum_of_ne hx]
    split
    · exact le_self hy
    · next h => exact (le_or_le hx hy).resolve_right h

theorem le_minNum {x y z : Extended} (hx : z ≤ x) (hy : z ≤ y) : z ≤ minNum x y := by
  rw [minNum_of_ne (ne_nan_of_le_right hx)]
  split
  · exact hy
  · exact hx

/-! ### Their arithmetic -/

/-- The sign of a number. What is no number has that of zero. -/
def sign : Extended → ℤ
  | negInf => -1
  | fin q => q.num.sign
  | posInf => 1
  | nan => 0

/-- The infinite number of a sign. There is none with that of zero. -/
def infinite (sign : ℤ) : Extended :=
  if sign < 0 then negInf else if sign = 0 then nan else posInf

/-- The sum of two numbers. Infinite numbers of different signs have none. -/
def add : Extended → Extended → Extended
  | fin x, fin y => fin (x + y)
  | x, fin _ => x
  | fin _, y => y
  | x, y => if x = y then x else nan

/-- A number with its sign turned. -/
def neg : Extended → Extended
  | fin x => fin (-x)
  | x => infinite (-x.sign)

/-- The product of two numbers. Zero and an infinite number have none. -/
def mul : Extended → Extended → Extended
  | fin x, fin y => fin (x * y)
  | x, y => infinite (x.sign * y.sign)

/-- The quotient of two numbers. Zero counts as positive where it divides. Two zeros have none, and
neither have two infinite numbers. -/
def div : Extended → Extended → Extended
  | fin x, fin y => if y.num = 0 then infinite (fin x).sign else fin (x / y)
  | x, fin y => if y.num < 0 then infinite (-x.sign) else x
  | fin _, nan => nan
  | fin _, _ => fin 0
  | _, _ => nan

instance : Scalar Extended where
  add := add
  sub x y := add x (neg y)
  mul := mul
  div := div
  zero := fin 0
  one := fin 1
  le := le
  isFinite
    | fin _ => true
    | _ => false

end Extended

/-! ### Numbers that stand for extended fractions -/

/-- Every number of a kind stands for an extended fraction, and numbers are compared by what they
stand for. -/
class Scalar.HasValue (α : Type) [Scalar α] where
  /-- What a number stands for. -/
  value : α → Extended
  le_eq : ∀ x y : α, Scalar.le x y = (value x).le (value y)

namespace Scalar

open HasValue (value)

instance : HasValue Extended := ⟨id, fun _ _ => rfl⟩

instance : HasValue ℚ := ⟨.fin, fun _ _ => rfl⟩

variable {α : Type} [Scalar α] [HasValue α]

theorem le_eq_true_iff (x y : α) : le x y = true ↔ value x ≤ value y := by
  rw [HasValue.le_eq]
  rfl

theorem le_self_eq_true_iff (x : α) : le x x = true ↔ value x ≠ .nan := by
  rw [le_eq_true_iff]
  exact ⟨Extended.ne_nan_of_le_left, Extended.le_self⟩

/-- Of two numbers the larger one is taken. -/
theorem value_larger (x y : α) : value (larger x y) = (value x).maxNum (value y) := by
  unfold larger
  simp only [Bool.or_eq_true, Bool.not_eq_true', ← Bool.not_eq_true, le_self_eq_true_iff,
    le_eq_true_iff, not_not]
  by_cases hx : value x = .nan
  · rw [if_pos (.inr hx), hx, Extended.nan_maxNum]
  · rw [Extended.maxNum_of_ne hx, apply_ite value]
    simp only [hx, or_false]

/-- Of two numbers the smaller one is taken. -/
theorem value_smaller (x y : α) : value (smaller x y) = (value x).minNum (value y) := by
  unfold smaller
  simp only [Bool.or_eq_true, Bool.not_eq_true', ← Bool.not_eq_true, le_self_eq_true_iff,
    le_eq_true_iff, not_not]
  by_cases hx : value x = .nan
  · rw [if_pos (.inr hx), hx, Extended.nan_minNum]
  · rw [Extended.minNum_of_ne hx, apply_ite value]
    simp only [hx, or_false]

end Scalar

end FlowCanvas
