/-!
# Numbers of the viewport

Scales and coordinates are doubles when the program runs. What the viewport does with them needs
only the four operations and a comparison, so it is written for every kind of number that has
these, exact fractions among them.

## Main definitions

* `Scalar` — a kind of number that scales and coordinates can be.
* `Scalar.larger`, `Scalar.smaller` — of two numbers; one that cannot be compared gives way.
-/

namespace FlowCanvas

/-- A kind of number that scales and coordinates can be. -/
class Scalar (α : Type) extends Add α, Sub α, Mul α, Div α, Zero α, One α where
  /-- The first number is at most the second one. -/
  le : α → α → Bool
  /-- The number is a point of the line. -/
  isFinite : α → Bool

instance : Scalar Float where
  zero := 0.0
  one := 1.0
  le x y := x ≤ y
  isFinite := Float.isFinite

instance : Scalar Rat where
  zero := 0
  one := 1
  le x y := x ≤ y
  isFinite _ := true

namespace Scalar

variable {α : Type} [Scalar α]

/-- The first number is less than the second one. -/
def lt (x y : α) : Bool := le x y && !le y x

/-- The larger one of two numbers. A number that cannot be compared, not even with itself, gives
way to the other. -/
def larger (x y : α) : α := if le x y || !le x x then y else x

/-- The smaller one of two numbers. A number that cannot be compared, not even with itself, gives
way to the other. -/
def smaller (x y : α) : α := if le y x || !le x x then y else x

/-- The number two. -/
def two : α := 1 + 1

end Scalar

end FlowCanvas
