import FlowCanvas.Decimal.Binary64

/-!
# The shortest decimal of a double

A double stands for all numbers that round to it, and is written with the fewest digits that name
one of them.

## Main definitions

* `Decimal` — a number `digits · 10 ^ exponent`.
* `Decimal.Tie` — which of two equally near decimals is taken.
* `Decimal.shortest` — the decimal with the fewest digits that reads back as a given double, the
  nearest of these to it.
-/

namespace FlowCanvas

/-- A number `digits · 10 ^ exponent`. -/
structure Decimal where
  /-- The digits, as one number. -/
  digits : Nat
  /-- The power of ten that they count. -/
  exponent : Int
  deriving DecidableEq, Repr, Inhabited

namespace Decimal

/-- The neighbour that is taken when two decimals are equally near. -/
inductive Tie
  /-- The greater one. -/
  | up
  /-- The one with an even last digit. -/
  | even
  deriving DecidableEq, Repr, Inhabited

/-- The numbers that round to a double, as fractions over one denominator. -/
structure Interval where
  low : Nat
  mid : Nat
  high : Nat
  den : Nat
  /-- The ends round to the double, which happens if its significand is even. -/
  closed : Bool
  deriving DecidableEq, Repr, Inhabited

/-- The numbers that round to `m · 2 ^ q`: half the gap to the next double on each side, and the
gap below is half as wide at a power of two. -/
def interval (v : Binary64.Magnitude) : Interval :=
  let unit := Nat.pow 2 v.q.toNat
  let den := 4 * Nat.pow 2 (-v.q).toNat
  let below := if v.m = Nat.pow 2 52 ∧ Binary64.minExponent < v.q then 1 else 2
  ⟨(4 * v.m - below) * unit, 4 * v.m * unit, (4 * v.m + 2) * unit, den, v.m % 2 = 0⟩

/-- The number of `num / den` on a grid of powers of ten: `num / den / 10 ^ e` as a fraction. -/
def onGrid (num den : Nat) (e : Int) : Nat × Nat :=
  (num * Nat.pow 10 (-e).toNat, den * Nat.pow 10 e.toNat)

/-- The power of ten of the first digit of `num / den`. -/
def firstPower (num den : Nat) : Int :=
  let log : Int := num.log2 - den.log2
  -- a little below the decimal logarithm
  let guess := (log - 1) * 1233 / 4096
  let atLeast (e : Int) : Bool := let g := onGrid num den e; g.2 ≤ g.1
  if atLeast (guess + 2) then guess + 2
  else if atLeast (guess + 1) then guess + 1
  else if atLeast guess then guess else guess - 1

/-- The decimal of the grid `10 ^ e` that reads back and is nearest, if one reads back. -/
def nearestOnGrid (tie : Tie) (i : Interval) (e : Int) : Option Nat :=
  let g := onGrid i.mid i.den e
  let floor := g.1 / g.2
  let scaled (n : Nat) : Nat := n * Nat.pow 10 e.toNat * i.den
  let power := Nat.pow 10 (-e).toNat
  let reads (n : Nat) : Bool :=
    if i.closed then i.low * power ≤ scaled n && scaled n ≤ i.high * power
    else i.low * power < scaled n && scaled n < i.high * power
  let twice := 2 * (g.1 % g.2)
  let up := g.2 < twice || (twice = g.2 && (tie = .up || floor % 2 = 1))
  match reads floor, reads (floor + 1) with
  | true, true => some (if up then floor + 1 else floor)
  | true, false => some floor
  | false, true => some (floor + 1)
  | false, false => none

/-- Tries ever finer grids, `n` of them at most. -/
def searchGrids (tie : Tie) (i : Interval) : Nat → Int → Decimal
  | 0, e => ⟨(nearestOnGrid tie i e).getD 0, e⟩
  | n + 1, e =>
    match nearestOnGrid tie i e with
    | some d => ⟨d, e⟩
    | none => searchGrids tie i n (e - 1)

/-- The same number without zeros at the end of its digits. -/
def dropZeros (digits : Nat) (exponent : Int) : Decimal :=
  if h : digits ≠ 0 ∧ digits % 10 = 0 then dropZeros (digits / 10) (exponent + 1)
  else ⟨digits, exponent⟩
termination_by digits
decreasing_by omega

/-- The shortest decimal of a finite double other than zero. -/
def shortest (tie : Tie) (v : Binary64.Magnitude) : Decimal :=
  let i := interval v
  let d := searchGrids tie i 17 (firstPower i.mid i.den)
  dropZeros d.digits d.exponent

end Decimal

end FlowCanvas
