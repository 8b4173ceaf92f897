/-!
# Doubles as exact numbers

A finite double is `m · 2 ^ q` for whole numbers `m` and `q`. Reading and writing decimals goes
through this form, in exact arithmetic.

## Main definitions

* `Binary64.Magnitude` — the absolute value of a finite double.
* `Binary64.magnitude` — the one of a given double.
* `Binary64.nearest` — the double nearest to a fraction, ties to even.
-/

namespace FlowCanvas.Binary64

/-- The absolute value `m · 2 ^ q` of a finite double. -/
structure Magnitude where
  /-- The significand, below `2 ^ 53`. -/
  m : Nat
  /-- The exponent, at least `-1074`. -/
  q : Int
  deriving DecidableEq, Repr, Inhabited

/-- The least exponent of a double. -/
def minExponent : Int := -1074

/-- The sign bit is set. -/
def isNegative (x : Float) : Bool := x.toBits >>> 63 == 1

/-- The absolute value of a finite double, from its bits: eleven of exponent and fifty-two of
fraction, with a leading one understood unless the exponent is least. -/
def magnitude (x : Float) : Magnitude :=
  let bits := x.toBits.toNat
  let fraction := bits % Nat.pow 2 52
  let exponent : Nat := bits / Nat.pow 2 52 % Nat.pow 2 11
  if exponent = 0 then ⟨fraction, minExponent⟩
  else ⟨fraction + Nat.pow 2 52, minExponent + ((exponent : Int) - 1)⟩

/-- The bits of `m · 2 ^ q`, for `m` at most `2 ^ 53`. A significand that rounding has carried to
`2 ^ 53` counts up the exponent by itself. -/
def bitsOf (m : Nat) (q : Int) : Nat :=
  if m < Nat.pow 2 52 then m else (q - minExponent).toNat * Nat.pow 2 52 + m

/-- The bits of positive infinity. -/
def infinityBits : Nat := 0x7ff * Nat.pow 2 52

/-- Rounds a quotient to a whole number, ties to even. -/
def divRound (num den : Nat) : Nat :=
  let n := num / den
  let twice := 2 * (num % den)
  if twice < den then n
  else if den < twice then n + 1
  else if n % 2 = 0 then n else n + 1

/-- The quotient `num / den / 2 ^ q`, as a fraction. -/
def scale (num den : Nat) (q : Int) : Nat × Nat :=
  if 0 ≤ q then (num, den * Nat.pow 2 q.toNat) else (num * Nat.pow 2 (-q).toNat, den)

/-- The bits of the double nearest to `num / den`, ties to even, or of infinity beyond them. -/
def nearestBits (num den : Nat) : Nat :=
  if num = 0 then 0
  else
    -- the quotient lies between `2 ^ (log - 1)` and `2 ^ (log + 1)`
    let log : Int := num.log2 - den.log2
    let low := max minExponent (log - 53)
    let s := scale num den low
    let q := if s.1 / s.2 < Nat.pow 2 53 then low else low + 1
    let t := scale num den q
    let m := divRound t.1 t.2
    let bits := bitsOf m q
    if bits < infinityBits then bits else infinityBits

/-- The double nearest to `num / den`, ties to even. -/
def nearest (num den : Nat) : Float := Float.ofBits (nearestBits num den).toUInt64

end FlowCanvas.Binary64
