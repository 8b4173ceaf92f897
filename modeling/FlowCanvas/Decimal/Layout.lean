import FlowCanvas.Decimal.Shortest

/-!
# Writing doubles

All texts of doubles have the shortest digits, and differ in where an exponent takes the place of
zeros and whether a whole number shows a point.

## Main definitions

* `Decimal.Layout` — the choices that a text of a double depends on.
* `Decimal.Layout.write` — the text of a double.
* `Decimal.Layout.plain` — the layout of coordinates and scales.
-/

namespace FlowCanvas.Decimal

/-- The choices that a text of a double depends on. -/
structure Layout where
  /-- The decimal taken when two shortest ones are equally near. -/
  tie : Tie
  /-- The powers of ten of the first digit, from the first to below the second, that are written
  without an exponent; all of them if there are no bounds. -/
  positional : Option (Int × Int)
  /-- Whole numbers end in a point and a zero. -/
  wholePoint : Bool
  deriving Repr, Inhabited

/-- Coordinates and scales have no exponent and no point after whole numbers, and a tie goes
up. -/
def Layout.plain : Layout := ⟨.up, none, false⟩

/-- The digits of a decimal with zeros or a point where they belong. -/
def writePositional (wholePoint : Bool) (digits : List Char) (exponent : Int) : List Char :=
  if 0 ≤ exponent then
    digits ++ List.replicate exponent.toNat '0' ++ (if wholePoint then ['.', '0'] else [])
  else
    let places := (-exponent).toNat
    if places < digits.length then
      digits.take (digits.length - places) ++ '.' :: digits.drop (digits.length - places)
    else '0' :: '.' :: List.replicate (places - digits.length) '0' ++ digits

/-- The digits of a decimal with a point after the first one and an exponent, which always has
its sign. -/
def writeExponent (digits : List Char) (exponent : Int) : List Char :=
  let power := exponent + (digits.length - 1 : Nat)
  digits.take 1 ++ (if 1 < digits.length then '.' :: digits.drop 1 else [])
    ++ 'e' :: (if 0 ≤ power then '+' else '-') :: Nat.toDigits 10 power.natAbs

/-- A decimal in a layout. -/
def Layout.writeDecimal (l : Layout) (d : Decimal) : List Char :=
  let digits := Nat.toDigits 10 d.digits
  let power := d.exponent + (digits.length - 1 : Nat)
  let inRange := match l.positional with
    | none => true
    | some (low, high) => low ≤ power && power < high
  if inRange then writePositional l.wholePoint digits d.exponent
  else writeExponent digits d.exponent

/-- The text of a double. -/
def Layout.write (l : Layout) (x : Float) : List Char :=
  if x.isNaN then "NaN".toList
  else
    (if Binary64.isNegative x then ['-'] else [])
      ++ if x.isInf then "inf".toList
        else
          let v := Binary64.magnitude x
          if v.m = 0 then writePositional l.wholePoint ['0'] 0
          else l.writeDecimal (shortest l.tie v)

/-- The text of a coordinate or a scale. -/
def plainText (x : Float) : String := String.ofList (Layout.plain.write x)

end FlowCanvas.Decimal
