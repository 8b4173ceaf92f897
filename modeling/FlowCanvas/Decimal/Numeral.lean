import FlowCanvas.Decimal.Binary64

/-!
# Reading doubles

A numeral is digits with at most one point among or beside them and possibly an exponent, or a
name for infinity or for what is not a number. It stands for the double nearest to it.

## Main definitions

* `Numeral` — what a numeral says.
* `Numeral.ofUnsigned?`, `Numeral.ofChars?` — the numerals among texts.
* `Numeral.toFloat` — the double nearest to a numeral.
-/

namespace FlowCanvas

/-- What a numeral says. -/
inductive Numeral
  | nan
  /-- Infinity, negative if so. -/
  | infinite (negative : Bool)
  /-- The number `digits · 10 ^ exponent`, negated if so. -/
  | finite (negative : Bool) (digits : Nat) (exponent : Int)
  deriving DecidableEq, Repr, Inhabited

namespace Numeral

/-- A digit of base ten. -/
def isDigit (c : Char) : Bool := '0' ≤ c && c ≤ '9'

/-- The value of a digit. -/
def digitValue (c : Char) : Nat := c.toNat - '0'.toNat

/-- The number that a row of digits continues. -/
def extend (n : Nat) (digits : List Char) : Nat :=
  digits.foldl (fun n c => 10 * n + digitValue c) n

/-- A sign, if there is one, taken off a text: whether it is a minus, and the rest. -/
def splitSign : List Char → Bool × List Char
  | '-' :: cs => (true, cs)
  | '+' :: cs => (false, cs)
  | cs => (false, cs)

/-- The exponent part of a numeral: nothing, or a mark, an optional sign and digits. -/
def exponent? : List Char → Option Int
  | [] => some 0
  | c :: cs =>
    if c = 'e' ∨ c = 'E' then
      let s := splitSign cs
      if s.2.isEmpty || !s.2.all isDigit then none
      else some (if s.1 then -(extend 0 s.2 : Int) else extend 0 s.2)
    else none

/-- The digits of a fraction behind its point, if there is one, and the rest. -/
def splitFraction : List Char → List Char × List Char
  | '.' :: cs => (cs.takeWhile isDigit, cs.dropWhile isDigit)
  | cs => ([], cs)

/-- Digits with at most one point and an optional exponent, without a sign. -/
def finite? (negative : Bool) (cs : List Char) : Option Numeral :=
  let whole := cs.takeWhile isDigit
  let f := splitFraction (cs.dropWhile isDigit)
  if whole.isEmpty && f.1.isEmpty then none
  else (exponent? f.2).map fun e =>
    .finite negative (extend (extend 0 whole) f.1) (e - f.1.length)

/-- The text is a word, in letters of either case. -/
def isWord (word : String) (cs : List Char) : Bool := cs.map Char.toLower = word.toList

/-- A name for infinity. -/
def isInfinity (cs : List Char) : Bool := isWord "inf" cs || isWord "infinity" cs

/-- Reads a numeral whose sign is taken off. -/
def ofUnsigned? (negative : Bool) (cs : List Char) : Option Numeral :=
  (finite? negative cs) <|>
    (if isInfinity cs then some (.infinite negative)
    else if isWord "nan" cs then some .nan else none)

/-- Reads a numeral with an optional sign. -/
def ofChars? (cs : List Char) : Option Numeral :=
  let s := splitSign cs
  ofUnsigned? s.1 s.2

/-- The number `digits · 10 ^ exponent`, rounded. Far beyond the doubles the power of ten is not
worked out. -/
def nearestDecimal (digits : Nat) (exponent : Int) : Float :=
  let power : Int := exponent + (Nat.toDigits 10 digits).length
  if digits = 0 || power < -400 then Float.ofBits 0
  else if 400 < power then Float.ofBits Binary64.infinityBits.toUInt64
  else Binary64.nearest (digits * Nat.pow 10 exponent.toNat) (Nat.pow 10 (-exponent).toNat)

/-- A magnitude with its sign. -/
def withSign (negative : Bool) (x : Float) : Float := if negative then -x else x

/-- The double nearest to a numeral. -/
def toFloat : Numeral → Float
  | .nan => 0.0 / 0.0
  | .infinite negative => withSign negative (Float.ofBits Binary64.infinityBits.toUInt64)
  | .finite negative digits exponent => withSign negative (nearestDecimal digits exponent)

end Numeral

/-- The double that a text denotes, if it is a numeral. -/
def readFloat? (s : String) : Option Float := (Numeral.ofChars? s.toList).map Numeral.toFloat

end FlowCanvas
