import FlowCanvas.Decimal.Numeral
import FlowCanvas.Graph.Schema
import FlowCanvas.Text.Blank
import FlowCanvas.Viewport.Geometry

/-!
# The values of options

## Main definitions

* `Value.count`, `Value.decimal`, `Value.size`, `Value.theme` — the values that a text of an option
  stands for, or why it stands for none.
-/

namespace FlowCanvas.Value

/-- The first number that is too large for a count. -/
def countBound : Nat := Nat.pow 2 64

/-- The count that a row of digits continues. -/
def continueCount (n : Nat) : List Char → Except String Nat
  | [] => .ok n
  | c :: cs =>
    if Numeral.isDigit c then
      let m := 10 * n + Numeral.digitValue c
      if m < countBound then continueCount m cs
      else .error "number too large to fit in target type"
    else .error "invalid digit found in string"

/-- A count, which may have a plus before it. -/
def count (s : String) : Except String Nat :=
  match s.toList with
  | [] => .error "cannot parse integer from empty string"
  | ['+'] => .error "invalid digit found in string"
  | '+' :: cs => continueCount 0 cs
  | cs => continueCount 0 cs

/-- A number, given as a numeral. -/
def decimal (s : String) : Except String Float :=
  match readFloat? s with
  | some x => .ok x
  | none =>
    .error (if s.isEmpty then "cannot parse float from empty string" else "invalid float literal")

/-- One side of a size. -/
def side (name : String) (cs : List Char) : Except String Float :=
  match decimal (String.ofList (trim cs)) with
  | .ok x => .ok x
  | .error reason => .error ("bad " ++ name ++ " `" ++ String.ofList cs ++ "`: " ++ reason)

/-- A size: two numbers with the letter x between them. -/
def size (s : String) : Except String (Box Float) := do
  let isCross (c : Char) : Bool := c = 'x' || c = 'X'
  match s.toList.dropWhile (!isCross ·) with
  | [] => .error ("expected WIDTHxHEIGHT, got `" ++ s ++ "`")
  | _ :: height =>
    let w ← side "width" (s.toList.takeWhile (!isCross ·))
    let h ← side "height" height
    .ok (.sized w h)

/-- The name of a theme. -/
def theme (s : String) : Except String Theme :=
  match Json.ofWord? s with
  | some t => .ok t
  | none => .error ("unknown theme `" ++ s ++ "`")

end FlowCanvas.Value
