import FlowCanvas.Decimal.Layout
import FlowCanvas.Json.Value

/-!
# Writing JSON

Values are written without spaces. A string has escapes only where it needs them: for the quote,
the backslash and the controls.

## Main definitions

* `Json.escapeChar`, `Json.quote` — strings.
* `Json.numberLayout` — the layout of numbers that are not whole.
* `Json.chars`, `Json.text` — the text of a value.
-/

namespace FlowCanvas.Json

/-- A digit of base sixteen, in lower case. -/
def hexDigit (n : Nat) : Char := Nat.digitChar n

/-- A character inside a string. -/
def escapeChar (c : Char) : List Char :=
  if c = '"' then ['\\', '"']
  else if c = '\\' then ['\\', '\\']
  else if c = '\x08' then ['\\', 'b']
  else if c = '\x0c' then ['\\', 'f']
  else if c = '\n' then ['\\', 'n']
  else if c = '\r' then ['\\', 'r']
  else if c = '\t' then ['\\', 't']
  else if c < ' ' then
    ['\\', 'u', '0', '0', hexDigit (c.toNat / 16), hexDigit (c.toNat % 16)]
  else [c]

/-- A string in its quotes. -/
def quote (cs : List Char) : List Char := '"' :: (cs.flatMap escapeChar ++ ['"'])

/-- Numbers that are not whole have an exponent below `10 ^ -5` and from `10 ^ 16` on, show a
point even where it is not needed, and go to the even digit at a tie. -/
def numberLayout : Decimal.Layout := ⟨.even, some (-5, 16), true⟩

/-- A whole number in base ten. -/
def intChars : Int → List Char
  | .ofNat n => Nat.toDigits 10 n
  | .negSucc n => '-' :: Nat.toDigits 10 (n + 1)

mutual

/-- The text of a value. -/
def chars : Json → List Char
  | .null => "null".toList
  | .bool true => "true".toList
  | .bool false => "false".toList
  | .int n => intChars n
  | .real x => if x.isFinite then numberLayout.write x else "null".toList
  | .str s => quote s.toList
  | .list [] => ['[', ']']
  | .list (v :: vs) => '[' :: (chars v ++ itemChars vs)
  | .object [] => ['\x7b', '\x7d']
  | .object ((k, v) :: ms) => '\x7b' :: (quote k.toList ++ ':' :: (chars v ++ memberChars ms))

/-- The rest of a list behind one of its items. -/
def itemChars : List Json → List Char
  | [] => [']']
  | v :: vs => ',' :: (chars v ++ itemChars vs)

/-- The rest of an object behind one of its members. -/
def memberChars : List (String × Json) → List Char
  | [] => ['\x7d']
  | (k, v) :: ms => ',' :: (quote k.toList ++ ':' :: (chars v ++ memberChars ms))

end

/-- The text of a value. -/
def text (v : Json) : String := String.ofList v.chars

end FlowCanvas.Json
