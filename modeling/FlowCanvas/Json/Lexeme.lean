import FlowCanvas.Decimal.Numeral
import FlowCanvas.Json.Fault

/-!
# Reading the smallest parts of JSON

A reader takes its part from the beginning of a text and gives the text that is left.

## Main definitions

* `Result` — a result, or a fault.
* `skipSpace`, `readWord` — space between parts, and the words `null`, `true` and `false`.
* `readString` — a string behind its opening quote.
* `readNumber` — a number.
-/

namespace FlowCanvas.Json

/-- What a reader gives: its result, or a fault. A reader that yields a part gives it together
with the text left behind it. -/
abbrev Result := Except Fault

/-- A fault behind what was taken so far. -/
def refuse {α : Type} (cause : Cause) (rest : List Char) : Result α :=
  .error ⟨cause, rest, 0⟩

/-- A fault at the next byte, which was looked at and not taken. -/
def refuseNext {α : Type} (cause : Cause) (rest : List Char) : Result α :=
  .error ⟨cause, rest, 1⟩

/-- The space that may stand between parts. -/
def isSpace (c : Char) : Bool := c = ' ' || c = '\n' || c = '\t' || c = '\r'

/-- The text behind the space at its beginning. -/
def skipSpace (cs : List Char) : List Char := cs.dropWhile isSpace

/-- Reads the letters of a word, whose first letter is taken already. -/
def readWord : List Char → List Char → Result (List Char)
  | [], cs => .ok cs
  | _ :: _, [] => refuse .endOfValue []
  | w :: ws, c :: cs => if c = w then readWord ws cs else refuseNext .badWord (c :: cs)

/-! ### Strings -/

/-- The value of a digit of base sixteen, in either case. -/
def hexValue? (c : Char) : Option Nat :=
  if '0' ≤ c ∧ c ≤ '9' then some (c.toNat - '0'.toNat)
  else if 'a' ≤ c ∧ c ≤ 'f' then some (c.toNat - 'a'.toNat + 10)
  else if 'A' ≤ c ∧ c ≤ 'F' then some (c.toNat - 'A'.toNat + 10)
  else none

/-- The number of four digits of base sixteen. -/
def hexNumber? (a b c d : Char) : Option Nat :=
  match hexValue? a, hexValue? b, hexValue? c, hexValue? d with
  | some a, some b, some c, some d => some (((a * 16 + b) * 16 + c) * 16 + d)
  | _, _, _, _ => none

/-- The fault of a text that does not begin with four digits of base sixteen. -/
def badHex {α : Type} (cs : List Char) : Result α :=
  if byteLength cs < 4 then refuse .endOfString [] else .error ⟨.badEscape, cs, 4⟩

/-- The character that an escape of one letter stands for. -/
def unescape? (c : Char) : Option Char :=
  if c = '"' then some '"'
  else if c = '\\' then some '\\'
  else if c = '/' then some '/'
  else if c = 'b' then some '\x08'
  else if c = 'f' then some '\x0c'
  else if c = 'n' then some '\n'
  else if c = 'r' then some '\r'
  else if c = 't' then some '\t'
  else none

/-- The first half of a pair of escapes. -/
def isHighSurrogate (n : Nat) : Bool := 0xd800 ≤ n && n ≤ 0xdbff

/-- The second half of a pair of escapes. -/
def isLowSurrogate (n : Nat) : Bool := 0xdc00 ≤ n && n ≤ 0xdfff

/-- The character that a pair of escapes stands for. -/
def pairChar (high low : Nat) : Char :=
  Char.ofNat (0x10000 + (high - 0xd800) * 0x400 + (low - 0xdc00))

/-- Puts a character before the string that is read behind it. -/
def consRead (c : Char) : Result (List Char × List Char) → Result (List Char × List Char)
  | .ok (s, rest) => .ok (c :: s, rest)
  | .error f => .error f

/-- Reads a string behind its opening quote, up to its closing one. -/
def readString : List Char → Result (List Char × List Char)
  | [] => refuse .endOfString []
  | c :: cs =>
    if c = '"' then .ok ([], cs)
    else if c = '\\' then
      match cs with
      | [] => refuse .endOfString []
      | e :: cs =>
        if e = 'u' then
          match cs with
          | a :: b :: c :: d :: cs =>
            match hexNumber? a b c d with
            | none => badHex (a :: b :: c :: d :: cs)
            | some n =>
              if isLowSurrogate n then refuse .loneSurrogate cs
              else if isHighSurrogate n then
                match cs with
                | [] => refuse .endOfString []
                | '\\' :: [] => refuse .endOfString []
                | '\\' :: 'u' :: a :: b :: c :: d :: cs =>
                  match hexNumber? a b c d with
                  | none => badHex (a :: b :: c :: d :: cs)
                  | some m =>
                    if isLowSurrogate m then consRead (pairChar n m) (readString cs)
                    else refuse .loneSurrogate cs
                | '\\' :: 'u' :: cs => badHex cs
                | '\\' :: cs => refuseNext .endOfPair cs
                | cs => refuseNext .endOfPair cs
              else consRead (Char.ofNat n) (readString cs)
          | cs => badHex cs
        else
          match unescape? e with
          | some c => consRead c (readString cs)
          | none => refuseNext .badEscape (e :: cs)
    else if c < ' ' then refuse .control cs
    else consRead c (readString cs)

/-! ### Numbers -/

/-- Takes up digits as long as the number stays below `2 ^ 64`; also gives how many are left. -/
def takeDigits (n : Nat) : List Char → Nat × Nat
  | [] => (n, 0)
  | d :: ds =>
    if n * 10 + Numeral.digitValue d < Nat.pow 2 64 then
      takeDigits (n * 10 + Numeral.digitValue d) ds
    else (n, ds.length + 1)

/-- The power of ten as a double. -/
def tenTo (e : Nat) : Float := Numeral.nearestDecimal 1 e

/-- A double divided by a power of ten, `10 ^ 308` at a time. -/
def divideByTen (f : Float) (e : Nat) : Float :=
  if e ≤ 308 then f / tenTo e
  else if f == 0 then f
  else divideByTen (f / tenTo 308) (e - 308)
termination_by e

/-- The double `significand · 10 ^ exponent`, worked out in doubles and so not always the nearest
one; `none` beyond the doubles. -/
def scaled? (significand : Nat) (exponent : Int) : Option Float :=
  let f := Binary64.nearest significand 1
  if exponent < 0 then some (divideByTen f (-exponent).toNat)
  else if exponent ≤ 308 then
    let g := f * tenTo exponent.toNat
    if g.isInf then none else some g
  else if significand = 0 then some f else none

/-- Takes up the digits of an exponent as long as it stays below `2 ^ 31`; also gives the text
behind the digit that does not fit, if there is one. -/
def takeExponent (n : Nat) : List Char → Nat × Option (List Char)
  | [] => (n, none)
  | d :: ds =>
    if Numeral.isDigit d then
      if n * 10 + Numeral.digitValue d < Nat.pow 2 31 then
        takeExponent (n * 10 + Numeral.digitValue d) ds
      else (n, some ds)
    else (n, none)

/-- A number that is not whole, with its sign. -/
def realOf (negative : Bool) (x : Float) : Json := .real (Numeral.withSign negative x)

/-- The number with the given parts, whose text ends here. -/
def finishReal (negative : Bool) (significand : Nat) (exponent : Int) (rest : List Char) :
    Result (Json × List Char) :=
  match scaled? significand exponent with
  | some x => .ok (realOf negative x, rest)
  | none => refuse .hugeNumber rest

/-- Reads an exponent behind its mark, and finishes the number. -/
def readExponent (negative : Bool) (significand : Nat) (exponent : Int) (cs : List Char) :
    Result (Json × List Char) :=
  let s := Numeral.splitSign cs
  match s.2 with
  | [] => refuse .endOfValue []
  | d :: ds =>
    if Numeral.isDigit d then
      let rest := s.2.dropWhile Numeral.isDigit
      match takeExponent 0 (d :: ds) with
      | (e, none) =>
        finishReal negative significand (if s.1 then exponent - e else exponent + e) rest
      | (_, some behind) =>
        if significand ≠ 0 && !s.1 then refuse .hugeNumber behind
        else .ok (realOf negative (Float.ofBits 0), rest)
    else refuseNext .badNumber (d :: ds)

/-- Reads what may follow the digits of a fraction, and finishes the number. -/
def readAfterFraction (negative : Bool) (significand : Nat) (exponent : Int) :
    List Char → Result (Json × List Char)
  | 'e' :: cs => readExponent negative significand exponent cs
  | 'E' :: cs => readExponent negative significand exponent cs
  | cs => finishReal negative significand exponent cs

/-- Reads a fraction behind its point, and finishes the number. -/
def readFraction (negative : Bool) (significand : Nat) (exponent : Int) (cs : List Char) :
    Result (Json × List Char) :=
  let digits := cs.takeWhile Numeral.isDigit
  let rest := cs.dropWhile Numeral.isDigit
  if digits.isEmpty then
    if rest.isEmpty then refuse .endOfValue [] else refuseNext .badNumber rest
  else
    let t := takeDigits significand digits
    readAfterFraction negative t.1 (exponent - (digits.length - t.2 : Nat)) rest

/-- The number with the given whole part, kept exactly if it fits into 64 bits. -/
def wholeNumber (negative : Bool) (n : Nat) : Json :=
  if !negative then .int n
  else if n = 0 || Nat.pow 2 63 < n then .real (-(Binary64.nearest n 1))
  else .int (-n)

/-- Reads what may follow the whole part of a number. -/
def readAfterWhole (negative : Bool) (significand dropped : Nat) :
    List Char → Result (Json × List Char)
  | '.' :: cs => readFraction negative significand dropped cs
  | 'e' :: cs => readExponent negative significand dropped cs
  | 'E' :: cs => readExponent negative significand dropped cs
  | cs =>
    if dropped = 0 then .ok (wholeNumber negative significand, cs)
    else finishReal negative significand dropped cs

/-- Reads a number whose sign is taken off. Digits are dropped where they no longer fit into 64
bits, and a zero stands alone before the point. -/
def readNumber (negative : Bool) : List Char → Result (Json × List Char)
  | [] => refuse .endOfValue []
  | c :: cs =>
    if c = '0' then
      match cs with
      | d :: ds =>
        if Numeral.isDigit d then refuseNext .badNumber (d :: ds)
        else readAfterWhole negative 0 0 (d :: ds)
      | [] => readAfterWhole negative 0 0 []
    else if Numeral.isDigit c then
      let t := takeDigits 0 (c :: cs.takeWhile Numeral.isDigit)
      readAfterWhole negative t.1 t.2 (cs.dropWhile Numeral.isDigit)
    else refuseNext .badNumber (c :: cs)

end FlowCanvas.Json
