import FlowCanvas.Json.Lexeme

/-!
# Reading past a value

The value of a member that nobody asks for is read past. Its brackets may be nested to any depth,
so those that are open are kept on a stack. It must be written correctly, but its strings may hold
half a pair of escapes and its numbers may be of any size.

## Main definitions

* `skipString`, `skipNumber`, `skipScalar` — past a value without brackets.
* `Bracket` — an open bracket.
* `skipValue` — past any value.
-/

namespace FlowCanvas.Json

/-- Reads past a string behind its opening quote. -/
def skipString : List Char → Result (List Char)
  | [] => refuse .endOfString []
  | c :: cs =>
    if c = '"' then .ok cs
    else if c = '\\' then
      match cs with
      | [] => refuse .endOfString []
      | e :: cs =>
        if e = 'u' then
          match cs with
          | a :: b :: c :: d :: cs =>
            if (hexNumber? a b c d).isSome then skipString cs else badHex (a :: b :: c :: d :: cs)
          | cs => badHex cs
        else if (unescape? e).isSome then skipString cs
        else refuseNext .badEscape (e :: cs)
    else if c < ' ' then refuse .control (c :: cs)
    else skipString cs

/-- Reads past an exponent behind its mark. -/
def skipExponent (cs : List Char) : Result (List Char) :=
  match (Numeral.splitSign cs).2 with
  | [] => refuse .badNumber []
  | d :: ds =>
    if Numeral.isDigit d then .ok (ds.dropWhile Numeral.isDigit)
    else refuseNext .badNumber (d :: ds)

/-- Reads past what may follow the digits of a fraction. -/
def skipAfterFraction : List Char → Result (List Char)
  | 'e' :: cs => skipExponent cs
  | 'E' :: cs => skipExponent cs
  | cs => .ok cs

/-- Reads past what may follow the whole part of a number. -/
def skipAfterWhole : List Char → Result (List Char)
  | '.' :: d :: ds =>
    if Numeral.isDigit d then skipAfterFraction (ds.dropWhile Numeral.isDigit)
    else refuseNext .badNumber (d :: ds)
  | '.' :: [] => refuse .badNumber []
  | cs => skipAfterFraction cs

/-- Reads past a number whose sign is taken off. -/
def skipNumber : List Char → Result (List Char)
  | [] => refuse .badNumber []
  | c :: cs =>
    if c = '0' then
      match cs with
      | d :: ds =>
        if Numeral.isDigit d then refuseNext .badNumber (d :: ds) else skipAfterWhole (d :: ds)
      | [] => .ok []
    else if Numeral.isDigit c then skipAfterWhole (cs.dropWhile Numeral.isDigit)
    else refuseNext .badNumber (c :: cs)

/-- Reads past a value that has no brackets and starts with the given character. -/
def skipScalar (c : Char) (cs : List Char) : Result (List Char) :=
  if c = 'n' then readWord "ull".toList cs
  else if c = 't' then readWord "rue".toList cs
  else if c = 'f' then readWord "alse".toList cs
  else if c = '-' then skipNumber cs
  else if Numeral.isDigit c then skipNumber (c :: cs)
  else if c = '"' then skipString cs
  else refuseNext .noValue (c :: cs)

/-- A kind of bracket. -/
inductive Bracket
  /-- Around the items of a list. -/
  | list
  /-- Around the members of an object. -/
  | object
  deriving DecidableEq, Repr, Inhabited

/-- The closing bracket. -/
def Bracket.close : Bracket → Char
  | .list => ']'
  | .object => '\x7d'

/-- Why a text may not end inside the brackets. -/
def Bracket.atEnd : Bracket → Cause
  | .list => .endOfList
  | .object => .endOfObject

/-- Why nothing but a comma or the closing bracket may follow. -/
def Bracket.noEnd : Bracket → Cause
  | .list => .noListEnd
  | .object => .noObjectEnd

/-- Reads the colon behind the name of a member. -/
def readColon (cs : List Char) : Result (List Char) :=
  match skipSpace cs with
  | [] => refuse .endOfObject []
  | c :: rest => if c = ':' then .ok rest else refuseNext .noColon (c :: rest)

/-- Reads past what stands before the value of an item or a member. -/
def Bracket.skipName (b : Bracket) (cs : List Char) : Result (List Char) :=
  match b with
  | .list => .ok cs
  | .object =>
    match skipSpace cs with
    | [] => refuse .endOfObject []
    | c :: rest =>
      if c = '"' then skipString rest >>= readColon else refuseNext .nameNotString (c :: rest)

/-- What stands next while a value is read past. -/
inductive Expected
  | value
  /-- The first item or member behind a bracket, or its end. -/
  | first
  /-- A comma or the end, behind an item or a member. -/
  | next
  deriving DecidableEq, Repr, Inhabited

/-- Reads past the rest of a value, the given brackets being open. The first argument bounds the
steps: there are at most two to a character. -/
def skipFrom : Nat → Expected → List Bracket → List Char → Result (List Char)
  | 0, _, _, cs => refuse .endOfValue cs
  | n + 1, .value, brackets, cs =>
    match skipSpace cs with
    | [] => refuse .endOfValue []
    | c :: rest =>
      if c = '[' then skipFrom n .first (.list :: brackets) rest
      else if c = '\x7b' then skipFrom n .first (.object :: brackets) rest
      else
        match skipScalar c rest with
        | .ok rest => skipFrom n .next brackets rest
        | .error f => .error f
  | _ + 1, _, [], cs => .ok cs
  | n + 1, .first, b :: brackets, cs =>
    match skipSpace cs with
    | [] => refuse b.atEnd []
    | c :: rest =>
      if c = b.close then skipFrom n .next brackets rest
      else
        match b.skipName (c :: rest) with
        | .ok rest => skipFrom n .value (b :: brackets) rest
        | .error f => .error f
  | n + 1, .next, b :: brackets, cs =>
    match skipSpace cs with
    | [] => refuse b.atEnd []
    | c :: rest =>
      if c = ',' then
        match b.skipName rest with
        | .ok rest => skipFrom n .value (b :: brackets) rest
        | .error f => .error f
      else if c = b.close then skipFrom n .next brackets rest
      else refuseNext b.noEnd (c :: rest)

/-- Reads past a value in a text of at most `bound` characters. -/
def skipValue (bound : Nat) (cs : List Char) : Result (List Char) :=
  skipFrom (2 * bound + 2) .value [] cs

end FlowCanvas.Json
