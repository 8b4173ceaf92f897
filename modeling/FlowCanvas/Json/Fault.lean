import FlowCanvas.Json.Printer
import FlowCanvas.Text.Bytes
import FlowCanvas.Text.Quoted

/-!
# Why a text is refused

A reader that refuses a text says why and where. The place is a line and a column counted in
bytes: that of the byte which could not be taken, or of the last one that was.

## Main definitions

* `Json.Found` — the kind of value that stands where another was expected.
* `Json.Cause` — why a text is refused.
* `Json.Cause.message` — the wording.
* `Json.Fault`, `Json.Fault.place` — a cause and where in the text it was found.
-/

namespace FlowCanvas.Json

/-- A value that stands where another kind was expected. -/
inductive Found
  | null
  | bool (b : Bool)
  | int (n : Int)
  /-- Any other number. -/
  | real (x : Float)
  | str (cs : List Char)
  | list
  | object
  deriving Inhabited

/-- What a value is, for one that stands where another kind was expected. -/
def found : Json → Found
  | .null => .null
  | .bool b => .bool b
  | .int n => .int n
  | .real x => .real x
  | .str s => .str s.toList
  | .list _ => .list
  | .object _ => .object

/-- The wording of a value in a message. -/
def Found.text : Found → String
  | .null => "null"
  | .bool b => "boolean `" ++ (if b then "true" else "false") ++ "`"
  | .int n => "integer `" ++ String.ofList (intChars n) ++ "`"
  | .real x => "floating point `" ++ String.ofList (numberLayout.write x) ++ "`"
  | .str cs => "string " ++ String.ofList (quoted cs)
  | .list => "sequence"
  | .object => "map"

/-- Why a text or a value is refused. -/
inductive Cause
  /-- The text ends where a value should be. -/
  | endOfValue
  | endOfList
  | endOfObject
  | endOfString
  /-- A name is not followed by a colon. -/
  | noColon
  /-- An item is followed by neither a comma nor the end of the list. -/
  | noListEnd
  /-- A member is followed by neither a comma nor the end of the object. -/
  | noObjectEnd
  | badWord
  /-- No value starts here. -/
  | noValue
  /-- An escape is unknown. -/
  | badEscape
  | badNumber
  /-- A number is beyond the doubles. -/
  | hugeNumber
  /-- A control character stands inside a string. -/
  | control
  /-- A member does not start with a string. -/
  | nameNotString
  /-- Half of a pair of escapes stands alone. -/
  | loneSurrogate
  /-- The second half of a pair of escapes is missing. -/
  | endOfPair
  /-- A comma is followed by the end. -/
  | trailingComma
  /-- Something follows the value. -/
  | trailing
  /-- Too many brackets are open. -/
  | tooDeep
  /-- A value of another kind was expected. -/
  | wrongKind (found : Found) (expected : String)
  /-- An object of another shape was expected. -/
  | wrongObject (expected : String)
  /-- A list has too few items. -/
  | wrongLength (length : Nat) (expected : String)
  /-- A word is none of those expected. -/
  | unknownWord (word : String) (expected : List String)
  | missing (name : String)
  | duplicate (name : String)
  deriving Inhabited

/-- A name in the quotes that messages use. -/
def ticked (name : String) : String := "`" ++ name ++ "`"

/-- The words that were expected, as a message lists them. -/
def expectedWords : List String → String
  | [] => "there are no variants"
  | [a] => "expected " ++ ticked a
  | [a, b] => "expected " ++ ticked a ++ " or " ++ ticked b
  | words => "expected one of " ++ ", ".intercalate (words.map ticked)

/-- The wording of a cause. -/
def Cause.message : Cause → String
  | .endOfValue => "EOF while parsing a value"
  | .endOfList => "EOF while parsing a list"
  | .endOfObject => "EOF while parsing an object"
  | .endOfString => "EOF while parsing a string"
  | .noColon => "expected `:`"
  | .noListEnd => "expected `,` or `]`"
  | .noObjectEnd => "expected `,` or `\x7d`"
  | .badWord => "expected ident"
  | .noValue => "expected value"
  | .badEscape => "invalid escape"
  | .badNumber => "invalid number"
  | .hugeNumber => "number out of range"
  | .control => "control character (\\u0000-\\u001F) found while parsing a string"
  | .nameNotString => "key must be a string"
  | .loneSurrogate => "lone leading surrogate in hex escape"
  | .endOfPair => "unexpected end of hex escape"
  | .trailingComma => "trailing comma"
  | .trailing => "trailing characters"
  | .tooDeep => "recursion limit exceeded"
  | .wrongKind found expected => "invalid type: " ++ found.text ++ ", expected " ++ expected
  | .wrongObject expected => "invalid value: map, expected " ++ expected
  | .wrongLength n expected => "invalid length " ++ toString n ++ ", expected " ++ expected
  | .unknownWord word expected =>
    "unknown variant " ++ ticked word ++ ", " ++ expectedWords expected
  | .missing name => "missing field " ++ ticked name
  | .duplicate name => "duplicate field " ++ ticked name

/-- A cause and the place where it was found, as the text that is left there. -/
structure Fault where
  cause : Cause
  /-- The text behind the place. -/
  rest : List Char
  /-- The bytes of that text that were looked at. -/
  seen : Nat
  deriving Inhabited

/-! ### Places -/

/-- A place in a text. -/
structure Place where
  /-- The line, counted from one. -/
  line : Nat
  /-- The bytes of the line before the place. -/
  column : Nat
  deriving DecidableEq, Repr, Inhabited

/-- The wording of a place. -/
def Place.text (p : Place) : String :=
  "line " ++ toString p.line ++ " column " ++ toString p.column

/-- The place behind `n` bytes of a text that starts at another place. -/
def Place.forward : (n : Nat) → Place → List Char → Place
  | 0, p, _ => p
  | _ + 1, p, [] => p
  | n + 1, p, c :: cs =>
    if c = '\n' then forward n ⟨p.line + 1, 0⟩ cs
    else if n < c.utf8Size then ⟨p.line, p.column + (n + 1)⟩
    else forward (n + 1 - c.utf8Size) ⟨p.line, p.column + c.utf8Size⟩ cs

/-- The place of a fault in a text. -/
def Fault.place (f : Fault) (text : List Char) : Place :=
  .forward (byteLength text - byteLength f.rest + f.seen) ⟨1, 0⟩ text

end FlowCanvas.Json
