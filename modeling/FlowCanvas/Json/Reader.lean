import FlowCanvas.Json.Skip

/-!
# Reading JSON values

A reader knows two bounds: how many characters the whole text has, which no list in it can have
more items than, and how many more brackets may be opened.

## Main definitions

* `Reader` — a reader of one kind of value.
* `nextItem`, `nextMember` — the turns inside a list and inside an object.
* `readItems`, `readMembers` — lists and objects behind their opening bracket.
* `readValue` — any value.
* `readAll`, `read` — a text that is one value and nothing more.
-/

namespace FlowCanvas.Json

/-- A reader of one kind of value: from a bound on the characters of the whole text and the number
of brackets that may still be opened, it reads at the beginning of a text. -/
abbrev Reader (α : Type) := (bound depth : Nat) → List Char → Result (α × List Char)

/-- The number of brackets that may be open at one place. -/
def maxDepth : Nat := 127

/-- What comes next inside brackets. -/
inductive Turn
  /-- One more item or member, which starts here. -/
  | more (rest : List Char)
  /-- The closing bracket, which stands before this text. -/
  | close (rest : List Char)
  deriving Inhabited

/-- The next turn in a list, before its first item or behind another. -/
def nextItem (first : Bool) (cs : List Char) : Result Turn :=
  match skipSpace cs with
  | [] => refuse .endOfList []
  | c :: rest =>
    if c = ']' then .ok (.close rest)
    else if first then .ok (.more (c :: rest))
    else if c = ',' then
      match skipSpace rest with
      | [] => refuse .endOfValue []
      | d :: rest =>
        if d = ']' then refuseNext .trailingComma (d :: rest) else .ok (.more (d :: rest))
    else refuseNext .noListEnd (c :: rest)

/-- The next turn in an object, before its first member or behind another; a member starts behind
the opening quote of its name. -/
def nextMember (first : Bool) (cs : List Char) : Result Turn :=
  match skipSpace cs with
  | [] => refuse .endOfObject []
  | c :: rest =>
    if c = '\x7d' then .ok (.close rest)
    else if first then
      if c = '"' then .ok (.more rest) else refuseNext .nameNotString (c :: rest)
    else if c = ',' then
      match skipSpace rest with
      | [] => refuse .endOfValue []
      | d :: rest =>
        if d = '"' then .ok (.more rest)
        else if d = '\x7d' then refuseNext .trailingComma (d :: rest)
        else refuseNext .nameNotString (d :: rest)
    else refuseNext .noObjectEnd (c :: rest)

/-- Reads items up to the closing bracket, fewer of them than the bound. -/
def readItems {α : Type} (item : List Char → Result (α × List Char)) :
    (bound : Nat) → (first : Bool) → List Char → Result (List α × List Char)
  | 0, _, cs => refuse .endOfList cs
  | n + 1, first, cs => do
    match ← nextItem first cs with
    | .close rest => .ok ([], rest)
    | .more cs =>
      let (x, cs) ← item cs
      let (xs, rest) ← readItems item n false cs
      .ok (x :: xs, rest)

/-- Reads members up to the closing bracket, fewer of them than the bound, and puts them in the
order of their names. -/
def readMembers (value : List Char → Result (Json × List Char)) :
    (bound : Nat) → (first : Bool) → Members → List Char → Result (Members × List Char)
  | 0, _, _, cs => refuse .endOfObject cs
  | n + 1, first, members, cs => do
    match ← nextMember first cs with
    | .close rest => .ok (members, rest)
    | .more cs =>
      let (name, cs) ← readString cs
      let cs ← readColon cs
      let (v, cs) ← value cs
      readMembers value n false (Members.put (String.ofList name) v members) cs

/-- Reads any value. -/
def readValue (bound depth : Nat) (cs : List Char) : Result (Json × List Char) :=
  match skipSpace cs with
  | [] => refuse .endOfValue []
  | c :: rest =>
    if c = 'n' then do .ok (.null, ← readWord "ull".toList rest)
    else if c = 't' then do .ok (.bool true, ← readWord "rue".toList rest)
    else if c = 'f' then do .ok (.bool false, ← readWord "alse".toList rest)
    else if c = '-' then readNumber true rest
    else if Numeral.isDigit c then readNumber false (c :: rest)
    else if c = '"' then do
      let (s, rest) ← readString rest
      .ok (.str (String.ofList s), rest)
    else if c = '[' then
      match depth with
      | 0 => refuseNext .tooDeep (c :: rest)
      | d + 1 => do
        let (items, rest) ← readItems (readValue bound d) bound true rest
        .ok (.list items, rest)
    else if c = '\x7b' then
      match depth with
      | 0 => refuseNext .tooDeep (c :: rest)
      | d + 1 => do
        let (members, rest) ← readMembers (readValue bound d) bound true [] rest
        .ok (.object members, rest)
    else refuseNext .noValue (c :: rest)

/-- Reads a text that is one value, with space around it. -/
def readAll {α : Type} (reader : Reader α) (text : List Char) : Result α := do
  let (x, rest) ← reader (text.length + 1) maxDepth text
  match skipSpace rest with
  | [] => .ok x
  | rest => refuseNext .trailing rest

/-- The value that a text denotes. -/
def read (text : List Char) : Result Json := readAll readValue text

end FlowCanvas.Json
