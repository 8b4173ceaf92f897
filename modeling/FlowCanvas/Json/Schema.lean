import FlowCanvas.Json.Reader

/-!
# Reading records

Records are read from the text directly, so that a value of the wrong kind is refused where it
stands. A record is an object whose members are its fields in any order, or a list of its fields
in their own order. A member that is no field is read past.

## Main definitions

* `refuseKind` — refuses the value that stands next.
* `readText`, `readOption`, `readList`, `readObject` — values of one kind.
* `Vocabulary` — a type whose values are written as words.
* `readSpelling`, `ofSpelling` — such a value in a text, and as a JSON value.
* `Field`, `Schema` — the fields of a record and how they are read.
* `Schema.read` — a record.
-/

namespace FlowCanvas.Json

/-- Refuses the value at the beginning of a text, which is not of the kind expected. -/
def refuseKind {α : Type} (expected : String) : List Char → Result α
  | [] => refuse .endOfValue []
  | c :: rest =>
    if c = 'n' then do
      refuse (.wrongKind .null expected) (← readWord "ull".toList rest)
    else if c = 't' then do
      refuse (.wrongKind (.bool true) expected) (← readWord "rue".toList rest)
    else if c = 'f' then do
      refuse (.wrongKind (.bool false) expected) (← readWord "alse".toList rest)
    else if c = '-' then do
      let (n, rest) ← readNumber true rest
      refuse (.wrongKind n.found expected) rest
    else if Numeral.isDigit c then do
      let (n, rest) ← readNumber false (c :: rest)
      refuse (.wrongKind n.found expected) rest
    else if c = '"' then do
      let (s, rest) ← readString rest
      refuse (.wrongKind (.str s) expected) rest
    else if c = '[' then refuse (.wrongKind .list expected) (c :: rest)
    else if c = '\x7b' then refuse (.wrongKind .object expected) (c :: rest)
    else refuseNext .noValue (c :: rest)

/-- A string. -/
def readText : Reader String := fun _ _ cs =>
  match skipSpace cs with
  | [] => refuse .endOfValue []
  | c :: rest =>
    if c = '"' then do
      let (s, rest) ← readString rest
      .ok (String.ofList s, rest)
    else refuseKind "a string" (c :: rest)

/-- A value that may be `null`. -/
def readOption {α : Type} (reader : Reader α) : Reader (Option α) := fun bound depth cs =>
  match skipSpace cs with
  | 'n' :: rest => do .ok (none, ← readWord "ull".toList rest)
  | cs => do
    let (x, rest) ← reader bound depth cs
    .ok (some x, rest)

/-- A list of values of one kind. -/
def readList {α : Type} (reader : Reader α) : Reader (List α) := fun bound depth cs =>
  match skipSpace cs with
  | [] => refuse .endOfValue []
  | c :: rest =>
    if c = '[' then
      match depth with
      | 0 => refuseNext .tooDeep (c :: rest)
      | d + 1 => readItems (reader bound d) bound true rest
    else refuseKind "a sequence" (c :: rest)

/-- An object with members of any kind. -/
def readObject : Reader Members := fun bound depth cs =>
  match skipSpace cs with
  | [] => refuse .endOfValue []
  | c :: rest =>
    if c = '\x7b' then
      match depth with
      | 0 => refuseNext .tooDeep (c :: rest)
      | d + 1 => readMembers (readValue bound d) bound true [] rest
    else refuseKind "a map" (c :: rest)

/-! ### Words -/

/-- A type whose values are written as words. -/
class Vocabulary (α : Type) where
  /-- The words that are read, with their values. -/
  words : List (String × α)
  /-- The word that is written for a value. -/
  word : α → String

/-- The value of a word. -/
def ofWord? {α : Type} [Vocabulary α] (w : String) : Option α :=
  ((Vocabulary.words (α := α)).find? (·.1 = w)).map (·.2)

/-- The value of a word, or why there is none. -/
def ofWord {α : Type} [Vocabulary α] (w : String) : Except Cause α :=
  match ofWord? w with
  | some x => .ok x
  | none => .error (.unknownWord w ((Vocabulary.words (α := α)).map (·.1)))

/-- The value of a word that stands before a text. -/
def readOfWord {α : Type} [Vocabulary α] (w : String) (rest : List Char) : Result (α × List Char) :=
  match ofWord w with
  | .ok x => .ok (x, rest)
  | .error cause => refuse cause rest

/-- A word of a vocabulary: a string, or an object with the word as its only name and `null` as
its value. -/
def readSpelling {α : Type} [Vocabulary α] : Reader α := fun _ depth cs =>
  match skipSpace cs with
  | [] => refuse .endOfValue []
  | c :: rest =>
    if c = '"' then do
      let (w, rest) ← readString rest
      readOfWord (String.ofList w) rest
    else if c = '\x7b' then
      match depth with
      | 0 => refuseNext .tooDeep (c :: rest)
      | _ + 1 => do
        match ← nextMember true rest with
        | .close rest => refuse .noValue rest
        | .more rest =>
          let (w, rest) ← readString rest
          let (x, rest) ← readOfWord (String.ofList w) rest
          let rest ← readColon rest
          match skipSpace rest with
          | 'n' :: rest =>
            let rest ← readWord "ull".toList rest
            match skipSpace rest with
            | [] => refuse .endOfObject []
            | d :: rest => if d = '\x7d' then .ok (x, rest) else refuse .noValue (d :: rest)
          | rest => refuseKind "unit" rest
    else refuseNext .noValue (c :: rest)

/-- The value of a vocabulary that a JSON value denotes. -/
def ofSpelling {α : Type} [Vocabulary α] : Json → Except Cause α
  | .str w => ofWord w
  | .object [(w, v)] => do
    let x ← ofWord w
    match v with
    | .null => .ok x
    | v => .error (.wrongKind v.found "unit")
  | .object _ => .error (.wrongObject "map with a single key")
  | v => .error (.wrongKind v.found "string or map")

/-! ### Records -/

/-- A field of a record. -/
structure Field (ρ : Type) where
  name : String
  /-- A record without it is refused. -/
  required : Bool
  /-- Reads its value and gives what the value changes in the record. -/
  read : Reader (ρ → ρ)

/-- A field whose value is read by a reader and put into the record by a setter. -/
def Field.of {α ρ : Type} (name : String) (required : Bool) (reader : Reader α)
    (set : α → ρ → ρ) : Field ρ :=
  ⟨name, required, fun bound depth cs => do
    let (x, rest) ← reader bound depth cs
    .ok (set x, rest)⟩

/-- A kind of record. -/
structure Schema (ρ : Type) where
  /-- What a record is called in messages. -/
  name : String
  /-- A record of which nothing has been read. -/
  blank : ρ
  /-- The fields, those required first. -/
  fields : List (Field ρ)

/-- The text where an object is left early: behind its closing bracket, if that stands next. -/
def leaveObject (cs : List Char) : List Char :=
  match skipSpace cs with
  | '\x7d' :: rest => rest
  | rest => rest

/-- Reads the members of a record up to the closing bracket, fewer of them than the bound; `seen`
holds the fields that have been read. -/
def Schema.readMembers {ρ : Type} (s : Schema ρ) (total depth : Nat) :
    (bound : Nat) → (first : Bool) → (seen : List String) → ρ → List Char → Result (ρ × List Char)
  | 0, _, _, _, cs => refuse .endOfObject cs
  | n + 1, first, seen, r, cs => do
    match ← nextMember first cs with
    | .close rest =>
      match s.fields.find? fun f => f.required && !seen.contains f.name with
      | some f => refuse (.missing f.name) rest
      | none => .ok (r, rest)
    | .more cs =>
      let (name, cs) ← readString cs
      match s.fields.find? fun f => f.name = String.ofList name with
      | some f =>
        if seen.contains f.name then refuse (.duplicate f.name) (leaveObject cs)
        else
          let cs ← readColon cs
          let (set, cs) ← f.read total depth cs
          Schema.readMembers s total depth n false (f.name :: seen) (set r) cs
      | none =>
        let cs ← readColon cs
        let cs ← skipValue total cs
        Schema.readMembers s total depth n false seen r cs

/-- The closing bracket behind the last field of a record. -/
def endOfRecord (cs : List Char) : Result (List Char) :=
  match skipSpace cs with
  | [] => refuse .endOfList []
  | c :: rest =>
    if c = ']' then .ok rest
    else if c = ',' then
      match skipSpace rest with
      | ']' :: rest => refuseNext .trailingComma (']' :: rest)
      | rest => refuseNext .trailing rest
    else refuseNext .trailing (c :: rest)

/-- Reads the given fields of a record as items, `count` of them being read already. -/
def Schema.readItems {ρ : Type} (s : Schema ρ) (total depth : Nat) :
    List (Field ρ) → (count : Nat) → ρ → List Char → Result (ρ × List Char)
  | [], _, r, cs => do .ok (r, ← endOfRecord cs)
  | f :: fs, count, r, cs => do
    match ← nextItem (count = 0) cs with
    | .close rest =>
      if f.required then
        refuse (.wrongLength count
          ("struct " ++ s.name ++ " with " ++ toString s.fields.length ++ " elements")) rest
      else .ok (r, rest)
    | .more cs =>
      let (set, cs) ← f.read total depth cs
      Schema.readItems s total depth fs (count + 1) (set r) cs

/-- A record. -/
def Schema.read {ρ : Type} (s : Schema ρ) : Reader ρ := fun bound depth cs =>
  match skipSpace cs with
  | [] => refuse .endOfValue []
  | c :: rest =>
    if c = '[' then
      match depth with
      | 0 => refuseNext .tooDeep (c :: rest)
      | d + 1 => s.readItems bound d s.fields 0 s.blank rest
    else if c = '\x7b' then
      match depth with
      | 0 => refuseNext .tooDeep (c :: rest)
      | d + 1 => s.readMembers bound d bound true [] s.blank rest
    else refuseKind ("struct " ++ s.name) (c :: rest)

end FlowCanvas.Json
