import FlowCanvas.Command.Misuse

/-!
# Arguments

The arguments of a command are one operand and options, in any order. An option has two hyphens and
a name, or one hyphen and a letter; its value follows an equals sign, or the letter at once, or is
the next argument. Behind two hyphens alone there are no options any more. A value is not looked at
before the next argument has been seen to belong there.

## Main definitions

* `Form`, `form` — what an argument looks like.
* `Effect`, `Setting`, `Signature` — the options and the operand of a command, and what they change
  in a record of choices.
* `Signature.read` — the choices that a list of arguments makes.
-/

namespace FlowCanvas

/-- What an argument looks like. -/
inductive Form
  /-- Two hyphens and nothing else. -/
  | escape
  /-- Two hyphens, a name, and possibly an equals sign with a value. -/
  | long (name : String) (value : Option String)
  /-- One hyphen, a letter, and what follows it. -/
  | short (letter : Char) (rest : List Char)
  | word
  deriving DecidableEq, Repr, Inhabited

/-- What an argument looks like. -/
def form (argument : String) : Form :=
  match argument.toList with
  | ['-', '-'] => .escape
  | '-' :: '-' :: cs =>
    .long (String.ofList (cs.takeWhile (· ≠ '=')))
      (match cs.dropWhile (· ≠ '=') with
        | [] => none
        | _ :: value => some (String.ofList value))
  | '-' :: letter :: rest => .short letter rest
  | _ => .word

/-- What an option changes in a record of choices. -/
inductive Effect (ρ : Type)
  /-- The option has no value. -/
  | flag (set : ρ → ρ)
  /-- The option has a value, which may be refused. -/
  | value (set : String → Except String (ρ → ρ))

/-- An option of a command. -/
structure Setting (ρ : Type) where
  name : String
  letter : Option Char
  /-- How messages show it. -/
  label : String
  /-- What it changes. -/
  effect : Effect ρ

/-- The options and the operand of a command. -/
structure Signature (ρ : Type) where
  /-- The choices made if nothing is said. -/
  default : ρ
  /-- How messages show the operand. -/
  operandLabel : String
  /-- What the operand changes. -/
  operand : String → ρ → ρ
  settings : List (Setting ρ)

/-- The name of the option that every command has. -/
def helpName : String := "help"

/-- The letter of the option that every command has. -/
def helpLetter : Char := 'h'

/-- An argument that has been seen and not been looked at. -/
inductive Pending (ρ : Type)
  | none
  /-- An operand. -/
  | operand (value : String)
  /-- An option with a value, unless that is the next argument. -/
  | option (setting : Setting ρ) (set : String → Except String (ρ → ρ)) (value : Option String)

/-- How far the arguments have been read. -/
structure Progress (ρ : Type) where
  /-- The choices made so far. -/
  choices : ρ
  /-- The options that have been given. -/
  given : List String
  /-- There has been an operand. -/
  hasOperand : Bool
  /-- The argument to be looked at next. -/
  pending : Pending ρ

namespace Progress

variable {ρ : Type}

/-- Makes the choice of an option, which must be its first. -/
def choose (p : Progress ρ) (s : Setting ρ) (set : ρ → ρ) : Progress ρ :=
  { p with choices := set p.choices, given := s.label :: p.given, pending := .none }

/-- Looks at the pending argument. -/
def settle (sig : Signature ρ) (p : Progress ρ) : Except Misuse (Progress ρ) :=
  match p.pending with
  | .none => .ok p
  | .operand value =>
    if value.isEmpty then .error (.missingValue sig.operandLabel)
    else .ok { p with choices := sig.operand value p.choices, pending := .none }
  | .option s _ none => .error (.missingValue s.label)
  | .option s set (some value) =>
    if p.given.contains s.label then .error (.repeated s.label)
    else
      match set value with
      | .ok change => .ok (p.choose s change)
      | .error reason => .error (.badValue value s.label reason)

/-- Takes an option. -/
def takeSetting (sig : Signature ρ) (p : Progress ρ) (s : Setting ρ) (value : Option String) :
    Except Misuse (Progress ρ) :=
  match s.effect, value with
  | .flag _, some v => .error (.unwantedValue v s.label)
  | .flag set, none => do
    let p ← p.settle sig
    if p.given.contains s.label then .error (.repeated s.label) else .ok (p.choose s set)
  | .value set, none => do
    let p ← p.settle sig
    .ok { p with pending := .option s set none }
  | .value set, some v => do
    let p ← p.settle sig
    settle sig { p with pending := .option s set (some v) }

/-- Takes an operand. -/
def takeOperand (sig : Signature ρ) (p : Progress ρ) (argument : String) :
    Except Misuse (Progress ρ) :=
  if p.hasOperand then .error (.unknownArgument argument)
  else do
    let p ← p.settle sig
    .ok { p with pending := .operand argument, hasOperand := true }

/-- Takes an argument that is neither an option nor the end of the options. -/
def takeWord (sig : Signature ρ) (p : Progress ρ) (argument : String) :
    Except Misuse (Progress ρ) :=
  match p.pending with
  | .option s set none => .ok { p with pending := .option s set (some argument) }
  | _ => p.takeOperand sig argument

/-- Takes arguments that are all operands, and then makes all choices. -/
def finish (sig : Signature ρ) (p : Progress ρ) : List String → Except Misuse ρ
  | [] => do .ok (← p.settle sig).choices
  | argument :: rest => do finish sig (← p.takeOperand sig argument) rest

end Progress

/-- The value that stands at once behind the letter of an option. -/
def attached : List Char → Option String
  | [] => none
  | '=' :: value => some (String.ofList value)
  | value => some (String.ofList value)

namespace Signature

variable {ρ : Type} (sig : Signature ρ)

/-- The option of a name. -/
def setting? (name : String) : Option (Setting ρ) := sig.settings.find? fun s => s.name = name

/-- The option of a letter. -/
def letter? (letter : Char) : Option (Setting ρ) :=
  sig.settings.find? fun s => s.letter = some letter

/-- Goes on reading arguments. There are no choices if help is asked for. -/
def readFrom (p : Progress ρ) : List String → Except Misuse (Option ρ)
  | [] => do .ok (some (← p.settle sig).choices)
  | argument :: rest =>
    match form argument with
    | .escape => do .ok (some (← p.finish sig rest))
    | .long name value =>
      match sig.setting? name with
      | some s => do readFrom (← p.takeSetting sig s value) rest
      | none =>
        if name = helpName then
          match value with
          | some v => .error (.unwantedValue v helpLabel)
          | none => do
            let _ ← p.settle sig
            .ok none
        else .error (.unknownArgument ("--" ++ name))
    | .short letter cs =>
      match sig.letter? letter with
      | some s => do readFrom (← p.takeSetting sig s (attached cs)) rest
      | none =>
        if letter = helpLetter then do
          let _ ← p.settle sig
          .ok none
        else .error (.unknownArgument ("-" ++ String.ofList [letter]))
    | .word => do readFrom (← p.takeWord sig argument) rest

/-- The choices that arguments make, unless help is asked for. -/
def read (arguments : List String) : Except Misuse (Option ρ) :=
  sig.readFrom ⟨sig.default, [], false, .none⟩ arguments

end Signature

end FlowCanvas
