import FlowCanvas.Command.Arguments
import FlowCanvas.Command.Value
import FlowCanvas.Diagram.Palette
import FlowCanvas.Viewport.View

/-!
# Commands

## Main definitions

* `Request` — what the program is asked to do.
* `CompileChoices`, `ViewportChoices` — the choices of the commands that have options.
* `Request.ofArguments` — the request that the arguments make.
-/

namespace FlowCanvas

/-- The choices of the command that writes a diagram. -/
structure CompileChoices where
  /-- The file with the specification, if it is not the standard input. -/
  file : Option String := none
  rendering : Rendering := {}
  /-- The theme, if it is not the one of the specification. -/
  theme : Option Theme := none
  /-- A specification with defects is refused. -/
  check : Bool := true
  deriving DecidableEq, Repr, Inhabited

/-- The choices of the command that runs a script. -/
structure ViewportChoices where
  /-- The file with the script, if it is not the standard input. -/
  file : Option String := none
  container : Box Float := .sized 800.0 600.0
  /-- The least and the greatest scale among the settings. -/
  settings : Settings Float := .standard
  deriving Repr, Inhabited

/-- What the program is asked to do. -/
inductive Request
  /-- To say what it does. -/
  | help (topic : String)
  /-- To list the defects of a specification. -/
  | validate (file : Option String)
  /-- To write a diagram. -/
  | compile (choices : CompileChoices)
  /-- To run a script. -/
  | viewport (choices : ViewportChoices)
  deriving Repr, Inhabited

/-! ### The commands -/

/-- The operand of the command that lists defects. -/
def validateSignature : Signature (Option String) where
  default := none
  operandLabel := "[FILE]"
  operand file _ := some file
  settings := []

/-- An option whose value is read and then changes the choices. -/
def Setting.of {α ρ : Type} (name : String) (letter : Option Char) (label : String)
    (value : String → Except String α) (set : α → ρ → ρ) : Setting ρ :=
  ⟨name, letter, label, .value fun s => (value s).map set⟩

/-- The operand and the options of the command that writes a diagram. -/
def compileSignature : Signature CompileChoices where
  default := {}
  operandLabel := "[FILE]"
  operand file c := { c with file := some file }
  settings := [
    .of "wrap" (some 'w') "--wrap <WRAP>" Value.count
      fun n c => { c with rendering := { c.rendering with wrapWidth := n } },
    .of "theme" none "--theme <THEME>" Value.theme fun t c => { c with theme := some t },
    .of "click-hook" none "--click-hook <CLICK_HOOK>" .ok
      fun s c => { c with rendering := { c.rendering with clickHook := s } },
    ⟨"no-validate", none, "--no-validate", .flag fun c => { c with check := false }⟩]

/-- The operand and the options of the command that runs a script. -/
def viewportSignature : Signature ViewportChoices where
  default := {}
  operandLabel := "[SCRIPT]"
  operand file c := { c with file := some file }
  settings := [
    .of "container" (some 'c') "--container <CONTAINER>" Value.size
      fun b c => { c with container := b },
    .of "min-zoom" none "--min-zoom <MIN_ZOOM>" Value.decimal
      fun x c => { c with settings := { c.settings with minZoom := x } },
    .of "max-zoom" none "--max-zoom <MAX_ZOOM>" Value.decimal
      fun x c => { c with settings := { c.settings with maxZoom := x } }]

/-- The commands, and what each of them does. -/
def commands : List (String × String) := [
  ("validate", "Report structural defects in a JSON graph spec"),
  ("compile", "Compile a JSON graph spec into Mermaid source"),
  ("viewport", "Replay a viewport event script and print the resulting transform"),
  (helpName, "Print this message or the help of the given subcommand(s)")]

/-- The request for help about a command. -/
def helpRequest : List String → Except Misuse Request
  | [] => .ok (.help summary)
  | name :: rest =>
    match commands.lookup name, rest with
    | none, _ => .error (.unknownCommand name)
    | some about, [] => .ok (.help about)
    | some _, word :: _ => .error (.unknownCommand word)

/-- The request of a command with a signature. -/
def commandRequest {ρ : Type} (name : String) (sig : Signature ρ) (request : ρ → Request)
    (arguments : List String) : Except Misuse Request := do
  match ← sig.read arguments with
  | some choices => .ok (request choices)
  | none => .ok (.help ((commands.lookup name).getD summary))

/-- What is wrong with arguments that do not begin with a command, if they do not ask for help. -/
def withoutCommand (argument : String) (rest : List String) : Except Misuse Request :=
  match form argument with
  | .escape =>
    match rest with
    | [] => .error .noCommand
    | word :: _ =>
      if (commands.lookup word).isSome then .error (.unknownArgument word)
      else .error (.unknownCommand word)
  | .long name value =>
    if name = helpName then
      match value with
      | some v => .error (.unwantedValue v helpLabel)
      | none => .ok (.help summary)
    else .error (.unknownArgument ("--" ++ name))
  | .short letter _ =>
    if letter = helpLetter then .ok (.help summary)
    else .error (.unknownArgument ("-" ++ String.ofList [letter]))
  | .word => .error (.unknownCommand argument)

/-- The request that arguments make. -/
def Request.ofArguments : List String → Except Misuse Request
  | [] => .error .noCommand
  | argument :: rest =>
    if argument = "validate" then commandRequest argument validateSignature .validate rest
    else if argument = "compile" then commandRequest argument compileSignature .compile rest
    else if argument = "viewport" then commandRequest argument viewportSignature .viewport rest
    else if argument = helpName then helpRequest rest
    else withoutCommand argument rest

end FlowCanvas
