import FlowCanvas.Text.Terminal

/-!
# Misuse of the command line

A message about a misuse shows words of the command line, emphasised. A control sequence in such a
word must not reach beyond it, so a message is put together from pieces.

## Main definitions

* `Misuse` — what is wrong with a list of arguments.
* `Misuse.pieces` — the wording in pieces.
* `Misuse.message` — the wording.
-/

namespace FlowCanvas

/-- What is wrong with a list of arguments. -/
inductive Misuse
  | noCommand
  /-- A word stands where a command should be. -/
  | unknownCommand (word : String)
  /-- An argument is neither an option nor has a place of its own. -/
  | unknownArgument (argument : String)
  /-- An option or an operand has no value. -/
  | missingValue (label : String)
  /-- A flag has a value. -/
  | unwantedValue (value label : String)
  | repeated (label : String)
  /-- A value is none that an option can have. -/
  | badValue (value label reason : String)
  deriving DecidableEq, Repr, Inhabited

/-- What the program does, in a line. -/
def summary : String := "Compile graph specs to Mermaid and replay viewport input"

/-- How messages show the option that every command has. -/
def helpLabel : String := "--help"

/-- The end of a message, up to the option to try. -/
def hint : String := "\n\nFor more information, try '"

/-- The wording of a misuse, in pieces that are plain and emphasised by turns. -/
def Misuse.pieces : Misuse → List String
  | .noCommand => [summary]
  | .unknownCommand word =>
    ["error: unrecognized subcommand '", word, "'" ++ hint, helpLabel, "'."]
  | .unknownArgument argument =>
    ["error: unexpected argument '", argument, "' found" ++ hint, helpLabel, "'."]
  | .missingValue label =>
    ["error: a value is required for '", label, "' but none was supplied" ++ hint, helpLabel, "'."]
  | .unwantedValue value label =>
    ["error: unexpected value '", value, "' for '", label,
      "' found; no more were expected" ++ hint, helpLabel, "'."]
  | .repeated label =>
    ["error: the argument '", label, "' cannot be used multiple times" ++ hint, helpLabel, "'."]
  | .badValue value label reason =>
    ["error: invalid value '", value, "' for '", label, "': " ++ reason ++ hint, helpLabel, "'."]

/-- The wording of a misuse. Control sequences are left out, and one that a piece leaves open ends
with the piece. -/
def Misuse.message (m : Misuse) : String := String.join (m.pieces.map Terminal.plain)

end FlowCanvas
