import FlowCanvas.Graph.Defect
import FlowCanvas.Json.Fault

/-!
# Failures

## Main definitions

* `Unreadable` — why there is no text to start from.
* `Failure` — why there is no diagram or no run of a script.
* `Unreadable.message`, `Failure.message` — the wording.
-/

namespace FlowCanvas

/-- Why there is no text to start from. -/
inductive Unreadable
  | missing
  | directory
  /-- The path goes through a file as if it were a directory. -/
  | notDirectory
  /-- The path, or a name on it, has too many bytes. -/
  | longName
  /-- The bytes are no text. -/
  | notText
  /-- The system does not let it be read. -/
  | refused (reason : String)
  deriving DecidableEq, Repr, Inhabited

/-- The wording of an unreadable input. -/
def Unreadable.message : Unreadable → String
  | .missing => "No such file or directory (os error 2)"
  | .directory => "Is a directory (os error 21)"
  | .notDirectory => "Not a directory (os error 20)"
  | .longName => "File name too long (os error 36)"
  | .notText => "stream did not contain valid UTF-8"
  | .refused reason => reason

/-- Why a request cannot be met. -/
inductive Failure
  /-- The input cannot be read. -/
  | unreadable (why : Unreadable)
  /-- The text is no specification; the place is known if a text has been read. -/
  | malformed (cause : Json.Cause) (place : Option Json.Place)
  /-- The specification has defects. -/
  | unsound (defects : List Defect)
  /-- A line of a script is none that scripts have. -/
  | badScript (line : Nat) (context : String)
  deriving Inhabited

/-- The wording of a failure. -/
def Failure.message : Failure → String
  | .unreadable why => why.message
  | .malformed cause none => "invalid graph spec: " ++ cause.message
  | .malformed cause (some place) =>
    "invalid graph spec: " ++ cause.message ++ " at " ++ place.text
  | .unsound defects =>
    "graph spec has " ++ toString defects.length ++ " defect(s): "
      ++ "; ".intercalate (defects.map Defect.message)
  | .badScript line context =>
    "viewport script error on line " ++ toString line ++ ": unexpected `" ++ context ++ "`"

end FlowCanvas
