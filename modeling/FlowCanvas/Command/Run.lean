import FlowCanvas.Command.FileTree
import FlowCanvas.Command.Request
import FlowCanvas.Diagram.Source
import FlowCanvas.Script.Reader
import FlowCanvas.Viewport.Markup

/-!
# Running commands

## Main definitions

* `Input`, `Input.text` — the bytes that a run starts from, and the text in them.
* `Outcome` — what a run of the program prints, and how it ends.
* `validateOutcome`, `compileOutcome`, `viewportOutcome` — the commands on their input.
* `Plan`, `Plan.ofArguments` — which input a run needs and what becomes of it.
* `Plan.run`, `Plan.runAt` — what a run comes to, given its inputs or the files around it.
-/

namespace FlowCanvas

/-! ### Input -/

/-- What an input consists of, or why it cannot be read. -/
abbrev Input := Except Unreadable ByteArray

/-- The text of an input. -/
def Input.text : Input → Except Failure String
  | .error why => .error (.unreadable why)
  | .ok bytes =>
    match String.fromUTF8? bytes with
    | some text => .ok text
    | none => .error (.unreadable .notText)

/-! ### Output -/

/-- What a run of the program prints, and how it ends. -/
structure Outcome where
  exit : Nat
  /-- What is printed as the result. -/
  stdout : String
  /-- What is printed about failures. -/
  stderr : String
  deriving DecidableEq, Repr, Inhabited

namespace Outcome

/-- Lines, each with its end. -/
def unlines (lines : List String) : String := String.join (lines.map (· ++ "\n"))

/-- A run that does what it is asked to. -/
def success (lines : List String) : Outcome := ⟨0, unlines lines, ""⟩

/-- A run that cannot do it, with what is wrong line by line. -/
def failure (messages : List String) : Outcome := ⟨1, "", unlines (messages.map ("ERROR: " ++ ·))⟩

/-- A run that does not know what it is asked to do. -/
def misuse (m : Misuse) : Outcome := ⟨2, "", unlines [m.message]⟩

/-- The lines of a run, unless it fails. -/
def ofExcept : Except Failure (List String) → Outcome
  | .ok lines => success lines
  | .error f => failure [f.message]

end Outcome

/-! ### The commands -/

/-- Lists the defects of the specification in the input. -/
def validateOutcome (input : Input) : Outcome :=
  match Input.text input >>= readSpec with
  | .error f => .failure [f.message]
  | .ok spec =>
    match spec.defects with
    | [] => .success ["ok"]
    | defects => .failure (defects.map Defect.message)

/-- Writes the diagram of the specification in the input. -/
def compileOutcome (c : CompileChoices) (input : Input) : Outcome :=
  .ofExcept do
    let spec ← Input.text input >>= readSpec
    let spec := match c.theme with
      | none => spec
      | some theme => { spec with theme := theme }
    .ok [← spec.compile c.rendering c.check]

/-- A view, line by line. -/
def View.report (v : View Float) : List String :=
  [ "scale: " ++ Decimal.plainText v.scale,
    "translate: " ++ Decimal.plainText v.shift.x ++ "," ++ Decimal.plainText v.shift.y,
    "dragging: " ++ (if v.dragging then "true" else "false"),
    "svg: " ++ v.svg,
    "css: " ++ v.css ]

/-- Runs the script in the input, and shows the view that it leads to. -/
def viewportOutcome (c : ViewportChoices) (input : Input) : Outcome :=
  .ofExcept do
    let text ← Input.text input
    let events ← Script.read text.toList
    .ok (View.replay c.settings c.container events .start).report

/-- The limits of the scale are positive and in order. -/
def Settings.zoomRangeOk (s : Settings Float) : Bool :=
  Scalar.lt 0 s.minZoom && Scalar.le s.minZoom s.maxZoom

/-- Says that the limits of the scale are not in order. -/
def zoomRangeFailure (s : Settings Float) : Outcome :=
  .failure ["invalid zoom range " ++ Decimal.plainText s.minZoom ++ ".."
    ++ Decimal.plainText s.maxZoom]

/-! ### Plans -/

/-- What a run of the program does. -/
inductive Plan
  /-- It ends at once. -/
  | finish (outcome : Outcome)
  /-- It needs a file, or the standard input if no file is named. -/
  | withInput (file : Option String) (outcome : Input → Outcome)

/-- What is done for a request. -/
def Plan.ofRequest : Request → Plan
  | .help topic => .finish (.success [topic])
  | .validate file => .withInput file validateOutcome
  | .compile c => .withInput c.file (compileOutcome c)
  | .viewport c =>
    if c.settings.zoomRangeOk then .withInput c.file (viewportOutcome c)
    else .finish (zoomRangeFailure c.settings)

/-- What is done for arguments. -/
def Plan.ofArguments (arguments : List String) : Plan :=
  match Request.ofArguments arguments with
  | .ok request => .ofRequest request
  | .error m => .finish (.misuse m)

/-- What a run comes to when its inputs are as given. -/
def Plan.run (inputs : Option String → Input) : Plan → Outcome
  | .finish outcome => outcome
  | .withInput file outcome => outcome (inputs file)

/-- What a run comes to at a place in a tree of files, with a text on the standard input. -/
def Plan.runAt (place : FileTree.Location) (stdin : ByteArray) : Plan → Outcome :=
  Plan.run fun
    | none => .ok stdin
    | some path => place.read path

end FlowCanvas
