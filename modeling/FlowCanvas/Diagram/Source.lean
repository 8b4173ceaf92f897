import FlowCanvas.Diagram.Palette
import FlowCanvas.Failure
import FlowCanvas.Graph.Schema
import FlowCanvas.Text.Wrap

/-!
# The source text of a diagram

A diagram is written as lines. The first one sets the theme and the second one says what kind of
diagram it is and, for a flow chart, in which direction it runs. A flow chart goes on with its
nodes, its edges, its groups, its legend, the classes of its nodes and what a click on them starts.

## Main definitions

* `Shape.opening`, `Shape.closing`, `LineStyle.token`, `Direction.keyword` — the signs that the
  text is made of.
* `escapeQuotes` — a label as it stands between double quotes.
* `GraphSpec.lines`, `GraphSpec.source` — the text of a diagram.
* `GraphSpec.soundSource`, `GraphSpec.compile` — the same for a specification that has no defects,
  or that may have some.
* `readSpec`, `compileText` — the same from the text of a specification.
-/

namespace FlowCanvas

/-! ### Signs -/

/-- The sign before the label of a node. -/
def Shape.opening : Shape → String
  | .rectangle => "["
  | .round => "("
  | .stadium => "(["
  | .cylinder => "[("
  | .circle => "(("
  | .diamond => "\x7b"
  | .hexagon => "\x7b\x7b"

/-- The sign behind the label of a node. -/
def Shape.closing : Shape → String
  | .rectangle => "]"
  | .round => ")"
  | .stadium => "])"
  | .cylinder => ")]"
  | .circle => "))"
  | .diamond => "\x7d"
  | .hexagon => "\x7d\x7d"

/-- The arrow of an edge. -/
def LineStyle.token : LineStyle → String
  | .solid => "--->"
  | .thick => "===>"
  | .dotted => "-.->"
  | .dashed => "-->"

/-- The word for a direction. -/
def Direction.keyword : Direction → String
  | .topToBottom => "TB"
  | .bottomToTop => "BT"
  | .rightToLeft => "RL"
  | .leftToRight => "LR"

/-- The word for a kind of diagram. -/
def DiagramKind.keyword : DiagramKind → String
  | .flow => "flowchart"
  | .sequence => "sequenceDiagram"
  | .classes => "classDiagram"
  | .state => "stateDiagram-v2"

/-- What stands for a double quote inside a label. -/
def quoteEntity : List Char := "#quot;".toList

/-- A label as it stands between double quotes. -/
def escapeQuotes (label : List Char) : List Char :=
  label.flatMap fun c => if c = '"' then quoteEntity else [c]

@[simp] theorem escapeQuotes_nil : escapeQuotes [] = [] := rfl

@[simp] theorem escapeQuotes_append (a b : List Char) :
    escapeQuotes (a ++ b) = escapeQuotes a ++ escapeQuotes b := List.flatMap_append

/-- An escaped label has no double quotes, so that it cannot end early. -/
theorem quote_notMem_escapeQuotes (label : List Char) : '"' ∉ escapeQuotes label := by
  intro h
  obtain ⟨c, -, hc⟩ := List.mem_flatMap.1 h
  split at hc
  · revert hc
    decide
  · next hne => exact hne (List.mem_singleton.1 hc).symm

/-- A label in double quotes. -/
def labelChars (label : List Char) : List Char := '"' :: (escapeQuotes label ++ ['"'])

/-! ### Lines -/

/-- The space before a line that is not at the top. -/
def indent : List Char := "    ".toList

/-- The first line of a diagram, which sets its theme. -/
def headerLine (theme : Theme) (v : ThemeVariables) : List Char :=
  let init := Json.ofMembers [("theme", wordJson theme), ("themeVariables", v.toJson)]
  "%%\x7binit: ".toList ++ init.chars ++ "\x7d%%".toList

/-- The second line of a flow chart. -/
def flowLine (d : Direction) : List Char :=
  DiagramKind.flow.keyword.toList ++ ' ' :: d.keyword.toList

/-- The node that stands where there is nothing to show. -/
def placeholderLine : List Char := indent ++ "empty[\"No data\"]".toList

/-- A node with its label set in lines of the given width. -/
def nodeLine (wrapWidth : Nat) (n : Node) : List Char :=
  indent ++ n.id.toList ++ n.shape.opening.toList ++ labelChars (wrap wrapWidth n.label.toList)
    ++ n.shape.closing.toList

/-- The label of an edge between two strokes, if it has one. -/
def edgeLabel : Option String → List Char
  | none => []
  | some label => '|' :: (labelChars label.toList ++ ['|'])

/-- An edge. -/
def edgeLine (e : Edge) : List Char :=
  indent ++ e.source.toList ++ ' ' :: e.lineStyle.token.toList ++ edgeLabel e.label
    ++ ' ' :: e.target.toList

/-- The first line of a frame. -/
def frameLine (id title : List Char) : List Char :=
  indent ++ "subgraph ".toList ++ id ++ '[' :: (labelChars title ++ [']'])

/-- The last line of a frame. -/
def frameEnd : List Char := indent ++ "end".toList

/-- A group: a frame around its members. -/
def groupLines (g : Group) : List (List Char) :=
  frameLine g.id.toList g.label.toList
    :: (g.members.map fun id => indent ++ indent ++ id.toList) ++ [frameEnd]

/-- The id of the legend. -/
def legendId : List Char := "legend".toList

/-- The id of the line of the legend at a place. -/
def legendEntryId (index : Nat) : List Char := legendId ++ '_' :: Nat.toDigits 10 index

/-- The lines of the legend from a place on. -/
def legendEntryLines (index : Nat) : List LegendEntry → List (List Char)
  | [] => []
  | l :: ls =>
    (indent ++ indent ++ legendEntryId index ++ '[' :: (labelChars l.label.toList ++ [']']))
      :: legendEntryLines (index + 1) ls

@[simp] theorem legendEntryLines_nil (index : Nat) : legendEntryLines index [] = [] := rfl

@[simp] theorem legendEntryLines_cons (index : Nat) (l : LegendEntry) (ls : List LegendEntry) :
    legendEntryLines index (l :: ls)
      = (indent ++ indent ++ legendEntryId index ++ '[' :: (labelChars l.label.toList ++ [']']))
        :: legendEntryLines (index + 1) ls := rfl

/-- The colours of the lines of the legend from a place on. -/
def legendStyleLines (index : Nat) : List LegendEntry → List (List Char)
  | [] => []
  | l :: ls =>
    (indent ++ "style ".toList ++ legendEntryId index ++ " fill:".toList
      ++ (swatch l.swatch).fill.toList ++ ",stroke:".toList ++ (swatch l.swatch).stroke.toList
      ++ ",color:#fff".toList) :: legendStyleLines (index + 1) ls

@[simp] theorem legendStyleLines_nil (index : Nat) : legendStyleLines index [] = [] := rfl

@[simp] theorem legendStyleLines_cons (index : Nat) (l : LegendEntry) (ls : List LegendEntry) :
    legendStyleLines index (l :: ls)
      = (indent ++ "style ".toList ++ legendEntryId index ++ " fill:".toList
          ++ (swatch l.swatch).fill.toList ++ ",stroke:".toList
          ++ (swatch l.swatch).stroke.toList ++ ",color:#fff".toList)
        :: legendStyleLines (index + 1) ls := rfl

/-- The legend: a frame around its lines, and their colours behind it. -/
def legendLines : Option (List LegendEntry) → List (List Char)
  | none => []
  | some entries =>
    frameLine legendId "Legend".toList :: legendEntryLines 0 entries ++ frameEnd
      :: legendStyleLines 0 entries

/-- The class of a node, if it has one. -/
def classLine? (n : Node) : Option (List Char) :=
  n.styleClass.map fun name => indent ++ "class ".toList ++ n.id.toList ++ ' ' :: name.toList

/-- What a click on a node starts. -/
def clickLine (hook : String) (n : Node) : List Char :=
  indent ++ "click ".toList ++ n.id.toList ++ ' ' :: hook.toList

namespace GraphSpec

variable (spec : GraphSpec) (r : Rendering)

/-- The lines of a flow chart behind the second one. -/
def bodyLines : List (List Char) :=
  spec.nodes.map (nodeLine r.wrapWidth) ++ spec.edges.map edgeLine
    ++ (spec.groups.getD []).flatMap groupLines ++ legendLines spec.legend
    ++ spec.nodes.filterMap classLine? ++ spec.nodes.map (clickLine r.clickHook)

/-- The lines of a diagram behind the first one. Without nodes there is a flow chart of one node
that says so, and no kind of diagram but the flow chart has anything to show. -/
def diagramLines : List (List Char) :=
  if spec.nodes.isEmpty then [flowLine spec.direction, placeholderLine]
  else if spec.kind = .flow then flowLine spec.direction :: spec.bodyLines r
  else [spec.kind.keyword.toList]

/-- The lines of a diagram. -/
def lines : List (List Char) := headerLine spec.theme r.themeVariables :: spec.diagramLines r

variable {spec} in
/-- A flow chart that has nodes is drawn with its body. -/
theorem lines_of_flow (hkind : spec.kind = .flow) (hnodes : spec.nodes ≠ []) :
    spec.lines r = headerLine spec.theme r.themeVariables :: flowLine spec.direction
      :: spec.bodyLines r := by
  rw [lines, diagramLines, if_neg (by rwa [List.isEmpty_iff]), if_pos hkind]

/-- The text of a diagram: its lines with line feeds between them. -/
def sourceChars : List Char := ['\n'].intercalate (spec.lines r)

/-- The text of a diagram as a string. -/
def source : String := String.ofList (spec.sourceChars r)

/-- The text of a diagram, unless its specification has defects. -/
def soundSource : Except Failure String :=
  match spec.defects with
  | [] => .ok (spec.source r)
  | defects => .error (.unsound defects)

/-- The text of a diagram; `check` refuses a specification with defects. -/
def compile (check : Bool) : Except Failure String :=
  if check then spec.soundSource r else .ok (spec.source r)

end GraphSpec

/-! ### From the text of a specification -/

/-- The specification that a text denotes. -/
def readSpec (text : String) : Except Failure GraphSpec :=
  match GraphSpec.ofJson text.toList with
  | .ok spec => .ok spec
  | .error fault => .error (.malformed fault.cause (some (fault.place text.toList)))

/-- The text of the diagram whose specification is given as text. -/
def compileText (text : String) (r : Rendering) (check : Bool) : Except Failure String := do
  (← readSpec text).compile r check

end FlowCanvas
