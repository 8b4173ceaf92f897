import FlowCanvas.Json.Value

/-!
# Graph specifications

A specification says what a diagram shows: nodes, edges between them, groups of them, and a
legend. Nodes are named by their ids; that the names fit together is not part of the type.

## Main definitions

* `DiagramKind`, `Direction`, `Theme`, `Shape`, `LineStyle` — the choices of a specification.
* `Node`, `Edge`, `Group`, `LegendEntry`, `GraphSpec` — its parts and the whole.
* `GraphSpec.node?` — the node of an id.
* `Target`, `GraphSpec.clicked` — what a click on a node or an edge stands for.
-/

namespace FlowCanvas

/-- What kind of diagram is drawn. -/
inductive DiagramKind
  /-- A flow chart, the only kind with a body of its own. -/
  | flow
  | sequence
  | classes
  | state
  deriving DecidableEq, Repr, Inhabited

/-- The direction in which a flow chart runs. -/
inductive Direction
  | topToBottom
  | bottomToTop
  | rightToLeft
  | leftToRight
  deriving DecidableEq, Repr, Inhabited

/-- The colours of a diagram. -/
inductive Theme
  /-- The colours used if nothing is said. -/
  | standard
  | dark
  | neutral
  | forest
  /-- The one theme whose colours can be set. -/
  | base
  deriving DecidableEq, Repr, Inhabited

/-- The outline of a node. -/
inductive Shape
  | rectangle
  /-- A box with round corners. -/
  | round
  /-- A box with round ends. -/
  | stadium
  | cylinder
  | circle
  | diamond
  | hexagon
  deriving DecidableEq, Repr, Inhabited

/-- The line of an edge. -/
inductive LineStyle
  /-- A long line. -/
  | solid
  /-- A thick line. -/
  | thick
  /-- A line of dots. -/
  | dotted
  /-- A short line. -/
  | dashed
  deriving DecidableEq, Repr, Inhabited

/-- What a writer attaches to a node or an edge for their own use. -/
abbrev Metadata := Json.Members

/-- A node. -/
structure Node where
  /-- The name by which it is referred to. -/
  id : String
  label : String
  shape : Shape := .rectangle
  /-- A class of styles that it belongs to. -/
  styleClass : Option String := none
  metadata : Option Metadata := none
  deriving Inhabited

/-- An edge between two nodes. -/
structure Edge where
  /-- The id of the node where it starts. -/
  source : String
  /-- The id of the node where it ends. -/
  target : String
  /-- The text on it. -/
  label : Option String := none
  lineStyle : LineStyle := .solid
  /-- A class of styles that it belongs to. -/
  styleClass : Option String := none
  metadata : Option Metadata := none
  deriving Inhabited

/-- A group of nodes, drawn with a frame around them. -/
structure Group where
  /-- The name of the frame. -/
  id : String
  label : String
  /-- The ids of the nodes in it. -/
  members : List String := []
  deriving DecidableEq, Repr, Inhabited

/-- A line of the legend. -/
structure LegendEntry where
  /-- The name of its colours. -/
  swatch : String
  label : String
  deriving DecidableEq, Repr, Inhabited

/-- What a diagram shows. -/
structure GraphSpec where
  kind : DiagramKind := .flow
  direction : Direction := .topToBottom
  nodes : List Node := []
  edges : List Edge := []
  groups : Option (List Group) := none
  legend : Option (List LegendEntry) := none
  theme : Theme := .standard
  deriving Inhabited

/-- The first node of an id. -/
def GraphSpec.node? (spec : GraphSpec) (id : String) : Option Node :=
  spec.nodes.find? fun n => n.id = id

/-- A part of a diagram that can be pointed at. -/
inductive Target
  /-- The node of an id. -/
  | node (id : String)
  /-- The edge at a place in the list of edges. -/
  | edge (index : Nat)
  deriving DecidableEq, Repr, Inhabited

/-- What a click stands for. -/
inductive Clicked
  /-- A node and its id. -/
  | node (id : String) (node : Node)
  | edge (edge : Edge)
  deriving Inhabited

/-- What a click on a part of the diagram stands for, if the specification has that part. -/
def GraphSpec.clicked (spec : GraphSpec) : Target → Option Clicked
  | .node id => (spec.node? id).map fun n => .node n.id n
  | .edge index => spec.edges[index]?.map .edge

end FlowCanvas
