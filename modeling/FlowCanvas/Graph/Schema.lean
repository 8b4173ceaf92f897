import FlowCanvas.Graph.Spec
import FlowCanvas.Json.Schema

/-!
# Graph specifications as JSON

## Main definitions

* `GraphSpec.ofJson` — reads a specification, or says why the text is none.
* `GraphSpec.toJson`, `GraphSpec.text` — writes one. Fields come in their own order, and those
  that are absent are left out.
-/

namespace FlowCanvas

open Json

/-! ### Words -/

instance : Vocabulary DiagramKind where
  words := [("flow", .flow), ("sequence", .sequence), ("class", .classes), ("state", .state)]
  word
    | .flow => "flow"
    | .sequence => "sequence"
    | .classes => "class"
    | .state => "state"

instance : Vocabulary Direction where
  words := [("TB", .topToBottom), ("TD", .topToBottom), ("BT", .bottomToTop),
    ("RL", .rightToLeft), ("LR", .leftToRight)]
  word
    | .topToBottom => "TB"
    | .bottomToTop => "BT"
    | .rightToLeft => "RL"
    | .leftToRight => "LR"

instance : Vocabulary Theme where
  words := [("default", .standard), ("dark", .dark), ("neutral", .neutral), ("forest", .forest),
    ("base", .base)]
  word
    | .standard => "default"
    | .dark => "dark"
    | .neutral => "neutral"
    | .forest => "forest"
    | .base => "base"

instance : Vocabulary Shape where
  words := [("rectangle", .rectangle), ("round", .round), ("stadium", .stadium),
    ("cylinder", .cylinder), ("circle", .circle), ("diamond", .diamond), ("hexagon", .hexagon)]
  word
    | .rectangle => "rectangle"
    | .round => "round"
    | .stadium => "stadium"
    | .cylinder => "cylinder"
    | .circle => "circle"
    | .diamond => "diamond"
    | .hexagon => "hexagon"

instance : Vocabulary LineStyle where
  words := [("solid", .solid), ("thick", .thick), ("dotted", .dotted), ("dashed", .dashed)]
  word
    | .solid => "solid"
    | .thick => "thick"
    | .dotted => "dotted"
    | .dashed => "dashed"

/-! ### Reading -/

/-- The fields of a node. -/
def Node.schema : Schema Node where
  name := "Node"
  blank := ⟨"", "", .rectangle, none, none⟩
  fields := [
    .of "id" true readText fun x n => { n with id := x },
    .of "label" true readText fun x n => { n with label := x },
    .of "shape" false readSpelling fun x n => { n with shape := x },
    .of "styleClass" false (readOption readText) fun x n => { n with styleClass := x },
    .of "metadata" false (readOption readObject) fun x n => { n with metadata := x }]

/-- The fields of an edge. -/
def Edge.schema : Schema Edge where
  name := "Edge"
  blank := ⟨"", "", none, .solid, none, none⟩
  fields := [
    .of "from" true readText fun x e => { e with source := x },
    .of "to" true readText fun x e => { e with target := x },
    .of "label" false (readOption readText) fun x e => { e with label := x },
    .of "lineStyle" false readSpelling fun x e => { e with lineStyle := x },
    .of "styleClass" false (readOption readText) fun x e => { e with styleClass := x },
    .of "metadata" false (readOption readObject) fun x e => { e with metadata := x }]

/-- The fields of a group. -/
def Group.schema : Schema Group where
  name := "Group"
  blank := ⟨"", "", []⟩
  fields := [
    .of "id" true readText fun x g => { g with id := x },
    .of "label" true readText fun x g => { g with label := x },
    .of "memberNodeIds" false (readList readText) fun x g => { g with members := x }]

/-- The fields of a line of the legend. -/
def LegendEntry.schema : Schema LegendEntry where
  name := "LegendEntry"
  blank := ⟨"", ""⟩
  fields := [
    .of "swatchKey" true readText fun x l => { l with swatch := x },
    .of "label" true readText fun x l => { l with label := x }]

/-- The fields of a specification. -/
def GraphSpec.schema : Schema GraphSpec where
  name := "GraphSpec"
  blank := {}
  fields := [
    .of "kind" false readSpelling fun x s => { s with kind := x },
    .of "direction" false readSpelling fun x s => { s with direction := x },
    .of "nodes" false (readList Node.schema.read) fun x s => { s with nodes := x },
    .of "edges" false (readList Edge.schema.read) fun x s => { s with edges := x },
    .of "groups" false (readOption (readList Group.schema.read)) fun x s => { s with groups := x },
    .of "legendItems" false (readOption (readList LegendEntry.schema.read))
      fun x s => { s with legend := x },
    .of "themeName" false readSpelling fun x s => { s with theme := x }]

/-- The specification that a text denotes, or why it denotes none. -/
def GraphSpec.ofJson (text : List Char) : Result GraphSpec := readAll GraphSpec.schema.read text

/-! ### Writing -/

/-- A word as a JSON value. -/
def wordJson {α : Type} [Vocabulary α] (x : α) : Json := .str (Vocabulary.word x)

/-- A member that is left out if it has no value. -/
def memberOf {α : Type} (name : String) (f : α → Json) : Option α → Json.Members
  | none => []
  | some x => [(name, f x)]

/-- A node as JSON. -/
def Node.toJson (n : Node) : Json :=
  .object ([("id", .str n.id), ("label", .str n.label), ("shape", wordJson n.shape)]
    ++ memberOf "styleClass" .str n.styleClass ++ memberOf "metadata" .object n.metadata)

/-- An edge as JSON. -/
def Edge.toJson (e : Edge) : Json :=
  .object ([("from", .str e.source), ("to", .str e.target)] ++ memberOf "label" .str e.label
    ++ [("lineStyle", wordJson e.lineStyle)] ++ memberOf "styleClass" .str e.styleClass
    ++ memberOf "metadata" .object e.metadata)

/-- A group as JSON. -/
def Group.toJson (g : Group) : Json :=
  .object [("id", .str g.id), ("label", .str g.label),
    ("memberNodeIds", .list (g.members.map .str))]

/-- A line of the legend as JSON. -/
def LegendEntry.toJson (l : LegendEntry) : Json :=
  .object [("swatchKey", .str l.swatch), ("label", .str l.label)]

/-- A specification as JSON. -/
def GraphSpec.toJson (s : GraphSpec) : Json :=
  .object ([("kind", wordJson s.kind), ("direction", wordJson s.direction),
      ("nodes", .list (s.nodes.map Node.toJson)), ("edges", .list (s.edges.map Edge.toJson))]
    ++ memberOf "groups" (fun gs => .list (gs.map Group.toJson)) s.groups
    ++ memberOf "legendItems" (fun ls => .list (ls.map LegendEntry.toJson)) s.legend
    ++ [("themeName", wordJson s.theme)])

/-- The text of a specification. -/
def GraphSpec.text (s : GraphSpec) : String := s.toJson.text

end FlowCanvas
