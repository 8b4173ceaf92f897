import FlowCanvas.Graph.Spec

/-!
# Defects of a specification

A specification is sound if it has nodes, no two of them share an id, and every edge and group
refers to nodes that it has. Each breach is a defect of its own.

## Main definitions

* `Defect` — a breach.
* `scanIds`, `edgeDefects`, `groupDefects` — the breaches of nodes, of edges and of groups.
* `GraphSpec.defects` — all breaches of a specification: those of its nodes, of its edges and of
  its groups, each in order.
-/

namespace FlowCanvas

/-- A breach of the rules for specifications. -/
inductive Defect
  /-- There is no specification at all. -/
  | missingSpec
  | noNodes
  /-- An id belongs to an earlier node already. -/
  | duplicateId (id : String)
  /-- An edge starts at no node. -/
  | unknownSource (index : Nat) (id : String)
  /-- An edge ends at no node. -/
  | unknownTarget (index : Nat) (id : String)
  /-- A group has a member that is no node. -/
  | unknownMember (group : String) (id : String)
  deriving DecidableEq, Repr, Inhabited

/-- An id as messages show it. -/
private def inQuotes (id : String) : String := "\"" ++ id ++ "\""

/-- The wording of a defect. -/
def Defect.message : Defect → String
  | .missingSpec => "graph spec is missing"
  | .noNodes => "graph spec must contain at least one node"
  | .duplicateId id => "duplicate node id: " ++ inQuotes id
  | .unknownSource index id =>
    "edge " ++ toString index ++ " references unknown source node " ++ inQuotes id
  | .unknownTarget index id =>
    "edge " ++ toString index ++ " references unknown target node " ++ inQuotes id
  | .unknownMember group id =>
    "group " ++ inQuotes group ++ " references unknown node " ++ inQuotes id

/-- Scans ids, `seen` being those before the first: the ids seen at the end, and a defect for every
id that belonged to an earlier node already. -/
def scanIds (seen : List String) : List String → List String × List Defect
  | [] => (seen, [])
  | id :: ids =>
    if seen.contains id then
      let r := scanIds seen ids
      (r.1, .duplicateId id :: r.2)
    else scanIds (id :: seen) ids

@[simp] theorem scanIds_nil (seen : List String) : scanIds seen [] = (seen, []) := rfl

theorem scanIds_cons (seen : List String) (id : String) (ids : List String) :
    scanIds seen (id :: ids)
      = if seen.contains id then ((scanIds seen ids).1, .duplicateId id :: (scanIds seen ids).2)
        else scanIds (id :: seen) ids := rfl

/-- The defects of the edges from a place in their list on. -/
def edgeDefects (ids : List String) (index : Nat) : List Edge → List Defect
  | [] => []
  | e :: es =>
    (if ids.contains e.source then [] else [.unknownSource index e.source])
      ++ (if ids.contains e.target then [] else [.unknownTarget index e.target])
      ++ edgeDefects ids (index + 1) es

@[simp] theorem edgeDefects_nil (ids : List String) (index : Nat) :
    edgeDefects ids index [] = [] := rfl

@[simp] theorem edgeDefects_cons (ids : List String) (index : Nat) (e : Edge) (es : List Edge) :
    edgeDefects ids index (e :: es)
      = (if ids.contains e.source then [] else [.unknownSource index e.source])
        ++ (if ids.contains e.target then [] else [.unknownTarget index e.target])
        ++ edgeDefects ids (index + 1) es := rfl

/-- The defects of a group. -/
def groupDefects (ids : List String) (g : Group) : List Defect :=
  (g.members.filter fun id => !ids.contains id).map (.unknownMember g.label)

/-- All defects of a specification. The ids that the scan of the nodes has seen are those that its
edges and groups can refer to. -/
def GraphSpec.defects (spec : GraphSpec) : List Defect :=
  let scan := scanIds [] (spec.nodes.map Node.id)
  (if spec.nodes.isEmpty then [.noNodes] else []) ++ scan.2 ++ edgeDefects scan.1 0 spec.edges
    ++ (spec.groups.getD []).flatMap (groupDefects scan.1)

/-- All defects of what may be a specification. -/
def defectsOf : Option GraphSpec → List Defect
  | none => [.missingSpec]
  | some spec => spec.defects

end FlowCanvas
