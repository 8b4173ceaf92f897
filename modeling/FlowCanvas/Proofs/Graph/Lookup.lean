import FlowCanvas.Diagram.Source
import FlowCanvas.Proofs.Graph.Defects

/-!
# What an id refers to

A click on a node is looked up by its id, and gives the first node that has it.  Whether a
specification is sound is found out by another scan, which collects ids and never looks at the node
that an id belongs to.  Both have the same notion of an id that refers to something, and of one that
refers to one thing only: a specification is sound exactly if every node is what a click on it
gives, and a click on an end of an edge or on a member of a group gives some node.

## Main definitions

* `GraphSpec.IsFirst i` — the node at place `i` is the first one of its id.

## Main results

* `GraphSpec.clicked_node_eq_some_iff` — what a click on a node gives, for every specification.
* `GraphSpec.nodup_ids_iff` — ids differ if every node is the first one of its id.
* `GraphSpec.getElem?_lines_node`, `GraphSpec.getElem?_lines_click` — the lines of a node in the
  text of a flow chart.
* `sound_iff_clicked` — **a specification is sound exactly if clicks find what it refers to.**
-/

namespace FlowCanvas

namespace GraphSpec

variable (spec : GraphSpec)

/-- The node at place `i` is the first one of its id. -/
def IsFirst (i : Fin spec.nodes.length) : Prop := ¬ spec.Repeats i

theorem isFirst_iff {i : Fin spec.nodes.length} :
    spec.IsFirst i ↔ ∀ j < i, (spec.nodes.get j).id ≠ (spec.nodes.get i).id := by
  unfold IsFirst Repeats
  simp only [not_exists, not_and]
  rfl

/-! ### Looking up -/

/-- The node of an id is the one at the place that is the first of it. -/
theorem node?_eq_some_iff {id : String} {n : Node} :
    spec.node? id = some n
      ↔ ∃ i : Fin spec.nodes.length,
        spec.IsFirst i ∧ (spec.nodes.get i).id = id ∧ spec.nodes.get i = n := by
  unfold node?
  rw [List.find?_eq_some_iff_getElem]
  constructor
  · rintro ⟨hid, i, hi, hn, hfirst⟩
    have hid' : n.id = id := of_decide_eq_true hid
    have hplace : (spec.nodes.get ⟨i, hi⟩).id = id := by
      rw [← hid', ← hn]
      rfl
    refine ⟨⟨i, hi⟩, spec.isFirst_iff.mpr ?_, hplace, hn⟩
    intro j hj
    rw [hplace]
    simpa using hfirst j hj
  · rintro ⟨i, hfirst, hid, rfl⟩
    refine ⟨decide_eq_true hid, i, i.isLt, rfl, ?_⟩
    intro j hj
    have hother := spec.isFirst_iff.mp hfirst ⟨j, hj.trans i.isLt⟩ hj
    simpa [← hid] using hother

/-- A click on a node gives the first node of its id, and nothing else. -/
theorem clicked_node_eq_some_iff {id : String} {c : Clicked} :
    spec.clicked (.node id) = some c
      ↔ ∃ i : Fin spec.nodes.length,
        spec.IsFirst i ∧ (spec.nodes.get i).id = id ∧ c = .node id (spec.nodes.get i) := by
  show (spec.node? id).map (fun n => Clicked.node n.id n) = some c ↔ _
  rw [Option.map_eq_some_iff]
  constructor
  · rintro ⟨n, hn, rfl⟩
    obtain ⟨i, hfirst, hid, rfl⟩ := spec.node?_eq_some_iff.mp hn
    refine ⟨i, hfirst, hid, ?_⟩
    rw [hid]
  · rintro ⟨i, hfirst, rfl, rfl⟩
    exact ⟨spec.nodes.get i, spec.node?_eq_some_iff.mpr ⟨i, hfirst, rfl, rfl⟩, rfl⟩

/-- A click on a node gives something exactly if some node has the id. -/
theorem isSome_clicked_node_iff {id : String} :
    (spec.clicked (.node id)).isSome = true ↔ spec.Declares id := by
  show ((spec.node? id).map fun n => Clicked.node n.id n).isSome = true ↔ _
  unfold node? Declares
  rw [Option.isSome_map, List.find?_isSome]
  simp only [decide_eq_true_iff]

/-- The ids of the nodes differ exactly if every node is the first one of its id. -/
theorem nodup_ids_iff : (spec.nodes.map Node.id).Nodup ↔ ∀ i, spec.IsFirst i := by
  rw [List.Nodup, List.pairwise_map, List.pairwise_iff_getElem]
  simp only [isFirst_iff]
  constructor
  · intro h i j hji
    exact h j i j.isLt i.isLt hji
  · intro h j i hj hi hji
    exact h ⟨i, hi⟩ ⟨j, hj⟩ hji

/-! ### The lines of a node -/

variable {spec}

/-- The lines of a flow chart: two at its head, and its nodes first and last. -/
theorem lines_eq_of_flow (hkind : spec.kind = .flow) (hnodes : spec.nodes ≠ []) (r : Rendering) :
    ∃ head middle, head.length = 2
      ∧ spec.lines r
        = head ++ (spec.nodes.map (nodeLine r.wrapWidth)
          ++ (middle ++ spec.nodes.map (clickLine r.clickHook))) := by
  refine ⟨[headerLine spec.theme r.themeVariables, flowLine spec.direction],
    spec.edges.map edgeLine ++ (spec.groups.getD []).flatMap groupLines ++ legendLines spec.legend
      ++ spec.nodes.filterMap classLine?, rfl, ?_⟩
  rw [lines_of_flow r hkind hnodes, bodyLines]
  simp only [List.append_assoc, List.cons_append, List.nil_append]

/-- Behind the two lines at its head, a flow chart has a line for each node. -/
theorem getElem?_lines_node (hkind : spec.kind = .flow) (r : Rendering)
    (i : Fin spec.nodes.length) :
    (spec.lines r)[2 + i.val]? = some (nodeLine r.wrapWidth (spec.nodes.get i)) := by
  have hnodes : spec.nodes ≠ [] := List.ne_nil_of_length_pos i.pos
  obtain ⟨head, middle, hhead, hlines⟩ := lines_eq_of_flow hkind hnodes r
  rw [hlines, List.getElem?_append_right (by omega), hhead, Nat.add_sub_cancel_left,
    List.getElem?_append_left (by simp)]
  simp

/-- At its end, a flow chart has a line for a click on each node. -/
theorem getElem?_lines_click (hkind : spec.kind = .flow) (r : Rendering)
    (i : Fin spec.nodes.length) :
    (spec.lines r)[(spec.lines r).length - spec.nodes.length + i.val]?
      = some (clickLine r.clickHook (spec.nodes.get i)) := by
  have hnodes : spec.nodes ≠ [] := List.ne_nil_of_length_pos i.pos
  obtain ⟨head, middle, -, hlines⟩ := lines_eq_of_flow hkind hnodes r
  have hlast : spec.lines r
      = (head ++ spec.nodes.map (nodeLine r.wrapWidth) ++ middle)
        ++ spec.nodes.map (clickLine r.clickHook) := by
    rw [hlines]
    simp only [List.append_assoc]
  have hlength : (spec.lines r).length - spec.nodes.length
      = (head ++ spec.nodes.map (nodeLine r.wrapWidth) ++ middle).length := by
    rw [hlast, List.length_append, List.length_map, Nat.add_sub_cancel]
  rw [hlength, hlast, List.getElem?_append_right (Nat.le_add_right _ _), Nat.add_sub_cancel_left]
  simp

end GraphSpec

/-- **Soundness is what clicks find.**  A specification has no defects exactly if it has nodes,
every node is the first one of its id, and a click on an end of an edge or a member of a group gives
a node.  A click on the id of a node that is the first one of it gives this very node, whose line
the text of a flow chart has in its place among the nodes, and whose click in its place among the
clicks.  And in every specification, sound or not, what a click on an id gives is that id and the
first node of it. -/
theorem sound_iff_clicked (spec : GraphSpec) :
    (defectsOf (some spec) = []
        ↔ spec.nodes ≠ [] ∧ (∀ i, spec.IsFirst i)
          ∧ (∀ e ∈ spec.edges, (spec.clicked (.node e.source)).isSome = true
            ∧ (spec.clicked (.node e.target)).isSome = true)
          ∧ ∀ g ∈ spec.groups.getD [], ∀ id ∈ g.members, (spec.clicked (.node id)).isSome = true)
      ∧ (∀ i, spec.IsFirst i →
        spec.clicked (.node (spec.nodes.get i).id)
            = some (.node (spec.nodes.get i).id (spec.nodes.get i))
          ∧ (spec.kind = .flow → ∀ r : Rendering,
            (spec.lines r)[2 + i.val]? = some (nodeLine r.wrapWidth (spec.nodes.get i))
              ∧ (spec.lines r)[(spec.lines r).length - spec.nodes.length + i.val]?
                = some (clickLine r.clickHook (spec.nodes.get i))))
      ∧ ∀ id c, spec.clicked (.node id) = some c
        ↔ ∃ i, spec.IsFirst i ∧ (spec.nodes.get i).id = id ∧ c = .node id (spec.nodes.get i) := by
  refine ⟨?sound, ?first, fun id c => spec.clicked_node_eq_some_iff⟩
  case sound =>
    show spec.defects = [] ↔ _
    rw [spec.defects_eq_nil_iff, spec.nodup_ids_iff]
    simp only [spec.isSome_clicked_node_iff]
  case first =>
    intro i hfirst
    refine ⟨spec.clicked_node_eq_some_iff.mpr ⟨i, hfirst, rfl, rfl⟩, ?_⟩
    intro hkind r
    exact ⟨GraphSpec.getElem?_lines_node hkind r i, GraphSpec.getElem?_lines_click hkind r i⟩

/-- Of two nodes with one id, a click gives the first, whose line is the first of the nodes. -/
theorem clicked_of_repeated_id :
    let first : Node := { id := "A", label := "one" }
    let spec : GraphSpec := { nodes := [first, { id := "A", label := "two" }] }
    defectsOf (some spec) ≠ [] ∧ spec.clicked (.node "A") = some (.node "A" first)
      ∧ ∀ r : Rendering, (spec.lines r)[2]? = some (nodeLine r.wrapWidth first) := by
  intro first spec
  have h := sound_iff_clicked spec
  have hzero : 0 < spec.nodes.length := by decide
  have hone : 1 < spec.nodes.length := by decide
  have hfirst : spec.IsFirst ⟨0, hzero⟩ :=
    spec.isFirst_iff.mpr fun j hj => absurd hj (Nat.not_lt_zero j)
  obtain ⟨hclicked, hlines⟩ := h.2.1 ⟨0, hzero⟩ hfirst
  refine ⟨?_, hclicked, fun r => (hlines rfl r).1⟩
  intro hsound
  obtain ⟨-, hall, -⟩ := h.1.mp hsound
  exact spec.isFirst_iff.mp (hall ⟨1, hone⟩) ⟨0, hzero⟩ Nat.zero_lt_one rfl

end FlowCanvas
