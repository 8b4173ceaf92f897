import FlowCanvas.Proofs.Diagram.OneLine
import FlowCanvas.Proofs.Diagram.Section
import FlowCanvas.Proofs.Graph.Defects

/-!
# What the text of a diagram tells of its specification

Two specifications have the same text exactly if they are drawn in the same way: the text of a
diagram keeps everything that is to be drawn, and it depends on nothing else.  What is left out are
the data that a writer attaches for their own use, the style classes of edges, the name under which
a colour of the legend is known, and of a label what wrapping does not keep.

This takes specifications without defects in which ids and classes are names, so that no line can be
taken for one of another section, and in which no label has a line feed in it or the text that
stands for a double quote.  No group may be called like the legend.

A text is cut into its lines first (`lines_eq_of_source_eq`).  The first two lines give the theme
and the direction, and from the others one section after another is taken off, from the nodes to the
classes (`sameDrawing_of_bodyLines`).

## Main definitions

* `GraphSpec.Legible` — what is asked of a specification.
* `SameDrawing w a b` — what two specifications have in common if they are drawn in the same way,
  with labels set in lines of width `w`.

## Main results

* `source_eq_source_iff` — **legible specifications have the same text exactly if they are drawn in
  the same way.**
-/

namespace FlowCanvas

/-! ### What is asked, and what is told -/

/-- A flow chart without defects, with names for ids and classes and with plain labels, in which no
group is called like the legend. -/
structure GraphSpec.Legible (spec : GraphSpec) : Prop where
  kind : spec.kind = .flow
  sound : spec.defects = []
  nodeName : ∀ n ∈ spec.nodes, IsName n.id.toList
  className : ∀ n ∈ spec.nodes, ∀ c ∈ n.styleClass, IsName c.toList
  /-- The ids of groups are names, but not that of the legend. -/
  groupName : ∀ g ∈ spec.groups.getD [], IsName g.id.toList ∧ g.id ≠ "legend"
  nodeLabel : ∀ n ∈ spec.nodes, IsPlain n.label.toList
  edgeLabel : ∀ e ∈ spec.edges, ∀ l ∈ e.label, IsPlain l.toList
  groupLabel : ∀ g ∈ spec.groups.getD [], IsPlain g.label.toList
  legendLabel : ∀ l ∈ spec.legend.getD [], IsPlain l.label.toList

/-- Nodes of the same id, shape, class and wrapped label. -/
def SameNode (w : Nat) (m n : Node) : Prop :=
  m.id = n.id ∧ m.shape = n.shape ∧ m.styleClass = n.styleClass ∧
    wrap w m.label.toList = wrap w n.label.toList

/-- Edges of the same ends, line and label. -/
def SameEdge (d e : Edge) : Prop :=
  d.source = e.source ∧ d.target = e.target ∧ d.lineStyle = e.lineStyle ∧ d.label = e.label

/-- Groups of the same id, label and members. -/
def SameGroup (g h : Group) : Prop := g.id = h.id ∧ g.label = h.label ∧ g.members = h.members

/-- Lines of a legend of the same label and colours. -/
def SameEntry (k l : LegendEntry) : Prop := k.label = l.label ∧ swatch k.swatch = swatch l.swatch

/-- What two specifications have in common if they are drawn in the same way. -/
structure SameDrawing (w : Nat) (a b : GraphSpec) : Prop where
  direction : a.direction = b.direction
  theme : a.theme = b.theme
  nodes : List.Forall₂ (SameNode w) a.nodes b.nodes
  edges : List.Forall₂ SameEdge a.edges b.edges
  /-- They have the same groups, or none. -/
  groups : List.Forall₂ SameGroup (a.groups.getD []) (b.groups.getD [])
  /-- They have the same legend, or both have none. -/
  legend : Option.Rel (List.Forall₂ SameEntry) a.legend b.legend

theorem forall₂_sameGroup_iff {gs hs : List Group} : List.Forall₂ SameGroup gs hs ↔ gs = hs := by
  have hgroup : SameGroup = Eq := by
    funext g h
    rw [SameGroup, Group.mk.injEq]
  rw [hgroup, List.forall₂_eq_eq_eq]

namespace GraphSpec

/-! ### What stands behind each other -/

/-- The lines behind the groups: the legend, the classes and the clicks. -/
def linesBehindGroups (spec : GraphSpec) (r : Rendering) : List (List Char) :=
  legendLines spec.legend ++
    (spec.nodes.filterMap classLine? ++ spec.nodes.map (clickLine r.clickHook))

/-- The lines behind the edges: the groups and what stands behind them. -/
def linesBehindEdges (spec : GraphSpec) (r : Rendering) : List (List Char) :=
  (spec.groups.getD []).flatMap groupLines ++ spec.linesBehindGroups r

theorem bodyLines_eq (spec : GraphSpec) (r : Rendering) :
    spec.bodyLines r = spec.nodes.map (nodeLine r.wrapWidth) ++
      (spec.edges.map edgeLine ++ spec.linesBehindEdges r) := by
  simp only [bodyLines, linesBehindEdges, linesBehindGroups, List.append_assoc]

/-! ### Legible specifications -/

section Legible

variable {spec : GraphSpec} (h : spec.Legible)
include h

theorem Legible.nodup : (spec.nodes.map Node.id).Nodup := (spec.defects_eq_nil_iff.mp h.sound).2.1

theorem Legible.isName_of_declares {id : String} (hid : spec.Declares id) : IsName id.toList := by
  obtain ⟨n, hn, rfl⟩ := hid
  exact h.nodeName n hn

/-- The ends of edges are ids of nodes, and so they are names. -/
theorem Legible.edgeName : ∀ e ∈ spec.edges, IsName e.source.toList ∧ IsName e.target.toList := by
  intro e he
  obtain ⟨hsource, htarget⟩ := (spec.defects_eq_nil_iff.mp h.sound).2.2.1 e he
  exact ⟨h.isName_of_declares hsource, h.isName_of_declares htarget⟩

/-- So are the members of groups. -/
theorem Legible.memberName : ∀ g ∈ spec.groups.getD [], ∀ id ∈ g.members, IsName id.toList :=
  fun g hg id hid => h.isName_of_declares ((spec.defects_eq_nil_iff.mp h.sound).2.2.2 g hg id hid)

theorem Legible.group : ∀ g ∈ spec.groups.getD [], g.Legible := by
  intro g hg
  refine ⟨(h.groupName g hg).1, fun hid => (h.groupName g hg).2 ?_, h.groupLabel g hg⟩
  exact String.toList_inj.mp hid

/-- A flow chart that has nodes is drawn with its body. -/
theorem Legible.lines_eq (r : Rendering) : spec.lines r
    = headerLine spec.theme r.themeVariables :: flowLine spec.direction :: spec.bodyLines r :=
  lines_of_flow r h.kind (spec.defects_eq_nil_iff.mp h.sound).1

/-- No line of a legible specification has a line feed in it. -/
theorem Legible.newline_notMem_lines {r : Rendering} (hhook : IsName r.clickHook.toList) :
    ∀ l ∈ spec.lines r, '\n' ∉ l := by
  have hbody : ∀ l ∈ spec.bodyLines r, '\n' ∉ l := by
    intro l hl
    simp only [bodyLines, List.mem_append, List.mem_map, List.mem_flatMap, List.mem_filterMap] at hl
    -- the nodes, the edges, the groups, the legend, the classes and the clicks
    rcases hl with
      ((((⟨n, hn, rfl⟩ | ⟨e, he, rfl⟩) | ⟨g, hg, hl⟩) | hl) | ⟨n, hn, hl⟩) | ⟨n, hn, rfl⟩
    · exact newline_notMem_nodeLine (h.nodeName n hn) (h.nodeLabel n hn) _
    · exact newline_notMem_edgeLine (h.edgeName e he).1 (h.edgeName e he).2 (h.edgeLabel e he)
    · exact newline_notMem_groupLines (h.groupName g hg).1 (h.groupLabel g hg)
        (h.memberName g hg) l hl
    · exact newline_notMem_legendLines h.legendLabel l hl
    · exact notMem_classLine (.inl rfl) (h.nodeName n hn).newline_notMem
        (fun c hc => (h.className n hn c hc).newline_notMem) l hl
    · exact notMem_clickLine (.inl rfl) hhook.newline_notMem (h.nodeName n hn).newline_notMem
  rw [h.lines_eq]
  refine List.forall_mem_cons.mpr ⟨newline_notMem_headerLine _ _, ?_⟩
  exact List.forall_mem_cons.mpr ⟨newline_notMem_flowLine _, hbody⟩

/-- The classes and clicks of nodes are statements. -/
theorem Legible.isStatement_classes (hook : String) :
    ∀ l ∈ (spec.nodes.filterMap classLine? ++ spec.nodes.map (clickLine hook)).head?,
      IsStatement l := by
  refine head?_append_of (head?_of_forall fun l hl => ?_) (head?_of_forall fun l hl => ?_)
  · obtain ⟨n, hn, hline⟩ := List.mem_filterMap.mp hl
    exact isStatement_classLine (h.nodeName n hn) l hline
  · obtain ⟨n, hn, rfl⟩ := List.mem_map.mp hl
    exact isStatement_clickLine (h.nodeName n hn) hook

/-- What stands behind the edges begins with a statement. -/
theorem Legible.isStatement_behindEdges (r : Rendering) :
    ∀ l ∈ (spec.linesBehindEdges r).head?, IsStatement l := by
  refine head?_append_of (isStatement_head?_groups fun g hg => (h.groupName g hg).1)
    (head?_append_of (fun l hl => ?_) (h.isStatement_classes r.clickHook))
  rw [eq_of_mem_head?_legendLines l hl]
  exact isStatement_frameLine (by decide) _

/-- The edges end where a statement stands. -/
theorem Legible.stops_behindEdges (r : Rendering) : Stops isEdgeLine (spec.linesBehindEdges r) :=
  fun l hl => (h.isStatement_behindEdges r l hl).not_node_not_edge.2

/-- The nodes end where an edge stands or a statement. -/
theorem Legible.stops_behindNodes (r : Rendering) :
    Stops isNodeLine (spec.edges.map edgeLine ++ spec.linesBehindEdges r) := by
  refine head?_append_of (head?_of_forall fun l hl => ?_) fun l hl =>
    (h.isStatement_behindEdges r l hl).not_node_not_edge.1
  obtain ⟨e, he, rfl⟩ := List.mem_map.mp hl
  exact isNodeLine_edgeLine (h.edgeName e he).1

end Legible

/-- What stands behind the groups does not begin with the frame of a group. -/
theorem ne_frameLine_behindGroups (spec : GraphSpec) (r : Rendering) :
    ∀ l ∈ (spec.linesBehindGroups r).head?, ∀ g : Group, g.Legible →
      l ≠ frameLine g.id.toList g.label.toList := by
  -- The frame of the legend has a name that no group has.
  refine head?_append_of (fun l hl g hg hframe => ?_) fun l hl g _ =>
    ne_frameLine_of_mem_head? spec.nodes r.clickHook _ _ l hl
  rw [eq_of_mem_head?_legendLines l hl] at hframe
  exact hg.2.1 (frameLine_inj (by decide) hg.1 (by decide) hg.2.2 hframe).1.symm

end GraphSpec

/-! ### Reading a text back -/

theorem lines_eq_of_source_eq {a b : GraphSpec} {r : Rendering} (hhook : IsName r.clickHook.toList)
    (ha : a.Legible) (hb : b.Legible) (h : a.source r = b.source r) : a.lines r = b.lines r :=
  intercalate_newline_inj (List.cons_ne_nil _ _) (List.cons_ne_nil _ _)
    (ha.newline_notMem_lines hhook) (hb.newline_notMem_lines hhook) (String.ofList_injective h)

theorem flowLine_inj {d e : Direction} (h : flowLine d = flowLine e) : d = e :=
  Direction.keyword_inj (List.cons.inj (List.append_cancel_left h)).2

/-- **What is drawn is determined by the lines behind the second one**, section by section. -/
theorem sameDrawing_of_bodyLines {a b : GraphSpec} {r : Rendering} (ha : a.Legible)
    (hb : b.Legible) (h : a.bodyLines r = b.bodyLines r) :
    List.Forall₂ (SameNode r.wrapWidth) a.nodes b.nodes ∧ List.Forall₂ SameEdge a.edges b.edges
      ∧ List.Forall₂ SameGroup (a.groups.getD []) (b.groups.getD [])
      ∧ Option.Rel (List.Forall₂ SameEntry) a.legend b.legend := by
  rw [GraphSpec.bodyLines_eq, GraphSpec.bodyLines_eq] at h
  obtain ⟨hnodes, h⟩ := nodes_append_inj (fun n hn => ⟨ha.nodeName n hn, ha.nodeLabel n hn⟩)
    (fun n hn => ⟨hb.nodeName n hn, hb.nodeLabel n hn⟩)
    (ha.stops_behindNodes r) (hb.stops_behindNodes r) h
  obtain ⟨hedges, h⟩ := edges_append_inj (fun e he => ⟨(ha.edgeName e he).1, ha.edgeLabel e he⟩)
    (fun e he => ⟨(hb.edgeName e he).1, hb.edgeLabel e he⟩)
    (ha.stops_behindEdges r) (hb.stops_behindEdges r) h
  obtain ⟨hgroups, h⟩ := groups_append_inj ha.group hb.group
    (a.ne_frameLine_behindGroups r) (b.ne_frameLine_behindGroups r) h
  obtain ⟨hlegend, h⟩ := legend_append_inj ha.legendLabel hb.legendLabel
    (ne_frameLine_of_mem_head? _ _ _ _) (ne_frameLine_of_mem_head? _ _ _ _) h
  -- There are as many clicks as nodes, and so the classes are what stands before them.
  have hids : List.Forall₂ (fun m n => m.id = n.id) a.nodes b.nodes :=
    hnodes.imp fun _ _ h => h.1
  obtain ⟨hclasses, -⟩ := List.append_inj' h (by
    rw [List.length_map, List.length_map, hids.length_eq])
  have hclass := classes_inj ha.nodeName hb.nodeName hids hb.nodup hclasses
  refine ⟨?_, hedges, forall₂_sameGroup_iff.mpr hgroups, hlegend⟩
  exact List.Forall₂.mp (fun _ _ h hc => ⟨h.1, h.2.1, hc, h.2.2⟩) hnodes hclass

/-! ### Drawing the same -/

theorem legendLines_congr {k l : Option (List LegendEntry)}
    (h : Option.Rel (List.Forall₂ SameEntry) k l) : legendLines k = legendLines l := by
  cases h with
  | none => rfl
  | some h =>
    rw [legendLines, legendLines, legendEntryLines_congr (h.imp fun _ _ he => he.1),
      legendStyleLines_congr (h.imp fun _ _ he => he.2)]

/-- The lines behind the second one depend on nothing but what is drawn. -/
theorem bodyLines_of_sameDrawing {a b : GraphSpec} {r : Rendering}
    (h : SameDrawing r.wrapWidth a b) : a.bodyLines r = b.bodyLines r := by
  have hnodes : a.nodes.map (nodeLine r.wrapWidth) = b.nodes.map (nodeLine r.wrapWidth) :=
    map_eq_map_of_forall₂ h.nodes fun m n hmn => by
      rw [nodeLine_eq, nodeLine_eq, hmn.1, hmn.2.1, hmn.2.2.2]
  have hedges : a.edges.map edgeLine = b.edges.map edgeLine :=
    map_eq_map_of_forall₂ h.edges fun d e hde => by
      rw [edgeLine_eq, edgeLine_eq, hde.1, hde.2.1, hde.2.2.1, hde.2.2.2]
  have hgroups : a.groups.getD [] = b.groups.getD [] := forall₂_sameGroup_iff.mp h.groups
  have hclass : a.nodes.map classLine? = b.nodes.map classLine? :=
    map_eq_map_of_forall₂ h.nodes fun m n hmn => by
      rw [classLine?, classLine?, hmn.1, hmn.2.2.1]
  have hclasses : a.nodes.filterMap classLine? = b.nodes.filterMap classLine? := by
    rw [← Function.id_comp classLine?, ← List.filterMap_map, hclass, List.filterMap_map]
  have hclicks : a.nodes.map (clickLine r.clickHook) = b.nodes.map (clickLine r.clickHook) :=
    map_eq_map_of_forall₂ h.nodes fun m n hmn => by
      rw [clickLine, clickLine, hmn.1]
  rw [GraphSpec.bodyLines, GraphSpec.bodyLines, hnodes, hedges, hgroups, legendLines_congr h.legend,
    hclasses, hclicks]

/-- **Legible specifications have the same text exactly if they are drawn in the same way.** -/
theorem source_eq_source_iff {a b : GraphSpec} {r : Rendering} (hhook : IsName r.clickHook.toList)
    (ha : a.Legible) (hb : b.Legible) :
    a.source r = b.source r ↔ SameDrawing r.wrapWidth a b := by
  constructor
  · intro h
    have hlines := lines_eq_of_source_eq hhook ha hb h
    rw [ha.lines_eq, hb.lines_eq] at hlines
    obtain ⟨hheader, hlines⟩ := List.cons.inj hlines
    obtain ⟨hflow, hbody⟩ := List.cons.inj hlines
    obtain ⟨hnodes, hedges, hgroups, hlegend⟩ := sameDrawing_of_bodyLines ha hb hbody
    exact ⟨flowLine_inj hflow, theme_eq_of_headerLine hheader, hnodes, hedges, hgroups, hlegend⟩
  · intro h
    have hlines : a.lines r = b.lines r := by
      rw [ha.lines_eq, hb.lines_eq, h.direction, h.theme, bodyLines_of_sameDrawing h]
    rw [GraphSpec.source, GraphSpec.source, GraphSpec.sourceChars, GraphSpec.sourceChars, hlines]

/-- A small flow chart.  Neither the class of its edge nor the name of a colour that is not known is
drawn. -/
def smallChart (edgeClass : Option String) (groups : Option (List Group)) (color : String) :
    GraphSpec :=
  { nodes := [⟨"a", "say \"hi\"", .cylinder, some "hot", none⟩, { id := "b", label := "" }],
    edges := [{ source := "a", target := "b", label := some "|", styleClass := edgeClass }],
    groups := groups,
    legend := some [⟨color, "water"⟩] }

/-- Two flow charts that differ in the class of an edge, in the name of a colour that is not known,
and in whether they have a list of groups, have the same text. -/
theorem source_eq_of_hidden_differences :
    IsName "onNodeClick".toList ∧ (smallChart none none "teal").Legible
      ∧ (smallChart (some "cold") (some []) "blue").Legible
      ∧ (smallChart none none "teal").source {}
        = (smallChart (some "cold") (some []) "blue").source {} := by
  have hhook : IsName "onNodeClick".toList := by decide
  have ha : (smallChart none none "teal").Legible := by constructor <;> decide
  have hb : (smallChart (some "cold") (some []) "blue").Legible := by constructor <;> decide
  refine ⟨hhook, ha, hb, (source_eq_source_iff hhook ha hb).mpr ?_⟩
  refine ⟨rfl, rfl, ?_, ?_, .nil, .some ?_⟩
  · exact List.forall₂_same.mpr fun _ _ => ⟨rfl, rfl, rfl, rfl⟩
  · exact .cons ⟨rfl, rfl, rfl, rfl⟩ .nil
  · exact .cons ⟨rfl, by decide⟩ .nil

end FlowCanvas
