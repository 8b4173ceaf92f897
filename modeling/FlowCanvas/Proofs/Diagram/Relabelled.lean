import FlowCanvas.Proofs.Diagram.Faithful

/-!
# Flow charts that differ in one label

The labels of edges, groups and the legend are written as they are, but for their double quotes, and
each of them on one line.  So two flow charts that differ in one of these labels have the same text
exactly if the two labels are written in the same way.  This may happen, as a label is also allowed
to have the text in it that stands for a double quote: what can be told from the text of a flow
chart is the label with double quotes in the place of such texts.

## Main definitions

* `DifferInLabel k l a b` — the flow charts are the same, but for a label that is `k` in the first
  one and `l` in the second one.

## Main results

* `DifferInLabel.exists_bodyLines` — they differ in one line, and this one depends on how the label
  is written.
* `DifferInLabel.source_eq_iff` — they have the same text exactly if the labels are written in the
  same way.
* `source_tells_label` — **labels without the text that stands for a double quote are told apart.**
* `not_forall_source_ne` — a double quote, and the text that stands for it.
-/

namespace FlowCanvas

/-! ### Flow charts that differ in one label -/

/-- The flow charts are the same, but for a label that is `k` in the first one and `l` in the second
one.  Only edges can be without a label. -/
inductive DifferInLabel : (k l : Option String) → GraphSpec → GraphSpec → Prop
  | edge (spec : GraphSpec) (before : List Edge) (e : Edge) (behind : List Edge)
      (k l : Option String) :
      DifferInLabel k l { spec with edges := before ++ { e with label := k } :: behind }
        { spec with edges := before ++ { e with label := l } :: behind }
  | group (spec : GraphSpec) (before : List Group) (g : Group) (behind : List Group)
      (k l : String) :
      DifferInLabel (some k) (some l)
        { spec with groups := some (before ++ { g with label := k } :: behind) }
        { spec with groups := some (before ++ { g with label := l } :: behind) }
  | legend (spec : GraphSpec) (before : List LegendEntry) (e : LegendEntry)
      (behind : List LegendEntry) (k l : String) :
      DifferInLabel (some k) (some l)
        { spec with legend := some (before ++ { e with label := k } :: behind) }
        { spec with legend := some (before ++ { e with label := l } :: behind) }

/-- A label as it is written, if there is one. -/
def writtenLabel (label : Option String) : Option (List Char) :=
  label.map fun s => escapeQuotes s.toList

/-! ### How labels are written -/

theorem labelChars_eq_iff {k l : List Char} :
    labelChars k = labelChars l ↔ escapeQuotes k = escapeQuotes l := by
  rw [labelChars, labelChars, List.cons_inj_right, List.append_cancel_right_eq]

theorem edgeLabel_eq_iff {k l : Option String} :
    edgeLabel k = edgeLabel l ↔ writtenLabel k = writtenLabel l := by
  cases k <;> cases l <;> simp [edgeLabel, writtenLabel, labelChars_eq_iff]

theorem edgeLine_eq_iff (e : Edge) (k l : Option String) :
    edgeLine { e with label := k } = edgeLine { e with label := l }
      ↔ writtenLabel k = writtenLabel l := by
  rw [edgeLine_eq, edgeLine_eq, ← edgeLabel_eq_iff]
  simp only [List.append_cancel_left_eq, List.cons.injEq, true_and, List.append_cancel_right_eq]

theorem frameLine_eq_iff (id k l : List Char) :
    frameLine id k = frameLine id l ↔ escapeQuotes k = escapeQuotes l := by
  rw [frameLine_eq, frameLine_eq, ← labelChars_eq_iff]
  simp only [List.append_cancel_left_eq, List.cons.injEq, true_and, List.append_cancel_right_eq]

/-! ### The line of a label -/

section Lines

variable (spec : GraphSpec) (r : Rendering)

/-- The label of an edge stands on the line of the edge. -/
theorem bodyLines_edge (before : List Edge) (e : Edge) (behind : List Edge)
    (label : Option String) :
    { spec with edges := before ++ { e with label := label } :: behind }.bodyLines r
      = (spec.nodes.map (nodeLine r.wrapWidth) ++ before.map edgeLine)
        ++ edgeLine { e with label := label }
          :: (behind.map edgeLine ++ spec.linesBehindEdges r) := by
  rw [GraphSpec.bodyLines_eq, List.map_append, List.map_cons]
  simp only [List.append_assoc, List.cons_append]
  rfl

/-- The label of a group stands on the first line of its frame. -/
theorem bodyLines_group (before : List Group) (g : Group) (behind : List Group) (label : String) :
    { spec with groups := some (before ++ { g with label := label } :: behind) }.bodyLines r
      = (spec.nodes.map (nodeLine r.wrapWidth) ++ spec.edges.map edgeLine
          ++ before.flatMap groupLines)
        ++ frameLine g.id.toList label.toList
          :: ((g.members.map fun id => indent ++ indent ++ id.toList)
            ++ frameEnd :: (behind.flatMap groupLines ++ spec.linesBehindGroups r)) := by
  rw [GraphSpec.bodyLines_eq, GraphSpec.linesBehindEdges, Option.getD_some, List.flatMap_append,
    List.flatMap_cons]
  simp only [List.append_assoc, List.cons_append, groupLines_append]
  rfl

theorem legendEntryLines_append (i : Nat) (ks ls : List LegendEntry) :
    legendEntryLines i (ks ++ ls)
      = legendEntryLines i ks ++ legendEntryLines (i + ks.length) ls := by
  induction ks generalizing i with
  | nil => rfl
  | cons k ks ih =>
    rw [List.cons_append, legendEntryLines_cons, legendEntryLines_cons, ih, List.length_cons,
      List.cons_append, Nat.add_assoc, Nat.add_comm 1]

/-- The label of an entry of the legend stands on the line of the entry, and not where its colours
are set. -/
theorem bodyLines_legend (before : List LegendEntry) (e : LegendEntry) (behind : List LegendEntry)
    (label : String) :
    { spec with legend := some (before ++ { e with label := label } :: behind) }.bodyLines r
      = (spec.nodes.map (nodeLine r.wrapWidth) ++ spec.edges.map edgeLine
          ++ (spec.groups.getD []).flatMap groupLines
          ++ frameLine legendId "Legend".toList :: legendEntryLines 0 before)
        ++ (indent ++ indent ++ legendEntryId before.length
            ++ '[' :: (labelChars label.toList ++ [']']))
          :: (legendEntryLines (before.length + 1) behind
            ++ frameEnd :: (legendStyleLines 0 (before ++ e :: behind)
              ++ (spec.nodes.filterMap classLine? ++ spec.nodes.map (clickLine r.clickHook)))) := by
  have hsame : ∀ ls : List LegendEntry,
      List.Forall₂ (fun k l => swatch k.swatch = swatch l.swatch) ls ls :=
    fun ls => List.forall₂_same.mpr fun _ _ => rfl
  have hcolors := List.rel_append (hsame before)
    (.cons (a := { e with label := label }) (b := e) rfl (hsame behind))
  rw [GraphSpec.bodyLines_eq, GraphSpec.linesBehindEdges, GraphSpec.linesBehindGroups,
    legendLines_append, legendStyleLines_congr hcolors, legendEntryLines_append,
    legendEntryLines_cons]
  simp only [List.append_assoc, List.cons_append, Nat.zero_add]

end Lines

/-- Flow charts that differ in one label differ in one line, and these lines are the same if the
labels are written in the same way. -/
theorem DifferInLabel.exists_bodyLines {k l : Option String} {a b : GraphSpec}
    (h : DifferInLabel k l a b) (r : Rendering) :
    ∃ before x y behind, a.bodyLines r = before ++ x :: behind
      ∧ b.bodyLines r = before ++ y :: behind ∧ (x = y ↔ writtenLabel k = writtenLabel l) := by
  cases h with
  | edge spec before e behind k l =>
    exact ⟨_, _, _, _, bodyLines_edge spec r before e behind k,
      bodyLines_edge spec r before e behind l, edgeLine_eq_iff e k l⟩
  | group spec before g behind k l =>
    refine ⟨_, _, _, _, bodyLines_group spec r before g behind k,
      bodyLines_group spec r before g behind l, ?_⟩
    rw [frameLine_eq_iff, writtenLabel, writtenLabel, Option.map_some, Option.map_some,
      Option.some_inj]
  | legend spec before e behind k l =>
    refine ⟨_, _, _, _, bodyLines_legend spec r before e behind k,
      bodyLines_legend spec r before e behind l, ?_⟩
    rw [writtenLabel, writtenLabel, Option.map_some, Option.map_some, Option.some_inj,
      ← labelChars_eq_iff, List.append_cancel_left_eq, List.cons_inj_right,
      List.append_cancel_right_eq]

/-! ### What the text tells of a label -/

/-- Flow charts that differ in one label have the same text exactly if the labels are written in the
same way. -/
theorem DifferInLabel.source_eq_iff {k l : Option String} {a b : GraphSpec}
    (h : DifferInLabel k l a b) (hkind : a.kind = .flow) (hnodes : a.nodes ≠ []) (r : Rendering) :
    a.source r = b.source r ↔ writtenLabel k = writtenLabel l := by
  have hsame : b.kind = .flow ∧ b.nodes ≠ [] ∧ b.theme = a.theme ∧ b.direction = a.direction := by
    cases h <;> exact ⟨hkind, hnodes, rfl, rfl⟩
  obtain ⟨hkind', hnodes', htheme, hdirection⟩ := hsame
  obtain ⟨before, x, y, behind, ha, hb, hline⟩ := h.exists_bodyLines r
  rw [← hline, ← String.toList_inj, GraphSpec.toList_source_of_flow hkind hnodes,
    GraphSpec.toList_source_of_flow hkind' hnodes', ha, hb, htheme, hdirection]
  simp

theorem writtenLabel_eq_iff {k l : Option String} :
    writtenLabel k = writtenLabel l
      ↔ k.map (fun s => readQuotes s.toList) = l.map (fun s => readQuotes s.toList) := by
  cases k <;> cases l <;> simp [writtenLabel, escapeQuotes_eq_iff]

theorem map_readQuotes_of_plain {label : Option String}
    (h : ∀ s ∈ label, ¬ quoteEntity <:+: s.toList) :
    label.map (fun s => readQuotes s.toList) = label.map String.toList :=
  Option.map_congr fun s hs => readQuotes_of_not_infix (h s hs)

/-- **What the text of a flow chart tells of a label.**  Let two flow charts be the same but for the
label of an edge, of a group or of an entry of the legend.  They have the same text exactly if the
two labels are the same with double quotes in the place of the texts that stand for them; so labels
without such texts are told apart.  Up to this a label can be read from what is written for it. -/
theorem source_tells_label :
    (∀ (k l : Option String) (a b : GraphSpec), DifferInLabel k l a b → a.kind = .flow →
      a.nodes ≠ [] → ∀ r : Rendering,
        (a.source r = b.source r
          ↔ k.map (fun s => readQuotes s.toList) = l.map fun s => readQuotes s.toList)
        ∧ ((∀ s ∈ k, ¬ quoteEntity <:+: s.toList) → (∀ s ∈ l, ¬ quoteEntity <:+: s.toList) →
          k ≠ l → a.source r ≠ b.source r))
      ∧ ∀ label, readQuotes (escapeQuotes label) = readQuotes label
        ∧ (¬ quoteEntity <:+: label → readQuotes (escapeQuotes label) = label) := by
  refine ⟨fun k l a b h hkind hnodes r => ?_, fun label => ⟨readQuotes_escapeQuotes label, ?_⟩⟩
  · have hiff := (h.source_eq_iff hkind hnodes r).trans writtenLabel_eq_iff
    refine ⟨hiff, fun hk hl hne hsource => hne ?_⟩
    rw [hiff, map_readQuotes_of_plain hk, map_readQuotes_of_plain hl] at hsource
    exact Option.map_injective (fun _ _ => String.toList_inj.mp) hsource
  · intro hplain
    rw [readQuotes_escapeQuotes, readQuotes_of_not_infix hplain]

/-- A flow chart of two nodes and an edge between them. -/
def oneEdge (label : Option String) : GraphSpec :=
  { nodes := [{ id := "a", label := "" }, { id := "b", label := "" }],
    edges := [{ source := "a", target := "b", label := label }] }

theorem differInLabel_oneEdge (k l : Option String) :
    DifferInLabel k l (oneEdge k) (oneEdge l) :=
  .edge (oneEdge none) [] { source := "a", target := "b" } [] k l

/-- Labels that differ in whether a double quote is written as such have the same text.  It can be
told whether there is an empty label or none. -/
theorem source_tells_label_of_oneEdge :
    (∀ k l, DifferInLabel k l (oneEdge k) (oneEdge l)
        ∧ (oneEdge k).kind = .flow ∧ (oneEdge k).nodes ≠ [])
      ∧ (oneEdge (some "say \"hi\"")).source {} = (oneEdge (some "say #quot;hi\"")).source {}
      ∧ (oneEdge none).source {} ≠ (oneEdge (some "")).source {} := by
  obtain ⟨hsource, -⟩ := source_tells_label
  refine ⟨fun k l => ⟨differInLabel_oneEdge k l, rfl, List.cons_ne_nil _ _⟩, ?_, ?_⟩
  · refine (hsource _ _ _ _ (differInLabel_oneEdge _ _) rfl (List.cons_ne_nil _ _) {}).1.mpr ?_
    decide
  · refine (hsource _ _ _ _ (differInLabel_oneEdge _ _) rfl (List.cons_ne_nil _ _) {}).2
      nofun (fun s hs => ?_) nofun
    rw [← Option.some.inj hs]
    decide

/-- Labels are not always told apart: a double quote and the text that stands for it are written in
the same way. -/
theorem not_forall_source_ne :
    ¬ ∀ (k l : String) (a b : GraphSpec) (r : Rendering), DifferInLabel (some k) (some l) a b →
      a.kind = .flow → a.nodes ≠ [] → '\n' ∉ k.toList → '\n' ∉ l.toList → k ≠ l →
      a.source r ≠ b.source r := by
  intro h
  have hdiffer := differInLabel_oneEdge (some "\"") (some "#quot;")
  refine h _ _ _ _ {} hdiffer rfl (List.cons_ne_nil _ _) (by decide) (by decide) (by decide) ?_
  exact (hdiffer.source_eq_iff rfl (List.cons_ne_nil _ _) {}).mpr (by decide)

end FlowCanvas
