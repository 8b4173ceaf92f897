import FlowCanvas.Proofs.Diagram.Faithful
import FlowCanvas.Proofs.Text.Setting

/-!
# Labels in their quotes

A label stands between double quotes, and it cannot end them, as the double quotes inside it are
replaced.  Behind the first line there are no other double quotes in the text of a flow chart,
unless they come from an id, a class or the action that a click starts.  So the double quotes come
in pairs there, one for each label, and the labels are what stands between the two of a pair.

A text is taken apart at its labels (`Quotes`), from the single line to the sections.  The labels of
nodes are wrapped first and escaped then: the breaks stand between lines each of which is escaped as
a whole, and so they cannot get into the text that stands for a double quote.

## Main definitions

* `Quotes cs labels` — what stands between the double quotes of a text are the labels.
* `QuotesInLines ls labels` — the same of lines, each with a line feed before it.
* `wrapLines` — the lines of each paragraph of a wrapped label.
* `GraphSpec.labels` — the labels of a flow chart in the order in which they are written.
* `GraphSpec.Unquoted` — a flow chart without double quotes but in its labels.

## Main results

* `Quotes.count_eq`, `Quotes.getElem?_splitOn` — such a text has two double quotes for each label,
  and the labels stand between them.
* `GraphSpec.Unquoted.quotesInLines_bodyLines` — the labels of a flow chart are those of its lines.
* `escapeQuotes_wrap` — the lines of a wrapped label are escaped one by one.
* `source_quotes_labels` — **the labels of a flow chart are what stands between its double quotes.**
-/

namespace FlowCanvas

/-! ### Texts with labels in them -/

/-- What stands between the double quotes of a text are the labels, and it has no other double
quotes. -/
inductive Quotes : List Char → List (List Char) → Prop
  | plain {cs : List Char} (h : '"' ∉ cs) : Quotes cs []
  | label {gap label cs : List Char} {labels : List (List Char)} (hgap : '"' ∉ gap)
      (h : Quotes cs labels) : Quotes (gap ++ (labelChars label ++ cs)) (label :: labels)

theorem count_quote_labelChars (label : List Char) : (labelChars label).count '"' = 2 := by
  have hlabel : (escapeQuotes label).count '"' = 0 :=
    List.count_eq_zero.mpr (quote_notMem_escapeQuotes label)
  rw [labelChars, List.count_cons_self, List.count_append, hlabel, List.count_singleton_self]

namespace Quotes

variable {a b cs : List Char} {ks labels : List (List Char)}

/-- There are two double quotes for each label. -/
theorem count_eq (h : Quotes cs labels) : cs.count '"' = 2 * labels.length := by
  induction h with
  | plain h => exact List.count_eq_zero.mpr h
  | label hgap _ ih =>
    rw [List.count_append, List.count_append, List.count_eq_zero.mpr hgap, count_quote_labelChars,
      ih, List.length_cons]
    omega

/-- Of the parts between double quotes every second one is an escaped label. -/
theorem getElem?_splitOn (h : Quotes cs labels) (i : Nat) :
    (cs.splitOn '"')[2 * i + 1]? = labels[i]?.map escapeQuotes := by
  induction h generalizing i with
  | plain h =>
    rw [List.splitOn_eq_singleton h]
    rfl
  | @label gap label cs labels hgap _ ih =>
    rw [labelChars_append, List.splitOn_append_cons_self_of_not_mem hgap,
      List.splitOn_append_cons_self_of_not_mem (quote_notMem_escapeQuotes label)]
    cases i with
    | zero => rfl
    | succ i => exact ih i

theorem plain_append (ha : '"' ∉ a) (h : Quotes cs labels) : Quotes (a ++ cs) labels := by
  cases h with
  | plain h => exact .plain (by simp [ha, h])
  | label hgap h =>
    rw [← List.append_assoc]
    exact .label (by simp [ha, hgap]) h

/-- The labels of two texts, one after the other. -/
theorem append (ha : Quotes a ks) (hb : Quotes b labels) : Quotes (a ++ b) (ks ++ labels) := by
  induction ha with
  | plain h => exact hb.plain_append h
  | label hgap _ ih =>
    rw [List.append_assoc, List.append_assoc]
    exact .label hgap ih

end Quotes

/-- What stands between the double quotes of lines, each with a line feed before it, are the
labels. -/
def QuotesInLines (ls : List (List Char)) (labels : List (List Char)) : Prop :=
  Quotes (ls.flatMap ('\n' :: ·)) labels

namespace QuotesInLines

variable {α : Type} {as : List α} {ks ls : List (List Char)} {labels labels' : List (List Char)}

theorem append (hks : QuotesInLines ks labels) (hls : QuotesInLines ls labels') :
    QuotesInLines (ks ++ ls) (labels ++ labels') := by
  rw [QuotesInLines, List.flatMap_append]
  exact Quotes.append hks hls

theorem cons {l : List Char} (hl : Quotes l labels) (hls : QuotesInLines ls labels') :
    QuotesInLines (l :: ls) (labels ++ labels') := by
  rw [QuotesInLines, List.flatMap_cons]
  exact (hl.plain_append (a := ['\n']) (by decide)).append hls

/-- Lines without double quotes have no labels. -/
theorem plain (h : ∀ l ∈ ls, '"' ∉ l) : QuotesInLines ls [] := by
  refine Quotes.plain fun hmem => ?_
  obtain ⟨l, hl, hmem⟩ := List.mem_flatMap.mp hmem
  rcases List.mem_cons.mp hmem with hfeed | hmem
  · exact absurd hfeed (by decide)
  · exact h l hl hmem

theorem nil : QuotesInLines [] [] := plain (List.forall_mem_nil _)

theorem flatMap {f : α → List (List Char)} {g : α → List (List Char)}
    (h : ∀ a ∈ as, QuotesInLines (f a) (g a)) : QuotesInLines (as.flatMap f) (as.flatMap g) := by
  induction as with
  | nil => exact nil
  | cons a as ih =>
    obtain ⟨ha, has⟩ := List.forall_mem_cons.mp h
    rw [List.flatMap_cons, List.flatMap_cons]
    exact ha.append (ih has)

theorem map {f : α → List Char} {g : α → List (List Char)} (h : ∀ a ∈ as, Quotes (f a) (g a)) :
    QuotesInLines (as.map f) (as.flatMap g) := by
  rw [List.map_eq_flatMap]
  refine flatMap fun a ha => ?_
  rw [← List.append_nil (g a)]
  exact cons (h a ha) nil

end QuotesInLines

/-! ### The lines of a flow chart -/

theorem quote_notMem_indent : '"' ∉ indent := by decide

theorem quotes_nodeLine {n : Node} (hid : '"' ∉ n.id.toList) (w : Nat) :
    Quotes (nodeLine w n) [wrap w n.label.toList] := by
  have hopening : '"' ∉ n.shape.opening.toList := n.shape.opening_chars.2.2
  have hclosing : '"' ∉ n.shape.closing.toList := by cases n.shape <;> decide
  rw [nodeLine, List.append_assoc]
  exact .label (by simp [quote_notMem_indent, hid, hopening]) (.plain hclosing)

theorem quotes_edgeLine {e : Edge} (hsource : '"' ∉ e.source.toList)
    (htarget : '"' ∉ e.target.toList) :
    Quotes (edgeLine e) (e.label.map String.toList).toList := by
  have htoken : '"' ∉ e.lineStyle.token.toList := by cases e.lineStyle <;> decide
  have hbegin : '"' ∉ indent ++ e.source.toList ++ ' ' :: e.lineStyle.token.toList := by
    simp [quote_notMem_indent, hsource, htoken]
  rw [edgeLine, List.append_assoc]
  refine Quotes.plain_append hbegin ?_
  cases e.label with
  | none => exact .plain (by simp [edgeLabel, htarget])
  | some label =>
    have hlabel : Quotes (['|'] ++ (labelChars label.toList ++ ('|' :: ' ' :: e.target.toList)))
        [label.toList] :=
      .label (by decide) (.plain (by simp [htarget]))
    rw [edgeLabel, List.cons_append, List.append_assoc]
    exact hlabel

theorem quotes_frameLine {id : List Char} (hid : '"' ∉ id) (title : List Char) :
    Quotes (frameLine id title) [title] := by
  have hframe : Quotes ((indent ++ "subgraph ".toList ++ id ++ ['['])
      ++ (labelChars title ++ [']'])) [title] :=
    .label (by simp [quote_notMem_indent, hid]) (.plain (by decide))
  rwa [List.append_assoc] at hframe

theorem quotesInLines_groupLines {g : Group} (hid : '"' ∉ g.id.toList)
    (hmembers : ∀ id ∈ g.members, '"' ∉ id.toList) :
    QuotesInLines (groupLines g) [g.label.toList] := by
  have hinside : ∀ l ∈ (g.members.map fun id => indent ++ indent ++ id.toList) ++ [frameEnd],
      '"' ∉ l := by
    refine List.forall_mem_append.mpr ⟨notMem_memberLines (.inr rfl) hmembers, fun l hl => ?_⟩
    rw [List.mem_singleton.mp hl]
    exact notMem_frameEnd (.inr rfl)
  exact QuotesInLines.cons (quotes_frameLine hid _) (QuotesInLines.plain hinside)

theorem quotesInLines_legendEntryLines (i : Nat) (ls : List LegendEntry) :
    QuotesInLines (legendEntryLines i ls) (ls.map fun l => l.label.toList) := by
  induction ls generalizing i with
  | nil => exact .nil
  | cons l ls ih =>
    have hid : '"' ∉ legendEntryId i := notMem_legendEntryId (.inr rfl) i
    have hentry : Quotes ((indent ++ indent ++ legendEntryId i ++ ['['])
        ++ (labelChars l.label.toList ++ [']'])) [l.label.toList] :=
      .label (by simp [quote_notMem_indent, hid]) (.plain (by decide))
    rw [List.append_assoc] at hentry
    exact QuotesInLines.cons hentry (ih (i + 1))

/-- The labels of a legend: its title and those of its entries. -/
def legendLabels : Option (List LegendEntry) → List (List Char)
  | none => []
  | some entries => "Legend".toList :: entries.map fun l => l.label.toList

theorem quotesInLines_legendLines (legend : Option (List LegendEntry)) :
    QuotesInLines (legendLines legend) (legendLabels legend) := by
  cases legend with
  | none => exact .nil
  | some entries =>
    have hcolors : ∀ l ∈ frameEnd :: legendStyleLines 0 entries, '"' ∉ l :=
      List.forall_mem_cons.mpr ⟨notMem_frameEnd (.inr rfl), notMem_legendStyleLines (.inr rfl) 0 _⟩
    have hframe : Quotes (frameLine legendId "Legend".toList) ["Legend".toList] :=
      quotes_frameLine (by decide) _
    have hentries := (QuotesInLines.cons hframe (quotesInLines_legendEntryLines 0 entries)).append
      (QuotesInLines.plain hcolors)
    rwa [List.append_nil] at hentries

/-! ### The labels of a flow chart -/

namespace GraphSpec

variable (spec : GraphSpec)

/-- The labels of a flow chart in the order in which they are written, those of nodes set in lines
of the given width. -/
def labels (w : Nat) : List (List Char) :=
  spec.nodes.map (fun n => wrap w n.label.toList)
    ++ spec.edges.filterMap (fun e => e.label.map String.toList)
    ++ (spec.groups.getD []).map (fun g => g.label.toList) ++ legendLabels spec.legend

theorem length_labels (w : Nat) :
    (spec.labels w).length = spec.nodes.length + spec.edges.countP (·.label.isSome)
      + (spec.groups.getD []).length + spec.legend.elim 0 (1 + ·.length) := by
  have hlegend : (legendLabels spec.legend).length = spec.legend.elim 0 (1 + ·.length) := by
    cases spec.legend with
    | none => rfl
    | some entries => simp [legendLabels, Nat.add_comm]
  simp [labels, hlegend, List.length_filterMap_eq_countP, Nat.add_assoc]

/-- A flow chart whose ids and classes have no double quotes in them, and whose clicks start an
action without any.  Nothing is asked of labels. -/
structure Unquoted (r : Rendering) : Prop where
  nodeId : ∀ n ∈ spec.nodes, '"' ∉ n.id.toList
  className : ∀ n ∈ spec.nodes, ∀ c ∈ n.styleClass, '"' ∉ c.toList
  edgeEnds : ∀ e ∈ spec.edges, '"' ∉ e.source.toList ∧ '"' ∉ e.target.toList
  groupId : ∀ g ∈ spec.groups.getD [], '"' ∉ g.id.toList
  member : ∀ g ∈ spec.groups.getD [], ∀ id ∈ g.members, '"' ∉ id.toList
  clickHook : '"' ∉ r.clickHook.toList

variable {spec} {r : Rendering} (h : spec.Unquoted r)
include h

theorem Unquoted.nodes : QuotesInLines (spec.nodes.map (nodeLine r.wrapWidth))
    (spec.nodes.map fun n => wrap r.wrapWidth n.label.toList) := by
  rw [List.map_eq_flatMap (f := fun n : Node => wrap r.wrapWidth n.label.toList)]
  exact QuotesInLines.map fun n hn => quotes_nodeLine (h.nodeId n hn) _

theorem Unquoted.edges : QuotesInLines (spec.edges.map edgeLine)
    (spec.edges.filterMap fun e => e.label.map String.toList) := by
  rw [List.filterMap_eq_flatMap_toList]
  exact QuotesInLines.map fun e he => quotes_edgeLine (h.edgeEnds e he).1 (h.edgeEnds e he).2

theorem Unquoted.groups : QuotesInLines ((spec.groups.getD []).flatMap groupLines)
    ((spec.groups.getD []).map fun g => g.label.toList) := by
  rw [List.map_eq_flatMap]
  exact QuotesInLines.flatMap fun g hg => quotesInLines_groupLines (h.groupId g hg) (h.member g hg)

theorem Unquoted.classes : QuotesInLines (spec.nodes.filterMap classLine?) [] := by
  refine QuotesInLines.plain fun l hl => ?_
  obtain ⟨n, hn, hl⟩ := List.mem_filterMap.mp hl
  exact notMem_classLine (.inr rfl) (h.nodeId n hn) (h.className n hn) l hl

theorem Unquoted.clicks : QuotesInLines (spec.nodes.map (clickLine r.clickHook)) [] := by
  refine QuotesInLines.plain fun l hl => ?_
  obtain ⟨n, hn, rfl⟩ := List.mem_map.mp hl
  exact notMem_clickLine (.inr rfl) h.clickHook (h.nodeId n hn)

/-- **The labels of a flow chart are those of its lines**, section by section. -/
theorem Unquoted.quotesInLines_bodyLines :
    QuotesInLines (spec.bodyLines r) (spec.labels r.wrapWidth) := by
  have hbody := ((((h.nodes.append h.edges).append h.groups).append
    (quotesInLines_legendLines spec.legend)).append h.classes).append h.clicks
  rwa [List.append_nil, List.append_nil] at hbody

end GraphSpec

/-! ### Wrapped labels -/

/-- The lines of each paragraph of a wrapped label.  A label that fits is not taken apart. -/
def wrapLines (max : Nat) (text : List Char) : List (List (List Char)) :=
  if columns text ≤ max then [[text]] else (text.splitOn '\n').map (wrapParagraph max)

theorem wrap_eq_intercalate (max : Nat) (text : List Char) :
    wrap max text = ['\n'].intercalate ((wrapLines max text).map lineBreak.intercalate) := by
  unfold wrap wrapLines
  split
  · rw [List.map_singleton, List.intercalate_singleton, List.intercalate_singleton]
  · rw [List.map_map]
    rfl

/-- The lines of a wrapped label have the ink of the label. -/
theorem ink_wrapLines (max : Nat) (text : List Char) :
    ink (wrapLines max text).flatten.flatten = ink text := by
  unfold wrapLines
  split
  · rw [List.flatten_singleton, List.flatten_singleton]
  · exact ink_flatten_setLines max text

/-- Texts of the same ink have the same number of each character that is ink. -/
theorem count_eq_of_ink {a b : List Char} (h : ink a = ink b) {c : Char}
    (hc : isBlank c = false) : a.count c = b.count c := by
  have hcount : ∀ cs, (ink cs).count c = cs.count c := fun cs =>
    List.count_filter (by rw [hc, Bool.not_false])
  rw [← hcount, h, hcount]

theorem escapeQuotes_intercalate (sep : List Char) (ls : List (List Char)) :
    escapeQuotes (sep.intercalate ls) = (escapeQuotes sep).intercalate (ls.map escapeQuotes) := by
  induction ls with
  | nil => rfl
  | cons l ls ih =>
    cases ls with
    | nil => rw [List.intercalate_singleton, List.map_singleton, List.intercalate_singleton]
    | cons k ls =>
      rw [List.intercalate_cons_cons, escapeQuotes_append, escapeQuotes_append, ih]
      simp only [List.map_cons, List.intercalate_cons_cons]

/-- **The lines of a wrapped label are escaped one by one**, and what parts them is left as it
is. -/
theorem escapeQuotes_wrap (max : Nat) (text : List Char) :
    escapeQuotes (wrap max text) = ['\n'].intercalate
      ((wrapLines max text).map fun ls => lineBreak.intercalate (ls.map escapeQuotes)) := by
  have hfeed : escapeQuotes ['\n'] = ['\n'] := by decide
  have hbreak : escapeQuotes lineBreak = lineBreak := by decide
  rw [wrap_eq_intercalate, escapeQuotes_intercalate, hfeed, List.map_map]
  simp only [Function.comp_def, escapeQuotes_intercalate, hbreak]

/-! ### The text of a flow chart -/

/-- **The labels of a flow chart are what stands between its double quotes.**  Behind the first line
there are two double quotes for each node, for each edge that has a label, for each group, and for
the legend and each of its entries.  Between those of a pair stands one label with its double quotes
replaced, in the order of the lines.  A label of a node is wrapped before, and each of its lines is
escaped as a whole, with all double quotes of the label in them. -/
theorem source_quotes_labels {spec : GraphSpec} {r : Rendering} (hkind : spec.kind = .flow)
    (hnodes : spec.nodes ≠ []) (h : spec.Unquoted r) :
    ∃ header body, (spec.source r).toList = header ++ '\n' :: body ∧ '\n' ∉ header
      ∧ body.count '"' = 2 * (spec.nodes.length + spec.edges.countP (·.label.isSome)
          + (spec.groups.getD []).length + spec.legend.elim 0 (1 + ·.length))
      ∧ (∀ i, (body.splitOn '"')[2 * i + 1]? = (spec.labels r.wrapWidth)[i]?.map escapeQuotes)
      ∧ ∀ n ∈ spec.nodes,
          escapeQuotes (wrap r.wrapWidth n.label.toList) = ['\n'].intercalate
            ((wrapLines r.wrapWidth n.label.toList).map fun ls =>
              lineBreak.intercalate (ls.map escapeQuotes))
          ∧ (wrapLines r.wrapWidth n.label.toList).flatten.flatten.count '"'
            = n.label.toList.count '"' := by
  have hflow : '"' ∉ flowLine spec.direction := by cases spec.direction <;> decide
  have hbody : Quotes (flowLine spec.direction ++ (spec.bodyLines r).flatMap ('\n' :: ·))
      (spec.labels r.wrapWidth) :=
    Quotes.plain_append hflow h.quotesInLines_bodyLines
  refine ⟨_, _, GraphSpec.toList_source_of_flow hkind hnodes r, newline_notMem_headerLine _ _, ?_,
    hbody.getElem?_splitOn, fun n _ => ⟨escapeQuotes_wrap _ _, ?_⟩⟩
  · rw [hbody.count_eq, spec.length_labels]
  · exact count_eq_of_ink (ink_wrapLines _ _) (by decide)

/-- A flow chart with double quotes in all kinds of labels. -/
def quotedChart : GraphSpec :=
  { nodes := [{ id := "a", label := "say \"hello\"" }, { id := "b", label := "\"]" }],
    edges := [{ source := "a", target := "b" }, { source := "b", target := "a", label := "\"|\n" }],
    groups := some [{ id := "g", label := "#quot;\"", members := ["a"] }],
    legend := some [{ swatch := "blue", label := "" }] }

/-- In lines of four columns a label is cut next to its double quotes, and each of them is written
as a whole. -/
theorem source_quotes_labels_of_quotedChart :
    quotedChart.kind = .flow ∧ quotedChart.nodes ≠ [] ∧ quotedChart.Unquoted { wrapWidth := 4 }
      ∧ ∃ header body, (quotedChart.source { wrapWidth := 4 }).toList = header ++ '\n' :: body
        ∧ '\n' ∉ header ∧ body.count '"' = 12
        ∧ ∀ i, (body.splitOn '"')[2 * i + 1]?
          = (["say<br/>#quot;hel<br/>lo#quot;", "#quot;]", "#quot;|\n", "#quot;#quot;", "Legend",
              ""].map String.toList)[i]? := by
  have hunquoted : quotedChart.Unquoted { wrapWidth := 4 } := by constructor <;> decide
  obtain ⟨header, body, hsource, hheader, hcount, hlabels, -⟩ :=
    source_quotes_labels rfl (List.cons_ne_nil _ _) hunquoted
  have hwritten : (quotedChart.labels 4).map escapeQuotes
      = ["say<br/>#quot;hel<br/>lo#quot;", "#quot;]", "#quot;|\n", "#quot;#quot;", "Legend",
          ""].map String.toList := by decide +kernel
  refine ⟨rfl, List.cons_ne_nil _ _, hunquoted, header, body, hsource, hheader, hcount, fun i => ?_⟩
  rw [hlabels, ← hwritten, List.getElem?_map]

end FlowCanvas
