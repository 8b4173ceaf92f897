import FlowCanvas.Proofs.Diagram.Line
import FlowCanvas.Proofs.Json.Printer

/-!
# Lines are lines

The text of a diagram is its lines with line feeds between them, and it can be cut into these lines
again if none of them has a line feed in it.  The first line never has one, whatever the settings
are, since it is an object of strings.  The others have none if ids are names and labels are plain.

## Main results

* `newline_notMem_headerLine` — there is no line feed in the first line.
* `newline_notMem_nodeLine`, `newline_notMem_edgeLine`, `newline_notMem_groupLines`,
  `newline_notMem_legendLines` — nor in the lines of the sections that have labels in them.
* `notMem_memberLines`, `notMem_legendStyleLines`, `notMem_classLine`, `notMem_clickLine` — in the
  others there are neither line feeds nor double quotes.
* `intercalate_newline_inj` — **texts of lines are the same only if their lines are.**
* `intercalate_newline_cons` — in the text of lines there is a line feed before each but the first.
-/

namespace FlowCanvas

/-! ### The first two lines -/

theorem newline_notMem_headerLine (theme : Theme) (v : ThemeVariables) :
    '\n' ∉ headerLine theme v := by
  have hv : '\n' ∉ v.toJson.chars := by
    refine Json.newline_notMem_ofMembers ?_
    simp [Json.chars, Json.newline_notMem_quote]
  have hinit : '\n' ∉
      (Json.object [("theme", wordJson theme), ("themeVariables", v.toJson)]).chars := by
    refine Json.newline_notMem_object ?_
    simp [hv, wordJson, Json.chars, Json.newline_notMem_quote]
  rw [headerLine_eq]
  simp [hinit]

theorem newline_notMem_flowLine (d : Direction) : '\n' ∉ flowLine d := by
  cases d <;> decide

/-! ### Names, nodes and edges -/

theorem IsName.newline_notMem {cs : List Char} (h : IsName cs) : '\n' ∉ cs :=
  h.notMem (by decide)

theorem newline_notMem_indent : '\n' ∉ indent := by decide

theorem newline_notMem_nodeLine {n : Node} (hid : IsName n.id.toList)
    (hlabel : IsPlain n.label.toList) (w : Nat) : '\n' ∉ nodeLine w n := by
  have hopening : '\n' ∉ n.shape.opening.toList := by cases n.shape <;> decide
  have hclosing : '\n' ∉ n.shape.closing.toList := by cases n.shape <;> decide
  have hlabel := newline_notMem_labelChars (hlabel.wrap w).1
  rw [nodeLine_eq]
  simp [newline_notMem_indent, hid.newline_notMem, hopening, hclosing, hlabel]

theorem newline_notMem_edgeLine {e : Edge} (hsource : IsName e.source.toList)
    (htarget : IsName e.target.toList) (hlabel : ∀ l ∈ e.label, IsPlain l.toList) :
    '\n' ∉ edgeLine e := by
  have htoken : '\n' ∉ e.lineStyle.token.toList := by cases e.lineStyle <;> decide
  have hlabel : '\n' ∉ edgeLabel e.label := by
    cases h : e.label with
    | none => exact List.not_mem_nil
    | some l => simp [edgeLabel, newline_notMem_labelChars (hlabel l h).1]
  rw [edgeLine_eq]
  simp [newline_notMem_indent, hsource.newline_notMem, htarget.newline_notMem, htoken, hlabel]

/-! ### What has no label in it

Where there is no label, there is no double quote either. -/

section Marks

variable {c : Char} (hc : c = '\n' ∨ c = '"')
include hc

theorem notMem_memberLines {ids : List String} (h : ∀ id ∈ ids, c ∉ id.toList) :
    ∀ l ∈ ids.map fun id => indent ++ indent ++ id.toList, c ∉ l := by
  have hindent : c ∉ indent := by rcases hc with rfl | rfl <;> decide
  intro l hl
  obtain ⟨id, hid, rfl⟩ := List.mem_map.mp hl
  simp [hindent, h id hid]

theorem notMem_frameEnd : c ∉ frameEnd := by
  rcases hc with rfl | rfl <;> decide

theorem notMem_legendEntryId (i : Nat) : c ∉ legendEntryId i := by
  have hdigit : ¬ c.isDigit := by rcases hc with rfl | rfl <;> decide
  have hdigits : c ∉ Nat.toDigits 10 i := fun h =>
    hdigit (Nat.isDigit_of_mem_toDigits (by decide) (by decide) h)
  have hlegend : c ∉ legendId ∧ c ≠ '_' := by rcases hc with rfl | rfl <;> decide
  simp [legendEntryId, hdigits, hlegend]

theorem notMem_legendStyleLines (i : Nat) (ls : List LegendEntry) :
    ∀ k ∈ legendStyleLines i ls, c ∉ k := by
  induction ls generalizing i with
  | nil => exact fun _ hk => absurd hk List.not_mem_nil
  | cons l ls ih =>
    have hswatch : c ∉ (swatch l.swatch).fill.toList ∧ c ∉ (swatch l.swatch).stroke.toList :=
      forall_swatch (P := fun s => c ∉ s.fill.toList ∧ c ∉ s.stroke.toList)
        (by rcases hc with rfl | rfl <;> decide) _
    have hid : c ∉ legendEntryId i := notMem_legendEntryId hc i
    refine List.forall_mem_cons.mpr ⟨?_, ih (i + 1)⟩
    rcases hc with rfl | rfl <;> simp [indent, hid, hswatch]

theorem notMem_classLine {n : Node} (hid : c ∉ n.id.toList)
    (hclass : ∀ s ∈ n.styleClass, c ∉ s.toList) : ∀ l ∈ classLine? n, c ∉ l := by
  intro l hl
  obtain ⟨s, hs, rfl⟩ := Option.map_eq_some_iff.mp hl
  have hs : c ∉ s.toList := hclass s hs
  rcases hc with rfl | rfl <;> simp [indent, hid, hs]

theorem notMem_clickLine {hook : String} (hhook : c ∉ hook.toList) {n : Node}
    (hid : c ∉ n.id.toList) : c ∉ clickLine hook n := by
  rcases hc with rfl | rfl <;> simp [clickLine, indent, hid, hhook]

end Marks

/-! ### Groups and the legend -/

theorem newline_notMem_frameLine {id title : List Char} (hid : IsName id) (htitle : '\n' ∉ title) :
    '\n' ∉ frameLine id title := by
  rw [frameLine_eq]
  simp [newline_notMem_indent, hid.newline_notMem, newline_notMem_labelChars htitle]

theorem newline_notMem_groupLines {g : Group} (hid : IsName g.id.toList)
    (hlabel : IsPlain g.label.toList) (hmembers : ∀ id ∈ g.members, IsName id.toList) :
    ∀ l ∈ groupLines g, '\n' ∉ l := by
  intro l hl
  rcases List.mem_append.mp hl with hl | hl
  · rcases List.mem_cons.mp hl with rfl | hl
    · exact newline_notMem_frameLine hid hlabel.1
    · exact notMem_memberLines (.inl rfl) (fun id hid => (hmembers id hid).newline_notMem) l hl
  · rw [List.mem_singleton.mp hl]
    exact notMem_frameEnd (.inl rfl)

theorem newline_notMem_legendEntryLines (i : Nat) {ls : List LegendEntry}
    (h : ∀ l ∈ ls, IsPlain l.label.toList) : ∀ k ∈ legendEntryLines i ls, '\n' ∉ k := by
  induction ls generalizing i with
  | nil => exact fun _ hk => absurd hk List.not_mem_nil
  | cons l ls ih =>
    obtain ⟨hl, hls⟩ := List.forall_mem_cons.mp h
    have hid : '\n' ∉ legendEntryId i := notMem_legendEntryId (.inl rfl) i
    refine List.forall_mem_cons.mpr ⟨?_, ih (i + 1) hls⟩
    simp [newline_notMem_indent, hid, newline_notMem_labelChars hl.1]

theorem newline_notMem_legendLines {legend : Option (List LegendEntry)}
    (h : ∀ l ∈ legend.getD [], IsPlain l.label.toList) : ∀ k ∈ legendLines legend, '\n' ∉ k := by
  cases legend with
  | none => exact fun _ hk => absurd hk List.not_mem_nil
  | some ls =>
    intro k hk
    rcases List.mem_append.mp hk with hk | hk
    · rcases List.mem_cons.mp hk with rfl | hk
      · exact newline_notMem_frameLine (by decide) (by decide)
      · exact newline_notMem_legendEntryLines 0 h k hk
    · rcases List.mem_cons.mp hk with rfl | hk
      · exact notMem_frameEnd (.inl rfl)
      · exact notMem_legendStyleLines (.inl rfl) 0 ls k hk

/-! ### Texts of lines -/

/-- Texts of lines are the same only if their lines are. -/
theorem intercalate_newline_inj {ks ls : List (List Char)} (hks : ks ≠ []) (hls : ls ≠ [])
    (hks' : ∀ k ∈ ks, '\n' ∉ k) (hls' : ∀ l ∈ ls, '\n' ∉ l)
    (h : ['\n'].intercalate ks = ['\n'].intercalate ls) : ks = ls := by
  rw [← List.splitOn_intercalate '\n' hks' hks, h, List.splitOn_intercalate '\n' hls' hls]

/-- Each line but the first one has a line feed before it. -/
theorem intercalate_newline_cons (l : List Char) (ls : List (List Char)) :
    ['\n'].intercalate (l :: ls) = l ++ ls.flatMap ('\n' :: ·) := by
  induction ls generalizing l with
  | nil => rw [List.intercalate_singleton, List.flatMap_nil, List.append_nil]
  | cons k ls ih =>
    rw [List.intercalate_cons_of_ne_nil (List.cons_ne_nil k ls), ih, List.flatMap_cons,
      List.append_assoc, List.singleton_append, List.cons_append]

/-- The text of a flow chart that has nodes. -/
theorem GraphSpec.toList_source_of_flow {spec : GraphSpec} (hkind : spec.kind = .flow)
    (hnodes : spec.nodes ≠ []) (r : Rendering) :
    (spec.source r).toList = headerLine spec.theme r.themeVariables
      ++ '\n' :: (flowLine spec.direction ++ (spec.bodyLines r).flatMap ('\n' :: ·)) := by
  rw [source, String.toList_ofList, sourceChars, lines_of_flow r hkind hnodes,
    intercalate_newline_cons, List.flatMap_cons, List.cons_append]

end FlowCanvas
