import FlowCanvas.Proofs.Diagram.OneLine
import FlowCanvas.Proofs.Json.RoundTrip

/-!
# The head of a diagram

The first line of a diagram is an object of strings between two brackets, and the strings are
whatever has been chosen for fonts and colours.  All of them are written between quotes with their
quotes, backslashes and line feeds escaped, so that none of them ends the line, the object or a
string before its time: the line can be cut off, and its object read back.

Only this line depends on the fonts and colours.  The lines behind it may have line feeds in them,
which come from ids and labels, but the second line has none, so that it is the next piece of the
text.

## Main definitions

* `headerObject` — the object of the first line.
* `GraphSpec.declaration` — the second line.

## Main results

* `ThemeVariables.toJson_eq` — the fonts and colours as an object, in the order of their names.
* `read_headerObject` — the object of the first line is read back.
* `splitOn_intercalate_cons` — the first of several lines is the first piece of their text.
* `exists_splitOn_source` — **the first line denotes what has been chosen, the second one is that of
  the kind of diagram, and the others do not depend on the fonts and colours.**
-/

namespace FlowCanvas

/-! ### The object of the first line -/

/-- The fonts and colours as an object, in the order of their names. -/
theorem ThemeVariables.toJson_eq (v : ThemeVariables) :
    v.toJson = .object [
      ("fontFamily", .str v.fontFamily),
      ("fontSize", .str v.fontSize),
      ("lineColor", .str v.lineColor),
      ("primaryBorderColor", .str v.primaryBorderColor),
      ("primaryColor", .str v.primaryColor),
      ("primaryTextColor", .str v.primaryTextColor),
      ("secondaryColor", .str v.secondaryColor),
      ("tertiaryColor", .str v.tertiaryColor)] := by
  -- each member is put in its place, by comparing names
  simp (disch := decide) only [ThemeVariables.toJson, Json.ofMembers, List.foldl_cons,
    List.foldl_nil, Json.Members.put, if_pos, if_neg]

/-- Strings in the order of their names can be read. -/
theorem ThemeVariables.kept_toJson (v : ThemeVariables) (depth : Nat) :
    Json.Kept (depth + 1) v.toJson := by
  rw [toJson_eq]
  refine Json.Kept.object ?_ ?_
  · rw [Json.inOrder_iff_names]
    simp only [List.map_cons, List.map_nil]
    decide
  · simp [Json.Kept.str]

theorem ThemeVariables.exact_toJson (v : ThemeVariables) : Json.Exact v.toJson := by
  rw [toJson_eq]
  refine Json.Exact.object ?_
  simp [Json.Exact.str]

/-- The object of the first line. -/
def headerObject (theme : Theme) (v : ThemeVariables) : Json :=
  .object [("theme", wordJson theme), ("themeVariables", v.toJson)]

/-- The object of the first line is read back, whatever strings there are in it. -/
theorem read_headerObject (theme : Theme) (v : ThemeVariables) :
    Json.read (headerObject theme v).chars = .ok (headerObject theme v) := by
  refine Json.read_chars_of_kept ?_ ?_
  · refine Json.Kept.object ?_ ?_
    · rw [Json.inOrder_iff_names]
      simp only [List.map_cons, List.map_nil]
      decide
    · simp [wordJson, Json.Kept.str, v.kept_toJson]
  · refine Json.Exact.object ?_
    simp [wordJson, Json.Exact.str, v.exact_toJson]

/-! ### The first lines of a text -/

/-- The first of several lines is the first piece of their text. -/
theorem splitOn_intercalate_cons {l : List Char} (hl : '\n' ∉ l) {ls : List (List Char)}
    (hls : ls ≠ []) :
    (['\n'].intercalate (l :: ls)).splitOn '\n'
      = l :: (['\n'].intercalate ls).splitOn '\n' := by
  rw [List.intercalate_cons_of_ne_nil hls, List.append_assoc, List.singleton_append,
    List.splitOn_append_cons_self_of_not_mem hl]

/-- The first line is the first piece, whether others follow or not. -/
theorem exists_splitOn_intercalate_cons {l : List Char} (hl : '\n' ∉ l)
    (ls : List (List Char)) :
    ∃ more, (['\n'].intercalate (l :: ls)).splitOn '\n' = l :: more := by
  cases ls with
  | nil => exact ⟨[], by rw [List.intercalate_singleton, List.splitOn_eq_singleton hl]⟩
  | cons k ls => exact ⟨_, splitOn_intercalate_cons hl (List.cons_ne_nil k ls)⟩

namespace GraphSpec

variable (spec : GraphSpec)

/-- The second line of a diagram.  It is the one of a flow chart, unless there is something to show
in another kind of diagram. -/
def declaration : List Char :=
  if spec.nodes.isEmpty ∨ spec.kind = .flow then flowLine spec.direction
  else spec.kind.keyword.toList

theorem newline_notMem_declaration : '\n' ∉ spec.declaration := by
  unfold declaration
  split_ifs
  · exact newline_notMem_flowLine _
  · cases spec.kind <;> decide

/-- The second line of a flow chart, and of a diagram without nodes, by its direction. -/
theorem declaration_of_flow (h : spec.nodes = [] ∨ spec.kind = .flow) :
    (spec.direction, String.ofList spec.declaration) ∈ [
      (.topToBottom, "flowchart TB"), (.bottomToTop, "flowchart BT"),
      (.rightToLeft, "flowchart RL"), (.leftToRight, "flowchart LR")] := by
  rw [declaration, if_pos (h.imp_left List.isEmpty_iff.mpr)]
  cases spec.direction <;> decide

/-- The second line of another diagram, by its kind. -/
theorem declaration_of_ne_flow (h : ¬ (spec.nodes = [] ∨ spec.kind = .flow)) :
    (spec.kind, String.ofList spec.declaration) ∈ [
      (.sequence, "sequenceDiagram"), (.classes, "classDiagram"), (.state, "stateDiagram-v2")] := by
  rw [declaration, if_neg fun hflow => h (hflow.imp_left List.isEmpty_iff.mp)]
  cases hkind : spec.kind with
  | flow => exact absurd (Or.inr hkind) h
  | sequence => decide
  | classes => decide
  | state => decide

/-- All diagrams go on with that line, and nothing behind it depends on the fonts and colours. -/
theorem exists_diagramLines_eq (r : Rendering) : ∃ rest, ∀ v : ThemeVariables,
    spec.diagramLines { r with themeVariables := v } = spec.declaration :: rest := by
  unfold diagramLines declaration
  by_cases hnodes : spec.nodes.isEmpty = true
  · exact ⟨_, fun v => by rw [if_pos hnodes, if_pos (Or.inl hnodes)]⟩
  · by_cases hkind : spec.kind = .flow
    · refine ⟨spec.bodyLines r, fun v => ?_⟩
      rw [if_neg hnodes, if_pos hkind, if_pos (Or.inr hkind)]
      rfl
    · refine ⟨[], fun v => ?_⟩
      rw [if_neg hnodes, if_neg hkind, if_neg (not_or.mpr ⟨hnodes, hkind⟩)]

end GraphSpec

/-- The themes by name. -/
theorem word_mem_names (theme : Theme) :
    (theme, Json.Vocabulary.word theme) ∈ [
      (Theme.standard, "default"), (.dark, "dark"), (.neutral, "neutral"), (.forest, "forest"),
      (.base, "base")] := by
  cases theme <;> decide

/-- **The head of a diagram, whatever the settings.**  The first line is an object between two
brackets that is read back as the name of the theme and exactly the strings that have been chosen,
each under its own name.  The second line is that of a flow chart in its direction if the diagram is
one or has no nodes, and the word for its kind otherwise.  All others are the same for all fonts and
colours. -/
theorem exists_splitOn_source (spec : GraphSpec) (r : Rendering) :
    ∃ (theme declaration : String) (more : List (List Char)),
      (spec.theme, theme) ∈ [
        (.standard, "default"), (.dark, "dark"), (.neutral, "neutral"), (.forest, "forest"),
        (.base, "base")]
      ∧ (spec.nodes = [] ∨ spec.kind = .flow → (spec.direction, declaration) ∈ [
        (.topToBottom, "flowchart TB"), (.bottomToTop, "flowchart BT"),
        (.rightToLeft, "flowchart RL"), (.leftToRight, "flowchart LR")])
      ∧ (¬ (spec.nodes = [] ∨ spec.kind = .flow) → (spec.kind, declaration) ∈ [
        (.sequence, "sequenceDiagram"), (.classes, "classDiagram"), (.state, "stateDiagram-v2")])
      ∧ ∀ v : ThemeVariables, ∃ init,
        (spec.source { r with themeVariables := v }).toList.splitOn '\n'
            = ("%%\x7binit: ".toList ++ init ++ "\x7d%%".toList) :: declaration.toList :: more
          ∧ Json.read init = .ok (.object [
            ("theme", .str theme),
            ("themeVariables", .object [
              ("fontFamily", .str v.fontFamily),
              ("fontSize", .str v.fontSize),
              ("lineColor", .str v.lineColor),
              ("primaryBorderColor", .str v.primaryBorderColor),
              ("primaryColor", .str v.primaryColor),
              ("primaryTextColor", .str v.primaryTextColor),
              ("secondaryColor", .str v.secondaryColor),
              ("tertiaryColor", .str v.tertiaryColor)])]) := by
  obtain ⟨rest, hrest⟩ := spec.exists_diagramLines_eq r
  obtain ⟨more, hmore⟩ := exists_splitOn_intercalate_cons spec.newline_notMem_declaration rest
  refine ⟨_, _, more, word_mem_names spec.theme, spec.declaration_of_flow,
    spec.declaration_of_ne_flow, fun v => ⟨(headerObject spec.theme v).chars, ?_, ?_⟩⟩
  · have hheader : '\n' ∉ headerLine spec.theme v := newline_notMem_headerLine _ _
    have hdeclaration : (String.ofList spec.declaration).toList = spec.declaration :=
      String.toList_ofList
    rw [GraphSpec.source, String.toList_ofList, GraphSpec.sourceChars, GraphSpec.lines, hrest,
      splitOn_intercalate_cons hheader (List.cons_ne_nil _ _), hmore, headerLine_eq, hdeclaration]
    rfl
  · rw [read_headerObject, headerObject, v.toJson_eq]
    rfl

/-- A state chart in dark colours. -/
def stateChart : GraphSpec where
  kind := .state
  direction := .leftToRight
  nodes := [{ id := "a", label := "A" }]
  theme := .dark

/-- Fonts that look like the end of the first line with another line behind it, and like another
theme. -/
def misleadingFonts : ThemeVariables where
  fontSize := "1\"\x7d\x7d\x7d%%\nflowchart TB"
  fontFamily := "\\\",\"theme\":\"base"

/-- The fonts are read back from the first line, and the second line is that of a state chart. -/
theorem splitOn_source_of_stateChart :
    ∃ init, (stateChart.source { themeVariables := misleadingFonts }).toList.splitOn '\n'
        = [("%%\x7binit: ".toList ++ init ++ "\x7d%%".toList), "stateDiagram-v2".toList]
      ∧ Json.read init = .ok (.object [
        ("theme", .str "dark"),
        ("themeVariables", .object [
          ("fontFamily", .str "\\\",\"theme\":\"base"),
          ("fontSize", .str "1\"\x7d\x7d\x7d%%\nflowchart TB"),
          ("lineColor", .str "#64748b"),
          ("primaryBorderColor", .str "#1d4ed8"),
          ("primaryColor", .str "#3b82f6"),
          ("primaryTextColor", .str "#ffffff"),
          ("secondaryColor", .str "#8b5cf6"),
          ("tertiaryColor", .str "#f1f5f9")])]) := by
  obtain ⟨theme, declaration, more, htheme, -, hkind, hhead⟩ :=
    exists_splitOn_source stateChart {}
  obtain ⟨init, hsplit, hread⟩ := hhead misleadingFonts
  have htheme : theme = "dark" := by
    simpa [stateChart] using htheme
  have hdeclaration : declaration = "stateDiagram-v2" := by
    simpa [stateChart] using hkind (by decide)
  -- No line of the text has a line feed in it, and so there are two pieces.
  have hlines : stateChart.lines { themeVariables := misleadingFonts }
      = [headerLine .dark misleadingFonts, "stateDiagram-v2".toList] := rfl
  have hlength : ((stateChart.source { themeVariables := misleadingFonts }).toList.splitOn
      '\n').length = 2 := by
    rw [GraphSpec.source, String.toList_ofList, GraphSpec.sourceChars, hlines,
      splitOn_intercalate_cons (newline_notMem_headerLine _ _) (List.cons_ne_nil _ _),
      List.intercalate_singleton, List.splitOn_eq_singleton (by decide)]
    rfl
  have hmore : more = [] := by
    rw [hsplit] at hlength
    simpa using hlength
  rw [htheme] at hread
  rw [hdeclaration, hmore] at hsplit
  exact ⟨init, hsplit, hread⟩

end FlowCanvas
