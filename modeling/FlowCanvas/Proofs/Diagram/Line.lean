import FlowCanvas.Proofs.Diagram.Label
import Mathlib.Data.List.Forall2

/-!
# Reading back the lines of a diagram

Each kind of line is taken apart from the left: behind the space at its beginning stand words that
are known, names that end where something else than a letter stands, signs that end where something
else than a sign stands, and labels that end at a double quote.  What the line was made from is
therefore determined by the line, up to what is not written into it.

## Main results

* `nodeLine_inj`, `edgeLine_inj`, `frameLine_inj`, `classLine_inj` — what is determined by a line of
  each kind.
* `legendEntryLines_inj`, `legendStyleLines_inj` — what is determined by the lines of a legend.
* `theme_eq_of_headerLine` — the theme is determined by the first line.
-/

namespace FlowCanvas

/-! ### Signs -/

theorem Shape.opening_inj {s t : Shape} (h : s.opening.toList = t.opening.toList) : s = t := by
  revert h
  cases s <;> cases t <;> decide

/-- Neither a name nor a label goes on with the sign before a label. -/
theorem Shape.opening_chars (s : Shape) : s.opening.toList ≠ [] ∧
    (∀ c ∈ s.opening.toList, isNameChar c = false) ∧ '"' ∉ s.opening.toList := by
  cases s <;> exact ⟨by decide, forall_mem_of_all (by decide), by decide⟩

theorem Shape.stops_opening (s : Shape) (r : List Char) :
    Stops isNameChar (s.opening.toList ++ r) :=
  (stops_of_forall s.opening_chars.2.1).append s.opening_chars.1

theorem LineStyle.token_inj {s t : LineStyle} (h : s.token.toList = t.token.toList) : s = t := by
  revert h
  cases s <;> cases t <;> decide

/-- A character of arrows. -/
def isArrowChar (c : Char) : Bool := c = '-' || c = '=' || c = '.' || c = '>'

theorem LineStyle.token_chars (s : LineStyle) : ∀ c ∈ s.token.toList, isArrowChar c := by
  cases s <;> exact forall_mem_of_all (by decide)

theorem Direction.keyword_inj {s t : Direction} (h : s.keyword.toList = t.keyword.toList) :
    s = t := by
  revert h
  cases s <;> cases t <;> decide

/-! ### Nodes -/

theorem nodeLine_eq (w : Nat) (n : Node) :
    nodeLine w n = indent ++ (n.id.toList ++ (n.shape.opening.toList ++
      (labelChars (wrap w n.label.toList) ++ n.shape.closing.toList))) := by
  simp only [nodeLine, List.append_assoc]

/-- **A node is determined by its line, up to how its label is wrapped.** -/
theorem nodeLine_inj {w : Nat} {m n : Node} (hm : IsName m.id.toList) (hn : IsName n.id.toList)
    (hm' : IsPlain m.label.toList) (hn' : IsPlain n.label.toList) :
    nodeLine w m = nodeLine w n ↔
      m.id = n.id ∧ m.shape = n.shape ∧ wrap w m.label.toList = wrap w n.label.toList := by
  constructor
  · intro h
    rw [nodeLine_eq, nodeLine_eq, List.append_cancel_left_eq] at h
    obtain ⟨hid, h⟩ := hm.append_inj hn (Shape.stops_opening _ _) (Shape.stops_opening _ _) h
    -- The sign before the label ends at its first quote, and the label at its second one.
    rw [labelChars_append, labelChars_append] at h
    obtain ⟨hshape, h⟩ :=
      append_cons_inj_of_notMem h m.shape.opening_chars.2.2 n.shape.opening_chars.2.2
    obtain ⟨hlabel, -⟩ := append_cons_inj_of_notMem h
      (quote_notMem_escapeQuotes _) (quote_notMem_escapeQuotes _)
    exact ⟨String.toList_inj.mp hid, Shape.opening_inj hshape,
      (hm'.wrap w).eq_of_escapeQuotes (hn'.wrap w) hlabel⟩
  · rintro ⟨hid, hshape, hlabel⟩
    rw [nodeLine_eq, nodeLine_eq, hid, hshape, hlabel]

/-! ### Edges -/

theorem edgeLine_eq (e : Edge) :
    edgeLine e = indent ++ (e.source.toList ++ ' ' :: (e.lineStyle.token.toList ++
      (edgeLabel e.label ++ ' ' :: e.target.toList))) := by
  simp only [edgeLine, List.append_assoc, List.cons_append]

theorem stops_edgeLabel (label : Option String) (r : List Char) :
    Stops isArrowChar (edgeLabel label ++ ' ' :: r) := by
  cases label with
  | none => exact stops_cons.mpr (by decide)
  | some label => exact stops_cons.mpr (by decide)

/-- Whether an edge has a label, and which one, is determined by what stands behind its arrow. -/
theorem edgeLabel_append_inj {a b : Option String} {r s : List Char}
    (ha : ∀ l ∈ a, IsPlain l.toList) (hb : ∀ l ∈ b, IsPlain l.toList)
    (h : edgeLabel a ++ ' ' :: r = edgeLabel b ++ ' ' :: s) : a = b ∧ r = s := by
  have hsome : ∀ (l : String) (t : List Char),
      edgeLabel (some l) ++ ' ' :: t = '|' :: (labelChars l.toList ++ '|' :: ' ' :: t) := by
    intro l t
    rw [edgeLabel, List.cons_append, List.append_assoc, List.singleton_append]
  -- A label begins with a bar, and what stands there without a label with a space.
  cases a with
  | none =>
    cases b with
    | none => exact ⟨rfl, (List.cons.inj h).2⟩
    | some l =>
      rw [hsome] at h
      exact absurd (List.cons.inj h).1 (by decide)
  | some k =>
    cases b with
    | none =>
      rw [hsome] at h
      exact absurd (List.cons.inj h).1 (by decide)
    | some l =>
      rw [hsome, hsome] at h
      obtain ⟨hlabel, h⟩ := labelChars_append_inj (ha k rfl) (hb l rfl) (List.cons.inj h).2
      exact ⟨congrArg some (String.toList_inj.mp hlabel), (List.cons.inj (List.cons.inj h).2).2⟩

/-- **An edge is determined by its line**, up to what is not drawn of it. -/
theorem edgeLine_inj {d e : Edge} (hd : IsName d.source.toList) (he : IsName e.source.toList)
    (hd' : ∀ l ∈ d.label, IsPlain l.toList) (he' : ∀ l ∈ e.label, IsPlain l.toList) :
    edgeLine d = edgeLine e ↔ d.source = e.source ∧ d.target = e.target ∧
      d.lineStyle = e.lineStyle ∧ d.label = e.label := by
  constructor
  · intro h
    rw [edgeLine_eq, edgeLine_eq, List.append_cancel_left_eq] at h
    -- The source ends at the first space, and the arrow where no character of arrows follows.
    obtain ⟨hsource, h⟩ :=
      hd.append_inj he (stops_cons.mpr (by decide)) (stops_cons.mpr (by decide)) h
    obtain ⟨hstyle, h⟩ := append_inj_of_stops (List.cons.inj h).2 d.lineStyle.token_chars
      (stops_edgeLabel _ _) e.lineStyle.token_chars (stops_edgeLabel _ _)
    obtain ⟨hlabel, htarget⟩ := edgeLabel_append_inj hd' he' h
    exact ⟨String.toList_inj.mp hsource, String.toList_inj.mp htarget,
      LineStyle.token_inj hstyle, hlabel⟩
  · rintro ⟨hsource, htarget, hstyle, hlabel⟩
    rw [edgeLine_eq, edgeLine_eq, hsource, htarget, hstyle, hlabel]

/-! ### Frames -/

theorem frameLine_eq (id title : List Char) :
    frameLine id title
      = indent ++ ("subgraph ".toList ++ (id ++ '[' :: (labelChars title ++ [']']))) := by
  simp only [frameLine, List.append_assoc]

/-- **The name and the title of a frame are determined by its first line.** -/
theorem frameLine_inj {i j s t : List Char} (hi : IsName i) (hj : IsName j) (hs : IsPlain s)
    (ht : IsPlain t) (h : frameLine i s = frameLine j t) : i = j ∧ s = t := by
  rw [frameLine_eq, frameLine_eq, List.append_cancel_left_eq, List.append_cancel_left_eq] at h
  obtain ⟨hid, h⟩ := hi.append_inj hj (stops_cons.mpr (by decide)) (stops_cons.mpr (by decide)) h
  obtain ⟨hlabel, -⟩ := labelChars_append_inj hs ht (List.cons.inj h).2
  exact ⟨hid, hlabel⟩

/-- Lines inside of a frame do not end it. -/
theorem indent_append_ne_frameEnd (l : List Char) : indent ++ indent ++ l ≠ frameEnd := by
  simp [indent, frameEnd]

/-! ### The legend -/

theorem frameEnd_notMem_legendEntryLines (i : Nat) (ls : List LegendEntry) :
    frameEnd ∉ legendEntryLines i ls := by
  induction ls generalizing i with
  | nil => exact List.not_mem_nil
  | cons l ls ih =>
    rw [legendEntryLines_cons, List.mem_cons, not_or]
    refine ⟨?_, ih (i + 1)⟩
    rw [List.append_assoc]
    exact (indent_append_ne_frameEnd _).symm

/-- The labels of a legend determine its lines. -/
theorem legendEntryLines_congr {ks ls : List LegendEntry}
    (h : List.Forall₂ (fun k l => k.label = l.label) ks ls) (i : Nat) :
    legendEntryLines i ks = legendEntryLines i ls := by
  induction h generalizing i with
  | nil => rfl
  | cons hlabel _ ih => rw [legendEntryLines_cons, legendEntryLines_cons, hlabel, ih]

/-- **The labels of a legend are determined by its lines.** -/
theorem legendEntryLines_inj {i : Nat} {ks ls : List LegendEntry}
    (hks : ∀ k ∈ ks, IsPlain k.label.toList) (hls : ∀ l ∈ ls, IsPlain l.label.toList)
    (h : legendEntryLines i ks = legendEntryLines i ls) :
    List.Forall₂ (fun k l => k.label = l.label) ks ls := by
  induction ks generalizing i ls with
  | nil =>
    cases ls with
    | nil => exact .nil
    | cons l ls => cases h
  | cons k ks ih =>
    cases ls with
    | nil => cases h
    | cons l ls =>
      obtain ⟨hk, hks⟩ := List.forall_mem_cons.mp hks
      obtain ⟨hl, hls⟩ := List.forall_mem_cons.mp hls
      rw [legendEntryLines_cons, legendEntryLines_cons] at h
      obtain ⟨hline, hlines⟩ := List.cons.inj h
      -- Both lines have the same number, and so they begin in the same way.
      rw [List.append_cancel_left_eq] at hline
      obtain ⟨hlabel, -⟩ := labelChars_append_inj hk hl (List.cons.inj hline).2
      exact .cons (String.toList_inj.mp hlabel) (ih hks hls hlines)

/-- What holds of all swatches holds of the one of a name. -/
theorem forall_swatch {P : Swatch → Prop}
    (h : ∀ s ∈ Swatch.grey :: Swatch.named.map Prod.snd, P s) (name : String) :
    P (swatch name) := by
  obtain ⟨hgrey, hnamed⟩ := List.forall_mem_cons.mp h
  unfold swatch
  cases hlookup : Swatch.named.lookup name with
  | none => exact hgrey
  | some s =>
    obtain ⟨l, r, hnames, -⟩ := List.lookup_eq_some_iff.mp hlookup
    refine hnamed s (List.mem_map.mpr ⟨(name, s), ?_, rfl⟩)
    rw [hnames]
    exact List.mem_append_right l List.mem_cons_self

/-- The colours of a swatch are separated by a comma, which they do not have in them. -/
theorem comma_notMem_swatch (name : String) :
    ',' ∉ (swatch name).fill.toList ∧ ',' ∉ (swatch name).stroke.toList :=
  forall_swatch (P := fun s => ',' ∉ s.fill.toList ∧ ',' ∉ s.stroke.toList) (by decide) name

theorem swatch_eq_of_chars {a b : String} {r s : List Char}
    (h : (swatch a).fill.toList ++ (",stroke:".toList ++ ((swatch a).stroke.toList ++ ',' :: r))
      = (swatch b).fill.toList ++ (",stroke:".toList ++ ((swatch b).stroke.toList ++ ',' :: s))) :
    swatch a = swatch b := by
  have hcomma : ",stroke:".toList = ',' :: "stroke:".toList := by decide
  rw [hcomma, List.cons_append, List.cons_append] at h
  obtain ⟨hfill, h⟩ :=
    append_cons_inj_of_notMem h (comma_notMem_swatch a).1 (comma_notMem_swatch b).1
  obtain ⟨hstroke, -⟩ := append_cons_inj_of_notMem (List.append_cancel_left h)
    (comma_notMem_swatch a).2 (comma_notMem_swatch b).2
  rw [Swatch.mk.injEq]
  exact ⟨String.toList_inj.mp hfill, String.toList_inj.mp hstroke⟩

/-- The colours of a legend determine the lines that set them. -/
theorem legendStyleLines_congr {ks ls : List LegendEntry}
    (h : List.Forall₂ (fun k l => swatch k.swatch = swatch l.swatch) ks ls) (i : Nat) :
    legendStyleLines i ks = legendStyleLines i ls := by
  induction h generalizing i with
  | nil => rfl
  | cons hswatch _ ih => rw [legendStyleLines_cons, legendStyleLines_cons, hswatch, ih]

/-- **The colours of a legend are determined by the lines that set them.** -/
theorem legendStyleLines_inj {i : Nat} {ks ls : List LegendEntry}
    (h : legendStyleLines i ks = legendStyleLines i ls) :
    List.Forall₂ (fun k l => swatch k.swatch = swatch l.swatch) ks ls := by
  induction ks generalizing i ls with
  | nil =>
    cases ls with
    | nil => exact .nil
    | cons l ls => cases h
  | cons k ks ih =>
    cases ls with
    | nil => cases h
    | cons l ls =>
      rw [legendStyleLines_cons, legendStyleLines_cons] at h
      obtain ⟨hline, hlines⟩ := List.cons.inj h
      have hcolor : ",color:#fff".toList = ',' :: "color:#fff".toList := by decide
      simp only [List.append_assoc, List.append_cancel_left_eq, hcolor] at hline
      exact .cons (swatch_eq_of_chars hline) (ih hlines)

theorem length_legendStyleLines (i : Nat) (ls : List LegendEntry) :
    (legendStyleLines i ls).length = ls.length := by
  induction ls generalizing i with
  | nil => rfl
  | cons l ls ih => rw [legendStyleLines_cons, List.length_cons, List.length_cons, ih]

/-! ### Classes -/

/-- **A node and its class are determined by the line that sets it.** -/
theorem classLine_inj {m n : Node} (hm : IsName m.id.toList) (hn : IsName n.id.toList)
    {l : List Char} (h : classLine? m = some l) (h' : classLine? n = some l) :
    m.id = n.id ∧ m.styleClass = n.styleClass := by
  obtain ⟨a, ha, rfl⟩ := Option.map_eq_some_iff.mp h
  obtain ⟨b, hb, hline⟩ := Option.map_eq_some_iff.mp h'
  simp only [List.append_assoc, List.append_cancel_left_eq] at hline
  obtain ⟨hid, hclass⟩ :=
    hn.append_inj hm (stops_cons.mpr (by decide)) (stops_cons.mpr (by decide)) hline
  rw [ha, hb, String.toList_inj.mp hid, String.toList_inj.mp (List.cons.inj hclass).2]
  exact ⟨rfl, rfl⟩

/-! ### The first line -/

theorem ofMembers_theme (a b : Json) : Json.ofMembers [("theme", a), ("themeVariables", b)]
    = .object [("theme", a), ("themeVariables", b)] := by
  have hne : ¬ "themeVariables" = "theme" := by decide
  have hlt : ¬ "themeVariables" < "theme" := by decide
  simp only [Json.ofMembers, List.foldl_cons, List.foldl_nil, Json.Members.put, if_neg hne,
    if_neg hlt]

theorem headerLine_eq (theme : Theme) (v : ThemeVariables) :
    headerLine theme v = "%%\x7binit: ".toList ++
      (Json.object [("theme", wordJson theme), ("themeVariables", v.toJson)]).chars
        ++ "\x7d%%".toList := by
  unfold headerLine
  rw [ofMembers_theme]

theorem Theme.chars_wordJson (t : Theme) :
    (wordJson t).chars = '"' :: ((Json.Vocabulary.word t).toList ++ ['"']) := by
  cases t <;> decide

theorem Theme.word_inj {s t : Theme}
    (h : (Json.Vocabulary.word s).toList = (Json.Vocabulary.word t).toList) : s = t := by
  revert h
  cases s <;> cases t <;> decide

/-- **The theme is determined by the first line**, as everything else in it is chosen otherwise. -/
theorem theme_eq_of_headerLine {s t : Theme} {v : ThemeVariables}
    (h : headerLine s v = headerLine t v) : s = t := by
  rw [headerLine_eq, headerLine_eq, List.append_cancel_right_eq, List.append_cancel_left_eq] at h
  simp only [Json.chars, List.cons.injEq, List.append_cancel_left_eq, List.append_cancel_right_eq,
    true_and] at h
  -- The variables are the same on both sides: what is left is the word for the theme.
  rw [Theme.chars_wordJson, Theme.chars_wordJson, List.cons.injEq,
    List.append_cancel_right_eq] at h
  exact Theme.word_inj h.2

end FlowCanvas
