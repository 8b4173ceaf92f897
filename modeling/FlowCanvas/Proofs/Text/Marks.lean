import FlowCanvas.Proofs.Text.BreakTag
import FlowCanvas.Proofs.Text.Budget
import FlowCanvas.Proofs.Text.Setting

/-!
# What is read of a label

The break tags of a label are not read: they end its lines.  What is read of it, white space apart,
is therefore known once it is known at which of its characters a tag begins.  Here these places are
marked.  A tag begins at a glyph exactly if the glyphs from there on begin with those of a tag, so
that the marks of a text can be read off its glyphs (`marked_glyphs`), and the marks of lines off
the glyphs of these (`marked_lineGlyphs`): no tag goes on beyond the end of a line.

## Main definitions

* `visible` — what is read of a label.
* `marks` — the characters of a text with the places where tags begin.
* `readMarks` — what is read of marked characters.
* `BeginsTag`, `Marked` — the same places among glyphs.

## Main results

* `visible_eq_readMarks` — what is read of a label depends on its marks alone.
* `Marked.eq_iff` — the marks of a text and of a text with its white space set anew.
* `visible_wrap` — **what is read of a wrapped label is what is read of its lines.**
-/

namespace FlowCanvas

/-! ### Tags -/

/-- No letter becomes white space, or the other way, when its case is changed. -/
theorem toLower_of_isBlank {c : Char} (h : isBlank c = true) : c.toLower = c := by
  unfold Char.toLower
  refine dif_neg ?_
  rintro ⟨hA, hZ⟩
  simp only [isBlank, Bool.or_eq_true, Bool.and_eq_true, decide_eq_true_iff, Char.le_def,
    Char.ext_iff, UInt32.le_iff_toNat_le, ← UInt32.toNat_inj, ge_iff_le] at h hA hZ
  simp at h hA hZ
  omega

theorem isBlank_of_toLower {c d : Char} (h : c.toLower = d) (hd : isBlank d = false) :
    isBlank c = false := by
  by_contra hc
  rw [Bool.not_eq_false] at hc
  rw [toLower_of_isBlank hc] at h
  rw [h, hd] at hc
  exact Bool.false_ne_true hc

/-- A tag begins with one bracket and ends with the other, and has neither a closing bracket nor a
line feed between the two. -/
theorem IsBreakTag.exists_eq {tag : List Char} (h : IsBreakTag tag) :
    ∃ inner, tag = '<' :: (inner ++ ['>']) ∧ '>' ∉ inner ∧ '\n' ∉ inner := by
  obtain ⟨b, r, ending, hb, hr, hending, rfl⟩ := h
  have hne : ∀ {c d x : Char}, c.toLower = d → x.toLower ≠ d → x ≠ c := by
    rintro c d x hc hx rfl
    exact hx hc
  have hb' : '>' ≠ b ∧ '\n' ≠ b := ⟨hne hb (by decide), hne hb (by decide)⟩
  have hr' : '>' ≠ r ∧ '\n' ≠ r := ⟨hne hr (by decide), hne hr (by decide)⟩
  simp only [tagEnds, List.mem_cons, List.not_mem_nil, or_false] at hending
  rcases hending with rfl | rfl | rfl
  · exact ⟨[b, r], rfl, by simp [hb', hr'], by simp [hb', hr']⟩
  · exact ⟨[b, r, '/'], rfl, by simp [hb', hr'], by simp [hb', hr']⟩
  · exact ⟨[b, r, ' ', '/'], rfl, by simp [hb', hr'], by simp [hb', hr']⟩

/-! ### Marks -/

/-- What is read of a label: the stretches between its break tags, without white space. -/
def visible (cs : List Char) : List Char := ink (splitBreaks cs).flatten

/-- The characters of a text that are not white space, each with whether a break tag begins there.
-/
def marks : List Char → List (Char × Bool)
  | [] => []
  | c :: cs => if isBlank c then marks cs else (c, (afterBreakTag (c :: cs)).isSome) :: marks cs

@[simp] theorem marks_nil : marks [] = [] := rfl

theorem marks_cons_of_isBlank {c : Char} (h : isBlank c = true) (cs : List Char) :
    marks (c :: cs) = marks cs := if_pos h

theorem marks_cons_of_ink {c : Char} (h : isBlank c = false) (cs : List Char) :
    marks (c :: cs) = (c, (afterBreakTag (c :: cs)).isSome) :: marks cs := if_neg (by simp [h])

/-- What is read of marked characters: all but those from the beginning of a tag to the next closing
bracket.  The first argument says whether a tag is going on. -/
def readMarks : Bool → List (Char × Bool) → List Char
  | _, [] => []
  | true, m :: ms => readMarks (m.1 ≠ '>') ms
  | false, m :: ms => if m.2 then readMarks true ms else m.1 :: readMarks false ms

theorem visible_of_tag {cs behind : List Char} (h : afterBreakTag cs = some behind) :
    visible cs = visible behind := by
  unfold visible
  rw [splitBreaks_of_tag h, List.flatten_cons, List.nil_append]

theorem visible_cons {c : Char} {cs : List Char} (h : afterBreakTag (c :: cs) = none) :
    visible (c :: cs) = ink [c] ++ visible cs := by
  unfold visible
  rw [splitBreaks_cons h, ← ink_append]
  cases hsplit : splitBreaks cs with
  | nil => exact absurd hsplit (splitBreaks_ne_nil cs)
  | cons s ss => rfl

/-- A tag that is going on goes on up to the next closing bracket. -/
theorem readMarks_true_marks_append {inner : List Char} (h : '>' ∉ inner) (cs : List Char)
    (ms : List (Char × Bool)) :
    readMarks true (marks (inner ++ '>' :: cs) ++ ms) = readMarks false (marks cs ++ ms) := by
  induction inner with
  | nil => rfl
  | cons c inner ih =>
    obtain ⟨hc, hinner⟩ := not_or.mp (mt List.mem_cons.mpr h)
    have hgoes : decide (c ≠ '>') = true := decide_eq_true fun heq => hc heq.symm
    rw [List.cons_append]
    by_cases hblank : isBlank c = true
    · rw [marks_cons_of_isBlank hblank, ih hinner]
    · rw [Bool.not_eq_true] at hblank
      rw [marks_cons_of_ink hblank, List.cons_append]
      show readMarks (decide (c ≠ '>')) _ = _
      rw [hgoes, ih hinner]

/-- The marks of a text are read to its end, by induction along its stretches. -/
theorem readMarks_marks_append (cs : List Char) (ms : List (Char × Bool)) :
    readMarks false (marks cs ++ ms) = visible cs ++ readMarks false ms := by
  induction cs using splitBreaks.induct with
  | case1 => simp [visible, ink]
  | case2 c cs behind h ih =>
    obtain ⟨tag, htag, heq⟩ := afterBreakTag_eq_some.mp h
    obtain ⟨inner, rfl, hinner, -⟩ := htag.exists_eq
    rw [List.cons_append, List.append_assoc, List.singleton_append] at heq
    obtain ⟨rfl, rfl⟩ := List.cons.inj heq
    rw [marks_cons_of_ink (by decide), h, visible_of_tag h, ← ih]
    exact readMarks_true_marks_append hinner behind ms
  | case3 c cs h ih =>
    rw [visible_cons h]
    by_cases hblank : isBlank c = true
    · have hink : ink [c] = [] := List.filter_cons_of_neg (by simp [hblank])
      rw [marks_cons_of_isBlank hblank, ih, hink, List.nil_append]
    · rw [Bool.not_eq_true] at hblank
      have hink : ink [c] = [c] := List.filter_cons_of_pos (by simp [hblank])
      rw [marks_cons_of_ink hblank, h, hink, List.append_assoc, ← ih]
      rfl

/-- What is read of a label depends on its marks alone. -/
theorem visible_eq_readMarks (cs : List Char) : visible cs = readMarks false (marks cs) := by
  have := readMarks_marks_append cs []
  rw [List.append_nil] at this
  rw [this]
  exact (List.append_nil _).symm

/-- What is read of lines depends on their marks alone. -/
theorem flatMap_visible_eq_readMarks (ls : List (List Char)) :
    ls.flatMap visible = readMarks false (ls.flatMap marks) := by
  induction ls with
  | nil => rfl
  | cons l ls ih => rw [List.flatMap_cons, List.flatMap_cons, readMarks_marks_append, ih]

/-! ### Marked glyphs -/

/-- The glyphs begin with those of a break tag. -/
def BeginsTag (gs : List Glyph) : Prop :=
  ∃ tag gap rest, IsBreakTag tag ∧ gs = glyphs gap tag ++ rest

/-- The glyphs of a text that ends with ink begin those of another text only if it begins that text
itself. -/
theorem prefix_of_glyphs {cs s : List Char} {gs : List Glyph} (hs : gapAfter [] s = [])
    (h : glyphs [] cs = glyphs [] s ++ gs) : s <+: cs := by
  have htext := glyphText_glyphs [] cs
  have hbegin := glyphText_glyphs [] s
  rw [hs, List.append_nil, List.nil_append] at hbegin
  rw [h, List.nil_append] at htext
  have hparts : glyphText (glyphs [] s ++ gs) = glyphText (glyphs [] s) ++ glyphText gs :=
    List.flatMap_append
  rw [hparts, hbegin, List.append_assoc] at htext
  exact ⟨_, htext⟩

/-- A tag begins at a character exactly if one begins at its glyph. -/
theorem beginsTag_glyphs_iff {c : Char} (hc : isBlank c = false) (gap cs : List Char) :
    (afterBreakTag (c :: cs)).isSome = true ↔ BeginsTag (⟨gap, c⟩ :: glyphs [] cs) := by
  rw [Option.isSome_iff_exists]
  constructor
  · rintro ⟨behind, h⟩
    obtain ⟨tag, htag, heq⟩ := afterBreakTag_eq_some.mp h
    refine ⟨tag, gap, glyphs (gapAfter gap tag) behind, htag, ?_⟩
    rw [← glyphs_cons_of_ink hc, heq, glyphs_append]
  · rintro ⟨tag, gap', rest, htag, h⟩
    obtain ⟨inner, rfl, -, -⟩ := htag.exists_eq
    rw [glyphs_cons_of_ink (by decide), List.cons_append] at h
    obtain ⟨hchar, hrest⟩ := List.cons.inj h
    have hend : gapAfter [] (inner ++ ['>']) = [] := gapAfter_concat_of_ink (by decide) _ _
    obtain ⟨behind, rfl⟩ := prefix_of_glyphs hend hrest
    rw [(Glyph.mk.inj hchar).2]
    exact ⟨behind, afterBreakTag_eq_some.mpr ⟨_, htag, rfl⟩⟩

/-- No tag goes on beyond a glyph that stands behind a line feed. -/
theorem beginsTag_append_iff {y : Glyph} {gs hs : List Glyph}
    (hfeed : ∀ z ∈ hs.head?, '\n' ∈ z.gap) :
    BeginsTag (y :: gs ++ hs) ↔ BeginsTag (y :: gs) := by
  constructor
  · rintro ⟨tag, gap, rest, htag, h⟩
    rcases List.append_eq_append_iff.mp h with ⟨more, hmore, hhs⟩ | ⟨more, hmore, -⟩
    · cases more with
      | nil =>
        rw [List.append_nil] at hmore
        exact ⟨tag, gap, [], htag, by rw [hmore, List.append_nil]⟩
      | cons z more =>
        -- the glyph behind the line feed would be one of the tag, but not the first one
        obtain ⟨inner, rfl, -, hinner⟩ := htag.exists_eq
        rw [glyphs_cons_of_ink (by decide), List.cons_append] at hmore
        have hz : z ∈ glyphs [] (inner ++ ['>']) := by
          rw [(List.cons.inj hmore).2]
          exact List.mem_append_right gs List.mem_cons_self
        have hgap : '\n' ∈ z.gap := hfeed z (by rw [hhs]; rfl)
        rcases gap_subset_of_mem_glyphs hz _ hgap with hmem | ⟨hmem, -⟩
        · exact absurd hmem List.not_mem_nil
        · exact absurd hmem (by simp [hinner])
    · exact ⟨tag, gap, more, htag, hmore⟩
  · rintro ⟨tag, gap, rest, htag, h⟩
    exact ⟨tag, gap, rest ++ hs, htag, by rw [h, List.append_assoc]⟩

/-- Marks that are set where a tag begins among glyphs. -/
inductive Marked : List Glyph → List (Char × Bool) → Prop
  | nil : Marked [] []
  | cons {y : Glyph} {gs : List Glyph} {ms : List (Char × Bool)} {mark : Bool}
      (hmark : mark = true ↔ BeginsTag (y :: gs)) (rest : Marked gs ms) :
      Marked (y :: gs) ((y.char, mark) :: ms)

/-- The marks of a text are those of its glyphs. -/
theorem marked_glyphs (gap cs : List Char) : Marked (glyphs gap cs) (marks cs) := by
  induction cs generalizing gap with
  | nil => exact .nil
  | cons c cs ih =>
    by_cases hc : isBlank c = true
    · rw [glyphs_cons_of_isBlank hc, marks_cons_of_isBlank hc]
      exact ih _
    · rw [Bool.not_eq_true] at hc
      rw [glyphs_cons_of_ink hc, marks_cons_of_ink hc]
      exact .cons (beginsTag_glyphs_iff hc gap cs) (ih [])

namespace Marked

/-- Glyphs have one list of marks. -/
theorem unique {gs : List Glyph} {ms ns : List (Char × Bool)} (hms : Marked gs ms)
    (hns : Marked gs ns) : ms = ns := by
  induction hms generalizing ns with
  | nil =>
    cases hns
    rfl
  | cons hmark _ ih =>
    cases hns with
    | cons hmark' rest' =>
      rw [ih rest', Bool.eq_iff_iff.mpr (hmark.trans hmark'.symm)]

/-- A line feed parts marks. -/
theorem append {gs hs : List Glyph} {ms ns : List (Char × Bool)} (hgs : Marked gs ms)
    (hhs : Marked hs ns) (hfeed : ∀ z ∈ hs.head?, '\n' ∈ z.gap) : Marked (gs ++ hs) (ms ++ ns) := by
  induction hgs with
  | nil => exact hhs
  | cons hmark _ ih => exact .cons (hmark.trans (beginsTag_append_iff hfeed).symm) ih

/-- The marks of a text and of a text with its white space set anew are the same exactly if tags
begin at the same places. -/
theorem eq_iff {gs hs : List Glyph} {ms ns : List (Char × Bool)} (hgs : Marked gs ms)
    (hhs : Marked hs ns) (hset : List.Forall₂ SetAs gs hs) :
    ns = ms ↔ ∀ n, BeginsTag (gs.drop n) ↔ BeginsTag (hs.drop n) := by
  induction hset generalizing ms ns with
  | nil =>
    cases hgs
    cases hhs
    simp
  | cons hxy _ ih =>
    cases hgs with
    | cons hmark rest =>
      cases hhs with
      | cons hmark' rest' =>
        rw [List.cons.injEq, Prod.mk.injEq, and_iff_right hxy.char_eq, ih rest rest',
          Bool.eq_iff_iff, hmark, hmark']
        constructor
        · rintro ⟨hfirst, hrest⟩ n
          cases n with
          | zero => exact hfirst.symm
          | succ n => exact hrest n
        · intro h
          exact ⟨(h 0).symm, fun n => h (n + 1)⟩

end Marked

/-- Each line begins behind a line feed. -/
theorem newline_mem_gap_of_head?_lineGlyphs {ls : List (List Char)} :
    ∀ z ∈ (lineGlyphs ls).head?, '\n' ∈ z.gap := by
  induction ls with
  | nil => exact fun z hz => absurd hz (Option.not_mem_none z)
  | cons l ls ih =>
    intro z hz
    rw [lineGlyphs_cons] at hz
    cases hl : glyphs ['\n'] l with
    | nil =>
      rw [hl, List.nil_append] at hz
      exact ih z hz
    | cons y gs =>
      rw [hl, List.cons_append] at hz
      have hfirst : z ∈ (glyphs ['\n'] l).head? := by rw [hl]; exact hz
      exact (gap_prefix_of_head?_glyphs hfirst).subset (List.mem_singleton_self _)

theorem newline_mem_gap_of_lineGlyphs {ls : List (List Char)} {y : Glyph} {gs : List Glyph}
    (h : lineGlyphs ls = y :: gs) : '\n' ∈ y.gap :=
  newline_mem_gap_of_head?_lineGlyphs y (by rw [h]; rfl)

/-- The marks of lines are those of their glyphs. -/
theorem marked_lineGlyphs (ls : List (List Char)) : Marked (lineGlyphs ls) (ls.flatMap marks) := by
  induction ls with
  | nil => exact .nil
  | cons l ls ih =>
    rw [lineGlyphs_cons, List.flatMap_cons]
    exact (marked_glyphs ['\n'] l).append ih newline_mem_gap_of_head?_lineGlyphs

/-! ### Wrapped labels -/

/-- What is read of paragraphs is read one by one. -/
theorem visible_append_feed (a b : List Char) :
    visible (a ++ '\n' :: b) = visible a ++ visible b := by
  have hfeed : ∀ z ∈ (glyphs (gapAfter [] a ++ ['\n']) b).head?, '\n' ∈ z.gap := fun z hz =>
    (gap_prefix_of_head?_glyphs hz).subset (List.mem_append_right _ (List.mem_singleton_self _))
  have hmarked := (marked_glyphs [] a).append (marked_glyphs _ b) hfeed
  rw [← glyphs_cons_of_isBlank rfl, ← glyphs_append] at hmarked
  rw [visible_eq_readMarks, (marked_glyphs [] _).unique hmarked, readMarks_marks_append,
    ← visible_eq_readMarks]

theorem visible_intercalate_feed (ps : List (List Char)) :
    visible (['\n'].intercalate ps) = ps.flatMap visible := by
  induction ps with
  | nil => simp [visible, ink]
  | cons p ps ih =>
    cases ps with
    | nil => rw [List.intercalate_singleton, List.flatMap_singleton]
    | cons q qs =>
      rw [List.intercalate_cons_cons, List.append_assoc, List.singleton_append,
        visible_append_feed, ih]
      exact List.flatMap_cons.symm

theorem visible_intercalate_lineBreak {ls : List (List Char)} (hne : ls ≠ []) :
    visible (lineBreak.intercalate ls) = ls.flatMap visible := by
  unfold visible
  rw [splitBreaks_intercalate hne]
  induction ls with
  | nil => exact absurd rfl hne
  | cons l ls ih =>
    rw [List.flatMap_cons, List.flatMap_cons, List.flatten_append, ink_append]
    by_cases hls : ls = []
    · rw [hls]
      rfl
    · rw [ih hls]

/-- **What is read of a wrapped label is what is read of its lines.**  The tags between them are not
read, and join nothing. -/
theorem visible_wrap {max : Nat} {text : List Char} (h : max < columns text) :
    visible (wrap max text) = (setLines max text).flatMap visible := by
  rw [wrap, if_neg (Nat.not_le.mpr h), visible_intercalate_feed, List.flatMap_map, setLines,
    List.flatMap_assoc]
  exact List.flatMap_congr fun p _ => visible_intercalate_lineBreak (wrapParagraph_ne_nil max p)

end FlowCanvas
