import FlowCanvas.Proofs.Text.Glyph
import Mathlib.Data.List.Forall2

/-!
# White space that is set anew

A glyph of a wrapped label is set in one of three ways.  It begins a line; or it stands behind a
single space, if there was white space before it in the label; or it stands right behind the glyph
before it, if there was none.  A word stays whole unless it is too wide for a line, so that none of
its glyphs but the first can begin one.

Wrapping goes word by word, and so do the proofs: what is shown of one word that is packed
(`exists_glyphs_pack`) is put together to what is shown of a paragraph and of a label.

## Main definitions

* `SetAs` — how a glyph of a label is set.
* `SetWordAs` — how a word of a label is set.
* `setLines` — the lines that a label is set in.
* `SetWordwise` — glyphs set word by word.

## Main results

* `exists_glyphs_pack` — packing words sets their glyphs, by induction over the words.
* `setWordwise_setLines` — **how the words of a wrapped label are set.**
* `exists_whole_stretch` — a stretch of a word that fits is set as it stands.
* `setAs_setLines` — how its glyphs are set.
-/

namespace FlowCanvas

/-! ### Glyphs -/

/-- How a glyph of a label is set: it begins a line, or it stands behind a single space if there was
white space before it, and right behind the glyph before it if there was none. -/
structure SetAs (x y : Glyph) : Prop where
  char_eq : y.char = x.char
  gap_eq : '\n' ∈ y.gap ∨ y.gap = if x.gap = [] then [] else [' ']

/-- The glyphs of a list of lines, each of which stands behind a line feed. -/
def lineGlyphs (ls : List (List Char)) : List Glyph := ls.flatMap (glyphs ['\n'])

theorem lineGlyphs_append (ls ms : List (List Char)) :
    lineGlyphs (ls ++ ms) = lineGlyphs ls ++ lineGlyphs ms := List.flatMap_append

theorem lineGlyphs_cons (l : List Char) (ls : List (List Char)) :
    lineGlyphs (l :: ls) = glyphs ['\n'] l ++ lineGlyphs ls := List.flatMap_cons

theorem lineGlyphs_finished (line : List Char) :
    lineGlyphs (if line.isEmpty then [] else [line]) = glyphs ['\n'] line := by
  cases line with
  | nil => rfl
  | cons c cs => exact List.flatMap_singleton _ _

/-- The glyphs of the last line stand behind those of the others. -/
theorem lineGlyphs_dropLast_append {ps : List (List Char)} (hps : ps ≠ []) :
    lineGlyphs ps.dropLast ++ glyphs ['\n'] (ps.getLastD []) = lineGlyphs ps := by
  have hone : lineGlyphs [ps.getLast hps] = glyphs ['\n'] (ps.getLast hps) :=
    List.flatMap_singleton _ _
  rw [List.getLastD_eq_getLast?, List.getLast?_eq_getLast_of_ne_nil hps, Option.getD_some, ← hone,
    ← lineGlyphs_append, List.dropLast_append_getLast hps]

/-- The characters of the glyphs of lines are the ink of these. -/
theorem map_char_lineGlyphs (ls : List (List Char)) :
    (lineGlyphs ls).map Glyph.char = ink ls.flatten := by
  induction ls with
  | nil => rfl
  | cons l ls ih =>
    rw [lineGlyphs_cons, List.map_append, map_char_glyphs, ih, List.flatten_cons, ink_append]

theorem length_lineGlyphs (ls : List (List Char)) :
    (lineGlyphs ls).length = (ink ls.flatten).length := by
  rw [← map_char_lineGlyphs, List.length_map]

/-- Of a list whose members correspond to those of two lists put together, the parts correspond to
the two. -/
theorem exists_append_of_forall₂ {α β : Type} {R : α → β → Prop} {as bs : List α} {cs : List β}
    (h : List.Forall₂ R (as ++ bs) cs) :
    ∃ cs₁ cs₂, cs = cs₁ ++ cs₂ ∧ List.Forall₂ R as cs₁ ∧ List.Forall₂ R bs cs₂ := by
  have hfirst := List.forall₂_take as.length h
  have hsecond := List.forall₂_drop as.length h
  rw [List.take_left] at hfirst
  rw [List.drop_left] at hsecond
  exact ⟨_, _, (List.take_append_drop as.length cs).symm, hfirst, hsecond⟩

/-! ### Words -/

/-- How a word of a label, with the white space before it, is set in lines of `max` columns: glyph
by glyph, and as a whole unless it is wider than a line. -/
structure SetWordAs (max : Nat) (w : List Char × List Char) (gs : List Glyph) : Prop where
  setAs : List.Forall₂ SetAs (glyphs w.1 w.2) gs
  whole : columns w.2 ≤ max → ∀ y ∈ gs.tail, y.gap = []

section Words

variable {w : List Char} (hw : ∀ c ∈ w, isBlank c = false) (hne : w ≠ [])
include hw

/-- Inside a word there is no white space. -/
theorem gap_of_mem_tail_glyphs {gap : List Char} {y : Glyph} (hy : y ∈ (glyphs gap w).tail) :
    y.gap = [] := by
  cases w with
  | nil => exact absurd hy List.not_mem_nil
  | cons c cs =>
    obtain ⟨hc, hcs⟩ := List.forall_mem_cons.mp hw
    rw [glyphs_cons_of_ink hc, List.tail_cons] at hy
    rw [List.eq_nil_iff_forall_not_mem]
    intro d hd
    rcases gap_subset_of_mem_glyphs hy d hd with hd | ⟨hd, hblank⟩
    · exact List.not_mem_nil hd
    · rw [hcs d hd] at hblank
      exact Bool.false_ne_true hblank

/-- A stretch of ink is set by setting its first glyph. -/
theorem forall₂_setAs_of_ink {g h : List Char}
    (hgap : '\n' ∈ h ∨ h = if g = [] then [] else [' ']) :
    List.Forall₂ SetAs (glyphs g w) (glyphs h w) := by
  cases w with
  | nil => exact .nil
  | cons c cs =>
    have hc : isBlank c = false := hw c List.mem_cons_self
    have hrest : ∀ y ∈ glyphs [] cs, y.gap = [] := by
      intro y hy
      have htail : y ∈ (glyphs h (c :: cs)).tail := by rwa [glyphs_cons_of_ink hc]
      exact gap_of_mem_tail_glyphs hw htail
    rw [glyphs_cons_of_ink hc, glyphs_cons_of_ink hc]
    refine .cons ⟨rfl, hgap⟩ (List.forall₂_same.mpr ?_)
    intro y hy
    exact ⟨rfl, Or.inr (by rw [hrest y hy, if_pos rfl])⟩

/-- A word that is not cut is set by setting its first glyph. -/
theorem setWordAs_of_ink (max : Nat) {g h : List Char}
    (hgap : '\n' ∈ h ∨ h = if g = [] then [] else [' ']) : SetWordAs max (g, w) (glyphs h w) where
  setAs := forall₂_setAs_of_ink hw hgap
  whole := fun _ _ => gap_of_mem_tail_glyphs hw

/-- The pieces of a word have no white space in them. -/
theorem ink_of_mem_pieces {max : Nat} {p : List Char} (hp : p ∈ pieces max w) :
    ∀ c ∈ p, isBlank c = false :=
  fun c hc => hw c ((infix_of_mem_pieces hp).subset hc)

omit hw in
/-- Stretches of ink are set by setting each of them on a line of its own. -/
theorem forall₂_setAs_flatten {ps : List (List Char)}
    (hps : ∀ p ∈ ps, ∀ c ∈ p, isBlank c = false) (gap : List Char) :
    List.Forall₂ SetAs (glyphs gap ps.flatten) (lineGlyphs ps) := by
  induction ps generalizing gap with
  | nil => exact .nil
  | cons p ps ih =>
    obtain ⟨hp, hps⟩ := List.forall_mem_cons.mp hps
    rw [List.flatten_cons, glyphs_append, lineGlyphs_cons]
    exact List.rel_append (forall₂_setAs_of_ink hp (Or.inl (List.mem_singleton_self _))) (ih hps _)

/-- A word that is cut is set by setting its pieces, each of which begins a line. -/
theorem setWordAs_pieces {max : Nat} (hwide : max < columns w) (gap : List Char) :
    SetWordAs max (gap, w) (lineGlyphs (pieces max w)) where
  setAs := by
    have hps : ∀ p ∈ pieces max w, ∀ c ∈ p, isBlank c = false := fun p => ink_of_mem_pieces hw
    have hset := forall₂_setAs_flatten hps gap
    rwa [flatten_pieces] at hset
  whole := fun hfits => absurd hfits (Nat.not_le.mpr hwide)

include hne

/-- The last piece of a word has no white space at its end. -/
theorem gapAfter_getLastD_pieces (max : Nat) (gap : List Char) :
    gapAfter gap ((pieces max w).getLastD []) = [] := by
  have hps : pieces max w ≠ [] := pieces_ne_nil hne
  have hmem : (pieces max w).getLastD [] ∈ pieces max w := by
    rw [List.getLastD_eq_getLast?, List.getLast?_eq_getLast_of_ne_nil hps, Option.getD_some]
    exact List.getLast_mem hps
  exact gapAfter_of_ink (ink_of_mem_pieces hw hmem) (ne_nil_of_mem_pieces hmem) gap

end Words

/-! ### Packing -/

/-- A word that joins a line stands behind a single space. -/
theorem glyphs_line_append_space {line : List Char} (h : gapAfter ['\n'] line = [])
    (cs : List Char) :
    glyphs ['\n'] (line ++ ' ' :: cs) = glyphs ['\n'] line ++ glyphs [' '] cs := by
  rw [glyphs_append, h, glyphs_cons_of_isBlank rfl, List.nil_append]

/-- Packing words sets each of them, behind the line that is being filled.  That line is empty, or
there is no white space at its end, so that it is a single space that parts it from the next
word. -/
theorem exists_glyphs_pack {max : Nat} {ws : List (List Char × List Char)}
    (hgaps : ∀ w ∈ ws, w.1 ≠ []) (hink : ∀ w ∈ ws, w.2 ≠ [] ∧ ∀ c ∈ w.2, isBlank c = false)
    {line : List Char} (hline : line = [] ∨ gapAfter ['\n'] line = []) :
    ∃ gss, lineGlyphs (pack max line (ws.map Prod.snd)) = glyphs ['\n'] line ++ gss.flatten
      ∧ List.Forall₂ (SetWordAs max) ws gss := by
  induction ws generalizing line with
  | nil =>
    refine ⟨[], ?_, .nil⟩
    rw [List.map_nil, pack_nil, lineGlyphs_finished, List.flatten_nil, List.append_nil]
  | cons w ws ih =>
    obtain ⟨gap, w⟩ := w
    obtain ⟨hgap, hgaps⟩ := List.forall_mem_cons.mp hgaps
    obtain ⟨⟨hne, hw⟩, hink⟩ := List.forall_mem_cons.mp hink
    have hend : gapAfter ['\n'] w = [] := gapAfter_of_ink hw hne _
    have hbegins : SetWordAs max (gap, w) (glyphs ['\n'] w) :=
      setWordAs_of_ink hw max (Or.inl (List.mem_singleton_self _))
    rw [List.map_cons, pack_cons]
    split
    · -- the pieces of the word begin lines, and the line goes on behind the last one
      next hwide =>
      have hlast : gapAfter ['\n'] ((pieces max w).getLastD []) = [] :=
        gapAfter_getLastD_pieces hw hne max _
      obtain ⟨gss, hgss, hset⟩ := ih hgaps hink (Or.inr hlast)
      refine ⟨lineGlyphs (pieces max w) :: gss, ?_, .cons (setWordAs_pieces hw hwide gap) hset⟩
      rw [lineGlyphs_append, lineGlyphs_append, lineGlyphs_finished, hgss, List.flatten_cons,
        ← lineGlyphs_dropLast_append (pieces_ne_nil hne)]
      simp only [List.append_assoc]
    split
    · next hempty =>
      obtain ⟨gss, hgss, hset⟩ := ih hgaps hink (Or.inr hend)
      refine ⟨glyphs ['\n'] w :: gss, ?_, .cons hbegins hset⟩
      rw [hgss, List.isEmpty_iff.mp hempty, glyphs_nil, List.nil_append, List.flatten_cons]
    next hfilled =>
    have hspace : gapAfter ['\n'] line = [] :=
      hline.resolve_left fun h => hfilled (List.isEmpty_iff.mpr h)
    split
    · -- the word joins the line behind a space
      have hafter : gapAfter ['\n'] (line ++ ' ' :: w) = [] := by
        rw [gapAfter_append, gapAfter_cons_of_isBlank rfl, gapAfter_of_ink hw hne]
      obtain ⟨gss, hgss, hset⟩ := ih hgaps hink (Or.inr hafter)
      have hjoins : SetWordAs max (gap, w) (glyphs [' '] w) :=
        setWordAs_of_ink hw max (Or.inr (if_neg hgap).symm)
      refine ⟨glyphs [' '] w :: gss, ?_, .cons hjoins hset⟩
      rw [hgss, glyphs_line_append_space hspace, List.append_assoc, List.flatten_cons]
    · obtain ⟨gss, hgss, hset⟩ := ih hgaps hink (Or.inr hend)
      refine ⟨glyphs ['\n'] w :: gss, ?_, .cons hbegins hset⟩
      rw [lineGlyphs_cons, hgss, List.flatten_cons]

/-! ### Labels -/

/-- The glyphs of a text, which stands behind white space, and those that its words are set as. -/
def SetWordwise (max : Nat) (text : List Char) (gs hs : List Glyph) : Prop :=
  ∃ ws gss, ws.map Prod.snd = words text ∧ (∀ w ∈ ws, w.1 ≠ []) ∧ gs = wordGlyphs ws
    ∧ hs = gss.flatten ∧ List.Forall₂ (SetWordAs max) ws gss

/-- White space parts the words of two texts. -/
theorem SetWordwise.append_cons {max : Nat} {a b : List Char} {c : Char} (hc : isBlank c = true)
    {gs hs gs' hs' : List Glyph} (ha : SetWordwise max a gs hs) (hb : SetWordwise max b gs' hs') :
    SetWordwise max (a ++ c :: b) (gs ++ gs') (hs ++ hs') := by
  obtain ⟨ws, gss, hws, hgaps, rfl, rfl, hset⟩ := ha
  obtain ⟨ws', gss', hws', hgaps', rfl, rfl, hset'⟩ := hb
  refine ⟨ws ++ ws', gss ++ gss', ?_, ?_, ?_, ?_, List.rel_append hset hset'⟩
  · rw [List.map_append, hws, hws', words_append_cons_of_isBlank hc]
  · exact List.forall_mem_append.mpr ⟨hgaps, hgaps'⟩
  · exact List.flatMap_append.symm
  · exact List.flatten_append.symm

/-- Glyphs that are set word by word are set one by one. -/
theorem forall₂_setAs_of_words {max : Nat} {ws : List (List Char × List Char)}
    {gss : List (List Glyph)} (h : List.Forall₂ (SetWordAs max) ws gss) :
    List.Forall₂ SetAs (wordGlyphs ws) gss.flatten := by
  induction h with
  | nil => exact .nil
  | cons hw _ ih =>
    rw [wordGlyphs_cons, List.flatten_cons]
    exact List.rel_append hw.setAs ih

/-- A stretch of glyphs without white space in it is set without any, if the word that it is part of
is not too wide for a line. -/
theorem exists_whole_stretch {max : Nat} {text : List Char} {x : Glyph} {gs xs hs hs' : List Glyph}
    (hset : SetWordwise max text (gs ++ (x :: xs ++ hs)) hs') (hxs : ∀ z ∈ xs, z.gap = [])
    (hfits : ∀ w ∈ words text, x.char ∈ w → columns w ≤ max) :
    ∃ gs' y ys rest, hs' = gs' ++ (y :: ys ++ rest) ∧ gs'.length = gs.length
      ∧ (y :: ys).length = (x :: xs).length ∧ ∀ z ∈ ys, z.gap = [] := by
  obtain ⟨ws, gss, hws, hgaps, hglyphs, rfl, hset⟩ := hset
  obtain ⟨ws₁, w, ws₂, a, b, rfl, rfl, hw⟩ := exists_word_of_stretch hgaps hxs hglyphs.symm
  have hx : x.char ∈ w.2 := by
    have hchar : x.char ∈ ink w.2 := by
      rw [← map_char_glyphs w.1, hw]
      simp
    exact List.mem_of_mem_filter hchar
  have hmem : w.2 ∈ words text := by
    rw [← hws]
    exact List.mem_map_of_mem (List.mem_append_right ws₁ List.mem_cons_self)
  obtain ⟨gss₁, gss₂, rfl, hset₁, hset₂⟩ := exists_append_of_forall₂ hset
  obtain _ | ⟨hword, -⟩ := hset₂
  rename_i set gss₂
  have hsetAs := hword.setAs
  rw [hw] at hsetAs
  obtain ⟨a', set', rfl, ha, hset'⟩ := exists_append_of_forall₂ hsetAs
  obtain ⟨ys, b', rfl, hys, -⟩ := exists_append_of_forall₂ hset'
  cases ys with
  | nil => cases hys
  | cons y ys =>
    refine ⟨gss₁.flatten ++ a', y, ys, b' ++ gss₂.flatten, ?_, ?_, hys.length_eq.symm, ?_⟩
    · simp only [List.flatten_append, List.flatten_cons, List.append_assoc]
    · rw [List.length_append, List.length_append, ← ha.length_eq,
        (forall₂_setAs_of_words hset₁).length_eq]
    · intro z hz
      apply hword.whole (hfits w.2 hmem hx)
      cases a' with
      | nil => exact List.mem_append_left b' hz
      | cons _ a' =>
        exact List.mem_append_right a' (List.mem_append_left b' (List.mem_cons_of_mem y hz))

theorem lineGlyphs_wrapParagraph (max : Nat) (paragraph : List Char) :
    lineGlyphs (wrapParagraph max paragraph) = lineGlyphs (pack max [] (words paragraph)) := by
  unfold wrapParagraph
  split
  · next hnone =>
    rw [hnone]
    rfl
  · rfl

/-- The words of a paragraph are set by wrapping it. -/
theorem setWordwise_wrapParagraph (max : Nat) {gap : List Char} (hgap : gap ≠ [])
    (paragraph : List Char) :
    SetWordwise max paragraph (glyphs gap paragraph)
      (lineGlyphs (wrapParagraph max paragraph)) := by
  obtain ⟨ws, hws, hgaps, hglyphs⟩ := exists_gapped_words gap hgap paragraph
  have hink : ∀ w ∈ ws, w.2 ≠ [] ∧ ∀ c ∈ w.2, isBlank c = false := by
    intro w hw
    have hmem : w.2 ∈ words paragraph := hws ▸ List.mem_map_of_mem hw
    exact ⟨ne_nil_of_mem_words hmem, ink_of_mem_words hmem⟩
  obtain ⟨gss, hgss, hset⟩ := exists_glyphs_pack hgaps hink (Or.inl (rfl : ([] : List Char) = []))
  refine ⟨ws, gss, hws, hgaps, hglyphs, ?_, hset⟩
  rw [lineGlyphs_wrapParagraph, ← hws, hgss, glyphs_nil, List.nil_append]

/-- The words of paragraphs that are parted by line feeds are set by wrapping each of them. -/
theorem setWordwise_intercalate (max : Nat) (ps : List (List Char)) {gap : List Char}
    (hgap : gap ≠ []) :
    SetWordwise max (['\n'].intercalate ps) (glyphs gap (['\n'].intercalate ps))
      (lineGlyphs (ps.flatMap (wrapParagraph max))) := by
  induction ps generalizing gap with
  | nil => exact ⟨[], [], rfl, List.forall_mem_nil _, rfl, rfl, .nil⟩
  | cons p ps ih =>
    cases ps with
    | nil =>
      rw [List.intercalate_singleton, List.flatMap_singleton]
      exact setWordwise_wrapParagraph max hgap p
    | cons q qs =>
      rw [List.intercalate_cons_cons, List.append_assoc, List.singleton_append, glyphs_append,
        glyphs_cons_of_isBlank rfl, List.flatMap_cons, lineGlyphs_append]
      exact (setWordwise_wrapParagraph max hgap p).append_cons rfl (ih (by simp))

/-- The lines that a label which does not fit is set in. -/
def setLines (max : Nat) (text : List Char) : List (List Char) :=
  (text.splitOn '\n').flatMap (wrapParagraph max)

/-- **How the words of a wrapped label are set.**  They are those of the label, in order, and stay
whole unless they are wider than a line. -/
theorem setWordwise_setLines (max : Nat) (text : List Char) :
    SetWordwise max text (glyphs ['\n'] text) (lineGlyphs (setLines max text)) := by
  have hset := setWordwise_intercalate max (text.splitOn '\n') (List.cons_ne_nil '\n' [])
  rwa [List.intercalate_splitOn] at hset

/-- How the glyphs of a wrapped label are set: they are those of the label, in order, each set in
one of the three ways. -/
theorem setAs_setLines (max : Nat) (text : List Char) :
    List.Forall₂ SetAs (glyphs ['\n'] text) (lineGlyphs (setLines max text)) := by
  obtain ⟨ws, gss, -, -, hglyphs, hlines, hset⟩ := setWordwise_setLines max text
  rw [hglyphs, hlines]
  exact forall₂_setAs_of_words hset

theorem map_char_of_setAs {gs hs : List Glyph} (h : List.Forall₂ SetAs gs hs) :
    hs.map Glyph.char = gs.map Glyph.char := by
  induction h with
  | nil => rfl
  | cons hxy _ ih => rw [List.map_cons, List.map_cons, hxy.char_eq, ih]

/-- Wrapping loses no ink. -/
theorem ink_flatten_setLines (max : Nat) (text : List Char) :
    ink (setLines max text).flatten = ink text := by
  rw [← map_char_lineGlyphs, map_char_of_setAs (setAs_setLines max text), map_char_glyphs]

end FlowCanvas
