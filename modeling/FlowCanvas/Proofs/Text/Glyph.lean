import FlowCanvas.Proofs.Text.Reflow

/-!
# The glyphs of a text

Wrapping a label leaves its characters in order and changes the white space between them.  To say
what becomes of each gap, a text is taken apart into *glyphs*: the characters that are not white
space, each with the white space before it.

## Main definitions

* `ink` — a text without its white space.
* `Glyph`, `glyphs` — the characters of a text with the white space before them.
* `wordGlyphs` — the glyphs of words.

## Main results

* `glyphs_append`, `exists_append_of_glyphs` — putting texts together, and taking them apart.
* `glyphText_glyphs` — the text of its glyphs.
* `exists_gapped_words` — the glyphs of a text, word by word.
-/

namespace FlowCanvas

/-! ### Glyphs -/

/-- A text without its white space. -/
def ink (cs : List Char) : List Char := cs.filter fun c => !isBlank c

@[simp] theorem ink_append (a b : List Char) : ink (a ++ b) = ink a ++ ink b :=
  List.filter_append ..

/-- A character that is not white space, and the white space before it. -/
structure Glyph where
  gap : List Char
  char : Char
  deriving DecidableEq, Repr, Inhabited

/-- The glyphs of a text that stands behind some white space. -/
def glyphs (gap : List Char) : List Char → List Glyph
  | [] => []
  | c :: cs => if isBlank c then glyphs (gap ++ [c]) cs else ⟨gap, c⟩ :: glyphs [] cs

/-- The white space at the end of a text that stands behind some white space. -/
def gapAfter (gap : List Char) : List Char → List Char
  | [] => gap
  | c :: cs => gapAfter (if isBlank c then gap ++ [c] else []) cs

@[simp] theorem glyphs_nil (gap : List Char) : glyphs gap [] = [] := rfl

theorem glyphs_cons_of_isBlank {c : Char} (h : isBlank c = true) (gap cs : List Char) :
    glyphs gap (c :: cs) = glyphs (gap ++ [c]) cs := if_pos h

theorem glyphs_cons_of_ink {c : Char} (h : isBlank c = false) (gap cs : List Char) :
    glyphs gap (c :: cs) = ⟨gap, c⟩ :: glyphs [] cs := if_neg (by simp [h])

@[simp] theorem gapAfter_nil (gap : List Char) : gapAfter gap [] = gap := rfl

theorem gapAfter_cons_of_isBlank {c : Char} (h : isBlank c = true) (gap cs : List Char) :
    gapAfter gap (c :: cs) = gapAfter (gap ++ [c]) cs := by
  show gapAfter (if isBlank c then gap ++ [c] else []) cs = _
  rw [if_pos h]

theorem gapAfter_cons_of_ink {c : Char} (h : isBlank c = false) (gap cs : List Char) :
    gapAfter gap (c :: cs) = gapAfter [] cs := by
  show gapAfter (if isBlank c then gap ++ [c] else []) cs = _
  rw [if_neg (by simp [h])]

/-- The glyphs of two texts, the second of which stands behind the white space of the first. -/
theorem glyphs_append (gap a b : List Char) :
    glyphs gap (a ++ b) = glyphs gap a ++ glyphs (gapAfter gap a) b := by
  induction a generalizing gap with
  | nil => rfl
  | cons c cs ih =>
    by_cases hc : isBlank c = true
    · rw [List.cons_append, glyphs_cons_of_isBlank hc, glyphs_cons_of_isBlank hc,
        gapAfter_cons_of_isBlank hc, ih]
    · rw [Bool.not_eq_true] at hc
      rw [List.cons_append, glyphs_cons_of_ink hc, glyphs_cons_of_ink hc, gapAfter_cons_of_ink hc,
        ih, List.cons_append]

theorem glyphs_append_append (gap a b c : List Char) :
    glyphs gap (a ++ b ++ c) = glyphs gap a
      ++ (glyphs (gapAfter gap a) b ++ glyphs (gapAfter (gapAfter gap a) b) c) := by
  rw [List.append_assoc, glyphs_append, glyphs_append]

theorem gapAfter_append (gap a b : List Char) :
    gapAfter gap (a ++ b) = gapAfter (gapAfter gap a) b := by
  induction a generalizing gap with
  | nil => rfl
  | cons c cs ih => exact ih _

theorem glyphs_blanks_append {blanks : List Char} (h : ∀ c ∈ blanks, isBlank c = true)
    (gap cs : List Char) : glyphs gap (blanks ++ cs) = glyphs (gap ++ blanks) cs := by
  induction blanks generalizing gap with
  | nil => rw [List.nil_append, List.append_nil]
  | cons c blanks ih =>
    obtain ⟨hc, hblanks⟩ := List.forall_mem_cons.mp h
    rw [List.cons_append, glyphs_cons_of_isBlank hc, ih hblanks, List.append_assoc,
      List.singleton_append]

/-- The characters of the glyphs of a text are its ink. -/
theorem map_char_glyphs (gap cs : List Char) : (glyphs gap cs).map Glyph.char = ink cs := by
  induction cs generalizing gap with
  | nil => rfl
  | cons c cs ih =>
    by_cases hc : isBlank c = true
    · rw [glyphs_cons_of_isBlank hc, ih, ink, ink, List.filter_cons_of_neg (by simp [hc])]
    · rw [Bool.not_eq_true] at hc
      rw [glyphs_cons_of_ink hc, List.map_cons, ih, ink, ink,
        List.filter_cons_of_pos (by simp [hc])]

theorem length_glyphs (gap cs : List Char) : (glyphs gap cs).length = (ink cs).length := by
  rw [← map_char_glyphs gap cs, List.length_map]

/-- Before a glyph stands white space of the text or before it. -/
theorem gap_subset_of_mem_glyphs {gap cs : List Char} {y : Glyph} (h : y ∈ glyphs gap cs) :
    ∀ c ∈ y.gap, c ∈ gap ∨ c ∈ cs ∧ isBlank c = true := by
  induction cs generalizing gap with
  | nil => exact absurd h List.not_mem_nil
  | cons x cs ih =>
    intro c hc
    by_cases hx : isBlank x = true
    · rw [glyphs_cons_of_isBlank hx] at h
      rcases ih h c hc with hgap | ⟨hcs, hblank⟩
      · rcases List.mem_append.mp hgap with hgap | hgap
        · exact Or.inl hgap
        · rw [List.mem_singleton.mp hgap]
          exact Or.inr ⟨List.mem_cons_self, hx⟩
      · exact Or.inr ⟨List.mem_cons_of_mem x hcs, hblank⟩
    · rw [Bool.not_eq_true] at hx
      rw [glyphs_cons_of_ink hx] at h
      rcases List.mem_cons.mp h with rfl | h
      · exact Or.inl hc
      · rcases ih h c hc with hgap | ⟨hcs, hblank⟩
        · exact absurd hgap List.not_mem_nil
        · exact Or.inr ⟨List.mem_cons_of_mem x hcs, hblank⟩

/-- Before the first glyph stands at least the white space before the text. -/
theorem gap_prefix_of_head?_glyphs {gap cs : List Char} {y : Glyph}
    (h : y ∈ (glyphs gap cs).head?) : gap <+: y.gap := by
  induction cs generalizing gap with
  | nil => exact absurd h (Option.not_mem_none y)
  | cons c cs ih =>
    by_cases hc : isBlank c = true
    · rw [glyphs_cons_of_isBlank hc] at h
      exact (List.prefix_append gap [c]).trans (ih h)
    · rw [Bool.not_eq_true] at hc
      rw [glyphs_cons_of_ink hc] at h
      rw [← Option.some.inj h]

/-- Glyphs as a text. -/
def glyphText (gs : List Glyph) : List Char := gs.flatMap fun y => y.gap ++ [y.char]

/-- The glyphs of a text, with the white space at its end, are the text. -/
theorem glyphText_glyphs (gap cs : List Char) :
    glyphText (glyphs gap cs) ++ gapAfter gap cs = gap ++ cs := by
  induction cs generalizing gap with
  | nil => simp [glyphText]
  | cons c cs ih =>
    by_cases hc : isBlank c = true
    · rw [glyphs_cons_of_isBlank hc, gapAfter_cons_of_isBlank hc, ih, List.append_assoc,
        List.singleton_append]
    · rw [Bool.not_eq_true] at hc
      have hrest := ih []
      rw [List.nil_append] at hrest
      rw [glyphs_cons_of_ink hc, gapAfter_cons_of_ink hc]
      show ((gap ++ [c]) ++ glyphText (glyphs [] cs)) ++ gapAfter [] cs = gap ++ c :: cs
      rw [List.append_assoc, hrest, List.append_assoc, List.singleton_append]

/-- Where the glyphs of a text are taken apart, the text can be. -/
theorem exists_append_of_glyphs {gap cs : List Char} {gs hs : List Glyph}
    (h : glyphs gap cs = gs ++ hs) :
    ∃ a b, cs = a ++ b ∧ glyphs gap a = gs ∧ glyphs (gapAfter gap a) b = hs := by
  induction cs generalizing gap gs with
  | nil =>
    obtain ⟨rfl, rfl⟩ := List.append_eq_nil_iff.mp h.symm
    exact ⟨[], [], rfl, rfl, rfl⟩
  | cons c cs ih =>
    by_cases hc : isBlank c = true
    · rw [glyphs_cons_of_isBlank hc] at h
      obtain ⟨a, b, rfl, ha, hb⟩ := ih h
      exact ⟨c :: a, b, rfl, by rw [glyphs_cons_of_isBlank hc, ha],
        by rw [gapAfter_cons_of_isBlank hc, hb]⟩
    · rw [Bool.not_eq_true] at hc
      cases gs with
      | nil => exact ⟨[], c :: cs, rfl, rfl, h⟩
      | cons y gs =>
        rw [glyphs_cons_of_ink hc, List.cons_append] at h
        obtain ⟨rfl, hrest⟩ := List.cons.inj h
        obtain ⟨a, b, rfl, ha, hb⟩ := ih hrest
        exact ⟨c :: a, b, rfl, by rw [glyphs_cons_of_ink hc, ha],
          by rw [gapAfter_cons_of_ink hc, hb]⟩

/-- The first glyph of a text stands behind white space, and before the other glyphs. -/
theorem exists_of_glyphs_eq_cons {gap cs : List Char} {y : Glyph} {gs : List Glyph}
    (h : glyphs gap cs = y :: gs) :
    ∃ blanks tail, cs = blanks ++ y.char :: tail ∧ (∀ c ∈ blanks, isBlank c = true)
      ∧ glyphs [] tail = gs := by
  induction cs generalizing gap with
  | nil => simp at h
  | cons c cs ih =>
    by_cases hc : isBlank c = true
    · rw [glyphs_cons_of_isBlank hc] at h
      obtain ⟨blanks, tail, rfl, hblanks, htail⟩ := ih h
      exact ⟨c :: blanks, tail, rfl, List.forall_mem_cons.mpr ⟨hc, hblanks⟩, htail⟩
    · rw [Bool.not_eq_true] at hc
      rw [glyphs_cons_of_ink hc] at h
      obtain ⟨rfl, hrest⟩ := List.cons.inj h
      exact ⟨[], cs, rfl, fun c hc => absurd hc List.not_mem_nil, hrest⟩

/-- A text that ends with ink has no white space at its end. -/
theorem gapAfter_concat_of_ink {c : Char} (h : isBlank c = false) (gap cs : List Char) :
    gapAfter gap (cs ++ [c]) = [] := by
  rw [gapAfter_append, gapAfter_cons_of_ink h, gapAfter_nil]

theorem gapAfter_of_ink {w : List Char} (hw : ∀ c ∈ w, isBlank c = false) (hne : w ≠ [])
    (gap : List Char) : gapAfter gap w = [] := by
  rw [← List.dropLast_append_getLast hne]
  exact gapAfter_concat_of_ink (hw _ (List.getLast_mem hne)) gap _

/-! ### Words -/

theorem words_append_cons_of_isBlank {c : Char} (h : isBlank c = true) (a b : List Char) :
    words (a ++ c :: b) = words a ++ words b := by
  unfold words
  rw [List.splitOnP_append_cons a b h, List.filter_append]

theorem words_of_ink {w : List Char} (hw : ∀ c ∈ w, isBlank c = false) (hne : w ≠ []) :
    words w = [w] := by
  unfold words
  rw [List.splitOnP_eq_singleton hw]
  simpa using hne

/-- A word goes on up to the next white space. -/
theorem words_append_of_ink {w rest : List Char} (hw : ∀ c ∈ w, isBlank c = false) (hne : w ≠ [])
    (hrest : rest = [] ∨ ∃ b tail, rest = b :: tail ∧ isBlank b = true) :
    words (w ++ rest) = w :: words rest := by
  rcases hrest with rfl | ⟨b, tail, rfl, hb⟩
  · rw [List.append_nil, words_of_ink hw hne]
    rfl
  · have htail : words (b :: tail) = words tail := words_append_cons_of_isBlank hb [] tail
    rw [words_append_cons_of_isBlank hb, words_of_ink hw hne, htail, List.singleton_append]

/-- Words have no white space in them. -/
theorem ink_of_mem_words {cs w : List Char} (h : w ∈ words cs) : ∀ c ∈ w, isBlank c = false := by
  intro c hc
  have hmem : c ∈ (words cs).flatten := List.mem_flatten_of_mem h hc
  rw [flatten_words] at hmem
  simpa using (List.mem_filter.mp hmem).2

/-- The glyphs of words, each of which stands behind some white space. -/
def wordGlyphs (ws : List (List Char × List Char)) : List Glyph :=
  ws.flatMap fun w => glyphs w.1 w.2

@[simp] theorem wordGlyphs_nil : wordGlyphs [] = [] := rfl

@[simp] theorem wordGlyphs_cons (w : List Char × List Char) (ws : List (List Char × List Char)) :
    wordGlyphs (w :: ws) = glyphs w.1 w.2 ++ wordGlyphs ws := List.flatMap_cons

/-- A text that begins with ink begins with a word, which goes on up to the next white space. -/
theorem exists_word_append {c : Char} (hc : isBlank c = false) (cs : List Char) :
    ∃ w rest, c :: cs = w ++ rest ∧ w ≠ [] ∧ (∀ d ∈ w, isBlank d = false)
      ∧ (rest = [] ∨ ∃ b tail, rest = b :: tail ∧ isBlank b = true) := by
  refine ⟨(c :: cs).takeWhile fun d => !isBlank d, (c :: cs).dropWhile fun d => !isBlank d,
    List.takeWhile_append_dropWhile.symm, by simp [hc], ?_, ?_⟩
  · intro d hd
    simpa using List.mem_takeWhile_imp hd
  · have hstop : Stops (fun d => !isBlank d) ((c :: cs).dropWhile fun d => !isBlank d) :=
      stops_dropWhile _ _
    cases hrest : (c :: cs).dropWhile (fun d => !isBlank d) with
    | nil => exact Or.inl rfl
    | cons b tail =>
      rw [hrest, stops_cons] at hstop
      exact Or.inr ⟨b, tail, rfl, by simpa using hstop⟩

/-- The glyphs of a text, word by word.  If there is white space before the text, there is some
before each of its words. -/
theorem exists_gapped_words (gap : List Char) (hgap : gap ≠ []) (cs : List Char) :
    ∃ ws : List (List Char × List Char), ws.map Prod.snd = words cs ∧ (∀ w ∈ ws, w.1 ≠ [])
      ∧ glyphs gap cs = wordGlyphs ws := by
  -- by induction on the length of the text, since a whole word is taken at once
  induction hn : cs.length using Nat.strong_induction_on generalizing gap cs with
  | _ n ih =>
    cases cs with
    | nil => exact ⟨[], rfl, fun _ hw => absurd hw List.not_mem_nil, rfl⟩
    | cons c cs =>
      by_cases hc : isBlank c = true
      · have hshort : cs.length < n := by
          rw [← hn]
          exact Nat.lt_succ_self _
        obtain ⟨ws, hws, hgaps, hglyphs⟩ := ih cs.length hshort (gap ++ [c]) (by simp) cs rfl
        refine ⟨ws, ?_, hgaps, ?_⟩
        · have hwords : words (c :: cs) = words cs := words_append_cons_of_isBlank hc [] cs
          rw [hws, hwords]
        · rw [glyphs_cons_of_isBlank hc, hglyphs]
      rw [Bool.not_eq_true] at hc
      obtain ⟨w, rest, hspan, hne, hink, hrest⟩ := exists_word_append hc cs
      rw [hspan] at hn ⊢
      rcases hrest with rfl | ⟨b, tail, rfl, hb⟩
      · rw [List.append_nil]
        exact ⟨[(gap, w)], by simp [words_of_ink hink hne], by simpa using hgap, by simp⟩
      · have hshort : tail.length < n := by
          rw [← hn, List.length_append, List.length_cons]
          omega
        obtain ⟨ws, hws, hgaps, hglyphs⟩ := ih tail.length hshort [b] (by simp) tail rfl
        refine ⟨(gap, w) :: ws, ?_, List.forall_mem_cons.mpr ⟨hgap, hgaps⟩, ?_⟩
        · rw [words_append_cons_of_isBlank hb, words_of_ink hink hne, ← hws]
          rfl
        · rw [glyphs_append, gapAfter_of_ink hink hne, glyphs_cons_of_isBlank hb,
            List.nil_append, hglyphs, wordGlyphs_cons]

/-- A word begins behind white space. -/
theorem gap_ne_nil_of_wordGlyphs {ws : List (List Char × List Char)} (hgaps : ∀ w ∈ ws, w.1 ≠ [])
    {z : Glyph} {gs : List Glyph} (h : wordGlyphs ws = z :: gs) : z.gap ≠ [] := by
  induction ws with
  | nil => exact absurd h.symm (List.cons_ne_nil _ _)
  | cons w ws ih =>
    obtain ⟨hgap, hgaps⟩ := List.forall_mem_cons.mp hgaps
    rw [wordGlyphs_cons] at h
    cases hw : glyphs w.1 w.2 with
    | nil =>
      rw [hw, List.nil_append] at h
      exact ih hgaps h
    | cons y ys =>
      rw [hw, List.cons_append] at h
      obtain ⟨rfl, -⟩ := List.cons.inj h
      have hprefix : w.1 <+: y.gap := gap_prefix_of_head?_glyphs (by rw [hw]; rfl)
      intro hnone
      rw [hnone, List.prefix_nil] at hprefix
      exact hgap hprefix

/-- A stretch of glyphs without white space in it is part of one word. -/
theorem exists_word_of_stretch {ws : List (List Char × List Char)} (hgaps : ∀ w ∈ ws, w.1 ≠ [])
    {x : Glyph} {xs : List Glyph} (hxs : ∀ z ∈ xs, z.gap = []) {gs hs : List Glyph}
    (h : wordGlyphs ws = gs ++ (x :: xs ++ hs)) :
    ∃ ws₁ w ws₂ a b, ws = ws₁ ++ w :: ws₂ ∧ gs = wordGlyphs ws₁ ++ a
      ∧ glyphs w.1 w.2 = a ++ (x :: xs ++ b) := by
  induction ws generalizing gs with
  | nil => exact absurd h.symm (by simp)
  | cons w ws ih =>
    obtain ⟨hgap, hgaps⟩ := List.forall_mem_cons.mp hgaps
    have hbehind : ∀ more, gs = glyphs w.1 w.2 ++ more → wordGlyphs ws = more ++ (x :: xs ++ hs) →
        ∃ ws₁ v ws₂ a b, w :: ws = ws₁ ++ v :: ws₂ ∧ gs = wordGlyphs ws₁ ++ a
          ∧ glyphs v.1 v.2 = a ++ (x :: xs ++ b) := by
      intro more hgs hmore
      obtain ⟨ws₁, v, ws₂, a, b, rfl, rfl, hv⟩ := ih hgaps hmore
      exact ⟨w :: ws₁, v, ws₂, a, b, rfl, by rw [hgs, wordGlyphs_cons, List.append_assoc], hv⟩
    rw [wordGlyphs_cons] at h
    rcases List.append_eq_append_iff.mp h with ⟨more, hgs, hmore⟩ | ⟨more, hword, hmore⟩
    · exact hbehind more hgs hmore
    cases more with
    | nil =>
      rw [List.append_nil] at hword
      exact hbehind [] (by rw [hword, List.append_nil]) hmore.symm
    | cons x' more =>
      obtain ⟨rfl, hrest⟩ := List.cons.inj hmore
      -- the word goes on to the end of the stretch, since the next one begins behind white space
      rcases List.append_eq_append_iff.mp hrest with ⟨b, rfl, -⟩ | ⟨b, hlong, hnext⟩
      · exact ⟨[], w, ws, gs, b, rfl, rfl, hword⟩
      cases b with
      | nil =>
        rw [List.append_nil] at hlong
        exact ⟨[], w, ws, gs, [], rfl, rfl, by rw [hword, hlong, List.append_nil]⟩
      | cons z b =>
        have hz : z.gap = [] := hxs z (by rw [hlong]; simp)
        exact absurd hz (gap_ne_nil_of_wordGlyphs hgaps hnext)

end FlowCanvas
