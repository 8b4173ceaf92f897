import FlowCanvas.Proofs.Text.TagLike

/-!
# Tags that are kept

Wrapping a label knows nothing of the break tags that are already in it.  It parts words at white
space and cuts them where the columns are used up, so it may end a line inside a tag, and where it
leaves out white space before a stroke it may make a tag of what was none.  Both happen only at a
stretch of the label that reads `<br>` or `<br/>` when white space before the stroke is left out.
Such a stretch is a tag in the wrapped label exactly if no line ends in it.  So all tags are kept,
and none are made, exactly if a line ends in each of these stretches that is not a tag, and in no
other (`flatMap_marks_setLines_eq_iff`); and then the same is read of the wrapped label as of the
label.

## Main definitions

* `LineEndsIn` — a line ends inside a stretch of a wrapped label.
* `KeepsTags` — wrapping a label tears none of its break tags and makes none.

## Main results

* `newline_mem_gap_iff`, `lineEndsIn_iff` — lines end where a glyph stands behind a line feed.
* `exists_tagLike_of_drop` — where glyphs read like a tag, there is such a stretch in the text.
* `keepsTags_of_words` — a condition on the words of a label that keeps its tags.
* `visible_wrap_of_keepsTags` — **what is read of a wrapped label.**
-/

namespace FlowCanvas

/-! ### Ends of lines -/

/-- The lines of a label have no line feed in them. -/
theorem notMem_of_mem_setLines {max : Nat} {text l : List Char} (h : l ∈ setLines max text) :
    '\n' ∉ l := by
  obtain ⟨p, hp, hl⟩ := List.mem_flatMap.mp h
  have hfeed : ¬ ['\n'] <:+: p := by
    rw [List.singleton_infix_iff]
    exact notMem_of_mem_splitOn hp
  rw [← List.singleton_infix_iff]
  exact not_infix_of_mem_wrapParagraph (by decide) (List.cons_ne_nil _ _) hfeed l hl

/-- In a line no glyph but the first stands behind a line feed. -/
theorem newline_notMem_gap_of_line {l : List Char} (hl : '\n' ∉ l) {gap : List Char} {x y : Glyph}
    {gs hs : List Glyph} (h : glyphs gap l = x :: gs ++ y :: hs) : '\n' ∉ y.gap := by
  rw [List.cons_append] at h
  obtain ⟨blanks, tail, rfl, -, htail⟩ := exists_of_glyphs_eq_cons h
  have hy : y ∈ glyphs [] tail := by
    rw [htail]
    exact List.mem_append_right gs List.mem_cons_self
  intro hgap
  rcases gap_subset_of_mem_glyphs hy _ hgap with hmem | ⟨hmem, -⟩
  · exact List.not_mem_nil hmem
  · exact hl (List.mem_append_right blanks (List.mem_cons_of_mem _ hmem))

/-- The glyphs behind a line feed are those before which a line ends. -/
theorem newline_mem_gap_iff {ls : List (List Char)} (hls : ∀ l ∈ ls, '\n' ∉ l) {y : Glyph}
    {gs hs : List Glyph} (h : lineGlyphs ls = gs ++ y :: hs) :
    '\n' ∈ y.gap ↔ ∃ ls₁ ls₂, ls = ls₁ ++ ls₂ ∧ lineGlyphs ls₁ = gs := by
  constructor
  · intro hgap
    induction ls generalizing gs with
    | nil => exact absurd h.symm (by simp [lineGlyphs])
    | cons l ls ih =>
      obtain ⟨hl, hls⟩ := List.forall_mem_cons.mp hls
      have hsplit := h
      rw [lineGlyphs_cons] at hsplit
      rcases List.append_eq_append_iff.mp hsplit with ⟨more, hgs, hrest⟩ | ⟨more, hline, hrest⟩
      · -- the glyph stands in a later line
        obtain ⟨ls₁, ls₂, rfl, hls₁⟩ := ih hls hrest
        exact ⟨l :: ls₁, ls₂, rfl, by rw [lineGlyphs_cons, hls₁, hgs]⟩
      cases more with
      | nil =>
        rw [List.append_nil] at hline
        exact ⟨[l], ls, rfl, by rw [lineGlyphs_cons, hline]; exact List.append_nil gs⟩
      | cons z more =>
        obtain ⟨rfl, -⟩ := List.cons.inj hrest
        cases gs with
        | nil => exact ⟨[], l :: ls, rfl, rfl⟩
        | cons x gs => exact absurd hgap (newline_notMem_gap_of_line hl hline)
  · rintro ⟨ls₁, ls₂, rfl, rfl⟩
    rw [lineGlyphs_append] at h
    exact newline_mem_gap_of_lineGlyphs (List.append_cancel_left h)

/-- Somewhere inside the stretch `s`, which stands behind the text `before`, a line of the wrapped
label ends: up to there some of the ink of the stretch is set, but not all of it. -/
def LineEndsIn (max : Nat) (text before s : List Char) : Prop :=
  ∃ ls₁ ls₂, setLines max text = ls₁ ++ ls₂ ∧ (ink before).length < (ink ls₁.flatten).length
    ∧ (ink ls₁.flatten).length < (ink (before ++ s)).length

/-- A line ends inside a stretch if one of its glyphs but the first stands behind a line feed. -/
theorem lineEndsIn_iff {max : Nat} {text before s : List Char} {y : Glyph} {gs ys hs : List Glyph}
    (h : lineGlyphs (setLines max text) = gs ++ (y :: ys ++ hs))
    (hgs : gs.length = (ink before).length) (hys : (y :: ys).length = (ink s).length) :
    LineEndsIn max text before s ↔ ∃ z ∈ ys, '\n' ∈ z.gap := by
  have hfeeds : ∀ l ∈ setLines max text, '\n' ∉ l := fun l => notMem_of_mem_setLines
  unfold LineEndsIn
  simp only [← length_lineGlyphs, ink_append, List.length_append, ← hgs, ← hys]
  constructor
  · rintro ⟨ls₁, ls₂, hls, hmin, hmax⟩
    -- the lines up to there end behind some of the glyphs of the stretch, and before another one
    rw [hls, lineGlyphs_append] at h
    rcases List.append_eq_append_iff.mp h with ⟨more, hlong, -⟩ | ⟨set, hset, hrest⟩
    · rw [hlong, List.length_append] at hmin
      omega
    rcases List.append_eq_append_iff.mp hrest with ⟨more, hlong, -⟩ | ⟨behind, hys, hbehind⟩
    · rw [hset, hlong, List.length_append, List.length_append] at hmax
      omega
    rw [hset, List.length_append] at hmin hmax
    rw [hys, List.length_append] at hmax
    cases set with
    | nil => exact absurd hmin (by simp)
    | cons x set =>
      cases behind with
      | nil => exact absurd hmax (by simp)
      | cons z behind =>
        rw [List.cons_append] at hys
        have hz : z ∈ ys := by
          rw [(List.cons.inj hys).2]
          exact List.mem_append_right set List.mem_cons_self
        exact ⟨z, hz, newline_mem_gap_of_lineGlyphs hbehind⟩
  · rintro ⟨z, hz, hgap⟩
    obtain ⟨ys₁, ys₂, rfl⟩ := List.append_of_mem hz
    have hsplit : lineGlyphs (setLines max text) = (gs ++ y :: ys₁) ++ z :: (ys₂ ++ hs) := by
      rw [h]
      simp only [List.append_assoc, List.cons_append]
    obtain ⟨ls₁, ls₂, hls, hls₁⟩ := (newline_mem_gap_iff hfeeds hsplit).mp hgap
    refine ⟨ls₁, ls₂, hls, ?_, ?_⟩
    all_goals
      rw [hls₁]
      simp only [List.length_append, List.length_cons]
      omega

/-! ### Tags that are kept -/

section Stretches

variable {text before s after : List Char} (hs : IsTagLike s) (htext : text = before ++ s ++ after)
include hs htext

/-- Of the stretches of a label that read like tags, its tags are those that are one. -/
theorem beginsTag_drop_glyphs_iff :
    BeginsTag ((glyphs ['\n'] text).drop (ink before).length) ↔ IsBreakTag s := by
  rw [htext, glyphs_append_append, ← length_glyphs ['\n'] before, List.drop_left]
  exact beginsTag_glyphs_tagLike_iff hs _ _

/-- A stretch of a label that reads like a tag is set as one exactly if no line ends in it. -/
theorem beginsTag_drop_setLines_iff (max : Nat) :
    BeginsTag ((lineGlyphs (setLines max text)).drop (ink before).length)
      ↔ ¬ LineEndsIn max text before s := by
  obtain ⟨inner, hinner⟩ := hs.exists_eq
  have hset := setAs_setLines max text
  have hsplit := glyphs_append_append ['\n'] before s after
  rw [← htext] at hsplit
  rw [hsplit] at hset
  obtain ⟨gs, rest, hlines, hgs, hrest⟩ := exists_append_of_forall₂ hset
  obtain ⟨ys, hs', rfl, hys, -⟩ := exists_append_of_forall₂ hrest
  have hbefore : gs.length = (ink before).length := by
    rw [← hgs.length_eq, length_glyphs]
  cases ys with
  | nil =>
    rw [hinner, glyphs_cons_of_ink (by decide)] at hys
    cases hys
  | cons y ys =>
    have hstretch : (y :: ys).length = (ink s).length := by
      rw [← hys.length_eq, length_glyphs]
    rw [lineEndsIn_iff hlines hbefore hstretch, hlines, ← hbefore, List.drop_left,
      beginsTag_setAs_iff hs hys]
    simp only [not_exists, not_and]

end Stretches

/-- Where glyphs that read like a tag stand in a text, there is such a stretch. -/
theorem exists_tagLike_of_drop {text s gap : List Char} (hs : IsTagLike s) {n : Nat}
    {gs : List Glyph} (h : (glyphs ['\n'] text).drop n = glyphs gap s ++ gs) :
    ∃ before after, text = before ++ s ++ after ∧ (ink before).length = n := by
  obtain ⟨inner, rfl⟩ := hs.exists_eq
  rw [glyphs_cons_of_ink (by decide)] at h
  have hsplit := (List.take_append_drop n (glyphs ['\n'] text)).symm
  have hn : ((glyphs ['\n'] text).take n).length = n := by
    refine List.length_take_of_le (Nat.le_of_lt ?_)
    by_contra hlong
    rw [List.drop_eq_nil_of_le (Nat.not_lt.mp hlong)] at h
    exact absurd h.symm (List.cons_ne_nil _ _)
  rw [h] at hsplit
  obtain ⟨a, b, rfl, ha, hb⟩ := exists_append_of_glyphs hsplit
  obtain ⟨blanks, tail, rfl, hblanks, htail⟩ := exists_of_glyphs_eq_cons hb
  obtain ⟨after, rfl⟩ := prefix_of_glyphs (gapAfter_concat_of_ink (by decide) _ _) htail
  refine ⟨a ++ blanks, after, by simp, ?_⟩
  have hink : ink blanks = [] := List.filter_eq_nil_iff.mpr (by simpa using hblanks)
  rw [ink_append, hink, List.append_nil, ← length_glyphs, ha, hn]

/-- Wrapping a label tears none of its break tags and makes none: of the stretches that read like
tags, a line ends in those that are none, and in no others. -/
def KeepsTags (max : Nat) (text : List Char) : Prop :=
  ∀ before s after, text = before ++ s ++ after → IsTagLike s →
    (LineEndsIn max text before s ↔ ¬ IsBreakTag s)

/-- Tags begin at the same characters of a label and of its lines exactly if wrapping keeps its
tags. -/
theorem flatMap_marks_setLines_eq_iff (max : Nat) (text : List Char) :
    (setLines max text).flatMap marks = marks text ↔ KeepsTags max text := by
  have hset := setAs_setLines max text
  rw [(marked_glyphs ['\n'] text).eq_iff (marked_lineGlyphs _) hset]
  constructor
  · intro h before s after htext hs
    have hplace := h (ink before).length
    rw [beginsTag_drop_glyphs_iff hs htext, beginsTag_drop_setLines_iff hs htext] at hplace
    rw [hplace, not_not]
  · intro h n
    have hblank : ∀ x ∈ (glyphs ['\n'] text).drop n, ∀ c ∈ x.gap, isBlank c = true := by
      intro x hx c hc
      rcases gap_subset_of_mem_glyphs (List.mem_of_mem_drop hx) c hc with hfeed | ⟨-, hc⟩
      · rw [List.mem_singleton.mp hfeed]
        rfl
      · exact hc
    have hplace : ∀ s gap rest, IsTagLike s →
        (glyphs ['\n'] text).drop n = glyphs gap s ++ rest →
        (BeginsTag ((glyphs ['\n'] text).drop n)
          ↔ BeginsTag ((lineGlyphs (setLines max text)).drop n)) := by
      intro s gap rest hs hdrop
      obtain ⟨before, after, htext, rfl⟩ := exists_tagLike_of_drop hs hdrop
      rw [beginsTag_drop_glyphs_iff hs htext, beginsTag_drop_setLines_iff hs htext,
        h before s after htext hs, not_not]
    constructor
    · intro hbegins
      obtain ⟨tag, gap, rest, htag, hdrop⟩ := id hbegins
      exact (hplace tag gap rest htag.isTagLike hdrop).mp hbegins
    · intro hbegins
      obtain ⟨s, gap, rest, hs, hdrop⟩ :=
        exists_tagLike_of_setAs (List.forall₂_drop n hset) hblank hbegins
      exact (hplace s gap rest hs hdrop).mpr hbegins

/-! ### Words that stay whole -/

/-- A stroke and a bracket behind white space begin a word. -/
theorem exists_word_of_stroke {c : Char} (hc : isBlank c = true) (a b : List Char) :
    ∃ w ∈ words (a ++ c :: ("/>".toList ++ b)), "/>".toList <+: w := by
  obtain ⟨w, rest, hspan, hne, hink, hrest⟩ := exists_word_append (rfl : isBlank '/' = false)
    ('>' :: b)
  have hwords : words (a ++ c :: ("/>".toList ++ b)) = words a ++ w :: words rest := by
    rw [words_append_cons_of_isBlank hc, ← words_append_of_ink hink hne hrest, ← hspan]
    rfl
  refine ⟨w, by rw [hwords]; simp, ?_⟩
  -- the word goes on at least to the bracket, which is no white space
  cases w with
  | nil => exact absurd rfl hne
  | cons d w =>
    obtain ⟨rfl, hbracket⟩ := List.cons.inj hspan
    cases w with
    | nil =>
      rcases hrest with rfl | ⟨e, tail, rfl, he⟩
      · exact absurd hbracket (List.cons_ne_nil _ _)
      · obtain ⟨rfl, -⟩ := List.cons.inj hbracket
        exact absurd he (by decide)
    | cons e w =>
      obtain ⟨rfl, -⟩ := List.cons.inj hbracket
      exact ⟨w, rfl⟩

/-- **Tags are kept** if all words with an opening bracket in them fit on a line and none begins
with the end of a tag. -/
theorem keepsTags_of_words {max : Nat} {text : List Char}
    (hfits : ∀ w ∈ words text, '<' ∈ w → columns w ≤ max)
    (hends : ∀ w ∈ words text, ¬ "/>".toList <+: w) : KeepsTags max text := by
  intro before s after htext hs
  rcases hs.ink_or_stroke with ⟨htag, hink⟩ | ⟨a, c, hc, hstroke⟩
  · -- the stretch is set without white space in it, so no line ends there
    obtain ⟨inner, hinner⟩ := hs.exists_eq
    have hglyphs : ∀ gap, glyphs gap s = ⟨gap, '<'⟩ :: (glyphs gap s).tail := by
      intro gap
      rw [hinner, glyphs_cons_of_ink (by decide), List.tail_cons]
    have hset := setWordwise_setLines max text
    have hsplit := glyphs_append_append ['\n'] before s after
    rw [← htext, hglyphs] at hsplit
    rw [hsplit] at hset
    obtain ⟨gs, y, ys, rest, hlines, hgs, hys, hwhole⟩ :=
      exists_whole_stretch hset (fun z => gap_of_mem_tail_glyphs hink) hfits
    rw [length_glyphs] at hgs
    rw [← hglyphs, length_glyphs] at hys
    rw [lineEndsIn_iff hlines hgs hys]
    constructor
    · rintro ⟨z, hz, hfeed⟩
      rw [hwhole z hz] at hfeed
      exact absurd hfeed List.not_mem_nil
    · exact fun h => absurd htag h
  · obtain ⟨w, hw, hend⟩ := exists_word_of_stroke hc (before ++ a) after
    have hsame : text = before ++ a ++ c :: ("/>".toList ++ after) := by
      rw [htext, hstroke]
      simp only [List.append_assoc, List.cons_append]
    rw [← hsame] at hw
    exact absurd hend (hends w hw)

/-- **What is read of a wrapped label.**  All ink of the label is set.  Tags begin where they began
exactly if of the stretches that read like tags, a line ends in those that are none and in no
others.  This is so if all words with an opening bracket fit on a line and no word begins with the
end of a tag.  If it is so, or if the label fits, the same is read of the wrapped label as of the
label. -/
theorem visible_wrap_of_keepsTags (max : Nat) (text : List Char) :
    ink (setLines max text).flatten = ink text
      ∧ ((setLines max text).flatMap marks = marks text ↔ KeepsTags max text)
      ∧ ((∀ w ∈ words text, ('<' ∈ w → columns w ≤ max) ∧ ¬ "/>".toList <+: w) →
        KeepsTags max text)
      ∧ (columns text ≤ max ∨ KeepsTags max text → visible (wrap max text) = visible text) := by
  refine ⟨ink_flatten_setLines max text, flatMap_marks_setLines_eq_iff max text, ?words, ?read⟩
  case words =>
    intro h
    exact keepsTags_of_words (fun w hw => (h w hw).1) (fun w hw => (h w hw).2)
  case read =>
    intro h
    by_cases hfits : columns text ≤ max
    · rw [wrap, if_pos hfits]
    · have hkeeps := h.resolve_left hfits
      rw [visible_wrap (Nat.not_le.mp hfits), flatMap_visible_eq_readMarks,
        (flatMap_marks_setLines_eq_iff max text).mpr hkeeps, ← visible_eq_readMarks]

/-- In one label a tag with a space in it is kept, and two words that would read as a tag are kept
apart.  In the other the tags are in words that fit on a line. -/
theorem visible_wrap_of_tags_and_words :
    wrap 10 "aa<br />bb cccccc <br   />".toList = "aa<br />bb<br/>cccccc <br<br/>/>".toList
      ∧ KeepsTags 10 "aa<br />bb cccccc <br   />".toList
      ∧ visible (wrap 10 "aa<br />bb cccccc <br   />".toList)
        = visible "aa<br />bb cccccc <br   />".toList
      ∧ (∀ w ∈ words "a<br/>b cc <BR>d".toList,
        ('<' ∈ w → columns w ≤ 8) ∧ ¬ "/>".toList <+: w)
      ∧ visible (wrap 8 "a<br/>b cc <BR>d".toList) = visible "a<br/>b cc <BR>d".toList := by
  have hwords : ∀ w ∈ words "a<br/>b cc <BR>d".toList,
      ('<' ∈ w → columns w ≤ 8) ∧ ¬ "/>".toList <+: w := by
    decide +kernel
  obtain ⟨-, hmarks, -, hread⟩ := visible_wrap_of_keepsTags 10 "aa<br />bb cccccc <br   />".toList
  obtain ⟨-, -, hkeeps, hread'⟩ := visible_wrap_of_keepsTags 8 "a<br/>b cc <BR>d".toList
  have hkept : KeepsTags 10 "aa<br />bb cccccc <br   />".toList := hmarks.mp (by decide +kernel)
  exact ⟨by decide +kernel, hkept, hread (Or.inr hkept), hwords, hread' (Or.inr (hkeeps hwords))⟩

/-- A tag at the end of a line is torn, and more is read of the wrapped label. -/
theorem not_forall_visible_wrap :
    ¬ ∀ (max : Nat) (text : List Char), 6 ≤ max → visible (wrap max text) = visible text := by
  intro h
  have htorn : visible (wrap 6 "aaaaa<br/>b".toList) ≠ visible "aaaaa<br/>b".toList := by
    decide +kernel
  exact htorn (h 6 _ (le_refl 6))

end FlowCanvas
