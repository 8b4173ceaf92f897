import FlowCanvas.Proofs.Text.Greedy
import FlowCanvas.Proofs.Text.Spaced

/-!
# The fewest lines

A paragraph whose words all fit on a line is set in as few lines as there can be.  Its lines are a
greedy division of its words: each line is within the budget, and would not be with the next word on
it.  Since a space parts two texts, words that fit on a line still do without those at either end,
so that the greedy division stays ahead of any other one (`Greedy.length_le`).

Nothing is asked of the characters for this.  Within a word they may combine as they like.

## Main definitions

* `WordDivision` — words divided into lines within the budget.
* `OnLine` — words that fit on a line.
* `wordLines` — the words on the lines of a paragraph.

## Main results

* `wordDivision_wordLines`, `greedy_wordLines` — they are divided within the budget, and greedily.
* `wrapParagraph_fewest` — **a paragraph is set in as few lines as there can be.**
-/

namespace FlowCanvas

/-! ### Words on a line -/

/-- Words divided into lines, in order and with at least one word on each line, so that the words of
a line with single spaces between them take at most `max` columns. -/
structure WordDivision (max : Nat) (ws : List (List Char)) (groups : List (List (List Char))) :
    Prop where
  flatten_eq : groups.flatten = ws
  ne_nil : ∀ g ∈ groups, g ≠ []
  columns_le : ∀ g ∈ groups, columns ([' '].intercalate g) ≤ max

/-- Words fit on a line, if the space behind the last one may stand beyond its end. -/
def OnLine (max : Nat) (g : List (List Char)) : Prop :=
  (g.map fun w => columns w + 1).sum ≤ max + 1

theorem onLine_iff {max : Nat} {g : List (List Char)} (h : g ≠ []) :
    OnLine max g ↔ columns ([' '].intercalate g) ≤ max := by
  unfold OnLine
  rw [← columns_intercalate_space h, Nat.add_le_add_iff_right]

theorem onLine_append_iff {max : Nat} {l r : List (List Char)} :
    OnLine max (l ++ r)
      ↔ (l.map fun w => columns w + 1).sum + (r.map fun w => columns w + 1).sum ≤ max + 1 := by
  unfold OnLine
  rw [List.map_append, List.sum_append]

/-- Words that fit on a line do so without those at its end. -/
theorem OnLine.left {max : Nat} {l r : List (List Char)} (h : OnLine max (l ++ r)) :
    OnLine max l := by
  rw [onLine_append_iff] at h
  exact Nat.le_trans (Nat.le_add_right _ _) h

/-- Words that fit on a line do so without those at its beginning. -/
theorem OnLine.right {max : Nat} {l r : List (List Char)} (h : OnLine max (l ++ r)) :
    OnLine max r := by
  rw [onLine_append_iff] at h
  exact Nat.le_trans (Nat.le_add_left _ _) h

/-! ### Packed lines -/

/-- Tokens that are within the budget are packed into lines that are. -/
theorem columns_lineOf_le_of_mem_packTokens {max : Nat} {line ts : List Token}
    (hline : columns (lineOf line) ≤ max) (hts : ∀ t ∈ ts, columns t.chars ≤ max) :
    ∀ g ∈ packTokens max line ts, columns (lineOf g) ≤ max := by
  induction ts generalizing line with
  | nil =>
    intro g hg
    rw [(mem_finished hg).1]
    exact hline
  | cons t ts ih =>
    obtain ⟨ht, hts⟩ := List.forall_mem_cons.mp hts
    rw [packTokens_cons]
    split
    · next hjoins =>
      refine ih ?_ hts
      cases t with
      | piece _ _ => exact absurd hjoins id
      | word w =>
        obtain ⟨hne, hfit⟩ := hjoins
        rw [lineOf_append_word hne, columns_append_space]
        omega
    · intro g hg
      rcases List.mem_append.mp hg with hg | hg
      · rw [(mem_finished hg).1]
        exact hline
      · have hnew : columns (lineOf [t]) ≤ max := by rwa [lineOf_singleton]
        exact ih hnew hts g hg

/-- The words on the lines of a paragraph. -/
def wordLines (max : Nat) (paragraph : List Char) : List (List (List Char)) :=
  (packTokens max [] (tokens max paragraph)).map fun g => g.map Token.chars

section Paragraph

variable {max : Nat} {paragraph : List Char}

/-- The lines are the words on them, with single spaces between them. -/
theorem wrapParagraph_eq_wordLines (hne : words paragraph ≠ []) :
    wrapParagraph max paragraph = (wordLines max paragraph).map [' '].intercalate := by
  have hblank : ¬ paragraph.all isBlank = true := by
    rw [List.all_eq_true, ← words_eq_nil_iff]
    exact hne
  rw [wrapParagraph_eq, if_neg hblank, wordLines, List.map_map]
  rfl

variable (hwords : ∀ w ∈ words paragraph, columns w ≤ max)

include hwords

/-- Words that fit on a line are not cut. -/
theorem tokens_eq_map_word : tokens max paragraph = (words paragraph).map Token.word := by
  rw [tokens, List.map_eq_flatMap]
  exact List.flatMap_congr fun w hw => if_neg (Nat.not_lt.mpr (hwords w hw))

/-- The words of a paragraph are divided into lines within the budget. -/
theorem wordDivision_wordLines :
    WordDivision max (words paragraph) (wordLines max paragraph) := by
  have htokens := tokens_eq_map_word hwords
  unfold wordLines
  refine ⟨?_, ?_, ?_⟩
  · rw [← List.map_flatten, flatten_packTokens, List.nil_append, htokens, List.map_map]
    exact List.map_id _
  · rw [List.forall_mem_map]
    intro g hg
    exact mt List.map_eq_nil_iff.mp (ne_nil_of_mem_packTokens hg)
  · rw [List.forall_mem_map]
    refine columns_lineOf_le_of_mem_packTokens (Nat.zero_le max) ?_
    rw [htokens, List.forall_mem_map]
    exact hwords

/-- A line is as full as it can be: the next word would not fit on it. -/
theorem greedy_wordLines : Greedy (OnLine max) (wordLines max paragraph) := by
  have hdivision := wordDivision_wordLines hwords
  have hpacked : Division max (tokens max paragraph) (packTokens max [] (tokens max paragraph)) :=
    division_packTokens (isChain_tokens max paragraph)
  have hmem : ∀ g ∈ packTokens max [] (tokens max paragraph), ∀ t ∈ g, ∃ w, t = .word w := by
    intro g hg t ht
    have hin : t ∈ tokens max paragraph := by
      rw [← hpacked.flatten_eq]
      exact List.mem_flatten_of_mem hg ht
    rw [tokens_eq_map_word hwords] at hin
    obtain ⟨w, -, rfl⟩ := List.mem_map.mp hin
    exact ⟨w, rfl⟩
  refine .of_isChain (fun _ _ _ h => h.left) hdivision.ne_nil ?_ ?_
  · intro g hg
    exact (onLine_iff (hdivision.ne_nil g hg)).mpr (hdivision.columns_le g hg)
  · unfold wordLines
    rw [List.isChain_map]
    refine hpacked.greedy.imp_of_mem_imp fun g h hg hh hnext x hx => ?_
    obtain ⟨t, ht, rfl⟩ := Option.map_eq_some_iff.mp (List.head?_map ▸ hx)
    obtain ⟨w, rfl⟩ := hmem h hh t (List.mem_of_mem_head? ht)
    have hne : g.map Token.chars ≠ [] := mt List.map_eq_nil_iff.mp (hpacked.ne_nil g hg)
    have hover : max < columns ([' '].intercalate (g.map Token.chars)) + 1 + columns w := hnext w ht
    rw [columns_intercalate_space hne] at hover
    rw [onLine_append_iff, List.map_singleton, List.sum_singleton, Token.chars_word]
    omega

end Paragraph

/-- **A paragraph is set in as few lines as there can be.**  If it has a word, and all its words fit
on a line, then its lines are these words, divided so that each line is within the budget, with
single spaces between those of a line; and no other such division has fewer lines. -/
theorem wrapParagraph_fewest {max : Nat} {paragraph : List Char} (hne : words paragraph ≠ [])
    (hwords : ∀ w ∈ words paragraph, columns w ≤ max) :
    (∃ groups, WordDivision max (words paragraph) groups
        ∧ wrapParagraph max paragraph = groups.map [' '].intercalate)
      ∧ ∀ groups, WordDivision max (words paragraph) groups →
        (wrapParagraph max paragraph).length ≤ groups.length := by
  have hdivision := wordDivision_wordLines hwords
  have hlines : wrapParagraph max paragraph
      = (wordLines max paragraph).map [' '].intercalate := wrapParagraph_eq_wordLines hne
  refine ⟨⟨_, hdivision, hlines⟩, ?_⟩
  intro groups hgroups
  rw [hlines, List.length_map]
  refine (greedy_wordLines hwords).length_le (fun _ _ _ h => h.right) ?_ ?_
  · intro g hg
    exact (onLine_iff (hgroups.ne_nil g hg)).mpr (hgroups.columns_le g hg)
  · rw [hdivision.flatten_eq, hgroups.flatten_eq]

/-- Three words, the first of which is two emoji that are drawn as one, and a way to set them in two
lines. -/
theorem wrapParagraph_fewest_of_emoji :
    words "👩\u200d👩 a\tb".toList ≠ []
      ∧ (∀ w ∈ words "👩\u200d👩 a\tb".toList, columns w ≤ 4)
      ∧ WordDivision 4 (words "👩\u200d👩 a\tb".toList)
        [["👩\u200d👩".toList], ["a".toList, "b".toList]]
      ∧ (wrapParagraph 4 "👩\u200d👩 a\tb".toList).length ≤ 2 := by
  have hne : words "👩\u200d👩 a\tb".toList ≠ [] := by decide +kernel
  have hwords : ∀ w ∈ words "👩\u200d👩 a\tb".toList, columns w ≤ 4 :=
    forall_mem_of_all (by decide +kernel)
  have hdivision : WordDivision 4 (words "👩\u200d👩 a\tb".toList)
      [["👩\u200d👩".toList], ["a".toList, "b".toList]] :=
    ⟨by decide +kernel, forall_mem_of_all (by decide), forall_mem_of_all (by decide +kernel)⟩
  exact ⟨hne, hwords, hdivision, (wrapParagraph_fewest hne hwords).2 _ hdivision⟩

end FlowCanvas
