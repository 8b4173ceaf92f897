import FlowCanvas.Proofs.Text.BreakTag
import FlowCanvas.Proofs.Text.Reflow
import Mathlib.Algebra.BigOperators.Group.List.Basic
import Mathlib.Algebra.GroupWithZero.Nat
import Mathlib.Algebra.Order.BigOperators.Group.List

/-!
# Lines within the budget

A line that is packed is as wide as its words and the spaces between them only if the characters do
not combine: of an emoji sequence, say, a part can be wider than the whole.  For characters that are
as wide together as they are one by one, every line that a wrapped label shows is within the budget,
or a single character that is wider than all of it.  This holds for the lines between the break
tags, those of the label among them, and for labels that are not touched.

## Main definitions

* `Additive` — characters that are as wide together as one by one.
* `IsPrintable` — the printable characters of the basic alphabet.
* `Fits` — a line is within the budget, or cannot be made narrower.

## Main results

* `additive_isPrintable` — printable characters are as wide together as one by one.
* `fits_of_mem_pieces` — the pieces of a word are within the budget.
* `fits_of_mem_splitBreaks_wrap` — **no line of a wrapped label exceeds the budget.**
-/

namespace FlowCanvas

/-! ### Characters that do not combine -/

/-- The columns of a character within a text, where a line feed takes one. -/
def textColumns (c : Char) : Nat := if c = '\n' then 1 else charColumns c

/-- Texts of the given characters and of line feeds are as wide as their characters together, and
the space is one of the characters. -/
structure Additive (A : Char → Prop) : Prop where
  space : A ' '
  columns_eq : ∀ cs : List Char, (∀ c ∈ cs, A c ∨ c = '\n') →
    columns cs = (cs.map textColumns).sum

/-- A printable character of the basic alphabet. -/
def IsPrintable (c : Char) : Prop := ' ' ≤ c ∧ c ≤ '~'

instance : DecidablePred IsPrintable := fun c => inferInstanceAs (Decidable (' ' ≤ c ∧ c ≤ '~'))

theorem textColumns_of_isPrintable {c : Char} (h : IsPrintable c ∨ c = '\n') :
    textColumns c = 1 := by
  rcases h with ⟨hlow, hhigh⟩ | rfl
  · have hcontrol : ¬ c < ' ' := Char.not_lt.mpr hlow
    have hascii : c < '\x7f' :=
      Char.not_le.mp fun h => absurd (Char.le_trans h hhigh) (by decide)
    unfold textColumns charColumns
    rw [if_neg hcontrol, if_pos hascii, ite_self]
  · rfl

/-- A printable character or a line feed adds one column, whatever stands behind it, if no selector
stands between. -/
theorem step_of_isPrintable {a : Ahead} (ha : a.selectors = .none) {c : Char}
    (h : IsPrintable c ∨ c = '\n') : (a.step c).1 = 1 ∧ (a.step c).2.selectors = .none := by
  have hvoid : a.voidEmoji = a := by
    unfold Ahead.voidEmoji
    rw [ha]
    rfl
  have hstep : a.step c = a.stepPlain c := by
    unfold Ahead.step
    rw [ha, hvoid]
    rfl
  rw [hstep]
  rcases h with ⟨hlow, hhigh⟩ | rfl
  · have hlatin : c ≤ '\u00a0' := Char.le_trans hhigh (by decide)
    have hfeed : c ≠ '\n' := by
      rintro rfl
      exact absurd hlow (by decide)
    have hreturn : c ≠ '\r' := by
      rintro rfl
      exact absurd hlow (by decide)
    unfold Ahead.stepPlain
    rw [if_pos hlatin, if_neg hfeed, if_neg (by simp [hreturn])]
    exact ⟨rfl, rfl⟩
  · exact ⟨rfl, rfl⟩

/-- Printable characters are as wide together as one by one. -/
theorem additive_isPrintable : Additive IsPrintable := by
  refine ⟨by decide, fun cs h => ?_⟩
  have hscan : (scanWidth cs).1 = ((cs.map textColumns).sum : Nat)
      ∧ (scanWidth cs).2.selectors = .none := by
    induction cs with
    | nil => exact ⟨rfl, rfl⟩
    | cons c cs ih =>
      obtain ⟨hc, hcs⟩ := List.forall_mem_cons.mp h
      obtain ⟨hsum, hselectors⟩ := ih hcs
      obtain ⟨hone, hnext⟩ := step_of_isPrintable hselectors hc
      refine ⟨?_, hnext⟩
      rw [scanWidth_cons, List.map_cons, List.sum_cons, textColumns_of_isPrintable hc,
        Int.natCast_add, Int.natCast_one]
      rw [hone, hsum]
      omega
  unfold columns
  rw [hscan.1, Int.toNat_natCast]

/-! ### The budget -/

/-- A line is within the budget, or a single character that is wider. -/
def Fits (max : Nat) (line : List Char) : Prop :=
  columns line ≤ max ∨ ∃ c, line = [c] ∧ max < charColumns c

theorem fits_nil (max : Nat) : Fits max [] := Or.inl (Nat.zero_le max)

/-- What is taken for a piece does not go beyond the budget. -/
theorem sum_fit_le {max used : Nat} (h : used ≤ max) (cs : List Char) :
    used + ((fit max used cs).1.map charColumns).sum ≤ max := by
  induction cs generalizing used with
  | nil => simpa using h
  | cons c cs ih =>
    rw [fit_cons]
    split
    · next hfit =>
      have := ih hfit
      simp only [List.map_cons, List.sum_cons]
      omega
    · simpa using h

/-- Behind a character that is wider than the budget nothing is taken. -/
theorem fit_of_lt {max used : Nat} (h : max < used) (cs : List Char) :
    (fit max used cs).1 = [] := by
  cases cs with
  | nil => rfl
  | cons c cs =>
    have hnot : ¬ used + charColumns c ≤ max := by omega
    rw [fit_cons, if_neg hnot]

/-- The characters of a piece are within the budget, or there is a single one. -/
theorem sum_le_of_mem_pieces {max : Nat} {cs piece : List Char} (h : piece ∈ pieces max cs) :
    (piece.map charColumns).sum ≤ max ∨ ∃ c, piece = [c] ∧ max < charColumns c := by
  induction cs using pieces.induct max with
  | case1 => simp at h
  | case2 c cs ih =>
    rw [pieces_cons] at h
    rcases List.mem_cons.mp h with rfl | h
    · by_cases hc : charColumns c ≤ max
      · left
        simpa using sum_fit_le hc cs
      · right
        have hc := Nat.not_le.mp hc
        exact ⟨c, by rw [fit_of_lt hc], hc⟩
    · exact ih h

namespace Additive

variable {A : Char → Prop} (hA : Additive A)

include hA

theorem columns_append {l r : List Char} (hl : ∀ c ∈ l, A c ∨ c = '\n')
    (hr : ∀ c ∈ r, A c ∨ c = '\n') : columns (l ++ r) = columns l + columns r := by
  have hlr : ∀ c ∈ l ++ r, A c ∨ c = '\n' := List.forall_mem_append.mpr ⟨hl, hr⟩
  rw [hA.columns_eq _ hlr, hA.columns_eq _ hl, hA.columns_eq _ hr, List.map_append,
    List.sum_append]

/-- A part of a text is no wider than the text. -/
theorem columns_le_of_infix {part text : List Char} (h : part <:+: text)
    (htext : ∀ c ∈ text, A c ∨ c = '\n') : columns part ≤ columns text := by
  obtain ⟨l, r, rfl⟩ := h
  obtain ⟨hlpart, hr⟩ := List.forall_mem_append.mp htext
  obtain ⟨hl, hpart⟩ := List.forall_mem_append.mp hlpart
  rw [hA.columns_append hlpart hr, hA.columns_append hl hpart]
  omega

/-- Part of a line that is within the budget is within it. -/
theorem fits_of_infix {max : Nat} {part line : List Char} (h : part <:+: line)
    (hline : ∀ c ∈ line, A c ∨ c = '\n') (hfits : Fits max line) : Fits max part := by
  rcases hfits with hfits | ⟨c, rfl, hc⟩
  · exact Or.inl ((hA.columns_le_of_infix h hline).trans hfits)
  · rcases List.infix_cons_iff.mp h with h | h
    · rcases List.prefix_cons_iff.mp h with rfl | ⟨t, rfl, ht⟩
      · exact fits_nil max
      · rw [List.prefix_nil.mp ht]
        exact Or.inr ⟨c, rfl, hc⟩
    · rw [List.infix_nil.mp h]
      exact fits_nil max

/-- The pieces of a word are within the budget. -/
theorem fits_of_mem_pieces {max : Nat} {w piece : List Char} (hw : ∀ c ∈ w, A c ∧ c ≠ '\n')
    (h : piece ∈ pieces max w) : Fits max piece := by
  have hpiece : ∀ c ∈ piece, A c ∧ c ≠ '\n' := fun c hc =>
    hw c ((infix_of_mem_pieces h).subset hc)
  have hsum : columns piece = (piece.map charColumns).sum := by
    rw [hA.columns_eq piece fun c hc => Or.inl (hpiece c hc).1]
    congr 1
    exact List.map_congr_left fun c hc => if_neg (hpiece c hc).2
  rcases sum_le_of_mem_pieces h with h | h
  · exact Or.inl (hsum.trans_le h)
  · exact Or.inr h

/-- The lines that words are packed into are within the budget, and consist of characters of the
words and of spaces. -/
theorem fits_of_mem_pack {max : Nat} {ws : List (List Char)}
    (hws : ∀ w ∈ ws, ∀ c ∈ w, A c ∧ c ≠ '\n') :
    ∀ l ∈ pack max [] ws, (∀ c ∈ l, A c ∧ c ≠ '\n') ∧ Fits max l := by
  refine forall_mem_pack ⟨fun _ hc => absurd hc List.not_mem_nil, fits_nil max⟩ ?_ ?_ ?_
    ⟨fun _ hc => absurd hc List.not_mem_nil, fits_nil max⟩
  · intro w hw piece hpiece
    exact ⟨fun c hc => hws w hw c ((infix_of_mem_pieces hpiece).subset hc),
      hA.fits_of_mem_pieces (hws w hw) hpiece⟩
  · intro w hw hfits
    exact ⟨hws w hw, Or.inl hfits⟩
  · intro line w _ hline hw hjoin
    have hspace : ∀ c ∈ ' ' :: w, A c ∧ c ≠ '\n' :=
      List.forall_mem_cons.mpr ⟨⟨hA.space, by decide⟩, hw.1⟩
    have hone : columns [' '] = 1 := by decide
    have hword : columns (' ' :: w) = 1 + columns w := by
      rw [← List.singleton_append, hA.columns_append _ fun c hc => Or.inl (hw.1 c hc).1, hone]
      intro c hc
      rw [List.mem_singleton.mp hc]
      exact Or.inl hA.space
    have hwidth : columns (line ++ ' ' :: w) = columns line + columns (' ' :: w) :=
      hA.columns_append (fun c hc => Or.inl (hline.1 c hc).1) fun c hc => Or.inl (hspace c hc).1
    refine ⟨List.forall_mem_append.mpr ⟨hline.1, hspace⟩, Or.inl ?_⟩
    omega

/-- The lines of a paragraph are within the budget. -/
theorem fits_of_mem_wrapParagraph {max : Nat} {paragraph : List Char}
    (hp : ∀ c ∈ paragraph, A c ∧ c ≠ '\n') :
    ∀ l ∈ wrapParagraph max paragraph, (∀ c ∈ l, A c ∧ c ≠ '\n') ∧ Fits max l := by
  refine forall_mem_wrapParagraph ⟨fun _ hc => absurd hc List.not_mem_nil, fits_nil max⟩ ?_
  exact hA.fits_of_mem_pack fun w hw c hc => hp c ((infix_of_mem_words hw).subset hc)

end Additive

theorem wrapParagraph_ne_nil (max : Nat) (paragraph : List Char) :
    wrapParagraph max paragraph ≠ [] := by
  unfold wrapParagraph
  split
  · exact List.cons_ne_nil _ _
  · next hne => exact hne

/-- **No line of a wrapped label exceeds the budget.**  Printable characters are as wide together as
one by one; and for characters that are so, every stretch between the line feeds and the break tags
of a wrapped label is within the budget, or a single character that is wider. -/
theorem fits_of_mem_splitBreaks_wrap :
    Additive IsPrintable
      ∧ ∀ {A : Char → Prop}, Additive A → ∀ {text : List Char}, (∀ c ∈ text, A c ∨ c = '\n') →
        ∀ max : Nat, ∀ segment ∈ (wrap max text).splitOn '\n', ∀ line ∈ splitBreaks segment,
          Fits max line := by
  refine ⟨additive_isPrintable, ?_⟩
  intro A hA text htext max segment hsegment line hline
  by_cases hfits : columns text ≤ max
  · -- The label is not touched, and a stretch of it is no wider.
    rw [wrap, if_pos hfits, List.splitOn_eq_splitOnP] at hsegment
    have hpart : line <:+: text :=
      (infix_of_mem_splitBreaks hline).trans ((infix_of_splitOnP text).2 segment hsegment)
    exact Or.inl ((hA.columns_le_of_infix hpart htext).trans hfits)
  · rw [splitOn_wrap (Nat.not_le.mp hfits)] at hsegment
    obtain ⟨paragraph, hp, rfl⟩ := List.mem_map.mp hsegment
    rw [splitBreaks_intercalate (wrapParagraph_ne_nil max paragraph)] at hline
    obtain ⟨l, hl, hline⟩ := List.mem_flatMap.mp hline
    have hchars : ∀ c ∈ paragraph, A c ∧ c ≠ '\n' := by
      intro c hc
      have hfeed : c ≠ '\n' := fun h => notMem_of_mem_splitOn hp (h ▸ hc)
      rw [List.splitOn_eq_splitOnP] at hp
      have hmem : c ∈ text := ((infix_of_splitOnP text).2 paragraph hp).subset hc
      exact ⟨(htext c hmem).resolve_right hfeed, hfeed⟩
    obtain ⟨hplain, hfits⟩ := hA.fits_of_mem_wrapParagraph hchars l hl
    exact hA.fits_of_infix (infix_of_mem_splitBreaks hline) (fun c hc => Or.inl (hplain c hc).1)
      hfits

/-- A label of two paragraphs with tags of its own, one of them in a word that is cut. -/
theorem fits_of_label_with_tags :
    Additive IsPrintable
      ∧ (∀ c ∈ "ab<br>cdefgh i<BR />jk\nlmn opqrstu".toList, IsPrintable c ∨ c = '\n')
      ∧ ∀ segment ∈ (wrap 3 "ab<br>cdefgh i<BR />jk\nlmn opqrstu".toList).splitOn '\n',
        ∀ line ∈ splitBreaks segment, Fits 3 line := by
  obtain ⟨hprintable, hfits⟩ := fits_of_mem_splitBreaks_wrap
  have htext : ∀ c ∈ "ab<br>cdefgh i<BR />jk\nlmn opqrstu".toList, IsPrintable c ∨ c = '\n' :=
    forall_mem_of_all (by decide)
  exact ⟨hprintable, htext, hfits hprintable htext 3⟩

end FlowCanvas
