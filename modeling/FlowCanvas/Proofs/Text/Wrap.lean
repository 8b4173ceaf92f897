import FlowCanvas.Proofs.Text.Span
import FlowCanvas.Text.Wrap
import Mathlib.Data.List.Infix

/-!
# What wrapping leaves out

Wrapping a label puts spaces, break tags and line feeds between stretches of it.  A text that has
none of their characters can therefore only stand in the wrapped label where it stood in the label
already: wrapping never brings together what was apart.

## Main results

* `infix_of_mem_words`, `infix_of_mem_pieces` — words and pieces are stretches of the text.
* `forall_mem_pack` — what holds of all lines that words are packed into.
* `not_infix_of_mem_pack` — packing words brings nothing together.
* `not_infix_wrap` — **wrapping a paragraph brings nothing together.**
-/

namespace FlowCanvas

/-! ### Texts between separators -/

section Separators

variable {α : Type} {q : List α}

/-- What does not have the separator in it stands on one side of it. -/
theorem infix_append_cons {c : α} (hc : c ∉ q) {l r : List α} (h : q <:+: l ++ c :: r) :
    q <:+: l ∨ q <:+: r := by
  rcases List.infix_append_iff.mp h with h | h | ⟨q₁, q₂, rfl, h₁, h₂⟩
  · exact Or.inl h
  · rcases List.infix_cons_iff.mp h with h | h
    · cases q with
      | nil => exact Or.inl (List.nil_infix)
      | cons d q =>
        rw [List.cons_prefix_cons] at h
        exact absurd (h.1 ▸ List.mem_cons_self) hc
    · exact Or.inr h
  · cases q₂ with
    | nil =>
      rw [List.append_nil]
      exact Or.inl h₁.isInfix
    | cons d q₂ =>
      rw [List.cons_prefix_cons] at h₂
      exact absurd (List.mem_append_right q₁ (h₂.1 ▸ List.mem_cons_self)) hc

theorem not_infix_append_append {sep l r : List α} (hne : sep ≠ []) (hsep : ∀ c ∈ sep, c ∉ q)
    (hl : ¬ q <:+: l) (hr : ¬ q <:+: r) : ¬ q <:+: l ++ sep ++ r := by
  induction sep generalizing l with
  | nil => exact absurd rfl hne
  | cons c sep ih =>
    obtain ⟨hc, hsep⟩ := List.forall_mem_cons.mp hsep
    intro h
    rw [List.append_assoc, List.cons_append] at h
    rcases infix_append_cons hc h with h | h
    · exact hl h
    by_cases hnil : sep = []
    · rw [hnil] at h
      exact hr h
    · -- What is left of the separator stands behind an empty text.
      have hempty : ¬ q <:+: [] := fun h => hl (h.trans List.nil_infix)
      exact ih (l := []) hnil hsep hempty h

/-- Texts that are joined by a separator are not brought together. -/
theorem not_infix_intercalate {sep : List α} (hne : sep ≠ []) (hsep : ∀ c ∈ sep, c ∉ q)
    (hq : q ≠ []) {ls : List (List α)} (hls : ∀ l ∈ ls, ¬ q <:+: l) :
    ¬ q <:+: sep.intercalate ls := by
  induction ls with
  | nil =>
    intro h
    rw [List.intercalate_nil, List.infix_nil] at h
    exact hq h
  | cons l ls ih =>
    obtain ⟨hl, hls⟩ := List.forall_mem_cons.mp hls
    by_cases hnil : ls = []
    · rw [hnil, List.intercalate_singleton]
      exact hl
    · rw [List.intercalate_cons_of_ne_nil hnil]
      exact not_infix_append_append hne hsep hl (ih hls)

end Separators

/-! ### Words and pieces -/

/-- The stretches between separators: the first one begins the text. -/
theorem infix_of_splitOnP {p : Char → Bool} (cs : List Char) :
    ((cs.splitOnP p).headD [] <+: cs) ∧ ∀ w ∈ cs.splitOnP p, w <:+: cs := by
  induction cs with
  | nil => simp
  | cons c cs ih =>
    obtain ⟨hhead, hmem⟩ := ih
    rw [List.splitOnP_cons_eq_if_modifyHead]
    split
    · refine ⟨List.nil_prefix, List.forall_mem_cons.mpr ⟨List.nil_infix, fun w hw => ?_⟩⟩
      exact (hmem w hw).trans (List.suffix_cons c cs).isInfix
    · -- The character goes on with the first stretch.
      cases hsplit : cs.splitOnP p with
      | nil => exact absurd hsplit (List.splitOnP_ne_nil p cs)
      | cons k ks =>
        rw [hsplit] at hhead hmem
        have hk : c :: k <+: c :: cs := (List.prefix_cons_inj c).mpr hhead
        refine ⟨hk, List.forall_mem_cons.mpr ⟨hk.isInfix, fun w hw => ?_⟩⟩
        exact (hmem w (List.mem_cons_of_mem k hw)).trans (List.suffix_cons c cs).isInfix

/-- A word is a stretch of the text. -/
theorem infix_of_mem_words {cs w : List Char} (h : w ∈ words cs) : w <:+: cs :=
  (infix_of_splitOnP cs).2 w (List.mem_filter.mp h).1

/-- The pieces of a text make up the text. -/
theorem flatten_pieces (max : Nat) (cs : List Char) : (pieces max cs).flatten = cs := by
  induction cs using pieces.induct max with
  | case1 => simp
  | case2 c cs ih => rw [pieces_cons, List.flatten_cons, ih, List.cons_append, fit_append]

/-- A piece is a stretch of the text. -/
theorem infix_of_mem_pieces {max : Nat} {cs piece : List Char} (h : piece ∈ pieces max cs) :
    piece <:+: cs := by
  have := List.infix_of_mem_flatten h
  rwa [flatten_pieces] at this

/-! ### Lines -/

/-- What holds of the pieces of words that are cut, of the other words, and of a line and a word
that fits behind it if it holds of both, holds of all lines.  The induction is over the words; the
line that is being filled is part of what is packed. -/
theorem forall_mem_pack {P : List Char → Prop} {max : Nat} {ws : List (List Char)} (hempty : P [])
    (hpiece : ∀ w ∈ ws, ∀ piece ∈ pieces max w, P piece)
    (hword : ∀ w ∈ ws, columns w ≤ max → P w)
    (hjoin : ∀ line, ∀ w ∈ ws, P line → P w → columns line + columns w + 1 ≤ max →
      P (line ++ ' ' :: w))
    {line : List Char} (hline : P line) : ∀ l ∈ pack max line ws, P l := by
  have hfilled : ∀ {line : List Char}, P line →
      ∀ l ∈ (if line.isEmpty then [] else [line]), P l := by
    intro line hline l hl
    split at hl
    · exact absurd hl List.not_mem_nil
    · rwa [List.mem_singleton.mp hl]
  induction ws generalizing line with
  | nil => exact hfilled hline
  | cons w ws ih =>
    obtain ⟨hpieces, hpiece⟩ := List.forall_mem_cons.mp hpiece
    obtain ⟨hw, hword⟩ := List.forall_mem_cons.mp hword
    have hrest := @ih hpiece hword fun line v hv => hjoin line v (List.mem_cons_of_mem w hv)
    have hlast : P ((pieces max w).getLastD []) := by
      rcases List.mem_cons.mp (List.getLastD_mem_cons (l := pieces max w) (a := [])) with h | h
      · rwa [h]
      · exact hpieces _ h
    intro l hl
    rw [pack_cons] at hl
    split at hl
    · -- The word is cut into pieces, the last of which begins the next line.
      rcases List.mem_append.mp hl with hl | hl
      · rcases List.mem_append.mp hl with hl | hl
        · exact hfilled hline l hl
        · exact hpieces l (List.mem_of_mem_dropLast hl)
      · exact hrest hlast l hl
    next hwide =>
    have hw := hw (Nat.not_lt.mp hwide)
    split at hl
    · exact hrest hw l hl
    split at hl
    · next hfit => exact hrest (hjoin line w List.mem_cons_self hline hw hfit) l hl
    · rcases List.mem_cons.mp hl with rfl | hl
      · exact hline
      · exact hrest hw l hl

/-- What holds of all lines that the words of a paragraph are packed into holds of all its lines. -/
theorem forall_mem_wrapParagraph {P : List Char → Prop} {max : Nat} {paragraph : List Char}
    (hempty : P []) (hpack : ∀ l ∈ pack max [] (words paragraph), P l) :
    ∀ l ∈ wrapParagraph max paragraph, P l := by
  unfold wrapParagraph
  split
  · intro l hl
    rwa [List.mem_singleton.mp hl]
  · exact hpack

section Lines

variable {q : List Char}

/-- Packing words into lines brings nothing together. -/
theorem not_infix_of_mem_pack (hspace : ' ' ∉ q) (hq : q ≠ []) {max : Nat} {line : List Char}
    {ws : List (List Char)} (hline : ¬ q <:+: line) (hws : ∀ w ∈ ws, ¬ q <:+: w) :
    ∀ l ∈ pack max line ws, ¬ q <:+: l := by
  have hempty : ¬ q <:+: [] := by
    rw [List.infix_nil]
    exact hq
  refine forall_mem_pack hempty ?_ (fun w hw _ => hws w hw) ?_ hline
  · intro w hw piece hpiece h
    exact hws w hw (h.trans (infix_of_mem_pieces hpiece))
  · -- The space between the line and the word keeps the two apart.
    intro line w _ hline hw _ h
    exact (infix_append_cons hspace h).elim hline hw

theorem not_infix_of_mem_wrapParagraph (hspace : ' ' ∉ q) (hq : q ≠ []) {max : Nat}
    {paragraph : List Char} (h : ¬ q <:+: paragraph) :
    ∀ l ∈ wrapParagraph max paragraph, ¬ q <:+: l := by
  have hempty : ¬ q <:+: [] := by
    rw [List.infix_nil]
    exact hq
  refine forall_mem_wrapParagraph hempty (not_infix_of_mem_pack hspace hq hempty ?_)
  exact fun w hw hqw => h (hqw.trans (infix_of_mem_words hw))

/-- A label of one paragraph is wrapped as this paragraph. -/
theorem wrap_of_notMem {text : List Char} (h : '\n' ∉ text) (max : Nat) :
    wrap max text
      = if columns text ≤ max then text else lineBreak.intercalate (wrapParagraph max text) := by
  rw [wrap, List.splitOn_eq_singleton h, List.map_singleton, List.intercalate_singleton]

/-- **Wrapping a label of one paragraph brings nothing together** that has no character of the
separators in it. -/
theorem not_infix_wrap (hq : q ≠ []) (hsep : ∀ c ∈ ' ' :: lineBreak, c ∉ q) {text : List Char}
    (hfeed : '\n' ∉ text) (h : ¬ q <:+: text) (max : Nat) : ¬ q <:+: wrap max text := by
  obtain ⟨hspace, hbreak⟩ := List.forall_mem_cons.mp hsep
  rw [wrap_of_notMem hfeed]
  split
  · exact h
  · exact not_infix_intercalate (by decide) hbreak hq (not_infix_of_mem_wrapParagraph hspace hq h)

/-- A label of one paragraph is not cut into several by wrapping it. -/
theorem newline_notMem_wrap {text : List Char} (h : '\n' ∉ text) (max : Nat) :
    '\n' ∉ wrap max text := by
  rw [← List.singleton_infix_iff] at *
  exact not_infix_wrap (List.cons_ne_nil _ _) (forall_mem_of_all (by decide))
    (by rwa [← List.singleton_infix_iff]) h max

end Lines

end FlowCanvas
