/-!
# White space and words

## Main definitions

* `isBlank` — the white space of the character standard.
* `words` — the stretches of a text between white space.
* `trim` — a text without white space at its ends.
-/

namespace FlowCanvas

/-- White space: the space, tab and line controls, and the separators of other scripts. -/
def isBlank (c : Char) : Bool :=
  c = ' ' || ('\t' ≤ c && c ≤ '\r') || c = '\u0085' || c = '\u00a0' || c = '\u1680'
    || ('\u2000' ≤ c && c ≤ '\u200a') || c = '\u2028' || c = '\u2029' || c = '\u202f'
    || c = '\u205f' || c = '\u3000'

/-- The words of a text in order: its longest stretches without white space. -/
def words (cs : List Char) : List (List Char) :=
  (cs.splitOnP isBlank).filter fun w => !w.isEmpty

/-- A text without the white space at its two ends. -/
def trim (cs : List Char) : List Char :=
  ((cs.dropWhile isBlank).reverse.dropWhile isBlank).reverse

/-- What is left after trimming is a stretch of the text. -/
theorem trim_infix (cs : List Char) : trim cs <:+: cs := by
  have h₁ : cs.dropWhile isBlank <:+ cs := List.dropWhile_suffix _
  have h₂ : ((cs.dropWhile isBlank).reverse.dropWhile isBlank).reverse
      <+: cs.dropWhile isBlank := by
    rw [← List.reverse_suffix]
    simpa using List.dropWhile_suffix (l := (cs.dropWhile isBlank).reverse) isBlank
  exact h₂.isInfix.trans h₁.isInfix

end FlowCanvas
