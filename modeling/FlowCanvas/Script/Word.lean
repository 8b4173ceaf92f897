import FlowCanvas.Decimal.Numeral

/-!
# The words of a script

The words on a line of a script are keywords and numbers, with spaces and tabs between them.
Every reader takes its share from the beginning of a text and leaves the rest.

## Main definitions

* `Script.skipGap`, `Script.gap` — spaces and tabs, and at least one of them.
* `Script.keyword` — a given word.
* `Script.number` — a number.
* `Script.lineEnd`, `Script.endOfLine` — the end of a line.
-/

namespace FlowCanvas.Script

/-- A space or a tab. -/
def isGap (c : Char) : Bool := c = ' ' || c = '\t'

/-- Takes spaces and tabs. -/
def skipGap (cs : List Char) : List Char := cs.dropWhile isGap

/-- Takes spaces and tabs, of which there must be one. -/
def gap : List Char → Option (List Char)
  | [] => none
  | c :: cs => if isGap c then some (skipGap cs) else none

/-- Takes a given word. -/
def keyword : (word : List Char) → List Char → Option (List Char)
  | [], cs => some cs
  | _ :: _, [] => none
  | k :: ks, c :: cs => if k = c then keyword ks cs else none

/-- A character that a word goes on with. -/
def inWord (c : Char) : Bool := !isGap c && c ≠ '\r' && c ≠ '\n'

/-- The numeral that a word is. The one for what is not a number has no sign. -/
def numeral? (word : List Char) : Option Numeral :=
  (Numeral.ofChars? word).filter fun n => n ≠ .nan || Numeral.isWord "nan" word

/-- Takes a word that is a number. -/
def number (cs : List Char) : Option (Float × List Char) :=
  (numeral? (cs.takeWhile inWord)).map fun n => (n.toFloat, cs.dropWhile inWord)

/-- Takes the sign for the end of a line. -/
def lineEnd : List Char → Option (List Char)
  | '\n' :: cs => some cs
  | '\r' :: '\n' :: cs => some cs
  | _ => none

/-- Takes spaces and tabs and the end of a line or of the whole text behind them. -/
def endOfLine (cs : List Char) : Option (List Char) :=
  match skipGap cs with
  | [] => some []
  | c :: rest => lineEnd (c :: rest)

/-! ### What is left -/

theorem skipGap_suffix (cs : List Char) : skipGap cs <:+ cs := List.dropWhile_suffix _

theorem gap_suffix {cs rest : List Char} (h : gap cs = some rest) : rest <:+ cs := by
  cases cs with
  | nil => simp [gap] at h
  | cons c cs =>
    simp only [gap, Option.ite_none_right_eq_some, Option.some.injEq] at h
    exact h.2 ▸ (skipGap_suffix cs).trans (List.suffix_cons c cs)

/-- A keyword is taken exactly where it stands. -/
theorem keyword_eq_some {word cs rest : List Char} :
    keyword word cs = some rest ↔ cs = word ++ rest := by
  induction word generalizing cs with
  | nil => simp [keyword]
  | cons k ks ih =>
    cases cs with
    | nil => simp [keyword]
    | cons c cs =>
      simp only [keyword, Option.ite_none_right_eq_some, ih, List.cons_append, List.cons.injEq]
      exact and_congr_left fun _ => eq_comm

theorem number_suffix {cs rest : List Char} {x : Float} (h : number cs = some (x, rest)) :
    rest <:+ cs := by
  simp only [number, Option.map_eq_some_iff, Prod.mk.injEq] at h
  obtain ⟨_, _, _, rfl⟩ := h
  exact List.dropWhile_suffix _

theorem lineEnd_suffix {cs rest : List Char} (h : lineEnd cs = some rest) : rest <:+ cs := by
  unfold lineEnd at h
  split at h <;> simp only [Option.some.injEq, reduceCtorEq] at h <;> subst h
  · exact List.suffix_cons _ _
  · exact (List.suffix_cons _ _).trans (List.suffix_cons _ _)

theorem length_lineEnd {cs rest : List Char} (h : lineEnd cs = some rest) :
    rest.length < cs.length := by
  unfold lineEnd at h
  split at h <;> simp only [Option.some.injEq, reduceCtorEq] at h <;> subst h
  · exact Nat.lt_succ_self _
  · simp only [List.length_cons]
    omega

theorem endOfLine_suffix {cs rest : List Char} (h : endOfLine cs = some rest) :
    rest <:+ cs := by
  unfold endOfLine at h
  split at h
  · cases h
    exact List.nil_suffix
  · next hs => exact (lineEnd_suffix h).trans (hs ▸ skipGap_suffix cs)

end FlowCanvas.Script
