import FlowCanvas.Text.Columns

/-!
# Cutting text into pieces of a given width

## Main definitions

* `fit` — the longest beginning of a text that fits into the columns left.
* `pieces` — a text cut into consecutive pieces, each as long as fits. A piece always has a
  character, so one that is wider than the budget stands alone.
-/

namespace FlowCanvas

/-- Splits a text where the next character would go beyond `max` columns, `used` of which are
taken. -/
def fit (max used : Nat) : List Char → List Char × List Char
  | [] => ([], [])
  | c :: cs =>
    if used + charColumns c ≤ max then
      ((c :: (fit max (used + charColumns c) cs).1), (fit max (used + charColumns c) cs).2)
    else ([], c :: cs)

@[simp] theorem fit_nil (max used : Nat) : fit max used [] = ([], []) := rfl

theorem fit_cons (max used : Nat) (c : Char) (cs : List Char) :
    fit max used (c :: cs)
      = if used + charColumns c ≤ max then
          ((c :: (fit max (used + charColumns c) cs).1), (fit max (used + charColumns c) cs).2)
        else ([], c :: cs) := rfl

/-- Nothing is lost at the split. -/
theorem fit_append (max used : Nat) (cs : List Char) :
    (fit max used cs).1 ++ (fit max used cs).2 = cs := by
  induction cs generalizing used with
  | nil => rfl
  | cons c cs ih =>
    rw [fit_cons]
    split
    · simp [ih]
    · rfl

/-- What does not fit is no longer than the text. -/
theorem length_fit_le (max used : Nat) (cs : List Char) :
    (fit max used cs).2.length ≤ cs.length := by
  have h := congrArg List.length (fit_append max used cs)
  rw [List.length_append] at h
  omega

/-- A text cut into consecutive pieces of at most `max` columns, each as long as possible. -/
def pieces (max : Nat) : List Char → List (List Char)
  | [] => []
  | c :: cs =>
    (c :: (fit max (charColumns c) cs).1) :: pieces max (fit max (charColumns c) cs).2
termination_by cs => cs.length
decreasing_by
  have := length_fit_le max (charColumns c) cs
  simp only [List.length_cons]
  omega

@[simp] theorem pieces_nil (max : Nat) : pieces max [] = [] := by rw [pieces]

theorem pieces_cons (max : Nat) (c : Char) (cs : List Char) :
    pieces max (c :: cs)
      = (c :: (fit max (charColumns c) cs).1) :: pieces max (fit max (charColumns c) cs).2 := by
  rw [pieces]

/-- A string cut into pieces of at most `max` columns. -/
def cutText (s : String) (max : Nat) : List String := (pieces max s.toList).map String.ofList

end FlowCanvas
