/-!
# Break tags

A label is broken into lines by a tag written `<br>`, `<br/>` or `<br />`, in letters of either
case.

## Main definitions

* `lineBreak` — the tag that is written.
* `afterBreakTag` — recognises a tag at the beginning of a text.
* `splitBreaks` — the stretches of a text between its tags.
-/

namespace FlowCanvas

/-- The tag that is written between two lines of a label. -/
def lineBreak : List Char := "<br/>".toList

/-- The end of a break tag: an optional stroke, which a space may precede, and the closing
bracket. -/
def afterTagEnd : List Char → Option (List Char)
  | '>' :: rest => some rest
  | '/' :: '>' :: rest => some rest
  | ' ' :: '/' :: '>' :: rest => some rest
  | _ => none

/-- The text behind a break tag, if the text begins with one. -/
def afterBreakTag : List Char → Option (List Char)
  | '<' :: b :: r :: rest => if b.toLower = 'b' ∧ r.toLower = 'r' then afterTagEnd rest else none
  | _ => none

theorem length_afterTagEnd {cs rest : List Char} (h : afterTagEnd cs = some rest) :
    rest.length < cs.length := by
  unfold afterTagEnd at h
  split at h
  · cases h
    exact Nat.lt_succ_self _
  · cases h
    simp only [List.length_cons]
    omega
  · cases h
    simp only [List.length_cons]
    omega
  · cases h

/-- A tag is not empty. -/
theorem length_afterBreakTag {cs rest : List Char} (h : afterBreakTag cs = some rest) :
    rest.length < cs.length := by
  unfold afterBreakTag at h
  split at h
  · split at h
    · have := length_afterTagEnd h
      simp only [List.length_cons]
      omega
    · simp at h
  · simp at h

/-- The stretches of a text between its break tags, in order; there is always one. -/
def splitBreaks (cs : List Char) : List (List Char) :=
  match cs with
  | [] => [[]]
  | c :: rest =>
    match _h : afterBreakTag (c :: rest) with
    | some behind => [] :: splitBreaks behind
    | none => (splitBreaks rest).modifyHead (c :: ·)
termination_by cs.length
decreasing_by
  · exact length_afterBreakTag ‹_›
  · simp

@[simp] theorem splitBreaks_nil : splitBreaks [] = [[]] := by rw [splitBreaks]

theorem splitBreaks_of_tag {cs rest : List Char} (h : afterBreakTag cs = some rest) :
    splitBreaks cs = [] :: splitBreaks rest := by
  cases cs with
  | nil => simp [afterBreakTag] at h
  | cons c cs =>
    rw [splitBreaks]
    split
    · next h' => rw [h] at h'; cases h'; rfl
    · next h' => rw [h] at h'; cases h'

theorem splitBreaks_cons {c : Char} {cs : List Char} (h : afterBreakTag (c :: cs) = none) :
    splitBreaks (c :: cs) = (splitBreaks cs).modifyHead (c :: ·) := by
  rw [splitBreaks]
  split
  · next h' => rw [h] at h'; cases h'
  · rfl

/-- The lines of a label that its break tags make. -/
def labelLines (s : String) : List String := (splitBreaks s.toList).map String.ofList

end FlowCanvas
