import FlowCanvas.Failure
import FlowCanvas.Script.Line
import FlowCanvas.Text.Blank
import FlowCanvas.Text.Bytes

/-!
# Reading scripts

A script is a text of lines. They are read one after another, and what is left when no more line
can be read must be nothing but spaces and tabs; otherwise the first line of what is left is the
one that is refused.

## Main definitions

* `Script.lines` — the events on the lines at the beginning of a text, and what is left.
* `Script.excerpt` — how a message shows a line.
* `Script.read` — the events of a script.
-/

namespace FlowCanvas.Script

/-- Reads lines as long as there are any: the events on them, and the text that is left. -/
def lines (cs : List Char) : List (Event Float) × List Char :=
  match _h : line cs with
  | none => ([], cs)
  | some (e, rest) => (e.toList ++ (lines rest).1, (lines rest).2)
termination_by cs.length
decreasing_by all_goals exact length_line ‹_›

theorem lines_of_none {cs : List Char} (h : line cs = none) : lines cs = ([], cs) := by
  rw [lines]
  split
  · rfl
  · next h' => rw [h] at h'; cases h'

theorem lines_of_some {cs rest : List Char} {e : Option (Event Float)}
    (h : line cs = some (e, rest)) :
    lines cs = (e.toList ++ (lines rest).1, (lines rest).2) := by
  rw [lines]
  split
  · next h' => rw [h] at h'; cases h'
  · next h' => rw [h] at h'; cases h'; rfl

/-- The number of characters of a line that a message shows. -/
def excerptLength : Nat := 40

/-- The first line of a text as a message shows it: without the white space at its ends, and cut
short if it takes up too many bytes. -/
def excerpt (cs : List Char) : List Char :=
  let first := trim (cs.takeWhile (· ≠ '\n'))
  if excerptLength < byteLength first then first.take excerptLength ++ "...".toList else first

/-- The number of the line on which the end of a text stands, counted from one. -/
def lineNumber (text rest : List Char) : Nat :=
  (text.take (text.length - rest.length)).count '\n' + 1

/-- The events of a script. -/
def read (text : List Char) : Except Failure (List (Event Float)) :=
  let r := lines text
  match skipGap r.2 with
  | [] => .ok r.1
  | c :: rest =>
    .error (.badScript (lineNumber text (c :: rest)) (String.ofList (excerpt (c :: rest))))

end FlowCanvas.Script
