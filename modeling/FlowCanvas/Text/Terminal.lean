/-!
# Control sequences

A text can hold sequences that a terminal obeys and does not show. Where a text may go to something
else than a terminal they are left out of it, together with all controls that are not blanks.

A sequence starts with the escape character, which also cuts off the sequence before it. A blank
inside a short sequence is text, and so is what follows it, until the next control takes the
sequence up again.

## Main definitions

* `Terminal.Sequence` — the part of a sequence that a scanner is in.
* `Terminal.Sequence.next` — the part that one more character leads to.
* `Terminal.Scanner`, `Terminal.Scanner.step` — whether a character is text, and what follows.
* `Terminal.plain` — the text without its sequences.
-/

namespace FlowCanvas.Terminal

/-- The part of a control sequence that a scanner is in. -/
inductive Sequence
  /-- None of them: the text itself. -/
  | outside
  /-- Behind the escape character. -/
  | escape
  /-- Behind the escape character and marks. -/
  | marks
  /-- Behind an opening bracket, in the numbers that go with a function. -/
  | function
  /-- Behind a closing bracket, in a text for the terminal itself, which a bell ends. -/
  | command
  /-- At the beginning of a text for a device. -/
  | device
  /-- In the numbers that such a text begins with. -/
  | deviceNumbers
  /-- In the marks behind those. -/
  | deviceMarks
  /-- In a string that nothing but its own terminator ends. -/
  | string
  deriving DecidableEq, Repr, Inhabited

/-- The escape character. -/
def escape : Char := '\x1b'

/-- A control that gives up a sequence. -/
def isCancel (c : Char) : Bool := c = '\x18' || c = '\x1a'

/-- A control that is part of a text. -/
def isBlankControl (c : Char) : Bool := c = '\t' || c = '\n' || c = '\x0c' || c = '\r'

/-- A character that a text keeps. -/
def isKept (c : Char) : Bool := isBlankControl c || (' ' ≤ c && c ≠ '\x7f')

/-- A mark between the beginning of a sequence and its last character. -/
def isMark (c : Char) : Bool := ' ' ≤ c && c ≤ '/'

/-- The bytes of a character include the terminator of strings. -/
def endsString (c : Char) : Bool := (String.utf8EncodeChar c).contains 0x9c

namespace Sequence

/-- The part that one more character leads to. Characters without a meaning there are passed
over. -/
def next (q : Sequence) (c : Char) : Sequence :=
  match q with
  | .outside => .outside
  | .escape =>
    if isMark c then .marks
    else if c = '[' then .function
    else if c = ']' then .command
    else if c = 'P' then .device
    else if c = 'X' || c = '^' || c = '_' then .string
    else if '0' ≤ c && c ≤ '~' then .outside else .escape
  | .marks => if '0' ≤ c && c ≤ '~' then .outside else .marks
  | .function => if '@' ≤ c && c ≤ '~' then .outside else .function
  | .command => if c = '\x07' then .outside else .command
  | .device =>
    if isMark c then .deviceMarks
    else if '0' ≤ c && c ≤ '?' then .deviceNumbers
    else if '@' ≤ c && c ≤ '~' then .string else .device
  | .deviceNumbers =>
    if isMark c then .deviceMarks
    else if '<' ≤ c && c ≤ '~' then .string else .deviceNumbers
  | .deviceMarks => if '0' ≤ c && c ≤ '~' then .string else .deviceMarks
  | .string => if endsString c then .outside else .string

/-- A sequence that a blank interrupts. -/
def isInterruptible : Sequence → Bool
  | .escape | .marks | .function => true
  | _ => false

end Sequence

/-- Where a scanner of a text is. -/
structure Scanner where
  /-- The part of a sequence that has been read. -/
  sequence : Sequence
  /-- A blank has interrupted the sequence. -/
  interrupted : Bool
  deriving DecidableEq, Repr, Inhabited

namespace Scanner

/-- A scanner that is in no sequence. -/
def start : Scanner := ⟨.outside, false⟩

/-- Reads one character: it is text or not, and the scanner goes on from another place. -/
def step (s : Scanner) (c : Char) : Bool × Scanner :=
  if c = escape then (false, ⟨.escape, false⟩)
  else if isCancel c then (false, start)
  else if s.interrupted || s.sequence = .outside then
    if isKept c then (true, if '\x7f' < c then start else s)
    else (false, ⟨s.sequence, false⟩)
  else if s.sequence.isInterruptible && isBlankControl c then (true, ⟨s.sequence, true⟩)
  else (false, ⟨s.sequence.next c, false⟩)

end Scanner

/-- The characters of a text that are not part of a sequence. -/
def keep : Scanner → List Char → List Char
  | _, [] => []
  | s, c :: cs =>
    let r := s.step c
    if r.1 then c :: keep r.2 cs else keep r.2 cs

@[simp] theorem keep_nil (s : Scanner) : keep s [] = [] := rfl

/-- A text without control sequences and without controls other than blanks. -/
def plain (s : String) : String := String.ofList (keep .start s.toList)

/-! ### What is left -/

theorem isKept_of_isBlankControl {c : Char} (h : isBlankControl c = true) : isKept c = true := by
  simp [isKept, h]

/-- A character that is read as text is one that a text keeps. -/
theorem Scanner.isKept_of_step {s : Scanner} {c : Char} (h : (s.step c).1 = true) :
    isKept c = true := by
  unfold Scanner.step at h
  split at h
  · simp at h
  · split at h
    · simp at h
    · split at h
      · split at h
        · assumption
        · simp at h
      · split at h
        · rename_i hb
          exact isKept_of_isBlankControl (Bool.and_eq_true _ _ ▸ hb).2
        · simp at h

/-- Nothing is left but what a text keeps. -/
theorem isKept_of_mem_keep {s : Scanner} {cs : List Char} {c : Char} (h : c ∈ keep s cs) :
    isKept c = true := by
  induction cs generalizing s with
  | nil => simp at h
  | cons d cs ih =>
    simp only [keep] at h
    split at h
    · rename_i hd
      rcases List.mem_cons.mp h with rfl | h
      · exact Scanner.isKept_of_step hd
      · exact ih h
    · exact ih h

/-- Outside of all sequences a character that a text keeps is text, and nothing begins with it. -/
theorem Scanner.step_start {c : Char} (h : isKept c = true) :
    Scanner.start.step c = (true, Scanner.start) := by
  have he : c ≠ escape := by rintro rfl; simp [isKept, isBlankControl, escape] at h
  have hc : isCancel c = false := by
    rw [Bool.eq_false_iff]
    intro hc
    simp only [isCancel, Bool.or_eq_true, decide_eq_true_eq] at hc
    rcases hc with rfl | rfl <;> simp [isKept, isBlankControl] at h
  simp [Scanner.step, he, hc, h, Scanner.start]

/-- A text without controls stays as it is. -/
theorem keep_start {cs : List Char} (h : ∀ c ∈ cs, isKept c = true) : keep .start cs = cs := by
  induction cs with
  | nil => rfl
  | cons c cs ih =>
    rw [List.forall_mem_cons] at h
    simp [keep, Scanner.step_start h.1, ih h.2]

end FlowCanvas.Terminal
