import FlowCanvas.Text.Blank
import FlowCanvas.Text.BreakTag
import FlowCanvas.Text.Pieces

/-!
# Wrapping labels

A label that is too wide for its node is set anew, paragraph by paragraph: its words are packed
into lines, each as full as it can be, and a word that is wider than a line is cut into pieces.

## Main definitions

* `pack` — packs words into lines.
* `wrapParagraph` — the lines of one paragraph; there is always one.
* `wrap` — a label with its lines joined by break tags and its paragraphs by line feeds.
-/

namespace FlowCanvas

/-- Packs words into lines of at most `max` columns. The first argument after it is the line
being filled, empty if nothing stands on it yet. -/
def pack (max : Nat) : List Char → List (List Char) → List (List Char)
  | line, [] => if line.isEmpty then [] else [line]
  | line, word :: rest =>
    if max < columns word then
      (if line.isEmpty then [] else [line]) ++ (pieces max word).dropLast
        ++ pack max ((pieces max word).getLastD []) rest
    else if line.isEmpty then pack max word rest
    else if columns line + columns word + 1 ≤ max then pack max (line ++ ' ' :: word) rest
    else line :: pack max word rest

@[simp] theorem pack_nil (max : Nat) (line : List Char) :
    pack max line [] = if line.isEmpty then [] else [line] := rfl

theorem pack_cons (max : Nat) (line word : List Char) (rest : List (List Char)) :
    pack max line (word :: rest)
      = if max < columns word then
          (if line.isEmpty then [] else [line]) ++ (pieces max word).dropLast
            ++ pack max ((pieces max word).getLastD []) rest
        else if line.isEmpty then pack max word rest
        else if columns line + columns word + 1 ≤ max then pack max (line ++ ' ' :: word) rest
        else line :: pack max word rest := rfl

/-- The lines of a paragraph, one of them empty if it has no word. -/
def wrapParagraph (max : Nat) (paragraph : List Char) : List (List Char) :=
  match pack max [] (words paragraph) with
  | [] => [[]]
  | lines => lines

/-- A label set in lines of at most `max` columns. One that fits as it stands is not touched. -/
def wrap (max : Nat) (text : List Char) : List Char :=
  if columns text ≤ max then text
  else
    ['\n'].intercalate
      ((text.splitOn '\n').map fun paragraph => lineBreak.intercalate (wrapParagraph max paragraph))

/-- A label set in lines of at most `max` columns. -/
def wrapLabel (s : String) (max : Nat) : String := String.ofList (wrap max s.toList)

end FlowCanvas
