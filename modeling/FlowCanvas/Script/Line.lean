import FlowCanvas.Script.Word
import FlowCanvas.Viewport.Event

/-!
# The lines of a script

A line is blank, a comment, which two percent signs introduce, or an event.

## Main definitions

* `Script.point` — two numbers behind gaps.
* `Script.event` — an event.
* `Script.line` — a line with its end, and the event on it if there is one.
-/

namespace FlowCanvas.Script

/-- Takes two numbers, each behind a gap. -/
def point (cs : List Char) : Option (Point Float × List Char) := do
  let cs ← gap cs
  let (x, cs) ← number cs
  let cs ← gap cs
  let (y, cs) ← number cs
  some (⟨x, y⟩, cs)

/-- Takes a turn of the wheel. -/
def wheelEvent (cs : List Char) : Option (Event Float × List Char) := do
  let cs ← keyword "wheel".toList cs
  let cs ← gap cs
  let (delta, cs) ← number cs
  let (client, cs) ← point cs
  some (.wheel delta client, cs)

/-- Takes an event of the pointer that has a keyword and a place. -/
def pointerEvent (word : String) (event : Point Float → Event Float) (cs : List Char) :
    Option (Event Float × List Char) := do
  let cs ← keyword word.toList cs
  let (client, cs) ← point cs
  some (event client, cs)

/-- Takes an event that is nothing but a keyword. -/
def wordEvent (word : String) (event : Event Float) (cs : List Char) :
    Option (Event Float × List Char) := do
  let cs ← keyword word.toList cs
  some (event, cs)

/-- Takes the press of a button for zooming. -/
def zoomEvent (cs : List Char) : Option (Event Float × List Char) := do
  let cs ← keyword "zoom".toList cs
  let cs ← gap cs
  wordEvent "in" .zoomIn cs <|> wordEvent "out" .zoomOut cs

/-- Takes the fitting of a box. -/
def fitEvent (cs : List Char) : Option (Event Float × List Char) := do
  let cs ← keyword "fit".toList cs
  let (corner, cs) ← point cs
  let (size, cs) ← point cs
  some (.fit ⟨corner.x, corner.y, size.x, size.y⟩, cs)

/-- Takes an event. -/
def event (cs : List Char) : Option (Event Float × List Char) :=
  wheelEvent cs <|> pointerEvent "down" .press cs <|> pointerEvent "move" .move cs
    <|> wordEvent "up" .release cs <|> zoomEvent cs <|> fitEvent cs <|> wordEvent "reset" .reset cs

/-- Takes a line with an event. -/
def eventLine (cs : List Char) : Option (Event Float × List Char) := do
  let (e, cs) ← event cs
  let cs ← endOfLine cs
  some (e, cs)

/-- A character that a comment goes on with. -/
def inComment (c : Char) : Bool := c ≠ '\r' && c ≠ '\n'

/-- Takes a line with a comment. -/
def commentLine (cs : List Char) : Option (List Char) := do
  let cs ← keyword "%%".toList cs
  endOfLine (cs.dropWhile inComment)

/-- Takes a line, and gives the event on it if there is one. Behind the last line there is none. -/
def line (cs : List Char) : Option (Option (Event Float) × List Char) :=
  match skipGap cs with
  | [] => none
  | c :: cs =>
    ((commentLine (c :: cs)).map fun rest => (none, rest))
      <|> ((lineEnd (c :: cs)).map fun rest => (none, rest))
      <|> ((eventLine (c :: cs)).map fun r => (some r.1, r.2))

/-! ### What is left -/

theorem point_suffix {cs rest : List Char} {p : Point Float} (h : point cs = some (p, rest)) :
    rest <:+ cs := by
  simp only [point, Option.bind_eq_bind, Option.bind_eq_some_iff, Option.some.injEq,
    Prod.mk.injEq] at h
  obtain ⟨_, h₁, ⟨_, _⟩, h₂, _, h₃, ⟨_, _⟩, h₄, _, rfl⟩ := h
  exact (number_suffix h₄).trans ((gap_suffix h₃).trans ((number_suffix h₂).trans (gap_suffix h₁)))

/-- A choice comes from one of its sides. -/
private theorem orElse_some {α : Type} {a b : Option α} {x : α} (h : (a <|> b) = some x) :
    a = some x ∨ b = some x := by
  simp only [Option.orElse_eq_orElse, Option.orElse_eq_or, Option.or_eq_some_iff] at h
  exact h.imp_right And.right

theorem length_keyword {word cs rest : List Char} (hw : word ≠ [])
    (h : keyword word cs = some rest) : rest.length < cs.length := by
  have := List.length_pos_iff.2 hw
  rw [keyword_eq_some.1 h, List.length_append]
  omega

theorem length_wordEvent {word : String} {event e : Event Float} {cs rest : List Char}
    (hw : word.toList ≠ []) (h : wordEvent word event cs = some (e, rest)) :
    rest.length < cs.length := by
  simp only [wordEvent, Option.bind_eq_bind, Option.bind_eq_some_iff, Option.some.injEq,
    Prod.mk.injEq] at h
  obtain ⟨_, h, _, rfl⟩ := h
  exact length_keyword hw h

theorem length_pointerEvent {word : String} {event : Point Float → Event Float} {e : Event Float}
    {cs rest : List Char} (hw : word.toList ≠ [])
    (h : pointerEvent word event cs = some (e, rest)) : rest.length < cs.length := by
  simp only [pointerEvent, Option.bind_eq_bind, Option.bind_eq_some_iff, Option.some.injEq,
    Prod.mk.injEq] at h
  obtain ⟨_, h₁, ⟨_, _⟩, h₂, _, rfl⟩ := h
  exact Nat.lt_of_le_of_lt (point_suffix h₂).length_le (length_keyword hw h₁)

theorem length_wheelEvent {e : Event Float} {cs rest : List Char}
    (h : wheelEvent cs = some (e, rest)) : rest.length < cs.length := by
  simp only [wheelEvent, Option.bind_eq_bind, Option.bind_eq_some_iff, Option.some.injEq,
    Prod.mk.injEq] at h
  obtain ⟨_, h₁, _, h₂, ⟨_, _⟩, h₃, ⟨_, _⟩, h₄, _, rfl⟩ := h
  exact Nat.lt_of_le_of_lt
    ((point_suffix h₄).trans ((number_suffix h₃).trans (gap_suffix h₂))).length_le
    (length_keyword (by decide) h₁)

theorem length_zoomEvent {e : Event Float} {cs rest : List Char}
    (h : zoomEvent cs = some (e, rest)) : rest.length < cs.length := by
  simp only [zoomEvent, Option.bind_eq_bind, Option.bind_eq_some_iff] at h
  obtain ⟨_, h₁, _, h₂, h₃⟩ := h
  have hlt : rest.length < _ :=
    (orElse_some h₃).elim (length_wordEvent (by decide)) (length_wordEvent (by decide))
  exact Nat.lt_trans (Nat.lt_of_lt_of_le hlt (gap_suffix h₂).length_le)
    (length_keyword (by decide) h₁)

theorem length_fitEvent {e : Event Float} {cs rest : List Char}
    (h : fitEvent cs = some (e, rest)) : rest.length < cs.length := by
  simp only [fitEvent, Option.bind_eq_bind, Option.bind_eq_some_iff, Option.some.injEq,
    Prod.mk.injEq] at h
  obtain ⟨_, h₁, ⟨_, _⟩, h₂, ⟨_, _⟩, h₃, _, rfl⟩ := h
  exact Nat.lt_of_le_of_lt ((point_suffix h₃).trans (point_suffix h₂)).length_le
    (length_keyword (by decide) h₁)

/-- An event has characters. -/
theorem length_event {e : Event Float} {cs rest : List Char} (h : event cs = some (e, rest)) :
    rest.length < cs.length := by
  unfold event at h
  rcases orElse_some h with h | h
  · exact length_wheelEvent h
  rcases orElse_some h with h | h
  · exact length_pointerEvent (by decide) h
  rcases orElse_some h with h | h
  · exact length_pointerEvent (by decide) h
  rcases orElse_some h with h | h
  · exact length_wordEvent (by decide) h
  rcases orElse_some h with h | h
  · exact length_zoomEvent h
  rcases orElse_some h with h | h
  · exact length_fitEvent h
  · exact length_wordEvent (by decide) h

theorem length_eventLine {e : Event Float} {cs rest : List Char}
    (h : eventLine cs = some (e, rest)) : rest.length < cs.length := by
  simp only [eventLine, Option.bind_eq_bind, Option.bind_eq_some_iff, Option.some.injEq,
    Prod.mk.injEq] at h
  obtain ⟨⟨_, _⟩, h₁, _, h₂, _, rfl⟩ := h
  exact Nat.lt_of_le_of_lt (endOfLine_suffix h₂).length_le (length_event h₁)

theorem length_commentLine {cs rest : List Char} (h : commentLine cs = some rest) :
    rest.length < cs.length := by
  simp only [commentLine, Option.bind_eq_bind, Option.bind_eq_some_iff] at h
  obtain ⟨_, h₁, h₂⟩ := h
  exact Nat.lt_of_le_of_lt ((endOfLine_suffix h₂).trans (List.dropWhile_suffix _)).length_le
    (length_keyword (by decide) h₁)

/-- A line has characters. -/
theorem length_line {e : Option (Event Float)} {cs rest : List Char}
    (h : line cs = some (e, rest)) : rest.length < cs.length := by
  unfold line at h
  split at h
  · simp at h
  · next c cs' hs =>
    refine Nat.lt_of_lt_of_le ?_ (hs ▸ skipGap_suffix cs).length_le
    rcases orElse_some h with h₁ | h
    · simp only [Option.map_eq_some_iff, Prod.mk.injEq] at h₁
      obtain ⟨_, h₁, _, rfl⟩ := h₁
      exact length_commentLine h₁
    rcases orElse_some h with h₂ | h₃
    · simp only [Option.map_eq_some_iff, Prod.mk.injEq] at h₂
      obtain ⟨_, h₂, _, rfl⟩ := h₂
      exact length_lineEnd h₂
    · simp only [Option.map_eq_some_iff, Prod.mk.injEq] at h₃
      obtain ⟨⟨_, _⟩, h₃, _, rfl⟩ := h₃
      exact length_eventLine h₃

end FlowCanvas.Script
