import FlowCanvas.Viewport.View

/-!
# Events

## Main definitions

* `Event` — what the reader of a diagram does.
* `View.step` — what one event does to a view.
* `View.replay`, `View.trace` — what a list of events does to it, at the end and on the way.
-/

namespace FlowCanvas

/-- What the reader of a diagram does. -/
inductive Event (α : Type)
  /-- The wheel is turned, towards the reader if the number is positive. -/
  | wheel (delta : α) (client : Point α)
  | press (client : Point α)
  | move (client : Point α)
  | release
  | zoomIn
  | zoomOut
  /-- The content in a box is shown as a whole. -/
  | fit (content : Box α)
  /-- The view of the start is shown. -/
  | reset
  deriving DecidableEq, Repr, Inhabited

namespace View

variable {α : Type} [Scalar α] (s : Settings α) (container : Box α)

/-- What an event does to a view. -/
def step (v : View α) : Event α → View α
  | .wheel delta client => v.wheel s container delta client
  | .press client => v.press client
  | .move client => v.move client
  | .release => v.release
  | .zoomIn => v.zoomIn s
  | .zoomOut => v.zoomOut s
  | .fit content => v.fit content container s.fitPadding
  | .reset => start

/-- What a list of events does to a view. -/
def replay (events : List (Event α)) (v : View α) : View α := events.foldl (step s container) v

/-- The views before, between and after the events of a list. -/
def trace : List (Event α) → View α → List (View α)
  | [], v => [v]
  | e :: es, v => v :: trace es (step s container v e)

@[simp] theorem replay_nil (v : View α) : replay s container [] v = v := rfl

@[simp] theorem replay_cons (e : Event α) (es : List (Event α)) (v : View α) :
    replay s container (e :: es) v = replay s container es (step s container v e) := rfl

@[simp] theorem replay_append (es fs : List (Event α)) (v : View α) :
    replay s container (es ++ fs) v = replay s container fs (replay s container es v) :=
  List.foldl_append

@[simp] theorem trace_nil (v : View α) : trace s container [] v = [v] := rfl

@[simp] theorem trace_cons (e : Event α) (es : List (Event α)) (v : View α) :
    trace s container (e :: es) v = v :: trace s container es (step s container v e) := rfl

/-- The views on the way are those that the beginnings of the list lead to. -/
theorem getElem?_trace (es : List (Event α)) (v : View α) (n : Nat) :
    (trace s container es v)[n]?
      = if n ≤ es.length then some (replay s container (es.take n) v) else none := by
  induction es generalizing v n with
  | nil => cases n <;> simp
  | cons e es ih => cases n <;> simp [ih]

end View

end FlowCanvas
