import FlowCanvas.Viewport.Geometry

/-!
# Views

A view is a transform that the reader of a diagram changes by zooming and dragging. The scale
stays between two limits, except that fitting the content to the container may go below them.

## Main definitions

* `Settings` — the limits and the steps of zooming.
* `View`, `View.start` — a transform and the drag that is going on, and the view at first.
* `View.wheel`, `View.zoomIn`, `View.zoomOut`, `View.press`, `View.move`, `View.release`,
  `View.fit`, `View.constrain` — what can be done with a view.
-/

namespace FlowCanvas

open Scalar

/-- The limits and the steps of zooming. -/
structure Settings (α : Type) where
  minZoom : α
  maxZoom : α
  /-- What a button multiplies or divides the scale by. -/
  zoomStep : α
  /-- What a turn of the wheel away from the reader multiplies the scale by. -/
  wheelIn : α
  /-- What a turn of the wheel towards the reader multiplies the scale by. -/
  wheelOut : α
  /-- The space around content that is fitted to the container. -/
  fitPadding : α
  deriving DecidableEq, Repr, Inhabited

/-- The usual limits and steps. -/
def Settings.standard : Settings Float := ⟨0.1, 5.0, 1.2, 1.1, 0.9, 20.0⟩

/-- A transform and the drag that is going on. -/
structure View (α : Type) extends Transform α where
  /-- A button is held down. -/
  dragging : Bool
  /-- Where the pointer was last during a drag. -/
  cursor : Point α
  deriving DecidableEq, Repr, Inhabited

variable {α : Type} [Scalar α]

/-- A scale brought between the limits: up to the lower one, then down to the upper one. -/
def Settings.clamp (s : Settings α) (scale : α) : α := smaller (larger scale s.minZoom) s.maxZoom

namespace View

/-- The view before anything has been done. -/
def start : View α := ⟨.identity, false, ⟨0, 0⟩⟩

variable (v : View α)

/-- The scale by which the wheel changes the current one: only the direction of the turn
matters. -/
def wheelFactor (s : Settings α) (delta : α) : α := if lt 0 delta then s.wheelOut else s.wheelIn

/-- A turn of the wheel: zooms so that the point of the content under the pointer stays there. -/
def wheel (s : Settings α) (container : Box α) (delta : α) (client : Point α) : View α :=
  let scale := s.clamp (v.scale * wheelFactor s delta)
  let cursor : Point α := ⟨client.x - container.x, client.y - container.y⟩
  let content := v.invert cursor
  { v with
    scale := scale
    shift := ⟨cursor.x - content.x * scale, cursor.y - content.y * scale⟩ }

/-- A button zooms in, with the origin of the content staying where it is. -/
def zoomIn (s : Settings α) : View α := { v with scale := s.clamp (v.scale * s.zoomStep) }

/-- A button zooms out, with the origin of the content staying where it is. -/
def zoomOut (s : Settings α) : View α := { v with scale := s.clamp (v.scale / s.zoomStep) }

/-- The pointer is pressed, and a drag begins. -/
def press (client : Point α) : View α := { v with dragging := true, cursor := client }

/-- The pointer moves. During a drag the content moves as far as the pointer does. -/
def move (client : Point α) : View α :=
  if v.dragging then
    { v with
      shift := ⟨v.shift.x + (client.x - v.cursor.x), v.shift.y + (client.y - v.cursor.y)⟩
      cursor := client }
  else v

/-- The pointer is released, and a drag ends. -/
def release : View α := { v with dragging := false }

/-- The scale at which content fits into a container with some space around it, but at most its
own size. -/
def fitScale (content container : Box α) (padding : α) : α :=
  smaller
    (smaller ((container.width - two * padding) / content.width)
      ((container.height - two * padding) / content.height))
    1

/-- The whole content is shown in the middle of the container, and a drag ends. -/
def fit (content container : Box α) (padding : α) : View α :=
  let scale := fitScale content container padding
  { v with
    scale := scale
    shift := ⟨(container.width - content.width * scale) / two - content.x * scale,
      (container.height - content.height * scale) / two - content.y * scale⟩
    dragging := false }

/-- The scale is brought between the limits. -/
def constrain (s : Settings α) : View α := { v with scale := s.clamp v.scale }

end View

end FlowCanvas
