import FlowCanvas.Viewport.Scalar

/-!
# Points, boxes and transforms

The content of a diagram and the container it is shown in have coordinates of their own. A
transform takes those of the content to those of the container.

## Main definitions

* `Point`, `Box` — places and rectangles.
* `Box.contains` — a point is in a box or on its edge.
* `Transform` — a change of scale followed by a shift.
* `Transform.apply`, `Transform.invert` — the transform of a point, and the way back.
-/

namespace FlowCanvas

open Scalar

/-- A place in the plane. -/
structure Point (α : Type) where
  /-- The distance to the right. -/
  x : α
  /-- The distance downwards. -/
  y : α
  deriving DecidableEq, Repr, Inhabited

/-- A rectangle. -/
structure Box (α : Type) where
  /-- Its left edge. -/
  x : α
  /-- Its upper edge. -/
  y : α
  /-- The distance from its left to its right edge. -/
  width : α
  /-- The distance from its upper to its lower edge. -/
  height : α
  deriving DecidableEq, Repr, Inhabited

/-- A change of scale followed by a shift. -/
structure Transform (α : Type) where
  scale : α
  /-- Where the origin goes. -/
  shift : Point α
  deriving DecidableEq, Repr, Inhabited

variable {α : Type} [Scalar α]

/-- A rectangle at the origin. -/
def Box.sized (width height : α) : Box α := ⟨0, 0, width, height⟩

/-- A point is in a box or on its edge. -/
def Box.contains (b : Box α) (p : Point α) : Bool :=
  le b.x p.x && le p.x (b.x + b.width) && le b.y p.y && le p.y (b.y + b.height)

namespace Transform

/-- The transform that leaves every point where it is. -/
def identity : Transform α := ⟨1, ⟨0, 0⟩⟩

variable (t : Transform α) (p : Point α)

/-- Where a point of the content is in the container. -/
def apply : Point α := ⟨p.x * t.scale + t.shift.x, p.y * t.scale + t.shift.y⟩

/-- The point of the content that is at a point of the container. -/
def invert : Point α := ⟨(p.x - t.shift.x) / t.scale, (p.y - t.shift.y) / t.scale⟩

/-- A transform with numbers that are points of the line. -/
def isFinite : Bool :=
  Scalar.isFinite t.scale && Scalar.isFinite t.shift.x && Scalar.isFinite t.shift.y

/-- The six numbers of a transform as a matrix, column by column. -/
def matrix : List α := [t.scale, 0, 0, t.scale, t.shift.x, t.shift.y]

end Transform

end FlowCanvas
