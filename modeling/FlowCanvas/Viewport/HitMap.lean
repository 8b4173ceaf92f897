import FlowCanvas.Graph.Spec
import FlowCanvas.Viewport.View

/-!
# What is where

The parts of a diagram are painted in the order of a list, each in a box of its own, so that a
later one covers an earlier one.

## Main definitions

* `HitMap` — the parts and their boxes.
* `HitMap.box?` — the box of a part.
* `HitMap.topmost?`, `HitMap.pointed?` — the part at a point of the content, and under the pointer.
-/

namespace FlowCanvas

/-- The parts of a diagram and their boxes, in the order in which they are painted. -/
structure HitMap (α : Type) where
  /-- The parts and their boxes. -/
  entries : List (Target × Box α)
  deriving DecidableEq, Repr, Inhabited

namespace HitMap

variable {α : Type} [Scalar α] (m : HitMap α)

/-- The box in which a part was painted last. -/
def box? (target : Target) : Option (Box α) :=
  (m.entries.reverse.find? fun e => e.1 = target).map (·.2)

/-- The part that was painted last at a point of the content. -/
def topmost? (p : Point α) : Option Target :=
  (m.entries.reverse.find? fun e => e.2.contains p).map (·.1)

/-- The part under the pointer. -/
def pointed? (v : View α) (container : Box α) (client : Point α) : Option Target :=
  m.topmost? (v.invert ⟨client.x - container.x, client.y - container.y⟩)

end HitMap

end FlowCanvas
