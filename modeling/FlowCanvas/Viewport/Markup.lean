import FlowCanvas.Decimal.Layout
import FlowCanvas.Viewport.Geometry

/-!
# Transforms as text

## Main definitions

* `Transform.svg` — a transform as the value of an attribute in vector graphics.
* `Transform.css` — a transform as the value of a property in style sheets.
-/

namespace FlowCanvas.Transform

open Decimal (plainText)

variable (t : Transform Float)

/-- A transform as the value of an attribute in vector graphics. -/
def svg : String :=
  "translate(" ++ plainText t.shift.x ++ "," ++ plainText t.shift.y ++ ") scale("
    ++ plainText t.scale ++ ")"

/-- A transform as the value of a property in style sheets, for a shift counted in pixels. -/
def css : String :=
  "translate(" ++ plainText t.shift.x ++ "px, " ++ plainText t.shift.y ++ "px) scale("
    ++ plainText t.scale ++ ")"

end FlowCanvas.Transform
