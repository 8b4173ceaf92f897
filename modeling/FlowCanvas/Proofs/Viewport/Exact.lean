import FlowCanvas.Viewport.Event
import Mathlib.Algebra.Order.Field.Rat
import Mathlib.Tactic.Linarith
import Mathlib.Tactic.NormNum

/-!
# The viewport over exact fractions

Scales and coordinates can be any kind of number with the four operations and a comparison.  Over
exact fractions the two operations of `Scalar` that decide between numbers are the usual ones, and
the scales that the viewport works out can be written down as such.

## Main definitions

* `Settings.exact` — the usual limits and steps as fractions.
* `Box.HasArea` — the sides of a box are positive.

## Main results

* `clamp_le_maxZoom`, `minZoom_le_clamp` — a scale brought between the limits is between them.
* `fitScale_eq_min` — the scale at which content is fitted to the container.
* `le_fitScale_iff` — the scales up to that one are those at which the content fits.
-/

namespace FlowCanvas

open Scalar

/-! ### The larger and the smaller number -/

@[simp] theorem larger_eq_max (x y : ℚ) : larger x y = max x y := by
  unfold larger
  rw [max_def]
  simp [Scalar.le]

@[simp] theorem smaller_eq_min (x y : ℚ) : smaller x y = min x y := by
  unfold smaller
  rw [min_comm, min_def]
  simp [Scalar.le]

theorem two_eq : (two : ℚ) = 2 := by
  unfold two
  norm_num

/-! ### Scales between the limits -/

/-- The usual limits and steps as fractions. -/
def Settings.exact : Settings ℚ := ⟨1 / 10, 5, 6 / 5, 11 / 10, 9 / 10, 20⟩

theorem clamp_eq (s : Settings ℚ) (scale : ℚ) :
    s.clamp scale = min (max scale s.minZoom) s.maxZoom := by
  unfold Settings.clamp
  rw [larger_eq_max, smaller_eq_min]

theorem clamp_le_maxZoom (s : Settings ℚ) (scale : ℚ) : s.clamp scale ≤ s.maxZoom := by
  rw [clamp_eq]
  exact min_le_right _ _

theorem minZoom_le_clamp {s : Settings ℚ} (h : s.minZoom ≤ s.maxZoom) (scale : ℚ) :
    s.minZoom ≤ s.clamp scale := by
  rw [clamp_eq]
  exact le_min (le_max_right _ _) h

/-! ### Fitted content -/

/-- The sides of the box are positive. -/
def Box.HasArea (b : Box ℚ) : Prop := 0 < b.width ∧ 0 < b.height

/-- Content is fitted at the smaller one of the scales at which its width and its height fit, but
at most at its own size. -/
theorem fitScale_eq_min (content container : Box ℚ) (padding : ℚ) :
    View.fitScale content container padding
      = min (min ((container.width - 2 * padding) / content.width)
          ((container.height - 2 * padding) / content.height)) 1 := by
  unfold View.fitScale
  rw [smaller_eq_min, smaller_eq_min, two_eq]

/-- The scales up to the one at which content is fitted are those at which its width and its height
fit, and which are not above its own size. -/
theorem le_fitScale_iff {content : Box ℚ} (hc : content.HasArea) (container : Box ℚ)
    (padding scale : ℚ) :
    scale ≤ View.fitScale content container padding
      ↔ (scale * content.width ≤ container.width - 2 * padding
        ∧ scale * content.height ≤ container.height - 2 * padding) ∧ scale ≤ 1 := by
  rw [fitScale_eq_min, le_min_iff, le_min_iff, le_div_iff₀ hc.1, le_div_iff₀ hc.2]

theorem fitScale_le_one (content container : Box ℚ) (padding : ℚ) :
    View.fitScale content container padding ≤ 1 := by
  rw [fitScale_eq_min]
  exact min_le_right _ _

end FlowCanvas
