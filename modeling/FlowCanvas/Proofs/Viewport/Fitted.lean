import FlowCanvas.Proofs.Viewport.Painted
import FlowCanvas.Proofs.Viewport.ScaleLimits
import Mathlib.Order.Bounds.Defs

/-!
# Fitted content

Content that is fitted to a container is put in its middle, at the largest scale at which there is
room for it.  Both are easier to see from the middle than from the corners by which the shift is
worked out: the middle of the content goes to the middle of the container, and everything else is as
far from it as it is in the content, times the scale (`apply_fit`).

## Main definitions

* `Box.center` — the middle of a box.
* `Box.inset` — what is left of a container inside the space along its edges.

## Main results

* `apply_fit` — where a point of fitted content is.
* `isGreatest_fitScale` — the scale is the largest one at which there is room for the content.
* `fit_shows_content` — **fitted content is shown as a whole, in the middle, and as large as there
  is room for it, whatever was shown before.**
-/

namespace FlowCanvas

open Scalar

/-- The middle of a box. -/
def Box.center (b : Box ℚ) : Point ℚ := ⟨b.x + b.width / 2, b.y + b.height / 2⟩

/-- What is left of a container, in its own coordinates, inside the space along its edges. -/
def Box.inset (container : Box ℚ) (padding : ℚ) : Box ℚ :=
  ⟨padding, padding, container.width - 2 * padding, container.height - 2 * padding⟩

theorem scale_fit {α : Type} [Scalar α] (v : View α) (content container : Box α) (padding : α) :
    (v.fit content container padding).scale = View.fitScale content container padding := rfl

section Fit

variable (v : View ℚ) (content container : Box ℚ) (padding : ℚ)

/-- **Where a point of fitted content is:** seen from the middle, it is where it is in the content,
times the scale. -/
theorem apply_fit (p : Point ℚ) :
    (v.fit content container padding).apply p
      = ⟨container.width / 2
          + View.fitScale content container padding * (p.x - content.center.x),
        container.height / 2
          + View.fitScale content container padding * (p.y - content.center.y)⟩ := by
  have haxis : ∀ room size origin scale x : ℚ,
      x * scale + ((room - size * scale) / 2 - origin * scale)
        = room / 2 + scale * (x - (origin + size / 2)) := by
    intro room size origin scale x
    ring
  simp only [View.fit, Transform.apply, Box.center, two_eq, Point.mk.injEq]
  exact ⟨haxis _ _ _ _ _, haxis _ _ _ _ _⟩

/-- On one axis: what lies in content that there is room for lies inside the space along the edges
of the container. -/
theorem mem_inset_of_mem {origin size room scale x : ℚ} (hscale : 0 ≤ scale)
    (hroom : scale * size ≤ room - 2 * padding) (hlow : origin ≤ x) (hhigh : x ≤ origin + size) :
    padding ≤ room / 2 + scale * (x - (origin + size / 2))
      ∧ room / 2 + scale * (x - (origin + size / 2)) ≤ padding + (room - 2 * padding) := by
  have hleft : scale * (-(size / 2)) ≤ scale * (x - (origin + size / 2)) :=
    mul_le_mul_of_nonneg_left (by linarith) hscale
  have hright : scale * (x - (origin + size / 2)) ≤ scale * (size / 2) :=
    mul_le_mul_of_nonneg_left (by linarith) hscale
  constructor <;> linarith

end Fit

/-- The scale at which content is fitted is the largest one, up to its own size, at which there is
room for it. -/
theorem isGreatest_fitScale {content : Box ℚ} (hc : content.HasArea) (container : Box ℚ)
    (padding : ℚ) :
    IsGreatest
      {scale | (scale * content.width ≤ container.width - 2 * padding
        ∧ scale * content.height ≤ container.height - 2 * padding) ∧ scale ≤ 1}
      (View.fitScale content container padding) :=
  ⟨(le_fitScale_iff hc container padding _).mp le_rfl,
    fun scale hscale => (le_fitScale_iff hc container padding scale).mpr hscale⟩

/-- **Fitted content is shown as a whole.**  Let the content have an area, and let the space along
the edges leave some of the container.  Then the content is drawn at a positive scale, and at most
at its own size; its middle is in the middle of the container, and all of it inside the space along
the edges; at no larger scale, up to its own size, would there be room for it; no drag is on; and
what was shown before does not matter. -/
theorem fit_shows_content {content container : Box ℚ} (hc : content.HasArea) {padding : ℚ}
    (hwidth : 2 * padding < container.width) (hheight : 2 * padding < container.height)
    (v : View ℚ) :
    (0 < (v.fit content container padding).scale ∧ (v.fit content container padding).scale ≤ 1)
      ∧ (v.fit content container padding).apply content.center
        = ⟨container.width / 2, container.height / 2⟩
      ∧ (∀ p, content.contains p = true →
        (container.inset padding).contains ((v.fit content container padding).apply p) = true)
      ∧ IsGreatest
        {scale | (scale * content.width ≤ container.width - 2 * padding
          ∧ scale * content.height ≤ container.height - 2 * padding) ∧ scale ≤ 1}
        (v.fit content container padding).scale
      ∧ (v.fit content container padding).dragging = false
      ∧ ∀ v' : View ℚ, (v'.fit content container padding).toTransform
        = (v.fit content container padding).toTransform := by
  have hgreatest := isGreatest_fitScale hc container padding
  obtain ⟨⟨hroomWidth, hroomHeight⟩, hone⟩ := hgreatest.1
  have hpos : 0 < View.fitScale content container padding :=
    (fitScale_pos_iff hc container padding).mpr ⟨hwidth, hheight⟩
  rw [scale_fit]
  refine ⟨⟨hpos, hone⟩, ?center, ?whole, hgreatest, rfl, fun _ => rfl⟩
  case center =>
    rw [apply_fit]
    simp
  case whole =>
    intro p hp
    obtain ⟨⟨hleft, hright⟩, htop, hbottom⟩ := (contains_iff content p).mp hp
    rw [apply_fit]
    exact (contains_iff _ _).mpr
      ⟨mem_inset_of_mem padding hpos.le hroomWidth hleft hright,
        mem_inset_of_mem padding hpos.le hroomHeight htop hbottom⟩

/-- Content off the origin that is twice as wide as there is room for, fitted during a drag. -/
theorem fit_shows_wide_content :
    (⟨-100, 50, 1520, 200⟩ : Box ℚ).HasArea
      ∧ ((2 * 20 : ℚ) < (⟨10, 20, 800, 600⟩ : Box ℚ).width
        ∧ (2 * 20 : ℚ) < (⟨10, 20, 800, 600⟩ : Box ℚ).height)
      ∧ (View.fit ⟨⟨3, ⟨-5, 7⟩⟩, true, ⟨1, 2⟩⟩ ⟨-100, 50, 1520, 200⟩ ⟨10, 20, 800, 600⟩ 20).apply
          ⟨660, 150⟩ = (⟨400, 300⟩ : Point ℚ)
      ∧ (⟨20, 20, 760, 560⟩ : Box ℚ).contains
          ((View.fit ⟨⟨3, ⟨-5, 7⟩⟩, true, ⟨1, 2⟩⟩ ⟨-100, 50, 1520, 200⟩ ⟨10, 20, 800, 600⟩ 20).apply
            ⟨1420, 250⟩) = true := by
  have harea : (⟨-100, 50, 1520, 200⟩ : Box ℚ).HasArea := by norm_num [Box.HasArea]
  have hroom : (2 * 20 : ℚ) < (⟨10, 20, 800, 600⟩ : Box ℚ).width
      ∧ (2 * 20 : ℚ) < (⟨10, 20, 800, 600⟩ : Box ℚ).height := by norm_num
  obtain ⟨-, hcenter, hwhole, -⟩ :=
    fit_shows_content harea hroom.1 hroom.2 ⟨⟨3, ⟨-5, 7⟩⟩, true, ⟨1, 2⟩⟩
  refine ⟨harea, hroom, ?_, ?_⟩
  · have hmiddle : (⟨-100, 50, 1520, 200⟩ : Box ℚ).center = ⟨660, 150⟩ := by
      norm_num [Box.center]
    rw [← hmiddle, hcenter]
    norm_num
  · have hinset : (⟨10, 20, 800, 600⟩ : Box ℚ).inset 20 = ⟨20, 20, 760, 560⟩ := by
      norm_num [Box.inset]
    have hcorner : (⟨-100, 50, 1520, 200⟩ : Box ℚ).contains ⟨1420, 250⟩ = true := by
      rw [contains_iff]
      norm_num
    rw [← hinset]
    exact hwhole _ hcorner

end FlowCanvas
