import FlowCanvas.Proofs.Viewport.Extended
import FlowCanvas.Proofs.Viewport.ScaleLimits

/-!
# How the scale recovers

The scale can be off limits: a view may start with any scale, and content is fitted at whatever
scale it fits at, be it zero, negative or infinite.  The next zoom mends this.  It brings the scale
between the limits even if the scale is no number, since that gives way to a limit, and no event
but another fitting or a reset takes it out again.

Nothing is asked of the four operations: the scale that a zoom works out may be anything.  So this
holds for doubles with all their rounding, as for every kind of number that is compared as extended
fractions are.

## Main definitions

* `Event.zooms`, `Event.replacesScale` — the events that change the scale with regard to the limits,
  and without.
* `View.Recovered` — the scale of a view is a number between the limits.

## Main results

* `exists_scale_step_eq_clamp` — a zoom brings some scale between the limits.
* `recovered_of_zooms` — **after a zoom the scale is between the limits, whatever it was, and it
  stays there unless content is fitted or the view is reset.**
-/

namespace FlowCanvas

open Scalar
open HasValue (value)

variable {α : Type}

/-- The event changes the scale and has regard to the limits. -/
def Event.zooms : Event α → Bool
  | .wheel _ _ | .zoomIn | .zoomOut => true
  | _ => false

/-- The event changes the scale without regard to the limits. -/
def Event.replacesScale : Event α → Bool
  | .fit _ | .reset => true
  | _ => false

variable [Scalar α]

/-- A zoom brings some scale between the limits. -/
theorem exists_scale_step_eq_clamp (s : Settings α) (container : Box α) (v : View α) {e : Event α}
    (h : e.zooms = true) : ∃ x, (View.step s container v e).scale = s.clamp x := by
  rw [scale_step]
  cases e with
  | wheel _ _ => exact ⟨_, rfl⟩
  | zoomIn => exact ⟨_, rfl⟩
  | zoomOut => exact ⟨_, rfl⟩
  | _ => exact absurd h Bool.false_ne_true

variable [HasValue α]

/-- The scale of the view is a number between the limits. -/
structure View.Recovered (s : Settings α) (v : View α) : Prop where
  minZoom_le : value s.minZoom ≤ value v.scale
  le_maxZoom : value v.scale ≤ value s.maxZoom
  ne_nan : value v.scale ≠ .nan

theorem value_clamp (s : Settings α) (x : α) :
    value (s.clamp x) = ((value x).maxNum (value s.minZoom)).minNum (value s.maxZoom) := by
  unfold Settings.clamp
  rw [value_smaller, value_larger]

theorem minZoom_le_value_clamp {s : Settings α} (h : value s.minZoom ≤ value s.maxZoom) (x : α) :
    value s.minZoom ≤ value (s.clamp x) := by
  rw [value_clamp]
  exact Extended.le_minNum (Extended.le_maxNum_right _ (Extended.ne_nan_of_le_left h)) h

theorem value_clamp_le_maxZoom {s : Settings α} (h : value s.maxZoom ≠ .nan) (x : α) :
    value (s.clamp x) ≤ value s.maxZoom := by
  rw [value_clamp]
  exact Extended.minNum_le_right _ h

/-- **The scale recovers.**  Let the limits be numbers, and in order.  If a list of events has a
zoom in it behind which no content is fitted and the view is not reset, then at the end of the list
the scale is a number between the limits, whatever the view has at first for its scale and its
shift, and whatever the steps of zooming are. -/
theorem recovered_of_zooms {s : Settings α} (hlimits : value s.minZoom ≤ value s.maxZoom)
    (container : Box α) (v : View α) {before after : List (Event α)} {e : Event α}
    (he : e.zooms = true) (hafter : ∀ f ∈ after, f.replacesScale = false) :
    (View.replay s container (before ++ e :: after) v).Recovered s := by
  have hclamp : ∀ x, value s.minZoom ≤ value (s.clamp x) ∧ value (s.clamp x) ≤ value s.maxZoom :=
    fun x => ⟨minZoom_le_value_clamp hlimits x,
      value_clamp_le_maxZoom (Extended.ne_nan_of_le_right hlimits) x⟩
  have hzoom : ∀ w : View α, value s.minZoom ≤ value (w.step s container e).scale
      ∧ value (w.step s container e).scale ≤ value s.maxZoom := by
    intro w
    obtain ⟨x, hx⟩ := exists_scale_step_eq_clamp s container w he
    rw [hx]
    exact hclamp x
  -- no event behind the zoom is one that `scale_replay_of` asks anything of
  have hreset : Event.reset ∉ after := fun h => Bool.false_ne_true (hafter _ h).symm
  have hfit : ∀ b, Event.fit b ∉ after := fun b h => Bool.false_ne_true (hafter _ h).symm
  have hend := scale_replay_of s container
    (P := fun x => value s.minZoom ≤ value x ∧ value x ≤ value s.maxZoom) hclamp
    (fun h => absurd h hreset) (fun b h => absurd h (hfit b))
    (hzoom (View.replay s container before v))
  rw [View.replay_append, View.replay_cons]
  exact ⟨hend.1, hend.2, Extended.ne_nan_of_le_left hend.2⟩

/-- A view whose scale is no number, with a shift that is infinite, after content without a width
has been fitted to a container that is too small and the wheel has been turned during a drag.  The
wheel multiplies by zero, and there is no upper limit. -/
theorem recovered_of_lost_scale :
    (.fin (1 / 10) ≤ (.posInf : Extended))
      ∧ (View.replay (⟨.fin (1 / 10), .posInf, .nan, .fin 0, .nan, .fin 20⟩ : Settings Extended)
          ⟨.fin 0, .fin 0, .fin 30, .fin 600⟩
          ([.fit ⟨.fin 0, .fin 0, .fin 0, .fin 1⟩, .press ⟨.nan, .fin 1⟩]
            ++ .wheel (.fin (-1)) ⟨.fin 4, .fin 5⟩ :: [.move ⟨.posInf, .fin 2⟩, .release])
          ⟨⟨.nan, ⟨.posInf, .nan⟩⟩, false, ⟨.nan, .fin 0⟩⟩).Recovered
        ⟨.fin (1 / 10), .posInf, .nan, .fin 0, .nan, .fin 20⟩ := by
  refine ⟨rfl, recovered_of_zooms rfl _ _ rfl fun f hf => ?_⟩
  simp only [List.mem_cons, List.not_mem_nil, or_false] at hf
  rcases hf with rfl | rfl <;> rfl

end FlowCanvas
