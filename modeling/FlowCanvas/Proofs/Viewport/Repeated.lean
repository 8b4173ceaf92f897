import FlowCanvas.Proofs.Viewport.Interleaved
import FlowCanvas.Proofs.Viewport.ScaleLimits
import Mathlib.Algebra.Order.Archimedean.Basic
import Mathlib.Data.List.Induction

/-!
# Zooming again and again

A zoom multiplies the scale and brings it between the limits.  Zooming several times by one factor
is the same as zooming once by its power: the scales go one way only, and once they have come to a
limit they stay there, which is also where the power leads to (`clamp_clamp_mul_pow`).

What a zoom does apart from the scale is no obstacle.  The buttons leave it alone, and the wheel
shifts the content around the pointer in such a way that only the last scale matters.  Both are ways
of setting the scale of a view (`SetsScale`), which the run lemma `replay_of_setsScale` is about.

## Main definitions

* `View.scaledAt` — a view with another scale, seen around a place of the container.
* `SetsScale` — a way of setting the scale of a view, so that only the last scale matters.

## Main results

* `clamp_clamp_mul_pow` — a scale that is brought between the limits on the way.
* `replay_of_setsScale` — a run of zooms by one factor.
* `exists_pow_zoomStep` — powers of the step that lead to both limits.
* `replay_zooms_eq_single` — **zooming again and again is zooming once, and in the end it leads to a
  limit.**
-/

namespace FlowCanvas

open Scalar

/-! ### Ways of setting the scale -/

/-- The view with another scale, the point of the content at a place of the container staying
there. -/
def View.scaledAt {α : Type} [Scalar α] (p : Point α) (v : View α) (scale : α) : View α :=
  { v with
    scale := scale
    shift := ⟨p.x - (v.invert p).x * scale, p.y - (v.invert p).y * scale⟩ }

/-- The wheel brings a scale between the limits and sets it, seen around the pointer. -/
theorem wheel_eq_scaledAt {α : Type} [Scalar α] (s : Settings α) (container : Box α) (v : View α)
    (delta : α) (client : Point α) :
    v.wheel s container delta client
      = v.scaledAt ⟨client.x - container.x, client.y - container.y⟩
        (s.clamp (v.scale * View.wheelFactor s delta)) := rfl

theorem wheelFactor_of_nonpos {s : Settings ℚ} {delta : ℚ} (h : delta ≤ 0) :
    View.wheelFactor s delta = s.wheelIn := by
  unfold View.wheelFactor
  simp [Scalar.lt, Scalar.le, h]

theorem wheelFactor_of_pos {s : Settings ℚ} {delta : ℚ} (h : 0 < delta) :
    View.wheelFactor s delta = s.wheelOut := by
  unfold View.wheelFactor
  simp [Scalar.lt, Scalar.le, h, h.le]

/-- A way of setting the scale of a view: that is the scale then, it makes no difference to set the
one that is there already, and of two that are set the first makes none, unless it is zero. -/
structure SetsScale (set : View ℚ → ℚ → View ℚ) : Prop where
  scale_set : ∀ v x, (set v x).scale = x
  set_scale : ∀ v, v.scale ≠ 0 → set v v.scale = v
  set_set : ∀ v x y, x ≠ 0 → set (set v x) y = set v y

theorem setsScale_atScale : SetsScale View.atScale :=
  ⟨fun _ _ => rfl, fun _ _ => rfl, fun _ _ _ _ => rfl⟩

/-- The point of the content stays where it is, so it is the same for the next scale. -/
theorem setsScale_scaledAt (p : Point ℚ) : SetsScale (View.scaledAt p) := by
  refine ⟨fun _ _ => rfl, ?_, ?_⟩
  · intro v hv
    have haxis : ∀ a b : ℚ, a - (a - b) / v.scale * v.scale = b := by
      intro a b
      rw [div_mul_cancel₀ _ hv, sub_sub_cancel]
    have hshift : (v.scaledAt p v.scale).shift = v.shift :=
      congrArg₂ Point.mk (haxis p.x v.shift.x) (haxis p.y v.shift.y)
    exact congrArg (fun q => View.mk ⟨v.scale, q⟩ v.dragging v.cursor) hshift
  · intro v x y hx
    have haxis : ∀ a b : ℚ, a - (a - (a - b * x)) / x * y = a - b * y := by
      intro a b
      rw [sub_sub_cancel, mul_div_cancel_right₀ b hx]
    have hshift : ((v.scaledAt p x).scaledAt p y).shift = (v.scaledAt p y).shift :=
      congrArg₂ Point.mk (haxis p.x (v.invert p).x) (haxis p.y (v.invert p).y)
    exact congrArg (fun q => View.mk ⟨y, q⟩ v.dragging v.cursor) hshift

/-! ### Scales on the way -/

section Limits

variable {s : Settings ℚ}

theorem clamp_of_minZoom_le {x : ℚ} (h : s.minZoom ≤ x) : s.clamp x = min x s.maxZoom := by
  rw [clamp_eq, max_eq_left h]

variable (hmax : s.minZoom ≤ s.maxZoom)
include hmax

theorem clamp_of_le_maxZoom {x : ℚ} (h : x ≤ s.maxZoom) : s.clamp x = max x s.minZoom := by
  rw [clamp_eq, min_eq_left (max_le h hmax)]

/-- A scale that grows comes to the upper limit at most, and from there it cannot go on. -/
theorem clamp_clamp_mul_of_one_le {y f : ℚ} (hpos : 0 < s.minZoom) (hy : s.minZoom ≤ y)
    (hf : 1 ≤ f) : s.clamp (s.clamp y * f) = s.clamp (y * f) := by
  rw [clamp_of_minZoom_le hy]
  rcases le_total y s.maxZoom with hle | hle
  · rw [min_eq_left hle]
  · -- the scale is at the limit already, and both products are above it
    have hproduct : s.maxZoom ≤ s.maxZoom * f :=
      le_mul_of_one_le_right (hpos.le.trans hmax) hf
    have hproduct' : s.maxZoom ≤ y * f :=
      hproduct.trans (mul_le_mul_of_nonneg_right hle (zero_le_one.trans hf))
    rw [min_eq_right hle, clamp_of_minZoom_le (hmax.trans hproduct),
      clamp_of_minZoom_le (hmax.trans hproduct'), min_eq_right hproduct, min_eq_right hproduct']

/-- A scale that shrinks comes to the lower limit at most, and from there it cannot go on. -/
theorem clamp_clamp_mul_of_le_one {y f : ℚ} (hpos : 0 < s.minZoom) (hy : y ≤ s.maxZoom)
    (hf : 0 < f) (hf' : f ≤ 1) : s.clamp (s.clamp y * f) = s.clamp (y * f) := by
  rw [clamp_of_le_maxZoom hmax hy]
  rcases le_total s.minZoom y with hle | hle
  · rw [max_eq_left hle]
  · -- the scale is at the limit already, and both products are below it
    have hproduct : s.minZoom * f ≤ s.minZoom := mul_le_of_le_one_right hpos.le hf'
    have hproduct' : y * f ≤ s.minZoom :=
      (mul_le_mul_of_nonneg_right hle hf.le).trans hproduct
    rw [max_eq_right hle, clamp_of_le_maxZoom hmax (hproduct.trans hmax),
      clamp_of_le_maxZoom hmax (hproduct'.trans hmax), max_eq_right hproduct,
      max_eq_right hproduct']

/-- The powers of a factor go one way only, so that a scale that is brought between the limits
before the last multiplication ends where it would have ended anyway. -/
theorem clamp_clamp_mul_pow (hpos : 0 < s.minZoom) {x f : ℚ} (hx : s.minZoom ≤ x)
    (hx' : x ≤ s.maxZoom) (hf : 0 < f) (k : ℕ) :
    s.clamp (s.clamp (x * f ^ k) * f) = s.clamp (x * f ^ (k + 1)) := by
  have hxpos : 0 ≤ x := hpos.le.trans hx
  rw [pow_succ, ← mul_assoc]
  rcases le_total 1 f with hone | hone
  · have hgrown : x ≤ x * f ^ k := le_mul_of_one_le_right hxpos (one_le_pow₀ hone)
    exact clamp_clamp_mul_of_one_le hmax hpos (hx.trans hgrown) hone
  · have hshrunk : x * f ^ k ≤ x := mul_le_of_le_one_right hxpos (pow_le_one₀ hf.le hone)
    exact clamp_clamp_mul_of_le_one hmax hpos (hshrunk.trans hx') hf hone

end Limits

/-- Enough zooms lead to the limits. -/
theorem exists_pow_zoomStep {s : Settings ℚ} (hmin : 0 < s.minZoom) (hstep : 1 < s.zoomStep)
    {v : View ℚ} (hv : v.InLimits s) :
    ∃ n, ∀ k, n ≤ k → s.maxZoom ≤ v.scale * s.zoomStep ^ k
      ∧ v.scale / s.zoomStep ^ k ≤ s.minZoom := by
  have hscale : 0 < v.scale := hmin.trans_le hv.1
  -- one power that is enough for both, as the limits are within this ratio of each other
  obtain ⟨n, hn⟩ := pow_unbounded_of_one_lt (s.maxZoom / s.minZoom) hstep
  refine ⟨n, fun k hk => ?_⟩
  have hpow : s.maxZoom ≤ s.minZoom * s.zoomStep ^ k := by
    have hle : s.maxZoom / s.minZoom ≤ s.zoomStep ^ k :=
      hn.le.trans (pow_le_pow_right₀ hstep.le hk)
    rwa [div_le_iff₀' hmin] at hle
  have hpos : 0 < s.zoomStep ^ k := pow_pos (zero_lt_one.trans hstep) k
  constructor
  · exact hpow.trans (mul_le_mul_of_nonneg_right hv.1 hpos.le)
  · rw [div_le_iff₀ hpos]
    exact hv.2.trans hpow

/-! ### Runs of zooms -/

section Run

variable {s : Settings ℚ} (hmin : 0 < s.minZoom) (hmax : s.minZoom ≤ s.maxZoom)
include hmin hmax

/-- A run of events that all set the scale to its product with one factor, brought between the
limits, sets it once, to its product with a power of the factor.  By induction on the run from its
end: the view before the last event has a scale that is not zero, which the last event sets anew. -/
theorem replay_of_setsScale {set : View ℚ → ℚ → View ℚ} (hset : SetsScale set) {f : ℚ} (hf : 0 < f)
    {container : Box ℚ} {events : List (Event ℚ)}
    (hevents : ∀ e ∈ events, ∀ w : View ℚ, w.step s container e = set w (s.clamp (w.scale * f)))
    {v : View ℚ} (hv : v.InLimits s) :
    View.replay s container events v = set v (s.clamp (v.scale * f ^ events.length)) := by
  induction events using List.reverseRecOn with
  | nil =>
    have hsame : s.clamp (v.scale * f ^ ([] : List (Event ℚ)).length) = v.scale := by
      rw [List.length_nil, pow_zero, mul_one, clamp_of_minZoom_le hv.1, min_eq_left hv.2]
    rw [hsame, hset.set_scale v (hmin.trans_le hv.1).ne']
    rfl
  | append_singleton events e ih =>
    have hlast := hevents e (List.mem_append_right _ (List.mem_singleton_self e))
    have hbefore : View.replay s container events v
        = set v (s.clamp (v.scale * f ^ events.length)) :=
      ih fun e he => hevents e (List.mem_append_left _ he)
    have hscale : s.clamp (v.scale * f ^ events.length) ≠ 0 :=
      (hmin.trans_le (minZoom_le_clamp hmax _)).ne'
    rw [View.replay_append, View.replay_cons, View.replay_nil, hlast, hbefore, hset.scale_set,
      hset.set_set v _ _ hscale, List.length_append, List.length_singleton,
      clamp_clamp_mul_pow hmax hmin hv.1 hv.2 hf]

/-- Turning the wheel again and again in one direction at one place. -/
theorem replay_wheels {f : ℚ} (hf : 0 < f) (container : Box ℚ) {deltas : List ℚ}
    (hdeltas : ∀ d ∈ deltas, View.wheelFactor s d = f) (client : Point ℚ) {v : View ℚ}
    (hv : v.InLimits s) :
    View.replay s container (deltas.map (Event.wheel · client)) v
      = v.scaledAt ⟨client.x - container.x, client.y - container.y⟩
        (s.clamp (v.scale * f ^ deltas.length)) := by
  have hset := setsScale_scaledAt ⟨client.x - container.x, client.y - container.y⟩
  rw [replay_of_setsScale hmin hmax hset hf ?_ hv, List.length_map]
  intro e he w
  obtain ⟨d, hd, rfl⟩ := List.mem_map.mp he
  rw [← hdeltas d hd]
  exact wheel_eq_scaledAt s container w d client

/-- Pressing a button again and again that multiplies the scale. -/
theorem replay_buttons {f : ℚ} (hf : 0 < f) {container : Box ℚ} {e : Event ℚ}
    (he : ∀ w : View ℚ, w.step s container e = w.atScale (s.clamp (w.scale * f))) {v : View ℚ}
    (hv : v.InLimits s) (k : ℕ) :
    View.replay s container (List.replicate k e) v = v.atScale (s.clamp (v.scale * f ^ k)) := by
  rw [replay_of_setsScale hmin hmax setsScale_atScale hf ?_ hv, List.length_replicate]
  intro e' he' w
  rw [List.eq_of_mem_replicate he', he]

theorem replay_zoomIns (hstep : 1 ≤ s.zoomStep) (container : Box ℚ) {v : View ℚ}
    (hv : v.InLimits s) (k : ℕ) :
    View.replay s container (List.replicate k .zoomIn) v
      = v.atScale (min (v.scale * s.zoomStep ^ k) s.maxZoom) := by
  have hgrown : v.scale ≤ v.scale * s.zoomStep ^ k :=
    le_mul_of_one_le_right (hmin.le.trans hv.1) (one_le_pow₀ hstep)
  rw [replay_buttons hmin hmax (zero_lt_one.trans_le hstep) (fun _ => rfl) hv,
    clamp_of_minZoom_le (hv.1.trans hgrown)]

theorem replay_zoomOuts (hstep : 1 ≤ s.zoomStep) (container : Box ℚ) {v : View ℚ}
    (hv : v.InLimits s) (k : ℕ) :
    View.replay s container (List.replicate k .zoomOut) v
      = v.atScale (max (v.scale / s.zoomStep ^ k) s.minZoom) := by
  have hshrunk : v.scale / s.zoomStep ^ k ≤ v.scale :=
    div_le_self (hmin.le.trans hv.1) (one_le_pow₀ hstep)
  -- a division is a multiplication by the inverse
  have hbutton : ∀ w : View ℚ, w.step s container .zoomOut
      = w.atScale (s.clamp (w.scale * s.zoomStep⁻¹)) := by
    intro w
    rw [← div_eq_mul_inv]
    rfl
  rw [replay_buttons hmin hmax (inv_pos.mpr (zero_lt_one.trans_le hstep)) hbutton hv, inv_pow,
    ← div_eq_mul_inv, clamp_of_le_maxZoom hmax (hshrunk.trans hv.2)]

/-- **Zooming again and again is zooming once.**  From a view between the limits, the buttons lead
to the product or the quotient of the scale and a power of the step, or to the limit if that is
beyond it, and change nothing else; if they zoom at all, enough of them lead to the limit and stay
there.  And turning the wheel again and again in one direction at one place, by whatever amounts,
leads to the very view that a single turn leads to whose factor is the power. -/
theorem replay_zooms_eq_single (container : Box ℚ) {v : View ℚ} (hv : v.InLimits s) :
    (1 ≤ s.zoomStep → ∀ k,
        View.replay s container (List.replicate k .zoomIn) v
            = { v with scale := min (v.scale * s.zoomStep ^ k) s.maxZoom }
          ∧ View.replay s container (List.replicate k .zoomOut) v
            = { v with scale := max (v.scale / s.zoomStep ^ k) s.minZoom })
      ∧ (∀ (deltas : List ℚ) (client : Point ℚ),
        (0 < s.wheelIn → (∀ d ∈ deltas, d ≤ 0) → ∀ d ≤ 0,
            View.replay s container (deltas.map (Event.wheel · client)) v
              = v.step { s with wheelIn := s.wheelIn ^ deltas.length } container
                (.wheel d client))
          ∧ (0 < s.wheelOut → (∀ d ∈ deltas, 0 < d) → ∀ d, 0 < d →
            View.replay s container (deltas.map (Event.wheel · client)) v
              = v.step { s with wheelOut := s.wheelOut ^ deltas.length } container
                (.wheel d client)))
      ∧ (1 < s.zoomStep → ∃ n, ∀ k, n ≤ k →
        View.replay s container (List.replicate k .zoomIn) v = { v with scale := s.maxZoom }
          ∧ View.replay s container (List.replicate k .zoomOut) v
            = { v with scale := s.minZoom }) := by
  refine ⟨fun hstep k => ⟨replay_zoomIns hmin hmax hstep container hv k,
    replay_zoomOuts hmin hmax hstep container hv k⟩, ?_, ?_⟩
  · intro deltas client
    constructor
    · intro hf hdeltas d hd
      rw [replay_wheels hmin hmax hf container
        (fun d hd => wheelFactor_of_nonpos (hdeltas d hd)) client hv]
      have hsingle : View.wheelFactor { s with wheelIn := s.wheelIn ^ deltas.length } d
          = s.wheelIn ^ deltas.length := wheelFactor_of_nonpos hd
      rw [View.step, wheel_eq_scaledAt, hsingle]
      rfl
    · intro hf hdeltas d hd
      rw [replay_wheels hmin hmax hf container
        (fun d hd => wheelFactor_of_pos (hdeltas d hd)) client hv]
      have hsingle : View.wheelFactor { s with wheelOut := s.wheelOut ^ deltas.length } d
          = s.wheelOut ^ deltas.length := wheelFactor_of_pos hd
      rw [View.step, wheel_eq_scaledAt, hsingle]
      rfl
  · intro hstep
    obtain ⟨n, hn⟩ := exists_pow_zoomStep hmin hstep hv
    refine ⟨n, fun k hk => ⟨?_, ?_⟩⟩
    · rw [replay_zoomIns hmin hmax hstep.le container hv, min_eq_right (hn k hk).1]
      rfl
    · rw [replay_zoomOuts hmin hmax hstep.le container hv, max_eq_right (hn k hk).2]
      rfl

end Run

/-- Six turns of a button during a drag, from twice the size to beyond the limit, and three turns of
the wheel in either direction, of which one has no amount. -/
theorem replay_zooms_eq_single_during_drag :
    (0 < Settings.exact.minZoom ∧ Settings.exact.minZoom ≤ Settings.exact.maxZoom)
      ∧ (⟨⟨2, ⟨3, 4⟩⟩, true, ⟨5, 6⟩⟩ : View ℚ).InLimits Settings.exact
      ∧ View.replay Settings.exact ⟨10, 20, 800, 600⟩ (List.replicate 6 .zoomIn)
          ⟨⟨2, ⟨3, 4⟩⟩, true, ⟨5, 6⟩⟩ = ⟨⟨5, ⟨3, 4⟩⟩, true, ⟨5, 6⟩⟩
      ∧ View.replay Settings.exact ⟨10, 20, 800, 600⟩
          ([-1, 0, -500].map (Event.wheel · ⟨40, 50⟩)) ⟨⟨2, ⟨3, 4⟩⟩, true, ⟨5, 6⟩⟩
        = View.step { Settings.exact with wheelIn := Settings.exact.wheelIn ^ 3 }
          ⟨10, 20, 800, 600⟩ ⟨⟨2, ⟨3, 4⟩⟩, true, ⟨5, 6⟩⟩ (.wheel (-1) ⟨40, 50⟩)
      ∧ View.replay Settings.exact ⟨10, 20, 800, 600⟩
          ([3, 1 / 2, 120].map (Event.wheel · ⟨40, 50⟩)) ⟨⟨2, ⟨3, 4⟩⟩, true, ⟨5, 6⟩⟩
        = View.step { Settings.exact with wheelOut := Settings.exact.wheelOut ^ 3 }
          ⟨10, 20, 800, 600⟩ ⟨⟨2, ⟨3, 4⟩⟩, true, ⟨5, 6⟩⟩ (.wheel 3 ⟨40, 50⟩)
      ∧ ∃ n, ∀ k, n ≤ k →
        View.replay Settings.exact ⟨10, 20, 800, 600⟩ (List.replicate k .zoomOut)
          ⟨⟨2, ⟨3, 4⟩⟩, true, ⟨5, 6⟩⟩ = ⟨⟨1 / 10, ⟨3, 4⟩⟩, true, ⟨5, 6⟩⟩ := by
  have hmin : 0 < Settings.exact.minZoom := by norm_num [Settings.exact]
  have hmax : Settings.exact.minZoom ≤ Settings.exact.maxZoom := by norm_num [Settings.exact]
  have hv : (⟨⟨2, ⟨3, 4⟩⟩, true, ⟨5, 6⟩⟩ : View ℚ).InLimits Settings.exact := by
    norm_num [View.InLimits, Settings.exact]
  have hstep : 1 < Settings.exact.zoomStep := by norm_num [Settings.exact]
  obtain ⟨hbuttons, hwheel, hlimits⟩ :=
    replay_zooms_eq_single hmin hmax ⟨10, 20, 800, 600⟩ hv
  refine ⟨⟨hmin, hmax⟩, hv, ?_, ?_, ?_, ?_⟩
  · have hproduct : min (2 * Settings.exact.zoomStep ^ 6) Settings.exact.maxZoom = 5 := by
      norm_num [Settings.exact]
    rw [(hbuttons hstep.le 6).1, hproduct]
  · exact (hwheel [-1, 0, -500] ⟨40, 50⟩).1 (by norm_num [Settings.exact]) (by norm_num) (-1)
      (by norm_num)
  · exact (hwheel [3, 1 / 2, 120] ⟨40, 50⟩).2 (by norm_num [Settings.exact]) (by norm_num) 3
      (by norm_num)
  · obtain ⟨n, hn⟩ := hlimits hstep
    exact ⟨n, fun k hk => (hn k hk).2⟩

end FlowCanvas
