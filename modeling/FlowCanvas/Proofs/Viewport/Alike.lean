import FlowCanvas.Proofs.Viewport.Exact
import FlowCanvas.Viewport.HitMap

/-!
# Views that look alike

A view has a place for the pointer, which is used during a drag only.  So two views with the same
transform, both without a drag, cannot be told apart, whatever their places hold: they look alike,
and they go on looking alike whatever is done to both (`Alike.step`).  Fitting content makes any
two views look alike (`alike_fit`), so that nothing done before it shows afterwards.

All this needs no law of arithmetic, and holds for every kind of number.

## Main definitions

* `View.Alike` — the views differ at most in the place of the pointer, and not during a drag.

## Main results

* `alike_iff_eq_cursor` — they look alike exactly if they are equal up to a place that is not used.
* `Alike.step`, `Alike.replay` — one event, and a run of them.
* `forall_prefix_alike` — **views that look alike do so throughout a run, and whatever was done
  before content was fitted is forgotten.**
-/

namespace FlowCanvas

variable {α : Type}

/-- The transform of two views is the same, they are both in a drag or both not, and in a drag the
pointer was last seen at the same place. -/
structure View.Alike (v w : View α) : Prop where
  transform_eq : v.toTransform = w.toTransform
  dragging_eq : v.dragging = w.dragging
  cursor_eq : v.dragging = true → v.cursor = w.cursor

namespace View

/-- Views look alike exactly if one is the other with some place for the pointer, which is the same
place in a drag. -/
theorem alike_iff_eq_cursor {v w : View α} :
    v.Alike w ↔ ∃ p, w = { v with cursor := p } ∧ (v.dragging = true → v.cursor = p) := by
  obtain ⟨t, held, p⟩ := v
  obtain ⟨u, held', q⟩ := w
  constructor
  · rintro ⟨ht, hheld, hcursor⟩
    exact ⟨q, congrArg₂ (View.mk · · q) ht.symm hheld.symm, hcursor⟩
  · rintro ⟨q', hw, hcursor⟩
    obtain ⟨rfl, rfl, rfl⟩ := View.mk.inj hw
    exact ⟨rfl, rfl, hcursor⟩

namespace Alike

variable [Scalar α] {s : Settings α} {container : Box α} {v w : View α}

/-- What is under the pointer is the same in views that look alike. -/
theorem pointed?_eq (h : v.Alike w) (m : HitMap α) (box : Box α) (client : Point α) :
    m.pointed? v box client = m.pointed? w box client := by
  unfold HitMap.pointed?
  rw [h.transform_eq]

/-- After an event, views that looked alike do so again.  Only a move reads the place of the
pointer, and only during a drag. -/
theorem step (h : v.Alike w) (e : Event α) :
    (v.step s container e).Alike (w.step s container e) := by
  obtain ⟨p, rfl, hcursor⟩ := alike_iff_eq_cursor.mp h
  cases e with
  | move client =>
    change (v.move client).Alike (View.move { v with cursor := p } client)
    unfold View.move
    split
    · next hheld =>
      rw [hcursor hheld]
      exact ⟨rfl, rfl, fun _ => rfl⟩
    · exact h
  | wheel _ _ => exact ⟨rfl, rfl, hcursor⟩
  | zoomIn => exact ⟨rfl, rfl, hcursor⟩
  | zoomOut => exact ⟨rfl, rfl, hcursor⟩
  | press _ => exact ⟨rfl, rfl, fun _ => rfl⟩
  | reset => exact ⟨rfl, rfl, fun _ => rfl⟩
  | release => exact ⟨rfl, rfl, fun hheld => absurd hheld Bool.false_ne_true⟩
  | fit _ => exact ⟨rfl, rfl, fun hheld => absurd hheld Bool.false_ne_true⟩

/-- After a run of events, views that looked alike do so again. -/
theorem replay (h : v.Alike w) (events : List (Event α)) :
    (v.replay s container events).Alike (w.replay s container events) := by
  induction events generalizing v w with
  | nil => exact h
  | cons e es ih => exact ih (h.step e)

end Alike

/-- Any two views look alike once the same content has been fitted. -/
theorem alike_fit [Scalar α] (v w : View α) (content container : Box α) (padding : α) :
    (v.fit content container padding).Alike (w.fit content container padding) :=
  ⟨rfl, rfl, fun hheld => absurd hheld Bool.false_ne_true⟩

end View

/-- **What was done before cannot be seen.**  Views that look alike do so after every beginning of a
list of events, so that the same part of a diagram is under the pointer in both.  If content is
fitted somewhere in a list of events, then the view at its end has a transform, and is in a drag or
not, as the events behind the fitting alone decide: neither the view at first nor the events before
make a difference. -/
theorem forall_prefix_alike [Scalar α] (s : Settings α) (container : Box α)
    (events : List (Event α)) :
    (∀ v w : View α, v.Alike w → ∀ es, es <+: events →
      (View.replay s container es v).Alike (View.replay s container es w)
        ∧ ∀ (m : HitMap α) (box : Box α) (client : Point α),
          m.pointed? (View.replay s container es v) box client
            = m.pointed? (View.replay s container es w) box client)
      ∧ ∀ (v w : View α) (h₁ h₂ : List (Event α)) (b : Box α),
        (View.replay s container (h₁ ++ [.fit b] ++ events) v).toTransform
            = (View.replay s container (h₂ ++ [.fit b] ++ events) w).toTransform
          ∧ (View.replay s container (h₁ ++ [.fit b] ++ events) v).dragging
            = (View.replay s container (h₂ ++ [.fit b] ++ events) w).dragging := by
  constructor
  · intro v w h es _
    have hes : (View.replay s container es v).Alike (View.replay s container es w) := h.replay es
    exact ⟨hes, fun m box client => hes.pointed?_eq m box client⟩
  · intro v w h₁ h₂ b
    simp only [View.replay_append, View.replay_cons, View.replay_nil]
    have hfit := View.alike_fit (View.replay s container h₁ v) (View.replay s container h₂ w) b
      container s.fitPadding
    have hend : (View.replay s container events _).Alike (View.replay s container events _) :=
      hfit.replay events
    exact ⟨hend.transform_eq, hend.dragging_eq⟩

/-- Two views without a drag that have different places for the pointer, before a move, which has no
effect, a press and a drag. -/
theorem forall_prefix_alike_of_stale_cursor :
    (⟨⟨2, ⟨3, 4⟩⟩, false, ⟨5, 6⟩⟩ : View ℚ) ≠ ⟨⟨2, ⟨3, 4⟩⟩, false, ⟨0, 0⟩⟩
      ∧ (⟨⟨2, ⟨3, 4⟩⟩, false, ⟨5, 6⟩⟩ : View ℚ).Alike ⟨⟨2, ⟨3, 4⟩⟩, false, ⟨0, 0⟩⟩
      ∧ (View.replay Settings.exact ⟨10, 20, 800, 600⟩ [.move ⟨1, 1⟩, .press ⟨7, 8⟩, .move ⟨9, 9⟩]
          ⟨⟨2, ⟨3, 4⟩⟩, false, ⟨5, 6⟩⟩).Alike
        (View.replay Settings.exact ⟨10, 20, 800, 600⟩ [.move ⟨1, 1⟩, .press ⟨7, 8⟩, .move ⟨9, 9⟩]
          ⟨⟨2, ⟨3, 4⟩⟩, false, ⟨0, 0⟩⟩) := by
  have halike : (⟨⟨2, ⟨3, 4⟩⟩, false, ⟨5, 6⟩⟩ : View ℚ).Alike ⟨⟨2, ⟨3, 4⟩⟩, false, ⟨0, 0⟩⟩ :=
    ⟨rfl, rfl, fun hheld => absurd hheld Bool.false_ne_true⟩
  refine ⟨by decide, halike, ?_⟩
  exact ((forall_prefix_alike _ _ [.move ⟨1, 1⟩, .press ⟨7, 8⟩, .move ⟨9, 9⟩, .zoomIn]).1 _ _ halike
    _ ⟨[.zoomIn], rfl⟩).1

end FlowCanvas
