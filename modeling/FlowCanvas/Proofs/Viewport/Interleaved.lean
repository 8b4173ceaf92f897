import FlowCanvas.Viewport.Event

/-!
# Dragging and zooming in turns

A drag changes the shift of a view, and a zoom button its scale.  Neither reads what the other
changes: what the pointer does to a view is the same at every scale
(`step_atScale_of_dragsOrDrops`), and the scale that a button brings about depends on the scale
alone (`step_atScale_of_zoomsAtOrigin`). So it makes no difference in which turns the two go on.  A
run of both ends with the scale that the buttons alone would lead to, and with everything else as
the pointer alone would leave it.

No law of arithmetic is used, so that doubles come out exactly the same, whatever they are.

## Main definitions

* `Interleaved` — a list that has the members of two others, each in its own order.
* `Event.dragsOrDrops`, `Event.zoomsAtOrigin` — the events of the pointer, and those of the buttons.
* `View.atScale` — a view with another scale.

## Main results

* `replay_atScale_of_interleaved` — a run of both kinds of events, from two views: one for the scale
  and one for the rest.
* `replay_of_interleaved` — **all interleavings of a drag and of zooming lead to one view.**
-/

namespace FlowCanvas

/-- The last list has the members of the other two, each in its own order. -/
inductive Interleaved {α : Type} : List α → List α → List α → Prop
  | nil : Interleaved [] [] []
  /-- The first list goes on. -/
  | left {a : α} {l r m : List α} (rest : Interleaved l r m) : Interleaved (a :: l) r (a :: m)
  /-- The second list goes on. -/
  | right {a : α} {l r m : List α} (rest : Interleaved l r m) : Interleaved l (a :: r) (a :: m)

variable {α : Type}

/-- The pointer is pressed, moved or released. -/
def Event.dragsOrDrops : Event α → Bool
  | .press _ | .move _ | .release => true
  | _ => false

/-- A button zooms, which leaves the origin of the content where it is. -/
def Event.zoomsAtOrigin : Event α → Bool
  | .zoomIn | .zoomOut => true
  | _ => false

/-- The view with another scale. -/
def View.atScale (v : View α) (scale : α) : View α := { v with scale := scale }

@[simp] theorem View.atScale_scale (v : View α) : v.atScale v.scale = v := rfl

/-! ### One event -/

section Step

variable [Scalar α] (s : Settings α) (container : Box α)

/-- What the pointer does is the same at every scale, and does not change it. -/
theorem step_atScale_of_dragsOrDrops (v : View α) (scale : α) {e : Event α}
    (h : e.dragsOrDrops = true) :
    (v.atScale scale).step s container e = (v.step s container e).atScale scale := by
  cases e with
  | press _ => rfl
  | release => rfl
  | move client =>
    show (v.atScale scale).move client = (v.move client).atScale scale
    unfold View.move
    by_cases hheld : v.dragging = true
    · -- the way of the pointer is not measured in the scale
      have hheld' : (v.atScale scale).dragging = true := hheld
      rw [if_pos hheld, if_pos hheld']
      rfl
    · have hheld' : ¬ (v.atScale scale).dragging = true := hheld
      rw [if_neg hheld, if_neg hheld']
  | _ => exact absurd h Bool.false_ne_true

/-- The scale that a button brings about depends on the scale alone, and nothing else changes. -/
theorem step_atScale_of_zoomsAtOrigin (v w : View α) {e : Event α} (h : e.zoomsAtOrigin = true) :
    (v.atScale w.scale).step s container e = v.atScale (w.step s container e).scale := by
  cases e with
  | zoomIn => rfl
  | zoomOut => rfl
  | _ => exact absurd h Bool.false_ne_true

end Step

/-! ### Runs -/

/-- The pointer is at work on the view `v` and the buttons on `w`.  The view that has its scale from
`w` and all else from `v` is kept by every event of an interleaving: the pointer changes `v`, a
button changes `w`. -/
theorem replay_atScale_of_interleaved [Scalar α] (s : Settings α) (container : Box α)
    {ps zs events : List (Event α)} (h : Interleaved ps zs events)
    (hps : ∀ e ∈ ps, e.dragsOrDrops = true) (hzs : ∀ e ∈ zs, e.zoomsAtOrigin = true)
    (v w : View α) :
    View.replay s container events (v.atScale w.scale)
      = (View.replay s container ps v).atScale (View.replay s container zs w).scale := by
  induction h generalizing v w with
  | nil => rfl
  | @left e ps zs events _ ih =>
    obtain ⟨he, hps⟩ := List.forall_mem_cons.mp hps
    rw [View.replay_cons, View.replay_cons, step_atScale_of_dragsOrDrops s container v _ he]
    exact ih hps hzs (v.step s container e) w
  | @right e ps zs events _ ih =>
    obtain ⟨he, hzs⟩ := List.forall_mem_cons.mp hzs
    rw [View.replay_cons, View.replay_cons, step_atScale_of_zoomsAtOrigin s container v w he]
    exact ih hps hzs v (w.step s container e)

/-- **Dragging and zooming do not interfere.**  Take a list of what the pointer does and a list of
what the buttons do, and any interleaving of the two.  It ends with the scale that the buttons alone
lead to, and with the shift, the drag and the place of the pointer that the pointer alone leads to.
So all interleavings end in the same view. -/
theorem replay_of_interleaved [Scalar α] (s : Settings α) (container : Box α) (v : View α)
    {ps zs : List (Event α)} (hps : ∀ e ∈ ps, e.dragsOrDrops = true)
    (hzs : ∀ e ∈ zs, e.zoomsAtOrigin = true) {events : List (Event α)}
    (h : Interleaved ps zs events) :
    View.replay s container events v
        = { View.replay s container ps v with scale := (View.replay s container zs v).scale }
      ∧ ∀ others, Interleaved ps zs others →
        View.replay s container others v = View.replay s container events v := by
  have hend : ∀ es, Interleaved ps zs es → View.replay s container es v
      = (View.replay s container ps v).atScale (View.replay s container zs v).scale := by
    intro es hes
    have := replay_atScale_of_interleaved s container hes hps hzs v v
    rwa [View.atScale_scale] at this
  refine ⟨hend events h, ?_⟩
  intro others hothers
  rw [hend others hothers, hend events h]

/-- A move before the drag, which has no effect, and two turns of a button during the drag.  The
pointer is pressed at a place that is no number, so that the shift becomes none. -/
theorem replay_of_interleaved_during_drag :
    Interleaved ([.move ⟨1, 1⟩, .press ⟨0 / 0, 8⟩, .move ⟨9, 9⟩, .release] : List (Event Float))
        [.zoomIn, .zoomOut]
        [.move ⟨1, 1⟩, .press ⟨0 / 0, 8⟩, .zoomIn, .move ⟨9, 9⟩, .zoomOut, .release]
      ∧ View.replay Settings.standard ⟨10, 20, 800, 600⟩
          [.move ⟨1, 1⟩, .press ⟨0 / 0, 8⟩, .zoomIn, .move ⟨9, 9⟩, .zoomOut, .release]
          ⟨⟨4.9, ⟨3, 4⟩⟩, false, ⟨5, 6⟩⟩
        = { View.replay Settings.standard ⟨10, 20, 800, 600⟩
              [.move ⟨1, 1⟩, .press ⟨0 / 0, 8⟩, .move ⟨9, 9⟩, .release]
              ⟨⟨4.9, ⟨3, 4⟩⟩, false, ⟨5, 6⟩⟩ with
            scale := (View.replay Settings.standard ⟨10, 20, 800, 600⟩ [.zoomIn, .zoomOut]
              ⟨⟨4.9, ⟨3, 4⟩⟩, false, ⟨5, 6⟩⟩).scale } := by
  have hrun : Interleaved
      ([.move ⟨1, 1⟩, .press ⟨0 / 0, 8⟩, .move ⟨9, 9⟩, .release] : List (Event Float))
      [.zoomIn, .zoomOut]
      [.move ⟨1, 1⟩, .press ⟨0 / 0, 8⟩, .zoomIn, .move ⟨9, 9⟩, .zoomOut, .release] :=
    .left (.left (.right (.left (.right (.left .nil)))))
  refine ⟨hrun, ?_⟩
  exact (replay_of_interleaved _ _ _ (by simp [Event.dragsOrDrops])
    (by simp [Event.zoomsAtOrigin]) hrun).1

end FlowCanvas
