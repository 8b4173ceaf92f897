import FlowCanvas.Proofs.Viewport.Exact
import FlowCanvas.Viewport.HitMap
import Mathlib.Tactic.Ring

/-!
# The point under the pointer

The wheel zooms around the pointer, and a drag carries the content along with the pointer.  In both
cases the point of the content that is under the pointer stays under it.  For the wheel this is so
because it works out that point before it zooms, and puts it back with the scale that it really
takes, which may be one of the limits; for a drag, because the content is shifted by the way of the
pointer since the last time it was seen.

So three facts together are kept by every step (`Pinned.wheel`, `Pinned.move`): the scale is
positive, during a drag the pointer is where it was last seen, and the point under it is the same.

## Main definitions

* `View.under` — the point of the content under the pointer.
* `Event.pointer`, `pointerAfter` — where the pointer is after an event and after a list of them.
* `Steers` — the wheel turns at the pointer, and the pointer moves only during a drag.
* `Pinned` — the facts that are kept.

## Main results

* `under_wheel`, `under_move` — one turn of the wheel, and one move.
* `under_replay_of_steers` — **the point under the pointer stays the same throughout a run, and
  with it the part of the diagram that is pointed at.**
-/

namespace FlowCanvas

variable {α : Type}

/-! ### Where the pointer is -/

/-- Where the pointer is after an event.  Most events do not say, and leave it where it was. -/
def Event.pointer (p : Point α) : Event α → Point α
  | .wheel _ client => client
  | .press client => client
  | .move client => client
  | _ => p

/-- Where the pointer is after a list of events. -/
def pointerAfter (p : Point α) (events : List (Event α)) : Point α := events.foldl Event.pointer p

section Runs

variable [Scalar α]

/-- The point of the content under the pointer. -/
def View.under (v : View α) (container : Box α) (client : Point α) : Point α :=
  v.invert ⟨client.x - container.x, client.y - container.y⟩

/-- Which part of a diagram is pointed at depends on the point under the pointer alone. -/
theorem pointed?_eq (m : HitMap α) (v : View α) (container : Box α) (client : Point α) :
    m.pointed? v container client = m.topmost? (v.under container client) := rfl

/-- Starting from a view and a place of the pointer, every event is a turn of the wheel at the
pointer or a move of it, and a button is held down whenever it moves. -/
inductive Steers (s : Settings α) (container : Box α) :
    View α → Point α → List (Event α) → Prop
  | nil (v : View α) (p : Point α) : Steers s container v p []
  | wheel {v : View α} {p : Point α} {es : List (Event α)} (delta : α)
      (rest : Steers s container (v.step s container (.wheel delta p)) p es) :
      Steers s container v p (.wheel delta p :: es)
  | move {v : View α} {p q : Point α} {es : List (Event α)} (held : v.dragging = true)
      (rest : Steers s container (v.step s container (.move q)) q es) :
      Steers s container v p (.move q :: es)

variable {s : Settings α} {container : Box α}

/-- The beginning of such a run is one. -/
theorem Steers.of_prefix {v : View α} {p : Point α} {es events : List (Event α)}
    (h : Steers s container v p events) (hes : es <+: events) : Steers s container v p es := by
  induction h generalizing es with
  | nil v p =>
    rw [List.prefix_nil.mp hes]
    exact .nil v p
  | @wheel v p _ delta _ ih =>
    rcases List.prefix_cons_iff.mp hes with rfl | ⟨es', rfl, hes'⟩
    · exact .nil v p
    · exact .wheel delta (ih hes')
  | @move v p _ _ held _ ih =>
    rcases List.prefix_cons_iff.mp hes with rfl | ⟨es', rfl, hes'⟩
    · exact .nil v p
    · exact .move held (ih hes')

end Runs

/-! ### One step -/

/-- A turn of the wheel leaves the point under the pointer, whatever scale comes out of it. -/
theorem under_wheel {s : Settings ℚ} {container : Box ℚ} {v : View ℚ} {delta : ℚ} {p : Point ℚ}
    (h : (v.wheel s container delta p).scale ≠ 0) :
    (v.wheel s container delta p).under container p = v.under container p := by
  have hback : ∀ a b c : ℚ, c ≠ 0 → (a - (a - b * c)) / c = b := by
    intro a b c hc
    rw [sub_sub_cancel, mul_div_cancel_right₀ b hc]
  have hx := hback (p.x - container.x) (v.under container p).x _ h
  have hy := hback (p.y - container.y) (v.under container p).y _ h
  exact congrArg₂ Point.mk hx hy

/-- During a drag the content under the pointer moves with it. -/
theorem under_move {container : Box ℚ} {v : View ℚ} (hdrag : v.dragging = true) (q : Point ℚ) :
    (v.move q).under container q = v.under container v.cursor := by
  have hshift : ∀ a b c d e : ℚ, (a - b - (c + (a - d))) / e = (d - b - c) / e := by
    intro a b c d e
    congr 1
    ring
  have hmove : v.move q
      = { v with
          shift := ⟨v.shift.x + (q.x - v.cursor.x), v.shift.y + (q.y - v.cursor.y)⟩
          cursor := q } := by
    unfold View.move
    exact if_pos hdrag
  rw [hmove]
  exact congrArg₂ Point.mk (hshift q.x container.x v.shift.x v.cursor.x v.scale)
    (hshift q.y container.y v.shift.y v.cursor.y v.scale)

/-! ### Runs -/

/-- What is kept while the point `target` of the content is under the pointer. -/
structure Pinned (container : Box ℚ) (target : Point ℚ) (v : View ℚ) (p : Point ℚ) : Prop where
  scale_pos : 0 < v.scale
  /-- During a drag the pointer is where it was last seen. -/
  cursor_eq : v.dragging = true → v.cursor = p
  under_eq : v.under container p = target

namespace Pinned

variable {s : Settings ℚ} {container : Box ℚ} {target : Point ℚ} {v : View ℚ} {p : Point ℚ}

theorem wheel (hmin : 0 < s.minZoom) (hmax : s.minZoom ≤ s.maxZoom)
    (h : Pinned container target v p) (delta : ℚ) :
    Pinned container target (v.step s container (.wheel delta p)) p := by
  have hpos : 0 < (v.wheel s container delta p).scale :=
    hmin.trans_le (minZoom_le_clamp hmax _)
  refine ⟨hpos, fun hdrag => h.cursor_eq hdrag, ?_⟩
  exact (under_wheel hpos.ne').trans h.under_eq

theorem move (h : Pinned container target v p) (hdrag : v.dragging = true) (q : Point ℚ) :
    Pinned container target (v.step s container (.move q)) q := by
  have hstep : v.step s container (.move q) = v.move q := rfl
  rw [hstep]
  refine ⟨?_, ?_, ?_⟩
  · unfold View.move
    rw [if_pos hdrag]
    exact h.scale_pos
  · intro _
    unfold View.move
    rw [if_pos hdrag]
  · rw [under_move hdrag, h.cursor_eq hdrag]
    exact h.under_eq

/-- What is kept by the steps of a run holds at its end. -/
theorem replay (hmin : 0 < s.minZoom) (hmax : s.minZoom ≤ s.maxZoom) {es : List (Event ℚ)}
    (hrun : Steers s container v p es) (h : Pinned container target v p) :
    Pinned container target (View.replay s container es v) (pointerAfter p es) := by
  induction hrun with
  | nil => exact h
  | wheel delta _ ih => exact ih (h.wheel hmin hmax delta)
  | @move _ _ q _ held _ ih => exact ih (h.move held q)

end Pinned

/-- **The point under the pointer stays the same.**  Let the scale be positive, and if a drag is on,
let the pointer be where it was last seen.  If then the wheel turns at the pointer, and the pointer
moves during the drag, in any order, then after every step the point of the content under the
pointer is the one at the start, and so is the part of the diagram that is pointed at. -/
theorem under_replay_of_steers {s : Settings ℚ} (hmin : 0 < s.minZoom)
    (hmax : s.minZoom ≤ s.maxZoom) {container : Box ℚ} {v : View ℚ} (hscale : 0 < v.scale)
    {p : Point ℚ} (hcursor : v.dragging = true → v.cursor = p) {events : List (Event ℚ)}
    (hrun : Steers s container v p events) {es : List (Event ℚ)} (hes : es <+: events) :
    (View.replay s container es v).under container (pointerAfter p es) = v.under container p
      ∧ ∀ m : HitMap ℚ, m.pointed? (View.replay s container es v) container (pointerAfter p es)
        = m.pointed? v container p := by
  have hstart : Pinned container (v.under container p) v p := ⟨hscale, hcursor, rfl⟩
  have hunder := (hstart.replay hmin hmax (hrun.of_prefix hes)).under_eq
  refine ⟨hunder, fun m => ?_⟩
  rw [pointed?_eq, hunder, pointed?_eq]

/-- A drag with two turns of the wheel in it, the second of which takes the scale to its upper
limit. -/
theorem under_replay_of_drag_and_limit :
    (0 < Settings.exact.minZoom ∧ Settings.exact.minZoom ≤ Settings.exact.maxZoom)
      ∧ Steers Settings.exact ⟨10, 20, 800, 600⟩ ⟨⟨9 / 2, ⟨30, -40⟩⟩, true, ⟨110, 120⟩⟩ ⟨110, 120⟩
        [.wheel (-1) ⟨110, 120⟩, .move ⟨150, 90⟩, .wheel (-1) ⟨150, 90⟩, .move ⟨0, 0⟩]
      ∧ (View.replay Settings.exact ⟨10, 20, 800, 600⟩
          [.wheel (-1) ⟨110, 120⟩, .move ⟨150, 90⟩, .wheel (-1) ⟨150, 90⟩]
          ⟨⟨9 / 2, ⟨30, -40⟩⟩, true, ⟨110, 120⟩⟩).under ⟨10, 20, 800, 600⟩ ⟨150, 90⟩
        = (⟨⟨9 / 2, ⟨30, -40⟩⟩, true, ⟨110, 120⟩⟩ : View ℚ).under ⟨10, 20, 800, 600⟩
          ⟨110, 120⟩ := by
  have hlimits : 0 < Settings.exact.minZoom ∧ Settings.exact.minZoom ≤ Settings.exact.maxZoom := by
    norm_num [Settings.exact]
  have hrun : Steers Settings.exact ⟨10, 20, 800, 600⟩
      ⟨⟨9 / 2, ⟨30, -40⟩⟩, true, ⟨110, 120⟩⟩ ⟨110, 120⟩
      [.wheel (-1) ⟨110, 120⟩, .move ⟨150, 90⟩, .wheel (-1) ⟨150, 90⟩, .move ⟨0, 0⟩] :=
    .wheel _ (.move rfl (.wheel _ (.move rfl (.nil _ _))))
  refine ⟨hlimits, hrun, ?_⟩
  exact (under_replay_of_steers hlimits.1 hlimits.2 (by norm_num) (fun _ => rfl) hrun
    ⟨[.move ⟨0, 0⟩], rfl⟩).1

end FlowCanvas
