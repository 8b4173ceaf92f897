import FlowCanvas.Viewport.Event
import Mathlib.Data.List.Induction

/-!
# When a button is held

A press begins a drag.  It ends with a release, but also when content is fitted or the view is
reset.  No other event has a say in it, so the last event of these four kinds decides whether a
drag is going on (`dragging_replay`).  A move at any other time is idle: the pointer goes over the
diagram, and the view stays what it is.

## Main definitions

* `Event.decidesHold` — the events that begin or end a drag.
* `heldAfter` — whether a drag is going on after some events, as the last of these decides.
* `withoutIdleMoves` — a list of events without the moves outside of a drag.

## Main results

* `dragging_step`, `dragging_replay` — what an event and what a run makes of the drag.
* `replay_withoutIdleMoves` — a run ends in the same view without its idle moves.
* `heldAfter_of_withoutIdleMoves` — the moves that are left happen during a drag.
* `dragging_replay_and_withoutIdleMoves` — **nothing moves unless a button is held.**
-/

namespace FlowCanvas

variable {α : Type}

/-- The event begins or ends a drag. -/
def Event.decidesHold : Event α → Bool
  | .press _ | .release | .fit _ | .reset => true
  | _ => false

/-- The pointer is pressed. -/
def Event.isPress : Event α → Bool
  | .press _ => true
  | _ => false

/-- The pointer moves. -/
def Event.isMove : Event α → Bool
  | .move _ => true
  | _ => false

/-- Whether a drag is going on after some events: it is if the last event that begins or ends one is
a press, or if there is no such event and a drag was going on before. -/
def heldAfter (held : Bool) (events : List (Event α)) : Bool :=
  match (events.filter Event.decidesHold).getLast? with
  | some e => e.isPress
  | none => held

@[simp] theorem heldAfter_nil (held : Bool) : heldAfter held ([] : List (Event α)) = held := rfl

/-- One more event decides if it is of the right kind, and otherwise leaves the decision as it is.
-/
theorem heldAfter_concat (held : Bool) (events : List (Event α)) (e : Event α) :
    heldAfter held (events ++ [e])
      = if e.decidesHold = true then e.isPress else heldAfter held events := by
  unfold heldAfter
  rw [List.filter_append]
  by_cases he : e.decidesHold = true
  · have hlast : [e].filter Event.decidesHold = [e] := by simp [he]
    rw [if_pos he, hlast, List.getLast?_concat]
  · have hlast : [e].filter Event.decidesHold = [] := by simp [he]
    rw [if_neg he, hlast, List.append_nil]

/-- The events of a list without the moves outside of a drag.  The first list has the events before
them, and `held` says whether a drag was going on before all of these. -/
def withoutIdleMoves (held : Bool) : List (Event α) → List (Event α) → List (Event α)
  | _, [] => []
  | before, e :: es =>
    if e.isMove && !heldAfter held before then withoutIdleMoves held (before ++ [e]) es
    else e :: withoutIdleMoves held (before ++ [e]) es

@[simp] theorem withoutIdleMoves_nil (held : Bool) (before : List (Event α)) :
    withoutIdleMoves held before [] = [] := rfl

theorem withoutIdleMoves_cons (held : Bool) (before : List (Event α)) (e : Event α)
    (es : List (Event α)) :
    withoutIdleMoves held before (e :: es)
      = if e.isMove && !heldAfter held before then withoutIdleMoves held (before ++ [e]) es
        else e :: withoutIdleMoves held (before ++ [e]) es := rfl

/-- A move does not decide. -/
theorem heldAfter_append_cons_of_isMove (held : Bool) (before : List (Event α)) {e : Event α}
    (he : e.isMove = true) (after : List (Event α)) :
    heldAfter held (before ++ e :: after) = heldAfter held (before ++ after) := by
  have hno : e.decidesHold = false := by
    cases e with
    | move _ => rfl
    | _ => exact absurd he Bool.false_ne_true
  unfold heldAfter
  rw [List.filter_append, List.filter_cons_of_neg (by simp [hno]), List.filter_append]

/-- The moves that are left happen during a drag, also if the others have not happened. -/
theorem heldAfter_of_withoutIdleMoves {held : Bool} {before events left right : List (Event α)}
    {e : Event α} (h : withoutIdleMoves held before events = left ++ e :: right)
    (he : e.isMove = true) : heldAfter held (before ++ left) = true := by
  induction events generalizing before left with
  | nil => simp at h
  | cons f es ih =>
    rw [withoutIdleMoves_cons] at h
    split at h
    · next hidle =>
      obtain ⟨hmove, -⟩ := Bool.and_eq_true_iff.mp hidle
      have hrest := ih h
      rwa [List.append_assoc, List.singleton_append,
        heldAfter_append_cons_of_isMove held before hmove] at hrest
    next hidle =>
    cases left with
    | nil =>
      obtain ⟨rfl, -⟩ := List.cons.inj h
      rw [he] at hidle
      simpa using hidle
    | cons g left =>
      obtain ⟨rfl, hrest⟩ := List.cons.inj h
      have := ih hrest
      rwa [List.append_assoc, List.singleton_append] at this

variable [Scalar α] (s : Settings α) (container : Box α)

/-- What an event makes of a drag. -/
theorem dragging_step (v : View α) (e : Event α) :
    (v.step s container e).dragging
      = if e.decidesHold = true then e.isPress else v.dragging := by
  cases e with
  | move client =>
    show (v.move client).dragging = v.dragging
    unfold View.move
    split <;> rfl
  | _ => rfl

/-- A drag is going on after a run as the last event that begins or ends one has it. -/
theorem dragging_replay (v : View α) (events : List (Event α)) :
    (View.replay s container events v).dragging = heldAfter v.dragging events := by
  -- the last event decides first, so the induction is from the end
  induction events using List.reverseRecOn with
  | nil => rfl
  | append_singleton events e ih =>
    rw [View.replay_append, View.replay_cons, View.replay_nil, dragging_step, heldAfter_concat, ih]

/-- A move outside of a drag leaves the view. -/
theorem step_of_isMove {v : View α} (hheld : v.dragging = false) {e : Event α}
    (he : e.isMove = true) : v.step s container e = v := by
  cases e with
  | move client =>
    show v.move client = v
    unfold View.move
    rw [hheld]
    exact if_neg Bool.false_ne_true
  | _ => exact absurd he Bool.false_ne_true

/-- A run ends in the same view without its idle moves.  The induction is over the events to come;
those before them tell whether a move is idle, and have led to the view at which it happens. -/
theorem replay_withoutIdleMoves (v : View α) (before events : List (Event α)) :
    View.replay s container (withoutIdleMoves v.dragging before events)
        (View.replay s container before v)
      = View.replay s container events (View.replay s container before v) := by
  induction events generalizing before with
  | nil => rfl
  | cons e es ih =>
    have hrest := ih (before ++ [e])
    rw [View.replay_append, View.replay_cons, View.replay_nil] at hrest
    rw [withoutIdleMoves_cons, View.replay_cons, ← hrest]
    split
    · next hidle =>
      obtain ⟨hmove, hfree⟩ := Bool.and_eq_true_iff.mp hidle
      have hdragging : (View.replay s container before v).dragging = false := by
        rw [dragging_replay]
        simpa using hfree
      rw [step_of_isMove s container hdragging hmove]
    · rw [View.replay_cons]

/-- **Nothing moves unless a button is held.**  After any run a drag is going on exactly if the last
press, release, fitting or reset in it was a press, or if there was none of these and a drag was
going on at first.  Without the moves that happen when this is not so, the run ends in the same
view, and all moves that are left happen during a drag. -/
theorem dragging_replay_and_withoutIdleMoves (v : View α) (events : List (Event α)) :
    (View.replay s container events v).dragging = heldAfter v.dragging events
      ∧ View.replay s container (withoutIdleMoves v.dragging [] events) v
        = View.replay s container events v
      ∧ ∀ before client after,
        withoutIdleMoves v.dragging [] events = before ++ .move client :: after →
          (View.replay s container before v).dragging = true := by
  refine ⟨dragging_replay s container v events,
    replay_withoutIdleMoves s container v [] events, ?_⟩
  intro before client after h
  rw [dragging_replay]
  exact heldAfter_of_withoutIdleMoves h rfl

/-- A drag that is going on at first and ends when content is fitted, and another one that ends with
a release.  The moves behind these ends are idle. -/
theorem dragging_replay_of_two_drags :
    withoutIdleMoves true []
        ([.move ⟨1, 1⟩, .fit ⟨0, 0, 5, 5⟩, .move ⟨2, 2⟩, .press ⟨3, 3⟩, .zoomIn, .move ⟨4, 4⟩,
          .release, .move ⟨5, 5⟩] : List (Event Float))
        = [.move ⟨1, 1⟩, .fit ⟨0, 0, 5, 5⟩, .press ⟨3, 3⟩, .zoomIn] ++ .move ⟨4, 4⟩ :: [.release]
      ∧ (View.replay Settings.standard ⟨0, 0, 800, 600⟩
          [.move ⟨1, 1⟩, .fit ⟨0, 0, 5, 5⟩, .press ⟨3, 3⟩, .zoomIn]
          ⟨⟨2, ⟨3, 4⟩⟩, true, ⟨0, 0⟩⟩).dragging = true := by
  have hleft : withoutIdleMoves true []
      ([.move ⟨1, 1⟩, .fit ⟨0, 0, 5, 5⟩, .move ⟨2, 2⟩, .press ⟨3, 3⟩, .zoomIn, .move ⟨4, 4⟩,
        .release, .move ⟨5, 5⟩] : List (Event Float))
      = [.move ⟨1, 1⟩, .fit ⟨0, 0, 5, 5⟩, .press ⟨3, 3⟩, .zoomIn] ++ .move ⟨4, 4⟩ :: [.release] :=
    rfl
  exact ⟨hleft, (dragging_replay_and_withoutIdleMoves Settings.standard ⟨0, 0, 800, 600⟩
    ⟨⟨2, ⟨3, 4⟩⟩, true, ⟨0, 0⟩⟩ _).2.2 _ _ _ hleft⟩

end FlowCanvas
