import FlowCanvas.Proofs.Viewport.Pinned

/-!
# What is painted under the pointer

The part of a diagram under the pointer is looked up in the content: the pointer is taken back to a
point of the content, and the boxes are searched for that point.  A reader sees it the other way
round: the boxes are painted on the screen, one over the other, and the pointer is somewhere on the
screen.  The two agree as long as the scale is positive, since the transform then keeps left from
right and above from below (`contains_under_iff`).

## Main definitions

* `View.Covers` — the picture of a box on the screen covers a point.

## Main results

* `topmost?_eq_some_iff` — the part at a point of the content is the last one whose box contains it.
* `pointed_eq_some_iff_covers` — **the part under the pointer is the one whose picture covers the
  pointer and is not covered itself there.**
-/

namespace FlowCanvas

/-! ### The last one of a list -/

/-- Searching a list from its end finds the element behind which there is no other. -/
theorem find?_reverse_eq_some_iff {β : Type} {p : β → Bool} {l : List β} {x : β} :
    l.reverse.find? p = some x
      ↔ ∃ below above, l = below ++ x :: above ∧ p x = true ∧ ∀ y ∈ above, p y = false := by
  rw [List.find?_eq_some_iff_append]
  constructor
  · rintro ⟨hx, as, bs, hl, has⟩
    refine ⟨bs.reverse, as.reverse, ?_, hx, fun y hy => ?_⟩
    · rw [← List.reverse_reverse l, hl]
      simp
    · simpa using has y (List.mem_reverse.mp hy)
  · rintro ⟨below, above, rfl, hx, habove⟩
    refine ⟨hx, above.reverse, below.reverse, by simp, fun y hy => ?_⟩
    rw [habove y (List.mem_reverse.mp hy)]
    rfl

section Content

variable {α : Type} [Scalar α] (m : HitMap α)

theorem topmost?_eq_some_iff {p : Point α} {t : Target} :
    m.topmost? p = some t
      ↔ ∃ below b above, m.entries = below ++ (t, b) :: above ∧ b.contains p = true
        ∧ ∀ e ∈ above, e.2.contains p = false := by
  unfold HitMap.topmost?
  rw [Option.map_eq_some_iff]
  constructor
  · rintro ⟨⟨_, b⟩, hfind, rfl⟩
    obtain ⟨below, above, hm, hb, habove⟩ := find?_reverse_eq_some_iff.mp hfind
    exact ⟨below, b, above, hm, hb, habove⟩
  · rintro ⟨below, b, above, hm, hb, habove⟩
    exact ⟨(t, b), find?_reverse_eq_some_iff.mpr ⟨below, above, hm, hb, habove⟩, rfl⟩

theorem topmost?_eq_none_iff {p : Point α} :
    m.topmost? p = none ↔ ∀ e ∈ m.entries, e.2.contains p = false := by
  unfold HitMap.topmost?
  rw [Option.map_eq_none_iff, List.find?_eq_none]
  simp only [List.mem_reverse, Bool.not_eq_true]

end Content

/-! ### Pictures -/

/-- The picture that a view has of a box on the screen covers a point, or has it on its edge. -/
def View.Covers (v : View ℚ) (container b : Box ℚ) (client : Point ℚ) : Prop :=
  (container.x + v.shift.x + v.scale * b.x ≤ client.x
    ∧ client.x ≤ container.x + v.shift.x + v.scale * (b.x + b.width))
  ∧ container.y + v.shift.y + v.scale * b.y ≤ client.y
    ∧ client.y ≤ container.y + v.shift.y + v.scale * (b.y + b.height)

/-- With a positive scale, a coordinate is on the same side of a line in the content and on the
screen. -/
theorem le_invert_iff {scale : ℚ} (h : 0 < scale) (origin shift x client : ℚ) :
    x ≤ (client - origin - shift) / scale ↔ origin + shift + scale * x ≤ client := by
  rw [le_div_iff₀ h, mul_comm x]
  constructor <;> intro hle <;> linarith

theorem invert_le_iff {scale : ℚ} (h : 0 < scale) (origin shift x client : ℚ) :
    (client - origin - shift) / scale ≤ x ↔ client ≤ origin + shift + scale * x := by
  rw [div_le_iff₀ h, mul_comm x]
  constructor <;> intro hle <;> linarith

theorem contains_iff (b : Box ℚ) (p : Point ℚ) :
    b.contains p = true
      ↔ (b.x ≤ p.x ∧ p.x ≤ b.x + b.width) ∧ b.y ≤ p.y ∧ p.y ≤ b.y + b.height := by
  simp only [Box.contains, Scalar.le, Bool.and_eq_true, decide_eq_true_eq, and_assoc]

/-- A box contains the point of the content under the pointer exactly if its picture covers the
pointer. -/
theorem contains_under_iff {v : View ℚ} (h : 0 < v.scale) (container b : Box ℚ)
    (client : Point ℚ) :
    b.contains (v.under container client) = true ↔ v.Covers container b client := by
  rw [contains_iff]
  exact and_congr (and_congr (le_invert_iff h _ _ _ _) (invert_le_iff h _ _ _ _))
    (and_congr (le_invert_iff h _ _ _ _) (invert_le_iff h _ _ _ _))

theorem contains_under_eq_false_iff {v : View ℚ} (h : 0 < v.scale) (container b : Box ℚ)
    (client : Point ℚ) :
    b.contains (v.under container client) = false ↔ ¬ v.Covers container b client := by
  rw [← contains_under_iff h, Bool.not_eq_true]

/-- Where the picture of a point of the content is on the screen. -/
def View.seenAt {α : Type} [Scalar α] (v : View α) (container : Box α) (p : Point α) : Point α :=
  ⟨container.x + (v.apply p).x, container.y + (v.apply p).y⟩

/-- The point of the content under the picture of a point is that point. -/
theorem under_seenAt {v : View ℚ} (h : v.scale ≠ 0) (container : Box ℚ) (p : Point ℚ) :
    v.under container (v.seenAt container p) = p := by
  have hback : ∀ a b c d : ℚ, d ≠ 0 → (c + (a * d + b) - c - b) / d = a := by
    intro a b c d hd
    rw [add_sub_cancel_left, add_sub_cancel_right, mul_div_cancel_right₀ a hd]
  exact congrArg₂ Point.mk (hback _ _ _ _ h) (hback _ _ _ _ h)

/-- **What is under the pointer is what is seen there.**  Let the scale be positive.  A part of the
diagram is under the pointer exactly if it stands in the list of parts with a box whose picture
covers the pointer, and the picture of no box behind it in the list does; there is nothing under
the pointer exactly if no picture covers it.  So at the place where a point of the content is seen
there is the part that is at that point. -/
theorem pointed_eq_some_iff_covers {v : View ℚ} (hscale : 0 < v.scale) (container : Box ℚ)
    (m : HitMap ℚ) :
    (∀ client t, m.pointed? v container client = some t
        ↔ ∃ below b above, m.entries = below ++ (t, b) :: above ∧ v.Covers container b client
          ∧ ∀ e ∈ above, ¬ v.Covers container e.2 client)
      ∧ (∀ client, m.pointed? v container client = none
        ↔ ∀ e ∈ m.entries, ¬ v.Covers container e.2 client)
      ∧ ∀ p, m.pointed? v container (v.seenAt container p) = m.topmost? p := by
  refine ⟨fun client t => ?_, fun client => ?_, fun p => ?_⟩
  · rw [pointed?_eq, topmost?_eq_some_iff]
    simp only [contains_under_iff hscale, contains_under_eq_false_iff hscale]
  · rw [pointed?_eq, topmost?_eq_none_iff]
    simp only [contains_under_eq_false_iff hscale]
  · rw [pointed?_eq, under_seenAt hscale.ne']

/-- Two boxes overlap at half their size, in a container off the corner of the screen.  At a corner
of the upper one's picture, which is inside the lower one's, there is the upper one. -/
theorem pointed_of_overlap :
    0 < (1 / 2 : ℚ)
      ∧ (⟨[(.node "A", ⟨0, 0, 100, 40⟩), (.node "B", ⟨60, 20, 100, 40⟩), (.edge 0, ⟨0, 0, 9, 9⟩)]⟩
          : HitMap ℚ).pointed? ⟨⟨1 / 2, ⟨30, -40⟩⟩, true, ⟨0, 0⟩⟩ ⟨10, 20, 800, 600⟩ ⟨70, -10⟩
        = some (.node "B") := by
  refine ⟨by norm_num, ?_⟩
  refine ((pointed_eq_some_iff_covers (v := ⟨⟨1 / 2, ⟨30, -40⟩⟩, true, ⟨0, 0⟩⟩)
    (by norm_num) _ _).1 _ _).mpr
    ⟨[(.node "A", ⟨0, 0, 100, 40⟩)], ⟨60, 20, 100, 40⟩, [(.edge 0, ⟨0, 0, 9, 9⟩)], rfl, ?_, ?_⟩
  · norm_num [View.Covers]
  · intro e he
    rw [List.mem_singleton.mp he]
    norm_num [View.Covers]

end FlowCanvas
