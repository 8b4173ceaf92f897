import FlowCanvas.Proofs.Viewport.Painted

/-!
# Parts that are painted more than once

The part at a point is found by the boxes that contain the point, and the box of a part by its name.
Both searches begin with what was painted last, and nothing is taken out of the list when a part is
painted again.  The part at a point may therefore have been found in a box that is not its last one.
Its last box does not contain the point then, as it is above the one that was found and has been
passed over.

## Main results

* `box?_append` — the box of a part is looked for among the upper ones first.
* `box?_eq_some_iff` — the box of a part is the one in which it was painted last.
* `box_contains_iff_not_repainted` — **the box of the part at a point contains the point exactly if
  the part is not painted again** above the box in which it was found.
* `not_forall_box_contains` — a part that is painted again elsewhere.
-/

namespace FlowCanvas

/-! ### The box of a part -/

section Part

variable {α : Type} {t : Target}

/-- The box of a part is looked for among the upper ones first. -/
theorem box?_append (below above : List (Target × Box α)) (t : Target) :
    (⟨below ++ above⟩ : HitMap α).box? t
      = ((⟨above⟩ : HitMap α).box? t).or ((⟨below⟩ : HitMap α).box? t) := by
  unfold HitMap.box?
  rw [List.reverse_append, List.find?_append, Option.map_or]

theorem box?_singleton (b : Box α) : (⟨[(t, b)]⟩ : HitMap α).box? t = some b := by
  simp [HitMap.box?]

theorem box?_eq_none_iff {m : HitMap α} : m.box? t = none ↔ ∀ e ∈ m.entries, e.1 ≠ t := by
  unfold HitMap.box?
  rw [Option.map_eq_none_iff, List.find?_eq_none]
  simp

/-- The box of a part is the one in which it was painted last. -/
theorem box?_eq_some_iff {m : HitMap α} {b : Box α} :
    m.box? t = some b
      ↔ ∃ below above, m.entries = below ++ (t, b) :: above ∧ ∀ e ∈ above, e.1 ≠ t := by
  unfold HitMap.box?
  rw [Option.map_eq_some_iff]
  constructor
  · rintro ⟨⟨s, _⟩, hfind, rfl⟩
    obtain ⟨below, above, hm, hs, habove⟩ := find?_reverse_eq_some_iff.mp hfind
    obtain rfl : s = t := of_decide_eq_true hs
    exact ⟨below, above, hm, fun e he => of_decide_eq_false (habove e he)⟩
  · rintro ⟨below, above, hm, habove⟩
    refine ⟨(t, b), find?_reverse_eq_some_iff.mpr ⟨below, above, hm, ?_, fun e he => ?_⟩, rfl⟩
    · exact decide_eq_true rfl
    · exact decide_eq_false (habove e he)

theorem mem_of_box? {m : HitMap α} {b : Box α} (h : m.box? t = some b) : (t, b) ∈ m.entries := by
  obtain ⟨below, above, hm, -⟩ := box?_eq_some_iff.mp h
  rw [hm]
  exact List.mem_append_right below List.mem_cons_self

end Part

/-! ### The box of the part at a point -/

section Content

variable {α : Type} [Scalar α] {m : HitMap α}

/-- **The box of the part at a point.**  The part at a point is found in the last box that contains
the point, and it always has a box of its own, the one in which it was painted last.  This one
contains the point exactly if the part is not painted again above the box in which it was found; if
no part is painted twice, the two boxes are the same. -/
theorem box_contains_iff_not_repainted {p : Point α} {t : Target} (h : m.topmost? p = some t) :
    ∃ below b above c, m.entries = below ++ (t, b) :: above
      ∧ b.contains p = true ∧ (∀ e ∈ above, e.2.contains p = false)
      ∧ m.box? t = some c
      ∧ (∃ before behind, m.entries = before ++ (t, c) :: behind ∧ ∀ e ∈ behind, e.1 ≠ t)
      ∧ (c.contains p = true ↔ ∀ e ∈ above, e.1 ≠ t)
      ∧ ((m.entries.map Prod.fst).Nodup → c = b) := by
  obtain ⟨below, b, above, hm, hb, habove⟩ := (topmost?_eq_some_iff m).mp h
  obtain rfl : m = ⟨below ++ ([(t, b)] ++ above)⟩ := congrArg HitMap.mk hm
  have hbox := box?_append below ([(t, b)] ++ above) t
  rw [box?_append [(t, b)], box?_singleton] at hbox
  cases hagain : (⟨above⟩ : HitMap α).box? t with
  | none =>
    rw [hagain] at hbox
    refine ⟨below, b, above, b, rfl, hb, habove, hbox, box?_eq_some_iff.mp hbox, ?_, fun _ => rfl⟩
    exact ⟨fun _ => box?_eq_none_iff.mp hagain, fun _ => hb⟩
  | some c =>
    rw [hagain] at hbox
    have hc : (t, c) ∈ above := mem_of_box? hagain
    -- The last box has been passed over.
    have hpassed : c.contains p = false := habove _ hc
    refine ⟨below, b, above, c, rfl, hb, habove, hbox, box?_eq_some_iff.mp hbox, ?_,
      fun hnodup => ?_⟩
    · rw [hpassed]
      exact ⟨fun h => absurd h Bool.false_ne_true, fun h => absurd rfl (h _ hc)⟩
    · rw [List.map_append, List.nodup_append, List.singleton_append, List.map_cons,
        List.nodup_cons] at hnodup
      obtain ⟨-, ⟨hnot, -⟩, -⟩ := hnodup
      exact absurd (List.mem_map_of_mem hc) hnot

end Content

/-- A part that is painted at the origin and again further to the right, and one between the two. -/
def paintedTwice : HitMap ℚ :=
  ⟨[(.node "A", ⟨0, 0, 10, 10⟩), (.edge 0, ⟨10, 5, 10, 0⟩), (.node "A", ⟨20, 0, 10, 10⟩)]⟩

theorem topmost?_paintedTwice : paintedTwice.topmost? ⟨5, 5⟩ = some (.node "A") := by
  refine (topmost?_eq_some_iff _).mpr ⟨[], _, _, rfl, ?_, fun e he => ?_⟩
  · norm_num [contains_iff]
  · rw [← Bool.not_eq_true, contains_iff]
    rcases List.mem_cons.mp he with rfl | he
    · norm_num
    · rw [List.mem_singleton.mp he]
      norm_num

/-- At the origin the part is found, and its box is the one further to the right. -/
theorem box_elsewhere_of_paintedTwice :
    paintedTwice.topmost? ⟨5, 5⟩ = some (.node "A")
      ∧ paintedTwice.box? (.node "A") = some ⟨20, 0, 10, 10⟩
      ∧ ∃ below b above c, paintedTwice.entries = below ++ (.node "A", b) :: above
        ∧ b.contains ⟨5, 5⟩ = true ∧ paintedTwice.box? (.node "A") = some c
        ∧ (∃ before behind, paintedTwice.entries = before ++ (.node "A", c) :: behind
          ∧ ∀ e ∈ behind, e.1 ≠ .node "A")
        ∧ (c.contains ⟨5, 5⟩ = true ↔ ∀ e ∈ above, e.1 ≠ .node "A") := by
  obtain ⟨below, b, above, c, hm, hb, -, hbox, hlast, hiff, -⟩ :=
    box_contains_iff_not_repainted topmost?_paintedTwice
  exact ⟨topmost?_paintedTwice, rfl, below, b, above, c, hm, hb, hbox, hlast, hiff⟩

/-- The box of the part at a point need not contain the point. -/
theorem not_forall_box_contains :
    ¬ ∀ (m : HitMap ℚ) (p : Point ℚ) (t : Target), m.topmost? p = some t →
      ∃ b, m.box? t = some b ∧ b.contains p = true := by
  intro h
  obtain ⟨b, hbox, hb⟩ := h _ _ _ topmost?_paintedTwice
  obtain rfl : (⟨20, 0, 10, 10⟩ : Box ℚ) = b := Option.some.inj hbox
  norm_num [contains_iff] at hb

end FlowCanvas
