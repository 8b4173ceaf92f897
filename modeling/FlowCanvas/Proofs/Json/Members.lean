import FlowCanvas.Json.Value
import Mathlib.Tactic.SplitIfs

/-!
# Members in order

The members of an object are kept in the order of their names.  Setting one keeps the order and
brings in nothing else, and if its name comes behind all others it is put at the end; so members
that are set one after the other in their order stay as they are.

## Main definitions

* `InOrder` — members in the order of their names, each name once.

## Main results

* `forall_put` — what holds of all values holds of them when another value is set.
* `inOrder_put` — setting a member keeps the order.
* `put_eq_append` — **a member whose name comes last is put at the end.**
-/

namespace FlowCanvas.Json

/-- The members come in the order of their names, and each name comes once. -/
def InOrder (ms : Members) : Prop := ms.Pairwise fun a b => a.1 < b.1

/-- Whether members are in order depends on their names alone. -/
theorem inOrder_iff_names {ms : Members} :
    InOrder ms ↔ (ms.map Prod.fst).Pairwise (· < ·) := List.pairwise_map.symm

/-- Setting a member brings in no other. -/
theorem mem_put {name : String} {value : Json} {m : String × Json} {ms : Members}
    (h : m ∈ Members.put name value ms) : m = (name, value) ∨ m ∈ ms := by
  induction ms with
  | nil => exact Or.inl (List.mem_singleton.mp h)
  | cons m' ms ih =>
    unfold Members.put at h
    split_ifs at h
    · rcases List.mem_cons.mp h with h | h
      · exact Or.inl h
      · exact Or.inr (List.mem_cons_of_mem m' h)
    · exact List.mem_cons.mp h
    · rcases List.mem_cons.mp h with h | h
      · exact Or.inr (h ▸ List.mem_cons_self)
      · exact (ih h).imp_right (List.mem_cons_of_mem m')

/-- What holds of the values of members holds of them when another value is set. -/
theorem forall_put {P : Json → Prop} {name : String} {value : Json} (hvalue : P value)
    {ms : Members} (h : ∀ m ∈ ms, P m.2) : ∀ m ∈ Members.put name value ms, P m.2 := by
  intro m hm
  rcases mem_put hm with rfl | hm
  · exact hvalue
  · exact h m hm

/-- Setting a member keeps the order. -/
theorem inOrder_put {name : String} {value : Json} {ms : Members} (h : InOrder ms) :
    InOrder (Members.put name value ms) := by
  induction ms with
  | nil => exact List.pairwise_singleton _ _
  | cons m ms ih =>
    obtain ⟨hfirst, hrest⟩ := List.pairwise_cons.mp h
    unfold Members.put
    split_ifs with heq hlt
    · refine List.pairwise_cons.mpr ⟨?_, hrest⟩
      intro b hb
      rw [heq]
      exact hfirst b hb
    · refine List.pairwise_cons.mpr ⟨?_, h⟩
      intro b hb
      rcases List.mem_cons.mp hb with rfl | hb
      · exact hlt
      · exact String.lt_trans hlt (hfirst b hb)
    · have hgt : m.1 < name := by
        apply Decidable.byContradiction
        intro hle
        exact heq (String.le_antisymm (String.not_lt.mp hle) (String.not_lt.mp hlt))
      refine List.pairwise_cons.mpr ⟨?_, ih hrest⟩
      intro b hb
      rcases mem_put hb with rfl | hb
      · exact hgt
      · exact hfirst b hb

/-- **A member whose name comes last is put at the end.** -/
theorem put_eq_append {name : String} {value : Json} {ms : Members} (h : ∀ m ∈ ms, m.1 < name) :
    Members.put name value ms = ms ++ [(name, value)] := by
  induction ms with
  | nil => rfl
  | cons m ms ih =>
    obtain ⟨hm, hms⟩ := List.forall_mem_cons.mp h
    have hne : name ≠ m.1 := by
      rintro rfl
      exact String.lt_irrefl _ hm
    rw [Members.put, if_neg hne, if_neg (String.lt_asymm hm), ih hms, List.cons_append]

end FlowCanvas.Json
