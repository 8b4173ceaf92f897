import Mathlib.Data.List.TakeWhile

/-!
# Where a stretch of a text ends

Most formats here write a stretch of characters of one kind and then something that is not of this
kind.  What has been written can then be taken apart again, since the end of the stretch is where
the first other character stands.

## Main definitions

* `Stops p l` — the list `l` does not begin with an element that has the property `p`.

## Main results

* `takeWhile_append_of_stops`, `dropWhile_append_of_stops` — taking a stretch apart.
* `append_inj_of_stops` — **a stretch and what stands behind it are determined by the whole.**
-/

namespace FlowCanvas

variable {α : Type} {p : α → Bool}

/-- What holds of all elements of a list can be computed, element by element. -/
theorem forall_mem_of_all {P : α → Prop} [DecidablePred P] {l : List α}
    (h : l.all fun x => decide (P x)) : ∀ x ∈ l, P x :=
  fun x hx => of_decide_eq_true (List.all_eq_true.mp h x hx)

/-- The list does not begin with an element that has the property. -/
def Stops (p : α → Bool) (l : List α) : Prop := ∀ x ∈ l.head?, p x = false

@[simp] theorem stops_nil : Stops p [] := by simp [Stops]

@[simp] theorem stops_cons {x : α} {l : List α} : Stops p (x :: l) ↔ p x = false := by
  simp [Stops]

/-- Behind a stretch that has been dropped stands no further element of it. -/
theorem stops_dropWhile (p : α → Bool) (l : List α) : Stops p (l.dropWhile p) := by
  intro x hx
  have := List.head?_dropWhile_not p l
  rw [Option.mem_def.mp hx] at this
  simpa using this

/-- A list that has the property nowhere does not begin with it. -/
theorem stops_of_forall {l : List α} (h : ∀ x ∈ l, p x = false) : Stops p l :=
  fun x hx => h x (List.mem_of_mem_head? hx)

theorem Stops.of_or {q : α → Bool} {l : List α} (h : Stops (fun x => p x || q x) l) : Stops p l :=
  fun x hx => (Bool.or_eq_false_iff.mp (h x hx)).1

theorem Stops.append {l r : List α} (hl : Stops p l) (hne : l ≠ []) : Stops p (l ++ r) := by
  cases l with
  | nil => exact absurd rfl hne
  | cons x l => exact hl

theorem takeWhile_of_stops {l : List α} (h : Stops p l) : l.takeWhile p = [] := by
  cases l with
  | nil => rfl
  | cons x l =>
    rw [stops_cons] at h
    simp [h]

theorem dropWhile_of_stops {l : List α} (h : Stops p l) : l.dropWhile p = l := by
  cases l with
  | nil => rfl
  | cons x l =>
    rw [stops_cons] at h
    simp [h]

/-- What is taken from a stretch and what stands behind it is the stretch. -/
theorem takeWhile_append_of_stops {l r : List α} (hl : ∀ x ∈ l, p x) (hr : Stops p r) :
    (l ++ r).takeWhile p = l := by
  rw [List.takeWhile_append_of_pos hl, takeWhile_of_stops hr, List.append_nil]

/-- What is left of a stretch and what stands behind it is the latter. -/
theorem dropWhile_append_of_stops {l r : List α} (hl : ∀ x ∈ l, p x) (hr : Stops p r) :
    (l ++ r).dropWhile p = r := by
  rw [List.dropWhile_append_of_pos hl, dropWhile_of_stops hr]

/-- **A stretch and what stands behind it are determined by the whole.** -/
theorem append_inj_of_stops {l l' r r' : List α} (h : l ++ r = l' ++ r') (hl : ∀ x ∈ l, p x)
    (hr : Stops p r) (hl' : ∀ x ∈ l', p x) (hr' : Stops p r') : l = l' ∧ r = r' := by
  constructor
  · rw [← takeWhile_append_of_stops hl hr, h, takeWhile_append_of_stops hl' hr']
  · rw [← dropWhile_append_of_stops hl hr, h, dropWhile_append_of_stops hl' hr']

/-- Stretches that end before the first `c` are determined by the whole. -/
theorem append_cons_inj_of_notMem {c : α} [DecidableEq α] {l l' r r' : List α}
    (h : l ++ c :: r = l' ++ c :: r') (hl : c ∉ l) (hl' : c ∉ l') : l = l' ∧ r = r' := by
  have hne : ∀ {k : List α}, c ∉ k → ∀ x ∈ k, decide (x ≠ c) := fun hk x hx =>
    decide_eq_true fun hxc => hk (hxc ▸ hx)
  have hstop : ∀ k : List α, Stops (fun x => decide (x ≠ c)) (c :: k) := fun k => by simp
  obtain ⟨h₁, h₂⟩ := append_inj_of_stops h (hne hl) (hstop r) (hne hl') (hstop r')
  exact ⟨h₁, (List.cons.inj h₂).2⟩

end FlowCanvas
