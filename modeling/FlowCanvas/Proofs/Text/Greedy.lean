import FlowCanvas.Proofs.Text.Budget

/-!
# Greedy divisions

A text is cut from left to right, each piece being as long as the budget allows.  No other way of
cutting needs fewer pieces.  The reason has nothing to do with widths: it is enough that a part of
what may be a piece may be a piece too, if it stands at its end.  Then the greedy pieces stay ahead
of those of any other division, which is shown by an induction over the other division
(`Greedy.length_le`).

## Main definitions

* `Greedy ok ps` — the parts `ps` are allowed, and none of them could have been longer.
* `MayBePiece` — a text that may be a piece.

## Main results

* `Greedy.length_le` — **no division into allowed parts has fewer parts than the greedy one.**
* `greedy_pieces` — the pieces of a text are a greedy division.
* `pieces_greedy_fewest` — **the pieces are the text, fit into the budget, are as long as they can
  be and as few as there can be.**
-/

namespace FlowCanvas

section Division

variable {α : Type} {ok : List α → Prop}

/-- A list is divided greedily: every part is allowed, and would not be if more of the list, up to
any later place, were added to it. -/
inductive Greedy (ok : List α → Prop) : List (List α) → Prop
  | nil : Greedy ok []
  | cons {p : List α} {ps : List (List α)} (hne : p ≠ []) (hok : ok p)
      (hlongest : ∀ more, more ≠ [] → more <+: ps.flatten → ¬ ok (p ++ more))
      (rest : Greedy ok ps) : Greedy ok (p :: ps)

/-- The first element of a part could not have been added to the part before. -/
theorem Greedy.isChain {ps : List (List α)} (h : Greedy ok ps) :
    ps.IsChain fun p q => ∀ x ∈ q.head?, ¬ ok (p ++ [x]) := by
  induction h with
  | nil => exact List.isChain_nil
  | @cons p ps _ _ hlongest _ ih =>
    rw [List.isChain_cons]
    refine ⟨fun q hq x hx => ?_, ih⟩
    refine hlongest [x] (List.cons_ne_nil x []) ?_
    obtain ⟨ps', rfl⟩ := List.head?_eq_some_iff.mp hq
    obtain ⟨q', rfl⟩ := List.head?_eq_some_iff.mp hx
    exact ⟨q' ++ ps'.flatten, rfl⟩

/-- If the beginning of an allowed part is allowed, it is enough that no part could have been longer
by one element. -/
theorem Greedy.of_isChain (hok : ∀ l r, l ≠ [] → ok (l ++ r) → ok l) {ps : List (List α)}
    (hne : ∀ p ∈ ps, p ≠ []) (hps : ∀ p ∈ ps, ok p)
    (hchain : ps.IsChain fun p q => ∀ x ∈ q.head?, ¬ ok (p ++ [x])) : Greedy ok ps := by
  induction ps with
  | nil => exact .nil
  | cons p ps ih =>
    obtain ⟨hp, hne⟩ := List.forall_mem_cons.mp hne
    obtain ⟨hpok, hps⟩ := List.forall_mem_cons.mp hps
    obtain ⟨hnext, hchain⟩ := List.isChain_cons.mp hchain
    refine .cons hp hpok ?_ (ih hne hps hchain)
    intro more hmore hprefix hlong
    cases ps with
    | nil => exact hmore (List.prefix_nil.mp hprefix)
    | cons q ps =>
      -- More of the list begins with the first element of the next part.
      obtain ⟨x, q, rfl⟩ := List.exists_cons_of_ne_nil (hne q List.mem_cons_self)
      rw [List.flatten_cons, List.cons_append] at hprefix
      obtain ⟨more, rfl, -⟩ := (List.prefix_cons_iff.mp hprefix).resolve_left hmore
      rw [List.append_cons] at hlong
      exact hnext _ rfl x rfl (hok _ more (List.append_ne_nil_of_left_ne_nil hp [x]) hlong)

/-- **No division into allowed parts has fewer parts than the greedy one**, not even if it has some
more of the list in front.  A part of the other division that begins before a greedy part cannot end
behind it, for otherwise its end would have been a longer part. -/
theorem Greedy.length_le (hok : ∀ l r, r ≠ [] → ok (l ++ r) → ok r) {ps ds : List (List α)}
    (hps : Greedy ok ps) (hds : ∀ d ∈ ds, ok d) (hsuffix : ps.flatten <:+ ds.flatten) :
    ps.length ≤ ds.length := by
  induction ds generalizing ps with
  | nil =>
    cases hps with
    | nil => exact le_rfl
    | cons hne =>
      rw [List.flatten_nil, List.suffix_nil, List.flatten_cons, List.append_eq_nil_iff] at hsuffix
      exact absurd hsuffix.1 hne
  | cons d ds ih =>
    obtain ⟨hd, hds⟩ := List.forall_mem_cons.mp hds
    cases hps with
    | nil => exact Nat.zero_le _
    | @cons p ps hne hp hlongest hps =>
      have hrest : ps.flatten <:+ ds.flatten := by
        obtain ⟨front, hfront⟩ := hsuffix
        rw [List.flatten_cons, List.flatten_cons] at hfront
        have hrestFront : ps.flatten <:+ d ++ ds.flatten := ⟨front ++ p, by simp [← hfront]⟩
        rcases List.suffix_or_suffix_of_suffix hrestFront (List.suffix_append d _) with h | h
        · exact h
        · obtain ⟨more, hmore⟩ := h
          by_cases hnil : more = []
          · rw [hnil, List.nil_append] at hmore
            exact hmore ▸ List.suffix_rfl
          · -- The part `d` ends behind `p`, and its end is a longer part.
            have hend : front ++ (p ++ more) = d := by
              have hwhole : front ++ (p ++ more) ++ ds.flatten = d ++ ds.flatten := by
                rw [← hfront, ← hmore]
                simp
              exact List.append_cancel_right hwhole
            have hlong : ok (p ++ more) :=
              hok front _ (List.append_ne_nil_of_left_ne_nil hne more) (hend ▸ hd)
            exact absurd hlong (hlongest more hnil ⟨_, hmore⟩)
      have := ih hps hds hrest
      rw [List.length_cons, List.length_cons]
      omega

end Division

/-! ### Pieces -/

/-- A text that may be a piece: its characters are within the budget, or there is only one. -/
def MayBePiece (max : Nat) (p : List Char) : Prop :=
  (p.map charColumns).sum ≤ max ∨ ∃ c, p = [c]

/-- The end of what may be a piece may be one. -/
theorem MayBePiece.of_append {max : Nat} (l r : List Char) (hr : r ≠ [])
    (h : MayBePiece max (l ++ r)) : MayBePiece max r := by
  rcases h with h | ⟨c, h⟩
  · rw [List.map_append, List.sum_append] at h
    exact Or.inl (by omega)
  · rcases List.append_eq_singleton_iff.mp h with ⟨-, rfl⟩ | ⟨-, rfl⟩
    · exact Or.inr ⟨c, rfl⟩
    · exact absurd rfl hr

/-- What is not taken for a piece begins with a character that goes beyond the budget. -/
theorem lt_of_fit_eq_cons {max used : Nat} {cs rest : List Char} {d : Char}
    (h : (fit max used cs).2 = d :: rest) :
    max < used + ((fit max used cs).1.map charColumns).sum + charColumns d := by
  induction cs generalizing used with
  | nil => cases h
  | cons c cs ih =>
    rw [fit_cons] at h ⊢
    split at h
    · next hfit =>
      have := ih h
      rw [if_pos hfit, List.map_cons, List.sum_cons]
      omega
    · next hfit =>
      obtain ⟨rfl, -⟩ := List.cons.inj h
      rw [if_neg hfit, List.map_nil, List.sum_nil]
      omega

theorem mayBePiece_of_mem_pieces {max : Nat} {cs p : List Char} (h : p ∈ pieces max cs) :
    MayBePiece max p :=
  (sum_le_of_mem_pieces h).imp_right fun ⟨c, hp, _⟩ => ⟨c, hp⟩

/-- A text with a character more than a piece is no longer one. -/
theorem not_mayBePiece_append {max : Nat} {p more : List Char} {d : Char} (hne : p ≠ [])
    (h : max < (p.map charColumns).sum + charColumns d) : ¬ MayBePiece max (p ++ d :: more) := by
  rintro (hsum | ⟨c, hone⟩)
  · rw [List.map_append, List.sum_append, List.map_cons, List.sum_cons] at hsum
    omega
  · have hlength := congrArg List.length hone
    have hpos := List.length_pos_iff.mpr hne
    rw [List.length_append, List.length_cons, List.length_singleton] at hlength
    omega

/-- **The pieces of a text are a greedy division.** -/
theorem greedy_pieces (max : Nat) (cs : List Char) :
    Greedy (MayBePiece max) (pieces max cs) := by
  induction cs using pieces.induct max with
  | case1 =>
    rw [pieces_nil]
    exact .nil
  | case2 c cs ih =>
    have hok : ∀ p ∈ pieces max (c :: cs), MayBePiece max p := fun p hp =>
      mayBePiece_of_mem_pieces hp
    rw [pieces_cons] at hok ⊢
    refine .cons (List.cons_ne_nil _ _) (hok _ List.mem_cons_self) ?_ ih
    intro more hmore hprefix
    rw [flatten_pieces] at hprefix
    cases more with
    | nil => exact absurd rfl hmore
    | cons d more =>
      obtain ⟨rest, hrest⟩ := hprefix
      refine not_mayBePiece_append (List.cons_ne_nil _ _) ?_
      rw [List.map_cons, List.sum_cons]
      exact lt_of_fit_eq_cons (hrest.symm.trans (List.cons_append ..))

/-- **The pieces of a text.**  Together they are the text, and none is empty.  The characters of a
piece are within the budget, or there is a single one that is wider; with the first character of the
next piece they would go beyond it.  And no other division of the text into such pieces has fewer of
them. -/
theorem pieces_greedy_fewest (max : Nat) (cs : List Char) :
    (pieces max cs).flatten = cs
      ∧ (∀ p ∈ pieces max cs, p ≠ [])
      ∧ (∀ p ∈ pieces max cs,
        (p.map charColumns).sum ≤ max ∨ ∃ c, p = [c] ∧ max < charColumns c)
      ∧ ((pieces max cs).IsChain fun p q =>
        ∀ d ∈ q.head?, max < (p.map charColumns).sum + charColumns d)
      ∧ ∀ ds : List (List Char), ds.flatten = cs →
        (∀ d ∈ ds, d ≠ [] ∧ ((d.map charColumns).sum ≤ max ∨ ∃ c, d = [c])) →
        (pieces max cs).length ≤ ds.length := by
  refine ⟨flatten_pieces max cs, fun p hp => ne_nil_of_mem_pieces hp,
    fun p hp => sum_le_of_mem_pieces hp, ?chain, ?fewest⟩
  case chain =>
    refine (greedy_pieces max cs).isChain.imp fun p q h d hd => ?_
    by_contra hle
    refine h d hd (Or.inl ?_)
    rw [List.map_append, List.sum_append, List.map_singleton, List.sum_singleton]
    exact Nat.not_lt.mp hle
  case fewest =>
    intro ds hflatten hds
    refine (greedy_pieces max cs).length_le MayBePiece.of_append (fun d hd => (hds d hd).2) ?_
    rw [flatten_pieces, hflatten]

example : pieces 1 "a日\u0301b".toList = ["a".toList, "日".toList, "\u0301b".toList] := by
  decide +kernel

/-- A character wider than the budget, and behind it a mark without a column of its own, which
another division lets stand alone. -/
theorem pieces_fewest_of_wide :
    (["a", "日", "\u0301", "b"].map String.toList).flatten = "a日\u0301b".toList
      ∧ (∀ d ∈ ["a", "日", "\u0301", "b"].map String.toList,
        d ≠ [] ∧ ((d.map charColumns).sum ≤ 1 ∨ ∃ c, d = [c]))
      ∧ (pieces 1 "a日\u0301b".toList).length
        ≤ (["a", "日", "\u0301", "b"].map String.toList).length := by
  have hflatten : (["a", "日", "\u0301", "b"].map String.toList).flatten
      = "a日\u0301b".toList := by decide
  have hds : ∀ d ∈ ["a", "日", "\u0301", "b"].map String.toList,
      d ≠ [] ∧ ((d.map charColumns).sum ≤ 1 ∨ ∃ c, d = [c]) := by
    simp
  obtain ⟨-, -, -, -, hfewest⟩ := pieces_greedy_fewest 1 "a日\u0301b".toList
  exact ⟨hflatten, hds, hfewest _ hflatten hds⟩

end FlowCanvas
