import FlowCanvas.Text.BreakTag
import Mathlib.Data.List.Infix

/-!
# Break tags and the stretches between them

A break tag begins with an opening bracket and has no other one in it, so a tag that begins inside a
text cannot reach into a tag that stands right behind the text.  Where texts are joined by tags,
each of them is therefore cut into stretches by itself.

## Main definitions

* `IsBreakTag` — the break tags.

## Main results

* `afterBreakTag_eq_some` — a text begins with a tag exactly if one is found there.
* `splitBreaks_append` — the stretches of a text, a tag and another text.
* `splitBreaks_intercalate` — **the stretches of texts that are joined by tags.**
* `infix_of_mem_splitBreaks` — a stretch is part of the text.
-/

namespace FlowCanvas

/-! ### Tags -/

/-- What may stand behind the letters of a break tag. -/
def tagEnds : List (List Char) := [">".toList, "/>".toList, " />".toList]

/-- A break tag. -/
def IsBreakTag (tag : List Char) : Prop :=
  ∃ b r ending, b.toLower = 'b' ∧ r.toLower = 'r' ∧ ending ∈ tagEnds ∧ tag = '<' :: b :: r :: ending

theorem isBreakTag_lineBreak : IsBreakTag lineBreak :=
  ⟨'b', 'r', "/>".toList, rfl, rfl, by decide, rfl⟩

theorem afterTagEnd_eq_some {cs rest : List Char} :
    afterTagEnd cs = some rest ↔ ∃ ending ∈ tagEnds, cs = ending ++ rest := by
  constructor
  · intro h
    unfold afterTagEnd at h
    split at h
    · cases h
      exact ⟨">".toList, by decide, rfl⟩
    · cases h
      exact ⟨"/>".toList, by decide, rfl⟩
    · cases h
      exact ⟨" />".toList, by decide, rfl⟩
    · cases h
  · rintro ⟨ending, hending, rfl⟩
    simp only [tagEnds, List.mem_cons, List.not_mem_nil, or_false] at hending
    rcases hending with rfl | rfl | rfl
    all_goals rfl

/-- A text begins with a tag exactly if one is found there. -/
theorem afterBreakTag_eq_some {cs rest : List Char} :
    afterBreakTag cs = some rest ↔ ∃ tag, IsBreakTag tag ∧ cs = tag ++ rest := by
  constructor
  · intro h
    unfold afterBreakTag at h
    split at h
    · next b r cs =>
      split at h
      · next hletters =>
        obtain ⟨ending, hending, rfl⟩ := afterTagEnd_eq_some.mp h
        exact ⟨_, ⟨b, r, ending, hletters.1, hletters.2, hending, rfl⟩, rfl⟩
      · cases h
    · cases h
  · rintro ⟨tag, ⟨b, r, ending, hb, hr, hending, rfl⟩, rfl⟩
    have hend : afterTagEnd (ending ++ rest) = some rest :=
      afterTagEnd_eq_some.mpr ⟨ending, hending, rfl⟩
    simp [afterBreakTag, hb, hr, hend]

/-- The only opening bracket of a tag is its first character. -/
theorem IsBreakTag.exists_cons {tag : List Char} (h : IsBreakTag tag) :
    ∃ body, tag = '<' :: body ∧ '<' ∉ body := by
  obtain ⟨b, r, ending, hb, hr, hending, rfl⟩ := h
  refine ⟨_, rfl, ?_⟩
  have hne : ∀ {c x : Char}, c.toLower = x → x ≠ '<' → '<' ≠ c := by
    rintro c x hc hx rfl
    exact hx (by rw [← hc]; rfl)
  have hnot : ∀ ending ∈ tagEnds, '<' ∉ ending := by decide
  have hend := hnot ending hending
  have hb' := hne hb (by decide)
  have hr' := hne hr (by decide)
  simp [hend, hb', hr']

/-- A text before an opening bracket begins with a tag only if the tag ends before the bracket. -/
theorem afterBreakTag_append {cs rest : List Char} (hne : cs ≠ []) (h : afterBreakTag cs = none) :
    afterBreakTag (cs ++ '<' :: rest) = none := by
  cases hafter : afterBreakTag (cs ++ '<' :: rest) with
  | none => rfl
  | some behind =>
    obtain ⟨tag, htag, heq⟩ := afterBreakTag_eq_some.mp hafter
    obtain ⟨body, rfl, hbody⟩ := htag.exists_cons
    rcases List.append_eq_append_iff.mp heq with ⟨tail, hlong, hrest⟩ | ⟨tail, hshort, -⟩
    · -- The tag goes on beyond the text, so the second bracket is in its body.
      cases cs with
      | nil => exact absurd rfl hne
      | cons c cs =>
        cases tail with
        | nil =>
          rw [List.append_nil] at hlong
          have hwhole : afterBreakTag (c :: cs) = some [] :=
            afterBreakTag_eq_some.mpr ⟨_, htag, by rw [hlong, List.append_nil]⟩
          rw [h] at hwhole
          exact absurd hwhole (by simp)
        | cons d tail =>
          have hd : d = '<' := (List.cons.inj hrest).1.symm
          rw [List.cons_append] at hlong
          have hmem : '<' ∈ body := by
            rw [(List.cons.inj hlong).2, ← hd]
            exact List.mem_append_right cs List.mem_cons_self
          exact absurd hmem hbody
    · have hin : afterBreakTag cs = some tail := afterBreakTag_eq_some.mpr ⟨_, htag, hshort⟩
      rw [h] at hin
      exact absurd hin (by simp)

/-! ### Stretches -/

theorem splitBreaks_ne_nil (cs : List Char) : splitBreaks cs ≠ [] := by
  induction cs using splitBreaks.induct with
  | case1 => simp
  | case2 c rest behind h ih =>
    rw [splitBreaks_of_tag h]
    exact List.cons_ne_nil _ _
  | case3 c rest h ih =>
    rw [splitBreaks_cons h]
    simpa using ih

/-- The stretches of a text, a tag and another text are those of the two texts. -/
theorem splitBreaks_append (cs : List Char) {tag : List Char} (htag : IsBreakTag tag)
    (rest : List Char) :
    splitBreaks (cs ++ (tag ++ rest)) = splitBreaks cs ++ splitBreaks rest := by
  induction cs using splitBreaks.induct with
  | case1 =>
    have hbegin : afterBreakTag (tag ++ rest) = some rest :=
      afterBreakTag_eq_some.mpr ⟨tag, htag, rfl⟩
    rw [List.nil_append, splitBreaks_of_tag hbegin, splitBreaks_nil, List.singleton_append]
  | case2 c cs behind h ih =>
    obtain ⟨first, hfirst, heq⟩ := afterBreakTag_eq_some.mp h
    have hbegin : afterBreakTag (c :: cs ++ (tag ++ rest)) = some (behind ++ (tag ++ rest)) :=
      afterBreakTag_eq_some.mpr ⟨first, hfirst, by rw [heq, List.append_assoc]⟩
    rw [splitBreaks_of_tag hbegin, splitBreaks_of_tag h, ih, List.cons_append]
  | case3 c cs h ih =>
    obtain ⟨body, rfl, -⟩ := htag.exists_cons
    have hnone : afterBreakTag (c :: (cs ++ ('<' :: body ++ rest))) = none :=
      afterBreakTag_append (List.cons_ne_nil c cs) h
    rw [List.cons_append, splitBreaks_cons hnone, ih, splitBreaks_cons h]
    cases hsplit : splitBreaks cs with
    | nil => exact absurd hsplit (splitBreaks_ne_nil cs)
    | cons s ss => rfl

/-- **The stretches of texts that are joined by tags** are the stretches of each. -/
theorem splitBreaks_intercalate {ls : List (List Char)} (hne : ls ≠ []) :
    splitBreaks (lineBreak.intercalate ls) = ls.flatMap splitBreaks := by
  induction ls with
  | nil => exact absurd rfl hne
  | cons l ls ih =>
    cases ls with
    | nil => simp
    | cons k ks =>
      have hrest := ih (List.cons_ne_nil k ks)
      rw [List.intercalate_cons_cons, List.append_assoc,
        splitBreaks_append l isBreakTag_lineBreak, hrest]
      exact List.flatMap_cons.symm

/-- The stretches of a text are part of it, and the first one begins it. -/
theorem infix_of_splitBreaks (cs : List Char) :
    ((splitBreaks cs).headD [] <+: cs) ∧ ∀ s ∈ splitBreaks cs, s <:+: cs := by
  induction cs using splitBreaks.induct with
  | case1 => simp
  | case2 c cs behind h ih =>
    obtain ⟨tag, -, heq⟩ := afterBreakTag_eq_some.mp h
    rw [splitBreaks_of_tag h]
    refine ⟨List.nil_prefix, List.forall_mem_cons.mpr ⟨List.nil_infix, fun s hs => ?_⟩⟩
    rw [heq]
    exact (ih.2 s hs).trans (List.suffix_append tag behind).isInfix
  | case3 c cs h ih =>
    rw [splitBreaks_cons h]
    cases hsplit : splitBreaks cs with
    | nil => exact absurd hsplit (splitBreaks_ne_nil cs)
    | cons k ks =>
      rw [hsplit] at ih
      have hk : c :: k <+: c :: cs := (List.prefix_cons_inj c).mpr ih.1
      refine ⟨hk, List.forall_mem_cons.mpr ⟨hk.isInfix, fun s hs => ?_⟩⟩
      exact (ih.2 s (List.mem_cons_of_mem k hs)).trans (List.suffix_cons c cs).isInfix

/-- A stretch is part of the text. -/
theorem infix_of_mem_splitBreaks {cs s : List Char} (h : s ∈ splitBreaks cs) : s <:+: cs :=
  (infix_of_splitBreaks cs).2 s h

end FlowCanvas
