import FlowCanvas.Proofs.Text.BreakTag

/-!
# Texts joined by break tags

A text is split at its break tags into stretches.  Joining the stretches again, with a tag between
each and the next, gives the text back if the right tags are chosen, since nothing but tags is taken
away (`joinedByTags_splitBreaks`); and no stretch has a tag in it (`tagFree_of_mem_splitBreaks`).

There is no other way to see a text as stretches without tags that are joined by tags.  What a
stretch ends with and what stands behind it might be thought to make another tag, but every tag
begins with its only opening bracket, so that none begins before a tag and ends in it.  So these two
properties say what the stretches of a text are.

## Main definitions

* `TagFree` — a text has no break tag in it.
* `JoinedByTags` — a text is made of stretches with a tag between each and the next.

## Main results

* `splitBreaks_of_joinedByTags` — stretches without tags are found again, whatever tags join them.
* `splitBreaks_eq_iff` — the stretches of a text are those without tags that it is joined from.
* `labelLines_eq_iff` — **splitting a label into lines undoes joining lines by tags, and nothing
  else.**
-/

namespace FlowCanvas

/-! ### Texts without tags -/

/-- The text has no break tag in it. -/
def TagFree (cs : List Char) : Prop := ∀ tag, IsBreakTag tag → ¬ tag <:+: cs

/-- A part of a text without tags has none. -/
theorem TagFree.of_infix {part cs : List Char} (h : TagFree cs) (hpart : part <:+: cs) :
    TagFree part := fun tag htag hin => h tag htag (hin.trans hpart)

theorem TagFree.afterBreakTag_eq_none {cs : List Char} (h : TagFree cs) :
    afterBreakTag cs = none := by
  rw [Option.eq_none_iff_forall_ne_some]
  intro behind hbehind
  obtain ⟨tag, htag, rfl⟩ := afterBreakTag_eq_some.mp hbehind
  exact h tag htag (List.prefix_append tag behind).isInfix

theorem tagFree_nil : TagFree [] := by
  rintro tag ⟨b, r, ending, -, -, -, rfl⟩ h
  exact absurd (List.infix_nil.mp h) (List.cons_ne_nil _ _)

/-- One more character in front makes a tag only if a tag begins with it. -/
theorem TagFree.cons {c : Char} {cs : List Char} (h : TagFree cs)
    (hbegin : afterBreakTag (c :: cs) = none) : TagFree (c :: cs) := by
  intro tag htag hin
  rcases List.infix_cons_iff.mp hin with ⟨behind, hbehind⟩ | hin
  · have hsome : afterBreakTag (c :: cs) = some behind :=
      afterBreakTag_eq_some.mpr ⟨tag, htag, hbehind.symm⟩
    rw [hbegin] at hsome
    exact absurd hsome (Option.some_ne_none behind).symm
  · exact h tag htag hin

/-- A text that does not begin with a tag has no beginning that does. -/
theorem afterBreakTag_eq_none_of_isPrefix {l cs : List Char} (hl : l <+: cs)
    (h : afterBreakTag cs = none) : afterBreakTag l = none := by
  rw [Option.eq_none_iff_forall_ne_some] at h ⊢
  intro behind hbehind
  obtain ⟨tag, htag, rfl⟩ := afterBreakTag_eq_some.mp hbehind
  obtain ⟨more, rfl⟩ := hl
  exact h (behind ++ more) (afterBreakTag_eq_some.mpr ⟨tag, htag, List.append_assoc ..⟩)

/-- A text without tags is its own only stretch. -/
theorem splitBreaks_of_tagFree {cs : List Char} (h : TagFree cs) : splitBreaks cs = [cs] := by
  induction cs with
  | nil => exact splitBreaks_nil
  | cons c cs ih =>
    have hrest := ih (h.of_infix (List.suffix_cons c cs).isInfix)
    rw [splitBreaks_cons h.afterBreakTag_eq_none, hrest, List.modifyHead_cons]

/-- The stretches of a text have no tags in them.  The first one begins the text, so that a tag at
its beginning would be found there. -/
theorem tagFree_of_mem_splitBreaks {cs p : List Char} (h : p ∈ splitBreaks cs) : TagFree p := by
  induction cs using splitBreaks.induct generalizing p with
  | case1 =>
    rw [splitBreaks_nil, List.mem_singleton] at h
    exact h ▸ tagFree_nil
  | case2 c cs behind htag ih =>
    rw [splitBreaks_of_tag htag] at h
    rcases List.mem_cons.mp h with rfl | h
    · exact tagFree_nil
    · exact ih h
  | case3 c cs hnone ih =>
    have hfirst := (infix_of_splitBreaks cs).1
    rw [splitBreaks_cons hnone] at h
    cases hsplit : splitBreaks cs with
    | nil => exact absurd hsplit (splitBreaks_ne_nil cs)
    | cons q qs =>
      rw [hsplit] at h hfirst ih
      rcases List.mem_cons.mp h with rfl | h
      · refine (ih List.mem_cons_self).cons (afterBreakTag_eq_none_of_isPrefix ?_ hnone)
        exact (List.prefix_cons_inj c).mpr hfirst
      · exact ih (List.mem_cons_of_mem q h)

/-! ### Joining -/

/-- A text is made of stretches, of which there is at least one, with any break tag between each of
them and the next. -/
inductive JoinedByTags : List (List Char) → List Char → Prop
  | single (p : List Char) : JoinedByTags [p] p
  | cons (p : List Char) {tag : List Char} (htag : IsBreakTag tag) {ps : List (List Char)}
    {cs : List Char} (rest : JoinedByTags ps cs) : JoinedByTags (p :: ps) (p ++ (tag ++ cs))

/-- One more character in front belongs to the first stretch. -/
theorem JoinedByTags.modifyHead_cons {ps : List (List Char)} {cs : List Char}
    (h : JoinedByTags ps cs) (c : Char) : JoinedByTags (ps.modifyHead (c :: ·)) (c :: cs) := by
  cases h with
  | single => exact .single (c :: cs)
  | cons p htag rest => exact .cons (c :: p) htag rest

/-- A text is joined from its stretches: nothing but tags is taken away. -/
theorem joinedByTags_splitBreaks (cs : List Char) : JoinedByTags (splitBreaks cs) cs := by
  induction cs using splitBreaks.induct with
  | case1 =>
    rw [splitBreaks_nil]
    exact .single []
  | case2 c cs behind h ih =>
    obtain ⟨tag, htag, heq⟩ := afterBreakTag_eq_some.mp h
    rw [splitBreaks_of_tag h, heq]
    exact .cons [] htag ih
  | case3 c cs h ih =>
    rw [splitBreaks_cons h]
    exact ih.modifyHead_cons c

/-- Stretches without tags are found again, whatever tags join them. -/
theorem splitBreaks_of_joinedByTags {ps : List (List Char)} {cs : List Char}
    (h : JoinedByTags ps cs) (hfree : ∀ p ∈ ps, TagFree p) : splitBreaks cs = ps := by
  induction h with
  | single p => exact splitBreaks_of_tagFree (hfree p List.mem_cons_self)
  | cons p htag _ ih =>
    obtain ⟨hp, hps⟩ := List.forall_mem_cons.mp hfree
    rw [splitBreaks_append p htag, splitBreaks_of_tagFree hp, ih hps, List.singleton_append]

/-- The stretches of a text are those without tags that it is joined from. -/
theorem splitBreaks_eq_iff {cs : List Char} {ps : List (List Char)} :
    splitBreaks cs = ps ↔ JoinedByTags ps cs ∧ ∀ p ∈ ps, TagFree p := by
  constructor
  · rintro rfl
    exact ⟨joinedByTags_splitBreaks cs, fun p hp => tagFree_of_mem_splitBreaks hp⟩
  · rintro ⟨hjoined, hfree⟩
    exact splitBreaks_of_joinedByTags hjoined hfree

/-! ### Labels -/

theorem map_toList_labelLines (s : String) :
    (labelLines s).map String.toList = splitBreaks s.toList := by
  simp [labelLines, Function.comp_def]

/-- **Splitting a label into lines undoes joining lines by tags, and nothing else.**  The lines of a
label are `ps` exactly if no line in `ps` has a break tag in it and the label is these lines with a
break tag, whichever, between each and the next.  So lines without tags are found again however they
were joined; and the lines of any label have no tags in them and are all of it but tags. -/
theorem labelLines_eq_iff (s : String) (ps : List String) :
    labelLines s = ps
      ↔ JoinedByTags (ps.map String.toList) s.toList ∧ ∀ p ∈ ps, TagFree p.toList := by
  have hchars : labelLines s = ps ↔ splitBreaks s.toList = ps.map String.toList := by
    rw [← map_toList_labelLines]
    exact ((List.map_injective_iff.mpr fun a b h => String.toList_inj.mp h).eq_iff).symm
  rw [hchars, splitBreaks_eq_iff, List.forall_mem_map]

example : labelLines "é<<BR />br/><br<br><Br/>" = ["é<", "br/><br", "", ""] := by decide +kernel

end FlowCanvas
