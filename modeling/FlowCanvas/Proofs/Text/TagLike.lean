import FlowCanvas.Proofs.Text.Marks

/-!
# Stretches that read like tags

A stretch of a label reads like a break tag if it is one when white space before its stroke is left
out.  No other stretch can be made a tag by setting the white space anew.  One of these is set as a
tag exactly if it is set on one line: then nothing stands between its characters, but for a single
space before the stroke.

## Main definitions

* `IsTagLike` — a stretch that reads like a break tag.

## Main results

* `beginsTag_plain_iff`, `beginsTag_stroke_iff` — the glyphs of tags.
* `beginsTag_glyphs_tagLike_iff`, `beginsTag_setAs_iff` — which of these stretches are tags, before
  and after they are set.
* `exists_tagLike_of_setAs` — what is set as a tag reads like one.
-/

namespace FlowCanvas

/-! ### Stretches that read like tags -/

/-- A stretch that reads like a break tag: it is one if the white space before its stroke is left
out. -/
inductive IsTagLike : List Char → Prop
  | plain {b r : Char} (hb : b.toLower = 'b') (hr : r.toLower = 'r') : IsTagLike ['<', b, r, '>']
  | stroke {b r : Char} (hb : b.toLower = 'b') (hr : r.toLower = 'r') {gap : List Char}
      (hgap : ∀ c ∈ gap, isBlank c = true) : IsTagLike ('<' :: b :: r :: (gap ++ "/>".toList))

theorem IsBreakTag.isTagLike {tag : List Char} (h : IsBreakTag tag) : IsTagLike tag := by
  obtain ⟨b, r, ending, hb, hr, hending, rfl⟩ := h
  simp only [tagEnds, List.mem_cons, List.not_mem_nil, or_false] at hending
  rcases hending with rfl | rfl | rfl
  · exact .plain hb hr
  · exact .stroke hb hr (List.forall_mem_nil _)
  · exact .stroke hb hr (List.forall_mem_singleton.mpr (rfl : isBlank ' ' = true))

theorem IsTagLike.exists_eq {s : List Char} (h : IsTagLike s) :
    ∃ inner, s = '<' :: (inner ++ ['>']) := by
  cases h with
  | plain => exact ⟨[_, _], rfl⟩
  | @stroke b r _ _ gap =>
    refine ⟨b :: r :: (gap ++ ['/']), ?_⟩
    rw [List.cons_append, List.cons_append, List.append_assoc]
    rfl

theorem glyphs_letters {b r : Char} (hb : b.toLower = 'b') (hr : r.toLower = 'r')
    (gap ending : List Char) :
    glyphs gap ('<' :: b :: r :: ending)
      = ⟨gap, '<'⟩ :: ⟨[], b⟩ :: ⟨[], r⟩ :: glyphs [] ending := by
  rw [glyphs_cons_of_ink (by decide), glyphs_cons_of_ink (isBlank_of_toLower hb (by decide)),
    glyphs_cons_of_ink (isBlank_of_toLower hr (by decide))]

theorem glyphs_plain {b r : Char} (hb : b.toLower = 'b') (hr : r.toLower = 'r') (g : List Char) :
    glyphs g ['<', b, r, '>'] = [⟨g, '<'⟩, ⟨[], b⟩, ⟨[], r⟩, ⟨[], '>'⟩] :=
  glyphs_letters hb hr g ['>']

theorem glyphs_stroke {b r : Char} (hb : b.toLower = 'b') (hr : r.toLower = 'r') {gap : List Char}
    (hgap : ∀ c ∈ gap, isBlank c = true) (g : List Char) :
    glyphs g ('<' :: b :: r :: (gap ++ "/>".toList))
      = [⟨g, '<'⟩, ⟨[], b⟩, ⟨[], r⟩, ⟨gap, '/'⟩, ⟨[], '>'⟩] := by
  rw [glyphs_letters hb hr, glyphs_blanks_append hgap]
  rfl

/-- White space before the stroke of a tag is a single space. -/
theorem isBreakTag_stroke_iff {b r : Char} (hb : b.toLower = 'b') (hr : r.toLower = 'r')
    (gap : List Char) :
    IsBreakTag ('<' :: b :: r :: (gap ++ "/>".toList)) ↔ gap = [] ∨ gap = [' '] := by
  constructor
  · rintro ⟨b', r', ending, -, -, hending, h⟩
    have hgap : gap ++ "/>".toList = ending :=
      (List.cons.inj (List.cons.inj (List.cons.inj h).2).2).2
    simp only [tagEnds, List.mem_cons, List.not_mem_nil, or_false] at hending
    rcases hending with rfl | rfl | rfl
    · have hlength := congrArg List.length hgap
      simp at hlength
    · exact Or.inl (List.append_left_eq_self.mp hgap)
    · have hspace : gap ++ "/>".toList = [' '] ++ "/>".toList := hgap
      exact Or.inr (List.append_cancel_right hspace)
  · rintro (rfl | rfl)
    · exact ⟨b, r, "/>".toList, hb, hr, by decide, rfl⟩
    · exact ⟨b, r, " />".toList, hb, hr, by decide, rfl⟩

theorem ink_letters {b r : Char} (hb : b.toLower = 'b') (hr : r.toLower = 'r') {ending : List Char}
    (hending : ∀ c ∈ ending, isBlank c = false) :
    ∀ c ∈ '<' :: b :: r :: ending, isBlank c = false := by
  have hb' : isBlank b = false := isBlank_of_toLower hb (by decide)
  have hr' : isBlank r = false := isBlank_of_toLower hr (by decide)
  simp only [List.forall_mem_cons]
  exact ⟨rfl, hb', hr', hending⟩

/-- A stretch that reads like a tag is one, and has no white space in it, unless it has a stroke
behind white space. -/
theorem IsTagLike.ink_or_stroke {s : List Char} (h : IsTagLike s) :
    (IsBreakTag s ∧ ∀ c ∈ s, isBlank c = false)
      ∨ ∃ a c, isBlank c = true ∧ s = a ++ c :: "/>".toList := by
  cases h with
  | @plain b r hb hr =>
    exact Or.inl ⟨⟨b, r, ['>'], hb, hr, by decide, rfl⟩,
      ink_letters hb hr (forall_mem_of_all (by decide))⟩
  | @stroke b r hb hr gap hgap =>
    rcases List.eq_nil_or_concat gap with rfl | ⟨gap, c, rfl⟩
    · exact Or.inl ⟨(isBreakTag_stroke_iff hb hr []).mpr (Or.inl rfl),
        ink_letters hb hr (forall_mem_of_all (by decide))⟩
    · refine Or.inr ⟨'<' :: b :: r :: gap, c, hgap c (by simp), ?_⟩
      simp only [List.concat_eq_append, List.append_assoc, List.cons_append, List.nil_append]

section Shapes

variable {y y₁ y₂ y₃ y₄ : Glyph} {gs : List Glyph} (hopen : y.char = '<')
  (hb : y₁.char.toLower = 'b') (hr : y₂.char.toLower = 'r')
include hopen hb hr

/-- The glyphs of `<br>` begin a tag if there is no white space between them. -/
theorem beginsTag_plain_iff (hclose : y₃.char = '>') :
    BeginsTag (y :: y₁ :: y₂ :: y₃ :: gs) ↔ y₁.gap = [] ∧ y₂.gap = [] ∧ y₃.gap = [] := by
  constructor
  · rintro ⟨tag, gap, rest, htag, h⟩
    cases htag.isTagLike with
    | plain hb' hr' =>
      rw [glyphs_plain hb' hr'] at h
      obtain ⟨-, rfl, rfl, rfl, -⟩ : y = _ ∧ y₁ = _ ∧ y₂ = _ ∧ y₃ = _ ∧ gs = rest := by
        simpa using h
      exact ⟨rfl, rfl, rfl⟩
    | stroke hb' hr' hgap =>
      -- the fourth glyph of this tag is a stroke
      rw [glyphs_stroke hb' hr' hgap] at h
      obtain ⟨-, -, -, rfl, -⟩ : y = _ ∧ y₁ = _ ∧ y₂ = _ ∧ y₃ = _ ∧ gs = _ := by
        simpa using h
      exact absurd hclose (show '/' ≠ '>' by decide)
  · obtain ⟨g, c⟩ := y
    obtain ⟨g₁, b⟩ := y₁
    obtain ⟨g₂, r⟩ := y₂
    obtain ⟨g₃, c₃⟩ := y₃
    obtain rfl : c = '<' := hopen
    obtain rfl : c₃ = '>' := hclose
    rintro ⟨rfl, rfl, rfl⟩
    exact ⟨['<', b, r, '>'], g, gs, ⟨b, r, ['>'], hb, hr, by decide, rfl⟩,
      by rw [glyphs_plain hb hr]; rfl⟩

/-- The glyphs of `<br/>` begin a tag if there is no white space between them, but for a space
before the stroke. -/
theorem beginsTag_stroke_iff (hstroke : y₃.char = '/') (hclose : y₄.char = '>') :
    BeginsTag (y :: y₁ :: y₂ :: y₃ :: y₄ :: gs)
      ↔ y₁.gap = [] ∧ y₂.gap = [] ∧ (y₃.gap = [] ∨ y₃.gap = [' ']) ∧ y₄.gap = [] := by
  constructor
  · rintro ⟨tag, gap, rest, htag, h⟩
    cases htag.isTagLike with
    | plain hb' hr' =>
      rw [glyphs_plain hb' hr'] at h
      obtain ⟨-, -, -, rfl, -⟩ : y = _ ∧ y₁ = _ ∧ y₂ = _ ∧ y₃ = _ ∧ y₄ :: gs = rest := by
        simpa using h
      exact absurd hstroke (show '>' ≠ '/' by decide)
    | stroke hb' hr' hgap =>
      rw [glyphs_stroke hb' hr' hgap] at h
      obtain ⟨-, rfl, rfl, rfl, rfl, -⟩ :
          y = _ ∧ y₁ = _ ∧ y₂ = _ ∧ y₃ = _ ∧ y₄ = _ ∧ gs = rest := by
        simpa using h
      exact ⟨rfl, rfl, (isBreakTag_stroke_iff hb' hr' _).mp htag, rfl⟩
  · obtain ⟨g, c⟩ := y
    obtain ⟨g₁, b⟩ := y₁
    obtain ⟨g₂, r⟩ := y₂
    obtain ⟨g₃, c₃⟩ := y₃
    obtain ⟨g₄, c₄⟩ := y₄
    obtain rfl : c = '<' := hopen
    obtain rfl : c₃ = '/' := hstroke
    obtain rfl : c₄ = '>' := hclose
    rintro ⟨rfl, rfl, hgap, rfl⟩
    have hblank : ∀ c ∈ g₃, isBlank c = true := by
      rcases hgap with h | h
      · rw [show g₃ = [] from h]
        exact List.forall_mem_nil _
      · rw [show g₃ = [' '] from h]
        exact List.forall_mem_singleton.mpr rfl
    exact ⟨_, g, gs, (isBreakTag_stroke_iff hb hr g₃).mpr hgap,
      by rw [glyphs_stroke hb hr hblank]; rfl⟩

end Shapes

/-- Of the stretches of a text that read like tags, its tags are those that are one. -/
theorem beginsTag_glyphs_tagLike_iff {s : List Char} (hs : IsTagLike s) (gap : List Char)
    (gs : List Glyph) : BeginsTag (glyphs gap s ++ gs) ↔ IsBreakTag s := by
  refine ⟨fun h => ?_, fun h => ⟨s, gap, gs, h, rfl⟩⟩
  cases hs with
  | plain hb hr => exact ⟨_, _, ['>'], hb, hr, by decide, rfl⟩
  | stroke hb hr hgap =>
    rw [glyphs_stroke hb hr hgap] at h
    exact (isBreakTag_stroke_iff hb hr _).mpr ((beginsTag_stroke_iff rfl hb hr rfl rfl).mp h).2.2.1

/-! ### Stretches that are set -/

namespace SetAs

theorem toLower_eq {x y : Glyph} (h : SetAs x y) {c : Char} (hx : x.char.toLower = c) :
    y.char.toLower = c := by
  rw [h.char_eq, hx]

theorem eq_mk {x : Glyph} {gap : List Char} {c : Char} (h : SetAs x ⟨gap, c⟩) : x = ⟨x.gap, c⟩ := by
  obtain ⟨g, c'⟩ := x
  obtain rfl : c = c' := h.char_eq
  rfl

/-- A glyph stays right behind the one before it unless it begins a line. -/
theorem gap_eq_nil_iff {x y : Glyph} (h : SetAs x y) (hx : x.gap = []) :
    y.gap = [] ↔ '\n' ∉ y.gap := by
  constructor
  · intro hy
    rw [hy]
    exact List.not_mem_nil
  · intro hy
    have hgap := h.gap_eq.resolve_left hy
    rwa [if_pos hx] at hgap

/-- Of the white space before a glyph that begins no line, a single space is left at most. -/
theorem gap_narrow_iff {x y : Glyph} (h : SetAs x y) :
    (y.gap = [] ∨ y.gap = [' ']) ↔ '\n' ∉ y.gap := by
  constructor
  · rintro (hy | hy)
    all_goals
      rw [hy]
      decide
  · intro hy
    have hgap := h.gap_eq.resolve_left hy
    split at hgap
    · exact Or.inl hgap
    · exact Or.inr hgap

/-- A glyph that is set right behind the one before it was there already. -/
theorem eq_of_gap_eq_nil {x y : Glyph} (h : SetAs x y) (hy : y.gap = []) : x = y := by
  obtain ⟨g, c⟩ := x
  obtain ⟨g', c'⟩ := y
  obtain rfl : g' = [] := hy
  obtain rfl : c' = c := h.char_eq
  have hgap := h.gap_eq.resolve_left List.not_mem_nil
  by_cases hg : g = []
  · rw [hg]
  · rw [if_neg hg] at hgap
    exact absurd hgap.symm (List.cons_ne_nil _ _)

end SetAs

/-- A stretch that reads like a tag is set as one exactly if none of its glyphs but the first begins
a line. -/
theorem beginsTag_setAs_iff {s : List Char} (hs : IsTagLike s) {gap : List Char} {y : Glyph}
    {ys gs : List Glyph} (hset : List.Forall₂ SetAs (glyphs gap s) (y :: ys)) :
    BeginsTag (y :: ys ++ gs) ↔ ∀ z ∈ ys, '\n' ∉ z.gap := by
  cases hs with
  | plain hb hr =>
    rw [glyphs_plain hb hr] at hset
    obtain _ | ⟨h₀, _ | ⟨h₁, _ | ⟨h₂, _ | ⟨h₃, _ | _⟩⟩⟩⟩ := hset
    show BeginsTag (_ :: _ :: _ :: _ :: gs) ↔ _
    rw [beginsTag_plain_iff h₀.char_eq (h₁.toLower_eq hb) (h₂.toLower_eq hr) h₃.char_eq,
      h₁.gap_eq_nil_iff rfl, h₂.gap_eq_nil_iff rfl, h₃.gap_eq_nil_iff rfl]
    simp
  | stroke hb hr hgap =>
    rw [glyphs_stroke hb hr hgap] at hset
    obtain _ | ⟨h₀, _ | ⟨h₁, _ | ⟨h₂, _ | ⟨h₃, _ | ⟨h₄, _ | _⟩⟩⟩⟩⟩ := hset
    show BeginsTag (_ :: _ :: _ :: _ :: _ :: gs) ↔ _
    rw [beginsTag_stroke_iff h₀.char_eq (h₁.toLower_eq hb) (h₂.toLower_eq hr) h₃.char_eq h₄.char_eq,
      h₁.gap_eq_nil_iff rfl, h₂.gap_eq_nil_iff rfl, h₃.gap_narrow_iff, h₄.gap_eq_nil_iff rfl]
    simp

/-- What is set as a tag reads like one in the text. -/
theorem exists_tagLike_of_setAs {gs hs : List Glyph} (hset : List.Forall₂ SetAs gs hs)
    (hblank : ∀ x ∈ gs, ∀ c ∈ x.gap, isBlank c = true) (h : BeginsTag hs) :
    ∃ s gap rest, IsTagLike s ∧ gs = glyphs gap s ++ rest := by
  obtain ⟨tag, gap, rest, htag, rfl⟩ := h
  cases htag.isTagLike with
  | plain hb hr =>
    rw [glyphs_plain hb hr] at hset
    obtain _ | ⟨h₀, _ | ⟨h₁, _ | ⟨h₂, _ | ⟨h₃, -⟩⟩⟩⟩ := hset
    rename_i x₀ x₁ x₂ x₃ xs
    refine ⟨_, x₀.gap, xs, .plain hb hr, ?_⟩
    rw [glyphs_plain hb hr, h₁.eq_of_gap_eq_nil rfl, h₂.eq_of_gap_eq_nil rfl,
      h₃.eq_of_gap_eq_nil rfl, ← h₀.eq_mk]
    rfl
  | stroke hb hr hgap =>
    rw [glyphs_stroke hb hr hgap] at hset
    obtain _ | ⟨h₀, _ | ⟨h₁, _ | ⟨h₂, _ | ⟨h₃, _ | ⟨h₄, -⟩⟩⟩⟩⟩ := hset
    rename_i x₀ x₁ x₂ x₃ x₄ xs
    have hstroke : ∀ c ∈ x₃.gap, isBlank c = true := hblank x₃ (by simp)
    refine ⟨_, x₀.gap, xs, .stroke hb hr hstroke, ?_⟩
    rw [glyphs_stroke hb hr hstroke, h₁.eq_of_gap_eq_nil rfl, h₂.eq_of_gap_eq_nil rfl, ← h₃.eq_mk,
      h₄.eq_of_gap_eq_nil rfl, ← h₀.eq_mk]
    rfl

end FlowCanvas
