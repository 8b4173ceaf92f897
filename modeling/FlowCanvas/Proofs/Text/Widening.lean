import FlowCanvas.Proofs.Text.Greedy

/-!
# Texts wider than their characters

A text is cut into pieces by the widths that its characters have on their own.  These are not what
the text is wide: a control character has no width of its own and takes a column in a text, and a
character of one column is drawn in two if a selector behind it asks for that.  All other rules for
sequences make a text narrower or leave it as it is.  So a piece can be wider than the budget, but
by no more columns than it has such characters.

The width of a text is found from right to left, and what is counted lags behind what has been read:
a selector is read before the character that it makes wider, and of several flag letters before a
joined emoji two at a time are counted late.  The columns that a scanner still owes
(`Ahead.owed`) make up for this.  With them, no step adds more than it may (`Ahead.step_le`), and
the bound on texts follows by induction (`scanWidth_le`).

## Main definitions

* `widens` — characters that can make a text wider than its characters.
* `Ahead.owed` — columns that are counted late.

## Main results

* `columns_le` — **a text is at most as wide as its characters, and a column more for each one that
  widens it.**
* `columns_le_of_mem_pieces` — **by how much a piece can be wider than the budget.**
* `not_forall_columns_le` — pieces need not be within the budget.
-/

namespace FlowCanvas

open WidthTable

/-! ### Characters that widen a text -/

/-- A control character. -/
def isControl (c : Char) : Bool := c < ' ' || ('\x7f' ≤ c && c < '\u00a0')

/-- A character that can make a text wider than its characters: a control character, or a selector
that asks for a form of two columns. -/
def widens (c : Char) : Bool := isControl c || c = '\ufe0f' || c = '\ufe01'

/-! ### What a scanner owes -/

/-- The columns of flag letters that are counted late. -/
def Follower.owed : Follower → Int
  | .joinedFlags false => 2
  | _ => 0

/-- The columns that selectors are about to add. -/
def Selectors.owed (s : Selectors) : Int :=
  (if s.emoji then 1 else 0) + if s.fullwidth then 1 else 0

/-- The columns that a scanner has yet to count for what stands to the right. -/
def Ahead.owed (a : Ahead) : Int := a.follower.owed + a.selectors.owed

theorem Follower.owed_nonneg (f : Follower) : 0 ≤ f.owed := by
  unfold Follower.owed
  split <;> decide

theorem Selectors.owed_nonneg (s : Selectors) : 0 ≤ s.owed := by
  unfold Selectors.owed
  split <;> split <;> decide

theorem Selectors.one_le_owed {s : Selectors} (h : s.emoji = true ∨ s.fullwidth = true) :
    1 ≤ s.owed := by
  unfold Selectors.owed
  rcases h with h | h
  all_goals
    rw [if_pos h]
    split <;> decide

theorem Ahead.owed_nonneg (a : Ahead) : 0 ≤ a.owed :=
  Int.add_nonneg a.follower.owed_nonneg a.selectors.owed_nonneg

theorem Follower.owed_ahead (f : Follower) : f.ahead.owed = f.owed := by
  simp [Follower.ahead, Ahead.owed, Selectors.owed, Selectors.none]

theorem Follower.owed_of_isJoinedEmoji {f : Follower} (h : f.isJoinedEmoji = true) :
    f.owed = 0 := by
  cases f <;> first | rfl | exact absurd h Bool.false_ne_true

theorem Follower.owed_of_startsLigature {f : Follower} (h : f.startsLigature = true) :
    f.behindJoiner.owed = 0 := by
  cases f <;> first | rfl | exact absurd h Bool.false_ne_true

/-- The columns that a selector can add. -/
def Selector.adds : Selector → Int
  | .text => 0
  | .emoji | .fullwidth => 1

theorem Selectors.owed_insert (s : Selector) (others : Selectors) :
    (others.insert s).owed ≤ others.owed + s.adds := by
  obtain ⟨text, emoji, fullwidth⟩ := others
  cases s <;> cases emoji <;> cases fullwidth <;>
    simp [Selectors.insert, Selectors.owed, Selector.adds]

theorem Ahead.owed_behind (s : Selector) (a : Ahead) : (a.behind s).owed ≤ a.owed + s.adds := by
  have hfollower := a.follower.owed_nonneg
  have hselectors := a.selectors.owed_nonneg
  have hone : (Selectors.none.insert s).owed ≤ s.adds := by
    simpa [Selectors.owed, Selectors.none] using Selectors.owed_insert s Selectors.none
  unfold Ahead.behind Ahead.owed
  split
  · -- The follower keeps its place, and the selectors gather.
    have := Selectors.owed_insert s a.selectors
    dsimp only
    omega
  · split
    · next hjoined =>
      rw [Bool.and_eq_true] at hjoined
      dsimp only
      rw [Follower.owed_of_isJoinedEmoji hjoined.2]
      omega
    · have hplain : Follower.plain.owed = 0 := rfl
      dsimp only
      omega

/-- A selector that is void is owed nothing. -/
theorem Ahead.owed_voidEmoji (a : Ahead) : a.voidEmoji.owed ≤ a.owed := by
  have hfollower := a.follower.owed_nonneg
  unfold Ahead.voidEmoji
  split
  · next hemoji =>
    have hselectors : ({ a.selectors with emoji := false } : Selectors).owed
        ≤ a.selectors.owed := by
      simp [Selectors.owed, hemoji]
    have hkept : (if a.follower.isJoinedEmoji = true then Follower.plain else a.follower).owed
        ≤ a.follower.owed := by
      split
      · exact hfollower
      · exact le_rfl
    exact add_le_add hkept hselectors
  · exact le_rfl

/-! ### Tables -/

/-- No code point is in both sets: the ranges of the second one are skipped up to where a range of
the first one begins, and what is left begins behind its end. -/
def CodeRanges.apart : CodeRanges → CodeRanges → Bool
  | [], _ => true
  | (lo, hi) :: r, s =>
    match s.dropWhile fun b => b.2 < lo with
    | [] => true
    | b :: s => hi < b.1 && CodeRanges.apart r (b :: s)

/-- Ranges that end below a code point do not have it. -/
theorem CodeRanges.has_dropWhile {s : CodeRanges} {lo n : Nat} (hlo : lo ≤ n)
    (h : CodeRanges.has s n = true) :
    CodeRanges.has (s.dropWhile fun b => b.2 < lo) n = true := by
  induction s with
  | nil => exact h
  | cons b s ih =>
    obtain ⟨blo, bhi⟩ := b
    by_cases hb : bhi < lo
    · rw [List.dropWhile_cons_of_pos (by simpa using hb)]
      simp only [CodeRanges.has_cons, Bool.and_eq_true, Bool.or_eq_true, decide_eq_true_eq] at h
      exact ih (h.2.resolve_left (by omega))
    · rwa [List.dropWhile_cons_of_neg (by simpa using hb)]

theorem CodeRanges.has_eq_false_of_apart {r s : CodeRanges} (h : CodeRanges.apart r s = true)
    {n : Nat} (hr : CodeRanges.has r n = true) : CodeRanges.has s n = false := by
  induction r generalizing s with
  | nil => exact absurd hr Bool.false_ne_true
  | cons a r ih =>
    obtain ⟨lo, hi⟩ := a
    simp only [CodeRanges.has_cons, Bool.and_eq_true, Bool.or_eq_true, decide_eq_true_eq] at hr
    by_contra hs
    have hskipped := CodeRanges.has_dropWhile hr.1 (Bool.eq_true_of_not_eq_false hs)
    rw [CodeRanges.apart] at h
    cases hdrop : s.dropWhile fun b => b.2 < lo with
    | nil =>
      rw [hdrop] at hskipped
      exact Bool.false_ne_true hskipped
    | cons b s' =>
      obtain ⟨blo, bhi⟩ := b
      rw [hdrop] at h hskipped
      simp only [Bool.and_eq_true, decide_eq_true_eq] at h
      have hb : blo ≤ n := by
        simp only [CodeRanges.has_cons, Bool.and_eq_true, decide_eq_true_eq] at hskipped
        exact hskipped.1
      -- The code point is behind the first range of either set.
      have hrest : CodeRanges.has r n = true := hr.2.resolve_left (by omega)
      rw [ih h.2 hrest] at hskipped
      exact Bool.false_ne_true hskipped

/-- The characters that have no column of their own. -/
def columnless : CodeRanges := (0x00, 0x1f) :: (0x7f, 0x9f) :: zeroWidth

/-- A character has a column on its own unless the table says otherwise, and nothing is owed for a
single one. -/
theorem lookup_spec (c : Char) :
    (lookup c).2.owed = 0 ∧ (¬ CodeRanges.has zeroWidth c.toNat = true → 1 ≤ (lookup c).1) := by
  have hite : ∀ {p : Prop} [Decidable p] {n : Nat} {f : Follower} {r : Nat × Follower},
      f.owed = 0 → r.2.owed = 0 ∧ 1 ≤ r.1 →
        (if p then (n + 1, f) else r).2.owed = 0 ∧ 1 ≤ (if p then (n + 1, f) else r).1 :=
    fun hf hr => iteInduction (motive := fun r : Nat × Follower => r.2.owed = 0 ∧ 1 ≤ r.1)
      (fun _ => ⟨hf, Nat.le_add_left 1 _⟩) fun _ => hr
  by_cases h : CodeRanges.has zeroWidth c.toNat = true
  · unfold lookup
    rw [if_pos h]
    exact ⟨rfl, fun hnot => absurd h hnot⟩
  · suffices hspec : (lookup c).2.owed = 0 ∧ 1 ≤ (lookup c).1 from ⟨hspec.1, fun _ => hspec.2⟩
    unfold lookup
    rw [if_neg h]
    refine hite ?wide ?_
    case wide =>
      exact iteInduction (motive := fun f : Follower => f.owed = 0) (fun _ => rfl) fun _ =>
        iteInduction (motive := fun f : Follower => f.owed = 0) (fun _ => rfl) fun _ => rfl
    iterate 11 refine hite rfl ?_
    exact ⟨rfl, le_rfl⟩

/-- All other characters have a column. -/
theorem one_le_charColumns {c : Char} (h : CodeRanges.has columnless c.toNat = false) :
    1 ≤ charColumns c := by
  rw [← Bool.not_eq_true] at h
  simp only [columnless, CodeRanges.has_cons, Bool.and_eq_true, Bool.or_eq_true,
    decide_eq_true_eq] at h
  have hlow : ¬ c < ' ' := fun hc => h ⟨Nat.zero_le _, Or.inl (Nat.le_of_lt_succ hc)⟩
  unfold charColumns
  rw [if_neg hlow]
  by_cases hascii : c < '\x7f'
  · rw [if_pos hascii]
  have hdelete : 0x7f ≤ c.toNat := Nat.not_lt.mp hascii
  have hhigh : ¬ c < '\u00a0' := fun hc =>
    h ⟨Nat.zero_le _, Or.inr ⟨hdelete, Or.inl (Nat.le_of_lt_succ hc)⟩⟩
  rw [if_neg hascii, if_neg hhigh]
  exact (lookup_spec c).2 fun hc => h ⟨Nat.zero_le _, Or.inr ⟨hdelete, Or.inr hc⟩⟩

/-- The characters of a set without columnless ones have a column. -/
theorem one_le_charColumns_of_apart {r : CodeRanges}
    (h : CodeRanges.apart r columnless = true) {c : Char} (hc : CodeRanges.has r c.toNat = true) :
    1 ≤ charColumns c :=
  one_le_charColumns (CodeRanges.has_eq_false_of_apart h hc)

theorem apart_emojiVariationBase : CodeRanges.apart emojiVariationBase columnless = true := by
  decide +kernel

theorem apart_textVariationBase : CodeRanges.apart textVariationBase columnless = true := by
  decide +kernel

theorem apart_flagLetters : CodeRanges.apart [(0x1f1e6, 0x1f1ff)] columnless = true := by
  decide +kernel

/-! ### What a character adds -/

/-- A character that belongs to one sequence with its follower, or does not, adds no more than its
own width and what was owed before. -/
def Follower.Adds (f : Follower) (c : Char) (o : Option (Int × Follower)) : Prop :=
  ∀ r ∈ o, r.1 + r.2.owed ≤ charColumns c + f.owed

namespace Follower

variable {f : Follower} {c : Char}

theorem adds_none : f.Adds c none := fun _ h => absurd h (Option.not_mem_none _)

theorem adds_some {n : Int} {g : Follower} (h : n + g.owed ≤ charColumns c + f.owed) :
    f.Adds c (some (n, g)) := fun _ hr => Option.some.inj hr ▸ h

/-- What adds no column is never too much. -/
theorem adds_some_of_nonpos {n : Int} {g : Follower} (hn : n ≤ 0) (hg : g.owed = 0) :
    f.Adds c (some (n, g)) := by
  have := f.owed_nonneg
  exact adds_some (by omega)

theorem adds_ite {p : Prop} [Decidable p] {o o' : Option (Int × Follower)}
    (h : p → f.Adds c o) (h' : ¬ p → f.Adds c o') : f.Adds c (if p then o else o') :=
  iteInduction h h'

theorem one_le_of_isFlagLetter (h : isFlagLetter c = true) : 1 ≤ charColumns c := by
  refine one_le_charColumns_of_apart apart_flagLetters ?_
  simp only [isFlagLetter, Bool.and_eq_true, decide_eq_true_eq] at h
  simp [h.1, h.2]

/-- By the follower.  Only few sequences add a column to what is there, and then the character has
a column of its own or it was owed. -/
theorem adds_combine (f : Follower) (c : Char) : f.Adds c (f.combine c) := by
  cases f with
  | alef =>
    exact adds_ite (fun _ => adds_some_of_nonpos le_rfl rfl) fun _ =>
      adds_ite (fun _ => adds_some_of_nonpos le_rfl rfl) fun _ => adds_none
  | consonant zwj =>
    have hjoiner : 1 ≤ charColumns '\u2d7f' := one_le_charColumns (by decide +kernel)
    refine adds_ite (fun hc => adds_some ?_) fun _ =>
      adds_ite (fun _ => adds_some_of_nonpos le_rfl rfl) fun _ => adds_none
    subst hc
    simp only [owed]
    omega
  | vowelE =>
    refine adds_ite (fun _ => adds_some_of_nonpos le_rfl rfl) fun _ =>
      adds_ite (fun _ => adds_some_of_nonpos le_rfl rfl) fun _ =>
      adds_ite (fun hc => adds_some ?_) fun _ => adds_none
    have hvowel : 1 ≤ charColumns c := one_le_charColumns (by rw [hc]; decide +kernel)
    simp only [owed]
    omega
  | flagLetter many =>
    refine adds_ite (fun hc => adds_some ?_) fun _ =>
      adds_ite (fun _ => adds_some_of_nonpos le_rfl rfl) fun _ => adds_none
    have hflag := one_le_of_isFlagLetter hc
    simp only [owed]
    omega
  | joined =>
    refine adds_ite (fun _ => adds_some_of_nonpos le_rfl rfl) fun _ =>
      adds_ite (fun hc => adds_some ?_) fun _ =>
      adds_ite (fun _ => adds_some_of_nonpos le_rfl rfl) fun _ =>
      adds_ite (fun _ => adds_some_of_nonpos le_rfl rfl) fun _ =>
      adds_ite (fun _ => adds_some_of_nonpos le_rfl rfl) fun _ => adds_none
    have hflag := one_le_of_isFlagLetter hc
    simp only [owed]
    omega
  | joinedFlag =>
    -- The two columns that the second letter falls short of are owed.
    refine adds_ite (fun hc => adds_some ?_) fun _ => adds_none
    have hflag := one_le_of_isFlagLetter hc
    simp only [owed]
    omega
  | joinedFlags odd =>
    refine adds_ite (fun hc => adds_some ?_) fun _ =>
      adds_ite (fun _ => adds_some_of_nonpos le_rfl rfl) fun _ => adds_none
    have hflag := one_le_of_isFlagLetter hc
    cases odd <;> simp [owed] <;> omega
  | lamed zwj | ya zwj | orkhonI zwj =>
    cases zwj with
    | true => exact adds_ite (fun _ => adds_some_of_nonpos le_rfl rfl) fun _ => adds_none
    | false => exact adds_none
  | vowelYa | tone | vowelAi | emoji =>
    exact adds_ite (fun _ => adds_some_of_nonpos le_rfl rfl) fun _ => adds_none
  | coengLetter | joinedConsonant =>
    exact adds_ite (fun _ => adds_some_of_nonpos (by decide) rfl) fun _ => adds_none
  | skinTone | joinedTagDigits n =>
    exact adds_ite (fun _ => adds_some_of_nonpos le_rfl rfl) fun _ =>
      adds_ite (fun _ => adds_some_of_nonpos le_rfl rfl) fun _ => adds_none
  | joinedTagLetters n =>
    exact adds_ite (fun _ => adds_some_of_nonpos le_rfl rfl) fun _ =>
      adds_ite (fun _ => adds_some_of_nonpos le_rfl rfl) fun _ =>
      adds_ite (fun _ => adds_some_of_nonpos le_rfl rfl) fun _ => adds_none
  | plain | lineFeed | joinedKeycap => exact adds_none

/-- What a character adds on the left of a follower that no selector parts from it. -/
theorem step_le (f : Follower) {c : Char} (hc : '\u00a0' < c) :
    (f.step c).1 + (f.step c).2.owed ≤ charColumns c + f.owed := by
  have hf := f.owed_nonneg
  unfold step
  split
  · next hjoins =>
    rw [Bool.and_eq_true] at hjoins
    rw [owed_ahead, owed_of_startsLigature hjoins.1]
    omega
  split
  · rw [owed_ahead]
    omega
  split
  · next n g hcombine =>
    rw [owed_ahead]
    exact adds_combine f c (n, g) hcombine
  · have hcolumns : charColumns c = (lookup c).1 := by
      unfold charColumns
      rw [if_neg (Char.lt_asymm (Char.lt_trans (by decide) hc)),
        if_neg (Char.lt_asymm (Char.lt_trans (by decide) hc)), if_neg (Char.lt_asymm hc)]
    dsimp only
    rw [owed_ahead, (lookup_spec c).1, hcolumns]
    omega

end Follower

/-- A character up to the first one beyond the controls has a column or widens the text. -/
theorem one_le_of_le_nbsp {c : Char} (hc : c ≤ '\u00a0') (hwidens : widens c = false) :
    1 ≤ charColumns c := by
  simp only [widens, isControl, Bool.or_eq_false_iff, Bool.and_eq_false_iff,
    decide_eq_false_iff_not] at hwidens
  obtain ⟨⟨⟨hlow, hhigh⟩, -⟩, -⟩ := hwidens
  by_cases hascii : c < '\x7f'
  · unfold charColumns
    rw [if_neg hlow, if_pos hascii]
  · have hnbsp : c = '\u00a0' :=
      Char.le_antisymm hc (Char.not_lt.mp (hhigh.resolve_left fun h => h (Char.not_lt.mp hascii)))
    rw [hnbsp]
    exact one_le_charColumns (by decide +kernel)

theorem one_le_of_isCurvedQuote {c : Char} (h : isCurvedQuote c = true) : 1 ≤ charColumns c := by
  simp only [isCurvedQuote, Bool.or_eq_true, decide_eq_true_eq] at h
  rcases h with ((rfl | rfl) | rfl) | rfl
  all_goals exact one_le_charColumns (by decide +kernel)

theorem adds_of_selector {c : Char} {s : Selector} (h : selector? c = some s) :
    s.adds ≤ if widens c then 1 else 0 := by
  unfold selector? at h
  split_ifs at h with hemoji htext hfullwidth
  · rw [← Option.some.inj h, hemoji]
    decide
  · rw [← Option.some.inj h, htext]
    decide
  · rw [← Option.some.inj h, hfullwidth]
    decide

theorem zero_le_widening (c : Char) : (0 : Int) ≤ if widens c then 1 else 0 := by
  split <;> decide

/-- A character without an emoji form: one of the first characters, a selector, a character that a
selector behind it asks for another form of, or any other. -/
theorem Ahead.stepPlain_le (a : Ahead) (c : Char) :
    (a.stepPlain c).1 + (a.stepPlain c).2.owed
      ≤ charColumns c + (if widens c then 1 else 0) + a.owed := by
  have hfollower := a.follower.owed_nonneg
  have hselectors := a.selectors.owed_nonneg
  have howed : a.owed = a.follower.owed + a.selectors.owed := rfl
  have hnothing : Ahead.nothing.owed = 0 := rfl
  have hwidens := zero_le_widening c
  unfold stepPlain
  split
  · next hlatin =>
    have hone : (1 : Int) ≤ charColumns c + if widens c then 1 else 0 := by
      split
      · omega
      · next hnot =>
        have := one_le_of_le_nbsp hlatin (Bool.eq_false_of_not_eq_true hnot)
        omega
    have hfeed : Follower.lineFeed.ahead.owed = 0 := rfl
    split
    · dsimp only
      omega
    split
    · dsimp only
      omega
    · dsimp only
      omega
  next hlatin =>
  split
  · next s hs =>
    have := a.owed_behind s
    have := adds_of_selector hs
    dsimp only
    omega
  split
  · next htext =>
    rw [Bool.and_eq_true] at htext
    have := one_le_charColumns_of_apart apart_textVariationBase htext.2
    dsimp only
    omega
  split
  · next hquote =>
    rw [Bool.and_eq_true] at hquote
    have := one_le_of_isCurvedQuote hquote.2
    have := Selectors.one_le_owed (Or.inr hquote.1)
    dsimp only
    omega
  · have := a.follower.step_le (Char.not_le.mp hlatin)
    omega

/-- **What a character adds.**  The columns of a character, and those owed after it, are at most its
own width, one more if it widens the text, and what was owed before. -/
theorem Ahead.step_le (a : Ahead) (c : Char) :
    (a.step c).1 + (a.step c).2.owed
      ≤ charColumns c + (if widens c then 1 else 0) + a.owed := by
  have hwidens := zero_le_widening c
  unfold step
  split
  · next hbase =>
    rw [Bool.and_eq_true] at hbase
    have hcolumn := one_le_charColumns_of_apart apart_emojiVariationBase hbase.2
    have hfollower := a.follower.owed_nonneg
    have hselector := Selectors.one_le_owed (Or.inl hbase.1)
    have howed : a.owed = a.follower.owed + a.selectors.owed := rfl
    have hemoji : Follower.emoji.ahead.owed = 0 := rfl
    have htwo : (if a.follower.isJoinedEmoji = true then 0 else 2 : Int) ≤ 2 := by
      split <;> decide
    dsimp only
    omega
  · have := a.voidEmoji.stepPlain_le c
    have := a.owed_voidEmoji
    omega

/-! ### Texts -/

theorem scanWidth_le (cs : List Char) :
    (scanWidth cs).1 + (scanWidth cs).2.owed
      ≤ (cs.map charColumns).sum + cs.countP widens := by
  induction cs with
  | nil => decide
  | cons c cs ih =>
    have hstep := (scanWidth cs).2.step_le c
    rw [scanWidth_cons, List.map_cons, List.sum_cons, List.countP_cons]
    dsimp only
    split at hstep
    · next hc =>
      rw [if_pos hc]
      omega
    · next hc =>
      rw [if_neg hc]
      omega

/-- **A text is at most as wide as its characters, and a column more for each one that widens
it.** -/
theorem columns_le (cs : List Char) : columns cs ≤ (cs.map charColumns).sum + cs.countP widens := by
  have hscan := scanWidth_le cs
  have howed := (scanWidth cs).2.owed_nonneg
  unfold columns
  omega

/-! ### Pieces -/

/-- **By how much a piece can be wider than the budget:** by a column for each character that widens
it. -/
theorem columns_le_of_mem_pieces {max : Nat} {cs piece : List Char} (h : piece ∈ pieces max cs) :
    columns piece ≤ max + piece.countP widens ∨ ∃ c, piece = [c] := by
  rcases sum_le_of_mem_pieces h with hsum | ⟨c, hone, -⟩
  · have := columns_le piece
    left
    omega
  · exact Or.inr ⟨c, hone⟩

/-- A text that may be a piece is one. -/
theorem pieces_of_mayBePiece {max : Nat} {cs : List Char} (hne : cs ≠ []) (h : MayBePiece max cs) :
    pieces max cs = [cs] := by
  have hlength : (pieces max cs).length ≤ [cs].length := by
    refine (greedy_pieces max cs).length_le MayBePiece.of_append (by simpa using h) ?_
    rw [flatten_pieces, List.flatten_singleton]
  have hflatten := flatten_pieces max cs
  cases hpieces : pieces max cs with
  | nil => exact absurd hpieces (pieces_ne_nil hne)
  | cons p ps =>
    rw [hpieces, List.length_cons, List.length_singleton] at hlength
    have hnil : ps = [] := List.length_eq_zero_iff.mp (by omega)
    rw [hpieces, hnil, List.flatten_singleton] at hflatten
    rw [hflatten, hnil]

/-- Letters that fill the budget, and line feeds, which have no column of their own. -/
theorem exists_piece_beyond (max n : Nat) (h : 1 < max + n) :
    ∃ piece, pieces max piece = [piece] ∧ 1 < piece.length ∧ piece.countP widens = n
      ∧ columns piece = max + n := by
  have hletter : charColumns 'a' = 1 ∧ widens 'a' = false ∧ textColumns 'a' = 1 := by decide
  have hfeed : charColumns '\n' = 0 ∧ widens '\n' = true ∧ textColumns '\n' = 1 := by decide
  have hlength : (List.replicate max 'a' ++ List.replicate n '\n').length = max + n := by simp
  refine ⟨List.replicate max 'a' ++ List.replicate n '\n', ?_, ?_, ?_, ?_⟩
  · refine pieces_of_mayBePiece ?_ (Or.inl ?_)
    · rw [← List.length_pos_iff, hlength]
      omega
    · simp [hletter.1, hfeed.1]
  · omega
  · simp [List.countP_replicate, hletter.2.1, hfeed.2.1]
  · rw [additive_isPrintable.columns_eq]
    · simp [hletter.2.2, hfeed.2.2]
    · intro c hc
      rcases List.mem_append.mp hc with hc | hc
      · rw [List.eq_of_mem_replicate hc]
        exact Or.inl (by decide)
      · exact Or.inr (List.eq_of_mem_replicate hc)

/-- **How wide pieces are.**  A piece is a single character, or wider than the budget by no more
columns than it has control characters and selectors for wide forms; so the pieces of a text without
these are within the budget.  With them it is exceeded by any number of columns, whatever it is. -/
theorem columns_pieces_le (max : Nat) :
    (∀ cs, ∀ piece ∈ pieces max cs,
        columns piece ≤ max + piece.countP widens ∨ ∃ c, piece = [c])
      ∧ (∀ cs : List Char, (∀ c ∈ cs, widens c = false) → ∀ piece ∈ pieces max cs,
        columns piece ≤ max ∨ ∃ c, piece = [c])
      ∧ ∀ n, 1 < max + n → ∃ piece, pieces max piece = [piece] ∧ 1 < piece.length
        ∧ piece.countP widens = n ∧ columns piece = max + n := by
  refine ⟨fun cs piece hpiece => columns_le_of_mem_pieces hpiece, ?_, exists_piece_beyond max⟩
  intro cs hcs piece hpiece
  have hnone : piece.countP widens = 0 := by
    rw [List.countP_eq_zero]
    intro c hc
    rw [hcs c ((infix_of_mem_pieces hpiece).subset hc)]
    exact Bool.false_ne_true
  have hbound := columns_le_of_mem_pieces hpiece
  rwa [hnone, Nat.add_zero] at hbound

/-- Two telephones drawn as emoji make one piece of two columns, which is four columns wide, and
without the selectors they are within the budget. -/
theorem columns_pieces_of_emoji :
    ("☎\ufe0f☎\ufe0f".toList ∈ pieces 2 "☎\ufe0f☎\ufe0f".toList
        ∧ columns "☎\ufe0f☎\ufe0f".toList = 2 + "☎\ufe0f☎\ufe0f".toList.countP widens)
      ∧ (∀ c ∈ "☎☎☎".toList, widens c = false)
      ∧ ∀ piece ∈ pieces 2 "☎☎☎".toList, columns piece ≤ 2 ∨ ∃ c, piece = [c] := by
  have hplain : ∀ c ∈ "☎☎☎".toList, widens c = false := forall_mem_of_all (by decide)
  obtain ⟨-, hwithin, -⟩ := columns_pieces_le 2
  exact ⟨⟨by decide +kernel, by decide +kernel⟩, hplain, hwithin _ hplain⟩

/-- Two tabs are a piece of one column by their characters, and take two columns as a text. -/
theorem not_forall_columns_le :
    ¬ ∀ (max : Nat) (cs : List Char), ∀ piece ∈ pieces max cs,
      columns piece ≤ max ∨ ∃ c, piece = [c] := by
  intro h
  have hpiece : ['\t', '\t'] ∈ pieces 1 ['\t', '\t'] := by decide +kernel
  rcases h 1 _ _ hpiece with hle | ⟨c, hone⟩
  · exact absurd hle (by decide +kernel)
  · simp at hone

end FlowCanvas
