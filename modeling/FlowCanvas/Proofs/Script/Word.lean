import FlowCanvas.Proofs.Decimal.Numeral
import FlowCanvas.Script.Line

/-!
# What the readers of words take

Each reader of `Script.Word` takes its share from the beginning of a text.  Here it is said for each
of them exactly which texts it takes something from, and what: a reader takes a word exactly if the
word stands there and ends there.

A number is taken as the longest word, and so the word that a number is must not contain what ends
words (`inWord_of_number`).  This is seen from the form of numerals, which is that of numbers here
(`numeral?_eq_some_iff`).  The readers of gaps take as much as there is, and so something else must
follow.

## Main definitions

* `IsGap g` — spaces and tabs only.
* `Number w x` — the word `w` is a number, and `x` is the double that it stands for.
* `LineEnd e rest` — the text `e` ends a line, and `rest` stands on the lines after it.

## Main results

* `numeral?_eq_some_iff` — which words are numbers.
* `gap_eq_some`, `number_eq_some`, `lineEnd_eq_some`, `endOfLine_eq_some` — what each reader takes.
-/

namespace FlowCanvas.Script

/-! ### Gaps -/

/-- Spaces and tabs only. -/
def IsGap (g : List Char) : Prop := ∀ c ∈ g, isGap c

theorem isGap_nil : IsGap [] := fun _ h => absurd h List.not_mem_nil

/-- Skipping a gap takes it as a whole if it ends there. -/
theorem skipGap_append {g cs : List Char} (hg : IsGap g) (hcs : Stops isGap cs) :
    skipGap (g ++ cs) = cs :=
  dropWhile_append_of_stops hg hcs

/-- What is skipped is a gap, and it ends there. -/
theorem exists_skipGap (cs : List Char) :
    ∃ g, IsGap g ∧ cs = g ++ skipGap cs ∧ Stops isGap (skipGap cs) :=
  ⟨cs.takeWhile isGap, fun _ hc => List.mem_takeWhile_imp hc, List.takeWhile_append_dropWhile.symm,
    stops_dropWhile isGap cs⟩

theorem skipGap_eq_nil_iff {cs : List Char} : skipGap cs = [] ↔ IsGap cs :=
  List.dropWhile_eq_nil_iff

theorem gap_eq_some {cs rest : List Char} :
    gap cs = some rest ↔ ∃ g, g ≠ [] ∧ IsGap g ∧ cs = g ++ rest ∧ Stops isGap rest := by
  constructor
  · intro h
    cases cs with
    | nil => simp [gap] at h
    | cons c cs =>
      simp only [gap, Option.ite_none_right_eq_some, Option.some.injEq] at h
      obtain ⟨hc, rfl⟩ := h
      obtain ⟨g, hg, hcs, hstop⟩ := exists_skipGap cs
      refine ⟨c :: g, List.cons_ne_nil _ _, ?_, ?_, hstop⟩
      · exact List.forall_mem_cons.mpr ⟨hc, hg⟩
      · rw [List.cons_append, ← hcs]
  · rintro ⟨g, hne, hg, rfl, hstop⟩
    cases g with
    | nil => exact absurd rfl hne
    | cons c g =>
      obtain ⟨hc, hg⟩ := List.forall_mem_cons.mp hg
      rw [List.cons_append, gap, if_pos hc, skipGap_append hg hstop]

theorem ne_of_isGap {c d : Char} (hc : isGap c) (hd : isGap d = false) : c ≠ d := by
  rintro rfl
  rw [hd] at hc
  exact Bool.false_ne_true hc

theorem notMem_of_isGap {g : List Char} (hg : IsGap g) {d : Char} (hd : isGap d = false) :
    d ∉ g := fun h => ne_of_isGap (hg d h) hd rfl

/-- A line that is not blank has something else in it than gaps. -/
theorem not_isGap_append_cons {g l : List Char} {c : Char} (hc : isGap c = false) :
    ¬ IsGap (g ++ c :: l) := fun h =>
  notMem_of_isGap h hc (List.mem_append_right g List.mem_cons_self)

/-! ### Numbers -/

/-- The word `w` is a number, and `x` is the double that it stands for. -/
def Number (w : List Char) (x : Float) : Prop := ∃ n, numeral? w = some n ∧ n.toFloat = x

/-- Words end at spaces, tabs and the signs for the end of a line. -/
theorem inWord_eq_false_iff {c : Char} :
    inWord c = false ↔ c = ' ' ∨ c = '\t' ∨ c = '\r' ∨ c = '\n' := by
  simp only [inWord, isGap, Bool.and_eq_false_iff, Bool.not_eq_false', Bool.or_eq_true,
    decide_eq_true_eq, decide_eq_false_iff_not, ne_eq, Decidable.not_not, or_assoc]

theorem inWord_of_isDigit {c : Char} (h : Numeral.isDigit c) : inWord c := by
  by_contra hc
  rw [Bool.not_eq_true, inWord_eq_false_iff] at hc
  rcases hc with rfl | rfl | rfl | rfl <;> exact absurd h (by decide)

theorem inWord_of_sign {s : List Char} {negative : Bool} (h : Numeral.Sign s negative) :
    ∀ c ∈ s, inWord c := by
  cases h with
  | absent => exact fun _ hc => absurd hc List.not_mem_nil
  | plus => exact forall_mem_of_all (by decide)
  | minus => exact forall_mem_of_all (by decide)

theorem inWord_of_digits {ds : List Char} (h : Numeral.Digits ds) : ∀ c ∈ ds, inWord c :=
  fun c hc => inWord_of_isDigit (h c hc)

theorem inWord_of_fraction {t ds : List Char} (h : Numeral.Fraction t ds) :
    ∀ c ∈ t, inWord c := by
  cases h with
  | absent => exact fun _ hc => absurd hc List.not_mem_nil
  | point hds => exact List.forall_mem_cons.mpr ⟨by decide, inWord_of_digits hds⟩

theorem inWord_of_exponent {x : List Char} {e : Int} (h : Numeral.Exponent x e) :
    ∀ c ∈ x, inWord c := by
  cases h with
  | absent => exact fun _ hc => absurd hc List.not_mem_nil
  | mark hc hs _ hds =>
    refine List.forall_mem_cons.mpr ⟨?_, ?_⟩
    · rcases hc with rfl | rfl <;> decide
    · exact List.forall_mem_append.mpr ⟨inWord_of_sign hs, inWord_of_digits hds⟩

theorem inWord_of_unsigned {cs : List Char} {digits : Nat} {e : Int}
    (h : Numeral.Unsigned cs digits e) : ∀ c ∈ cs, inWord c := by
  obtain ⟨hwhole, ht, -, hx⟩ := h
  rw [List.forall_mem_append, List.forall_mem_append]
  exact ⟨inWord_of_digits hwhole, inWord_of_fraction ht, inWord_of_exponent hx⟩

/-- A word in letters of either case consists of characters of words. -/
theorem inWord_of_map_toLower {cs word : List Char} (h : cs.map Char.toLower = word)
    (hword : ∀ c ∈ word, inWord c) : ∀ c ∈ cs, inWord c := by
  intro c hc
  by_contra hstop
  rw [Bool.not_eq_true, inWord_eq_false_iff] at hstop
  have hlower : c.toLower ∈ word := h ▸ List.mem_map_of_mem hc
  have := hword _ hlower
  rcases hstop with rfl | rfl | rfl | rfl <;> exact absurd this (by decide)

/-- A numeral has nothing in it that ends words. -/
theorem inWord_of_spells {w : List Char} {n : Numeral} (h : Numeral.Spells w n) :
    ∀ c ∈ w, inWord c := by
  obtain ⟨hs, h⟩ := h
  refine List.forall_mem_append.mpr ⟨inWord_of_sign hs, ?_⟩
  cases h with
  | finite h => exact inWord_of_unsigned h
  | infinite h =>
    rcases h with h | h
    · exact inWord_of_map_toLower h (forall_mem_of_all (by decide))
    · exact inWord_of_map_toLower h (forall_mem_of_all (by decide))
  | nan h => exact inWord_of_map_toLower h (forall_mem_of_all (by decide))

/-- **A word is a number if it spells one**, where the name of what is not a number has no sign. -/
theorem numeral?_eq_some_iff {w : List Char} {n : Numeral} :
    numeral? w = some n
      ↔ Numeral.Spells w n ∧ (n = .nan → w.map Char.toLower = "nan".toList) := by
  rw [numeral?, Option.filter_eq_some_iff, Numeral.ofChars?_eq_some_iff, Bool.or_eq_true,
    Numeral.isWord_iff, decide_eq_true_eq]
  exact and_congr_right fun _ => imp_iff_not_or.symm

/-- A number has nothing in it that ends words. -/
theorem inWord_of_number {w : List Char} {x : Float} (h : Number w x) : ∀ c ∈ w, inWord c := by
  obtain ⟨n, hn, -⟩ := h
  exact inWord_of_spells (numeral?_eq_some_iff.mp hn).1

/-- A number has characters. -/
theorem ne_nil_of_number {w : List Char} {x : Float} (h : Number w x) : w ≠ [] := by
  rintro rfl
  obtain ⟨n, hn, -⟩ := h
  exact absurd hn.symm (Option.some_ne_none n)

/-- A word and what ends it: a character that ends words ends no gap. -/
theorem not_isGap_of_inWord {c : Char} (h : inWord c) : isGap c = false := by
  unfold inWord at h
  rw [Bool.and_eq_true, Bool.and_eq_true, Bool.not_eq_true'] at h
  exact h.1.1

/-- Words end where a gap begins. -/
theorem stops_inWord_of_isGap {g : List Char} (hg : IsGap g) : Stops inWord g :=
  stops_of_forall fun c hc => by
    rw [inWord, hg c hc, Bool.not_true, Bool.false_and, Bool.false_and]

theorem stops_inWord_append {g rest : List Char} (hg : IsGap g) (hrest : Stops inWord rest) :
    Stops inWord (g ++ rest) := by
  by_cases hne : g = []
  · rwa [hne, List.nil_append]
  · exact (stops_inWord_of_isGap hg).append hne

/-- A gap ends where a number begins. -/
theorem stops_isGap_of_number {w : List Char} {x : Float} (h : Number w x) (cs : List Char) :
    Stops isGap (w ++ cs) :=
  (stops_of_forall fun c hc => not_isGap_of_inWord (inWord_of_number h c hc)).append
    (ne_nil_of_number h)

theorem number_eq_some {cs rest : List Char} {x : Float} :
    number cs = some (x, rest) ↔ ∃ w, Number w x ∧ cs = w ++ rest ∧ Stops inWord rest := by
  simp only [number, Option.map_eq_some_iff, Prod.mk.injEq]
  constructor
  · rintro ⟨n, hn, hx, rfl⟩
    exact ⟨cs.takeWhile inWord, ⟨n, hn, hx⟩, List.takeWhile_append_dropWhile.symm,
      stops_dropWhile inWord cs⟩
  · rintro ⟨w, hw, rfl, hstop⟩
    obtain ⟨n, hn, hx⟩ := hw
    rw [takeWhile_append_of_stops (inWord_of_number ⟨n, hn, hx⟩) hstop,
      dropWhile_append_of_stops (inWord_of_number ⟨n, hn, hx⟩) hstop]
    exact ⟨n, hn, hx, rfl⟩

/-! ### The end of a line -/

/-- The text `e` ends a line, and `rest` stands on the lines after it. -/
inductive LineEnd : (e rest : List Char) → Prop
  /-- A line feed. -/
  | feed (rest : List Char) : LineEnd ['\n'] rest
  /-- A carriage return and a line feed. -/
  | returnFeed (rest : List Char) : LineEnd ['\r', '\n'] rest
  /-- The end of the whole text. -/
  | whole : LineEnd [] []

theorem lineEnd_eq_some {cs rest : List Char} :
    lineEnd cs = some rest ↔ cs = '\n' :: rest ∨ cs = '\r' :: '\n' :: rest := by
  constructor
  · intro h
    unfold lineEnd at h
    split at h
    · exact Or.inl (by rw [Option.some.inj h])
    · exact Or.inr (by rw [Option.some.inj h])
    · exact absurd h.symm (Option.some_ne_none rest)
  · rintro (rfl | rfl) <;> rfl

theorem lineEnd_eq_none {c : Char} {cs : List Char} (hfeed : c ≠ '\n') (hreturn : c ≠ '\r') :
    lineEnd (c :: cs) = none := by
  rw [Option.eq_none_iff_forall_ne_some]
  intro rest h
  rcases lineEnd_eq_some.mp h with h | h
  · exact hfeed (List.cons.inj h).1
  · exact hreturn (List.cons.inj h).1

/-- Words and gaps both end at the end of a line. -/
theorem LineEnd.stops {p : Char → Bool} (hfeed : p '\n' = false) (hreturn : p '\r' = false)
    {e rest : List Char} (h : LineEnd e rest) : Stops p (e ++ rest) := by
  cases h with
  | feed => exact stops_cons.mpr hfeed
  | returnFeed => exact stops_cons.mpr hreturn
  | whole => exact stops_nil

theorem endOfLine_eq_some {cs rest : List Char} :
    endOfLine cs = some rest ↔ ∃ g e, IsGap g ∧ LineEnd e rest ∧ cs = g ++ e ++ rest := by
  constructor
  · intro h
    obtain ⟨g, hg, hcs, -⟩ := exists_skipGap cs
    unfold endOfLine at h
    split at h
    · next hskip =>
      cases h
      rw [hskip] at hcs
      exact ⟨g, [], hg, .whole, by rw [hcs, List.append_nil, List.append_nil]⟩
    · next hskip =>
      rw [hskip] at hcs
      rcases lineEnd_eq_some.mp h with he | he
      · exact ⟨g, ['\n'], hg, .feed rest, by rw [hcs, he]; simp⟩
      · exact ⟨g, ['\r', '\n'], hg, .returnFeed rest, by rw [hcs, he]; simp⟩
  · rintro ⟨g, e, hg, he, rfl⟩
    have hskip : skipGap (g ++ e ++ rest) = e ++ rest := by
      rw [List.append_assoc]
      exact skipGap_append hg (he.stops (by decide) (by decide))
    unfold endOfLine
    rw [hskip]
    cases he with
    | feed => rfl
    | returnFeed => rfl
    | whole => rfl

end FlowCanvas.Script
