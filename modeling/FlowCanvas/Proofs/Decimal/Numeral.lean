import FlowCanvas.Decimal.Numeral
import FlowCanvas.Proofs.Text.Span
import Mathlib.Data.Nat.Digits.Defs

/-!
# The form of numerals

A numeral is a sign or none, and then a number or a name.  A number is digits with at most one point
before, among or behind them and maybe an exponent; the names are those of infinity and of what is
not a number, in letters of either case.  The reader of numerals finds out how a text is made up by
looking for the ends of its parts.  Here the parts are put together instead, and it is shown that
the reader accepts exactly the texts that come about in this way, with the numbers that their digits
are in base ten.

Each part must be found again where the next one begins: no digit or point begins an exponent
(`Exponent.stops`), no sign begins what stands behind a sign (`BehindSign.stops`), and no number
begins with a letter (`IsNamed.finite?_eq_none`).

## Main definitions

* `decimalValue ds` — the number that digits are in base ten.
* `Sign`, `Fraction`, `Exponent`, `Unsigned` — the parts of a numeral, and what they mean.
* `Spells cs n` — the text `cs` spells the numeral `n`.

## Main results

* `ofChars?_eq_some_iff` — **the reader of numerals reads exactly what spells a numeral.**
-/

namespace FlowCanvas.Numeral

/-! ### Digits -/

/-- Digits only. -/
def Digits (ds : List Char) : Prop := ∀ c ∈ ds, isDigit c

theorem digits_takeWhile (cs : List Char) : Digits (cs.takeWhile isDigit) :=
  fun _ hc => List.mem_takeWhile_imp hc

/-- The number that digits are in base ten. -/
def decimalValue (ds : List Char) : Nat := Nat.ofDigits 10 (ds.reverse.map digitValue)

theorem extend_zero (ds : List Char) : extend 0 ds = decimalValue ds := by
  rw [decimalValue, Nat.ofDigits_eq_foldr, List.foldr_map, List.foldr_reverse, extend]
  simp only [Nat.cast_id, Nat.add_comm]

theorem extend_extend (whole ds : List Char) :
    extend (extend 0 whole) ds = decimalValue (whole ++ ds) := by
  rw [← extend_zero, extend, extend, extend, List.foldl_append]

/-! ### The parts of a numeral -/

/-- A sign or nothing, and whether it is a minus. -/
inductive Sign : List Char → Bool → Prop
  | absent : Sign [] false
  | plus : Sign ['+'] false
  | minus : Sign ['-'] true

/-- A point with digits behind it, or nothing, and these digits. -/
inductive Fraction : List Char → List Char → Prop
  | absent : Fraction [] []
  | point {ds : List Char} (hds : Digits ds) : Fraction ('.' :: ds) ds

/-- A mark with a whole number behind it, or nothing, and this number or zero. -/
inductive Exponent : List Char → Int → Prop
  | absent : Exponent [] 0
  | mark {c : Char} {s ds : List Char} {negative : Bool} (hc : c = 'e' ∨ c = 'E')
      (hs : Sign s negative) (hne : ds ≠ []) (hds : Digits ds) :
      Exponent (c :: (s ++ ds)) (if negative then -(decimalValue ds : Int) else decimalValue ds)

/-- A number without a sign, which is `digits · 10 ^ e`. -/
inductive Unsigned : List Char → Nat → Int → Prop
  | mk {whole t ds x : List Char} {e : Int} (hwhole : Digits whole) (ht : Fraction t ds)
      (hne : whole ++ ds ≠ []) (hx : Exponent x e) :
      Unsigned (whole ++ (t ++ x)) (decimalValue (whole ++ ds)) (e - ds.length)

/-- A number or a name, behind a sign that has been read. -/
inductive BehindSign (negative : Bool) : List Char → Numeral → Prop
  | finite {cs : List Char} {digits : Nat} {e : Int} (h : Unsigned cs digits e) :
      BehindSign negative cs (.finite negative digits e)
  | infinite {cs : List Char} (h : cs.map Char.toLower = "inf".toList
      ∨ cs.map Char.toLower = "infinity".toList) : BehindSign negative cs (.infinite negative)
  | nan {cs : List Char} (h : cs.map Char.toLower = "nan".toList) : BehindSign negative cs .nan

/-- The text spells a numeral. -/
inductive Spells : List Char → Numeral → Prop
  | mk {s cs : List Char} {negative : Bool} {n : Numeral} (hs : Sign s negative)
      (h : BehindSign negative cs n) : Spells (s ++ cs) n

/-! ### Signs -/

/-- A sign. -/
def isSign (c : Char) : Bool := c = '+' || c = '-'

theorem isSign_iff {c : Char} : isSign c = true ↔ c = '+' ∨ c = '-' := by
  rw [isSign, Bool.or_eq_true, decide_eq_true_eq, decide_eq_true_eq]

theorem isSign_of_isDigit {c : Char} (h : isDigit c) : isSign c = false := by
  rw [← Bool.not_eq_true, isSign_iff]
  rintro (rfl | rfl) <;> exact absurd h (by decide)

theorem exists_sign (cs : List Char) :
    ∃ s, Sign s (splitSign cs).1 ∧ cs = s ++ (splitSign cs).2 := by
  unfold splitSign
  split
  · exact ⟨['-'], .minus, rfl⟩
  · exact ⟨['+'], .plus, rfl⟩
  · exact ⟨[], .absent, rfl⟩

/-- A sign is split off if no other one stands behind it. -/
theorem Sign.splitSign_append {s rest : List Char} {negative : Bool} (hs : Sign s negative)
    (hrest : Stops isSign rest) : splitSign (s ++ rest) = (negative, rest) := by
  cases hs with
  | absent =>
    rw [List.nil_append]
    unfold splitSign
    split
    · exact absurd (stops_cons.mp hrest) (by decide)
    · exact absurd (stops_cons.mp hrest) (by decide)
    · rfl
  | plus => rfl
  | minus => rfl

/-! ### Exponents -/

theorem exponent?_eq_some_iff {cs : List Char} {e : Int} :
    exponent? cs = some e ↔ Exponent cs e := by
  constructor
  · intro h
    cases cs with
    | nil =>
      cases Option.some.inj h
      exact .absent
    | cons c cs =>
      simp only [exponent?, Option.ite_none_right_eq_some, Option.ite_none_left_eq_some,
        Bool.or_eq_true, not_or, Bool.not_eq_true', Bool.not_eq_false, List.isEmpty_iff,
        List.all_eq_true, Option.some.injEq, extend_zero] at h
      obtain ⟨hc, ⟨hne, hds⟩, rfl⟩ := h
      obtain ⟨s, hs, hcs⟩ := exists_sign cs
      have := Exponent.mark hc hs hne hds
      rwa [← hcs] at this
  · rintro (_ | ⟨hc, hs, hne, hds⟩)
    · rfl
    · have hstops := stops_of_forall fun c hd => isSign_of_isDigit (hds c hd)
      rw [exponent?, if_pos hc]
      simp [hs.splitSign_append hstops, hne, List.all_eq_true.mpr hds, extend_zero]

/-- An exponent is told from digits and from a point by its mark. -/
theorem Exponent.stops {x : List Char} {e : Int} (hx : Exponent x e) :
    Stops (fun c => isDigit c || c = '.') x := by
  cases hx with
  | absent => exact stops_nil
  | mark hc =>
    rw [stops_cons]
    rcases hc with rfl | rfl <;> decide

/-! ### Numbers -/

theorem exists_fraction (cs : List Char) :
    ∃ t, Fraction t (splitFraction cs).1 ∧ cs = t ++ (splitFraction cs).2 := by
  unfold splitFraction
  split
  · next cs =>
    refine ⟨'.' :: cs.takeWhile isDigit, .point (digits_takeWhile cs), ?_⟩
    rw [List.cons_append, List.takeWhile_append_dropWhile]
  · exact ⟨[], .absent, rfl⟩

/-- A fraction is split off if neither another digit nor another point stands behind it. -/
theorem Fraction.splitFraction_append {t ds rest : List Char} (ht : Fraction t ds)
    (hrest : Stops (fun c => isDigit c || c = '.') rest) :
    splitFraction (t ++ rest) = (ds, rest) := by
  cases ht with
  | absent =>
    rw [List.nil_append]
    unfold splitFraction
    split
    · exact absurd (stops_cons.mp hrest) (by decide)
    · rfl
  | point hds =>
    rw [List.cons_append, splitFraction, takeWhile_append_of_stops hds hrest.of_or,
      dropWhile_append_of_stops hds hrest.of_or]

theorem Fraction.stops {t ds rest : List Char} (ht : Fraction t ds) (hrest : Stops isDigit rest) :
    Stops isDigit (t ++ rest) := by
  cases ht with
  | absent => exact hrest
  | point => exact stops_cons.mpr (by decide)

theorem finite?_eq_some_iff {negative : Bool} {cs : List Char} {n : Numeral} :
    finite? negative cs = some n
      ↔ ∃ digits e, Unsigned cs digits e ∧ n = .finite negative digits e := by
  constructor
  · intro h
    simp only [finite?, Option.ite_none_left_eq_some, Option.map_eq_some_iff, Bool.and_eq_true,
      List.isEmpty_iff, extend_extend] at h
    obtain ⟨hne, e, he, rfl⟩ := h
    obtain ⟨t, ht, hcs⟩ := exists_fraction (cs.dropWhile isDigit)
    have := Unsigned.mk (digits_takeWhile cs) ht (by rwa [ne_eq, List.append_eq_nil_iff])
      (exponent?_eq_some_iff.mp he)
    rw [← hcs, List.takeWhile_append_dropWhile] at this
    exact ⟨_, _, this, rfl⟩
  · rintro ⟨_, _, ⟨hwhole, ht, hne, hx⟩, rfl⟩
    have hstops := ht.stops hx.stops.of_or
    rw [ne_eq, List.append_eq_nil_iff] at hne
    simp [finite?, takeWhile_append_of_stops hwhole hstops, dropWhile_append_of_stops hwhole hstops,
      ht.splitFraction_append hx.stops, exponent?_eq_some_iff.mpr hx, extend_extend, hne]

/-- A number begins with a digit or a point. -/
theorem Unsigned.exists_cons {cs : List Char} {digits : Nat} {e : Int} (h : Unsigned cs digits e) :
    ∃ c rest, cs = c :: rest ∧ (isDigit c ∨ c = '.') := by
  obtain @⟨whole, _, _, _, _, hwhole, ht, hne, -⟩ := h
  cases whole with
  | nil =>
    cases ht with
    | absent => exact absurd rfl hne
    | point => exact ⟨_, _, rfl, Or.inr rfl⟩
  | cons c whole => exact ⟨c, _, rfl, Or.inl (hwhole c List.mem_cons_self)⟩

/-! ### Names -/

/-- A name of infinity or of what is not a number. -/
def IsNamed (cs : List Char) : Prop :=
  cs.map Char.toLower = "inf".toList ∨ cs.map Char.toLower = "infinity".toList
    ∨ cs.map Char.toLower = "nan".toList

theorem isWord_iff {word : String} {cs : List Char} :
    isWord word cs = true ↔ cs.map Char.toLower = word.toList := decide_eq_true_iff

theorem isInfinity_iff {cs : List Char} : isInfinity cs = true
    ↔ cs.map Char.toLower = "inf".toList ∨ cs.map Char.toLower = "infinity".toList := by
  rw [isInfinity, Bool.or_eq_true, isWord_iff, isWord_iff]

/-- What stands before the letters is not changed into a small letter. -/
theorem toLower_of_lt {c : Char} (h : c < 'A') : c.toLower = c := by
  unfold Char.toLower
  rw [dif_neg fun hletter => ?_]
  exact absurd hletter.1 (UInt32.not_le.mpr h)

theorem lt_of_isDigit {c : Char} (h : isDigit c) : c < 'A' := by
  rw [isDigit, Bool.and_eq_true, decide_eq_true_eq, decide_eq_true_eq] at h
  exact UInt32.lt_of_le_of_lt h.2 (by decide)

/-- A text that is a word in letters of either case does not begin with what stands before the
letters. -/
theorem exists_cons_of_word {cs word : List Char} {d : Char}
    (h : cs.map Char.toLower = d :: word) (hd : ¬ d < 'A') :
    ∃ c rest, cs = c :: rest ∧ ¬ c < 'A' := by
  obtain ⟨c, rest, rfl, rfl, -⟩ := List.map_eq_cons_iff.mp h
  refine ⟨c, rest, rfl, fun hc => ?_⟩
  rw [toLower_of_lt hc] at hd
  exact hd hc

theorem IsNamed.exists_cons {cs : List Char} (h : IsNamed cs) :
    ∃ c rest, cs = c :: rest ∧ ¬ c < 'A' := by
  rcases h with h | h | h
  · exact exists_cons_of_word h (by decide)
  · exact exists_cons_of_word h (by decide)
  · exact exists_cons_of_word h (by decide)

/-- A name is no number. -/
theorem IsNamed.finite?_eq_none {cs : List Char} (h : IsNamed cs) (negative : Bool) :
    finite? negative cs = none := by
  rw [Option.eq_none_iff_forall_ne_some]
  intro n hn
  obtain ⟨_, _, hcs, -⟩ := finite?_eq_some_iff.mp hn
  obtain ⟨c, _, rfl, hc⟩ := hcs.exists_cons
  obtain ⟨_, _, heq, hletter⟩ := h.exists_cons
  obtain ⟨rfl, -⟩ := List.cons.inj heq
  rcases hc with hc | rfl
  · exact hletter (lt_of_isDigit hc)
  · exact hletter (by decide)

/-! ### Numerals -/

theorem ofUnsigned?_eq_some_iff {negative : Bool} {cs : List Char} {n : Numeral} :
    ofUnsigned? negative cs = some n ↔ BehindSign negative cs n := by
  unfold ofUnsigned?
  rw [Option.orElse_eq_orElse, Option.orElse_eq_or]
  constructor
  · intro h
    rcases Option.or_eq_some_iff.mp h with h | ⟨-, h⟩
    · obtain ⟨_, _, hcs, rfl⟩ := finite?_eq_some_iff.mp h
      exact .finite hcs
    split_ifs at h with hinf hnan
    · cases h
      exact .infinite (isInfinity_iff.mp hinf)
    · cases h
      exact .nan (isWord_iff.mp hnan)
  · rintro (h | h | h)
    · rw [finite?_eq_some_iff.mpr ⟨_, _, h, rfl⟩, Option.some_or]
    · have hname : IsNamed cs := h.imp_right Or.inl
      rw [hname.finite?_eq_none, Option.none_or, if_pos (isInfinity_iff.mpr h)]
    · have hname : IsNamed cs := Or.inr (Or.inr h)
      have hinf : ¬ isInfinity cs = true := by
        rw [isInfinity_iff, h]
        decide
      rw [hname.finite?_eq_none, Option.none_or, if_neg hinf, if_pos (isWord_iff.mpr h)]

/-- No other sign stands behind a sign. -/
theorem BehindSign.stops {negative : Bool} {cs : List Char} {n : Numeral}
    (h : BehindSign negative cs n) : Stops isSign cs := by
  have hname : IsNamed cs → Stops isSign cs := fun h => by
    obtain ⟨c, _, rfl, hc⟩ := h.exists_cons
    rw [stops_cons, ← Bool.not_eq_true, isSign_iff]
    rintro (rfl | rfl) <;> exact hc (by decide)
  cases h with
  | finite h =>
    obtain ⟨c, _, rfl, hc⟩ := h.exists_cons
    rw [stops_cons]
    rcases hc with hc | rfl
    · exact isSign_of_isDigit hc
    · decide
  | infinite h => exact hname (h.imp_right Or.inl)
  | nan h => exact hname (Or.inr (Or.inr h))

/-- **The reader of numerals reads exactly what spells a numeral.** -/
theorem ofChars?_eq_some_iff {cs : List Char} {n : Numeral} :
    ofChars? cs = some n ↔ Spells cs n := by
  unfold ofChars?
  constructor
  · intro h
    obtain ⟨s, hs, hcs⟩ := exists_sign cs
    rw [hcs]
    exact .mk hs (ofUnsigned?_eq_some_iff.mp h)
  · rintro ⟨hs, h⟩
    simp only [hs.splitSign_append h.stops]
    exact ofUnsigned?_eq_some_iff.mpr h

end FlowCanvas.Numeral
