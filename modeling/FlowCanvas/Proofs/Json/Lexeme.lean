import FlowCanvas.Json.Lexeme
import FlowCanvas.Proofs.Text.Span
import Mathlib.Algebra.Group.Int.Defs
import Mathlib.Algebra.Group.Nat.Defs
import Mathlib.Data.List.Basic
import Mathlib.Tactic.SplitIfs

/-!
# Strings and numbers that are read back

A string is written with escapes where it needs them, and reading it gives the same string back,
whatever characters it has.  A whole number is written with all its digits; it is read back if it
fits into 64 bits and if what stands behind it does not go on with it.

## Main definitions

* `continuesNumber` — a character that would go on with a number.
* `IsWhole64` — a whole number that fits into 64 bits, with or without a sign.
* `IsNumber` — a value that is such a number, or one that is not whole.

## Main results

* `readString_quoted` — **a string that has been written is read back.**
* `readNumber_toDigits` — **a whole number that has been written is read back.**
* `isNumber_of_readNumber` — a whole number that is read fits into 64 bits.
-/

namespace FlowCanvas.Json

/-! ### Results -/

/-- Two steps that succeed. -/
theorem bind_eq_ok {ε α β : Type} {x : Except ε α} {f : α → Except ε β} {b : β} :
    (x >>= f) = .ok b ↔ ∃ a, x = .ok a ∧ f a = .ok b := by
  cases x with
  | error e =>
    constructor
    · intro h
      cases h
    · rintro ⟨a, h, -⟩
      cases h
  | ok a =>
    constructor
    · intro h
      exact ⟨a, rfl, h⟩
    · rintro ⟨a', h, hf⟩
      cases h
      exact hf

@[simp] theorem ok_bind {α β : Type} (a : α) (f : α → Result β) :
    ((Except.ok a : Result α) >>= f) = f a := rfl

/-! ### Strings -/

theorem readString_close (cs : List Char) : readString ('"' :: cs) = .ok ([], cs) := by
  rw [readString.eq_def]
  simp

theorem readString_plain {c : Char} (hquote : c ≠ '"') (hback : c ≠ '\\') (hcontrol : ¬ c < ' ')
    (cs : List Char) : readString (c :: cs) = consRead c (readString cs) := by
  rw [readString.eq_def]
  simp [hquote, hback, hcontrol]

theorem readString_escape {e c : Char} (h : unescape? e = some c) (cs : List Char) :
    readString ('\\' :: e :: cs) = consRead c (readString cs) := by
  have he : e ≠ 'u' := by
    rintro rfl
    simp [unescape?] at h
  rw [readString.eq_def]
  simp [he, h]

/-- An escape by number that is not half of a pair. -/
theorem readString_number {a b c d : Char} {n : Nat} (h : hexNumber? a b c d = some n)
    (hlow : isLowSurrogate n = false) (hhigh : isHighSurrogate n = false) (cs : List Char) :
    readString ('\\' :: 'u' :: a :: b :: c :: d :: cs)
      = consRead (Char.ofNat n) (readString cs) := by
  rw [readString.eq_def]
  simp [h, hlow, hhigh]

/-- The four digits of a control in an escape are read as its number. -/
theorem hexNumber?_of_lt {n : Nat} (h : n < 32) :
    hexNumber? '0' '0' (hexDigit (n / 16)) (hexDigit (n % 16)) = some n := by
  have hall : ∀ n < 32, hexNumber? '0' '0' (hexDigit (n / 16)) (hexDigit (n % 16)) = some n := by
    decide
  exact hall n h

/-- A character that has been written is read back. -/
theorem readString_escapeChar (c : Char) (cs : List Char) :
    readString (escapeChar c ++ cs) = consRead c (readString cs) := by
  unfold escapeChar
  split_ifs with hquote hback hb hf hn hr ht hcontrol
  · rw [hquote]
    exact readString_escape rfl cs
  · rw [hback]
    exact readString_escape rfl cs
  · rw [hb]
    exact readString_escape rfl cs
  · rw [hf]
    exact readString_escape rfl cs
  · rw [hn]
    exact readString_escape rfl cs
  · rw [hr]
    exact readString_escape rfl cs
  · rw [ht]
    exact readString_escape rfl cs
  · -- A control is written by its number, which is not half of a pair.
    have hlt : c.toNat < 32 := hcontrol
    have hlow : isLowSurrogate c.toNat = false := by
      unfold isLowSurrogate
      simp only [Bool.and_eq_false_iff, decide_eq_false_iff_not]
      omega
    have hhigh : isHighSurrogate c.toNat = false := by
      unfold isHighSurrogate
      simp only [Bool.and_eq_false_iff, decide_eq_false_iff_not]
      omega
    have hread := readString_number (hexNumber?_of_lt hlt) hlow hhigh cs
    rwa [Char.ofNat_toNat] at hread
  · exact readString_plain hquote hback hcontrol cs

/-- **A string that has been written is read back.** -/
theorem readString_quoted (cs rest : List Char) :
    readString (cs.flatMap escapeChar ++ '"' :: rest) = .ok (cs, rest) := by
  induction cs with
  | nil => exact readString_close rest
  | cons c cs ih =>
    rw [List.flatMap_cons, List.append_assoc, readString_escapeChar, ih]
    rfl

/-! ### Digits -/

theorem isDigit_eq (c : Char) : Numeral.isDigit c = c.isDigit := by
  unfold Numeral.isDigit Char.isDigit
  simp [Char.le_def, ge_iff_le]

theorem isDigit_of_mem_toDigits {n : Nat} {c : Char} (h : c ∈ Nat.toDigits 10 n) :
    Numeral.isDigit c = true := by
  rw [isDigit_eq]
  exact Nat.isDigit_of_mem_toDigits (by decide) (by decide) h

/-- A number other than zero does not begin with the digit zero. -/
theorem head?_toDigits_ne {n : Nat} (h : n ≠ 0) : (Nat.toDigits 10 n).head? ≠ some '0' := by
  induction n using Nat.strong_induction_on with
  | _ n ih =>
    by_cases hn : n < 10
    · rw [Nat.toDigits_of_lt_base hn, List.head?_cons]
      intro hzero
      exact h (Nat.digitChar_eq_zero.mp (Option.some.inj hzero))
    · have hdiv : n / 10 ≠ 0 := by omega
      rw [Nat.toDigits_of_base_le (by decide) (Nat.not_lt.mp hn),
        List.head?_append_of_ne_nil _ Nat.toDigits_ne_nil]
      exact ih (n / 10) (by omega) hdiv

theorem takeDigits_append {m k : Nat} {ds : List Char} (h : takeDigits m ds = (k, 0))
    (es : List Char) : takeDigits m (ds ++ es) = takeDigits k es := by
  induction ds generalizing m with
  | nil =>
    rw [takeDigits, Prod.mk.injEq] at h
    rw [List.nil_append, h.1]
  | cons d ds ih =>
    rw [takeDigits] at h
    rw [List.cons_append, takeDigits]
    split at h
    · next hlt => rw [if_pos hlt, ih h]
    · rw [Prod.mk.injEq] at h
      omega

/-- The digits of a number that fits are taken up as the number. -/
theorem takeDigits_toDigits {n : Nat} (h : n < 2 ^ 64) :
    takeDigits 0 (Nat.toDigits 10 n) = (n, 0) := by
  have hone : ∀ m d, d < 10 → m * 10 + d < 2 ^ 64 →
      takeDigits m [Nat.digitChar d] = (m * 10 + d, 0) := by
    intro m d hd hlt
    have hvalue : Numeral.digitValue (Nat.digitChar d) = d :=
      Nat.toNat_digitChar_sub_48_of_lt_ten hd
    have hfits : m * 10 + d < Nat.pow 2 64 := hlt
    rw [takeDigits, hvalue, if_pos hfits, takeDigits]
  induction n using Nat.strong_induction_on with
  | _ n ih =>
    by_cases hn : n < 10
    · rw [Nat.toDigits_of_lt_base hn, hone 0 n hn (by omega), Nat.zero_mul, Nat.zero_add]
    · have hrest := ih (n / 10) (by omega) (by omega)
      rw [Nat.toDigits_of_base_le (by decide) (Nat.not_lt.mp hn), takeDigits_append hrest,
        hone (n / 10) (n % 10) (by omega) (by omega), Nat.mul_comm, Nat.div_add_mod]

/-! ### Numbers -/

/-- A character that would go on with a number. -/
def continuesNumber (c : Char) : Bool := Numeral.isDigit c || c = '.' || c = 'e' || c = 'E'

/-- A whole number that fits into 64 bits, with or without a sign. -/
def IsWhole64 (n : Int) : Prop := -2 ^ 63 ≤ n ∧ n < 2 ^ 64

theorem stops_isDigit {rest : List Char} (h : Stops continuesNumber rest) :
    Stops Numeral.isDigit rest := by
  intro c hc
  have := h c hc
  unfold continuesNumber at this
  simp only [Bool.or_eq_false_iff] at this
  exact this.1.1.1

/-- A whole part behind which nothing goes on with the number is the number. -/
theorem readAfterWhole_of_stops {rest : List Char} (h : Stops continuesNumber rest)
    (negative : Bool) (n : Nat) :
    readAfterWhole negative n 0 rest = .ok (wholeNumber negative n, rest) := by
  cases rest with
  | nil => rfl
  | cons c rest =>
    rw [stops_cons] at h
    unfold continuesNumber at h
    simp only [Bool.or_eq_false_iff, decide_eq_false_iff_not] at h
    obtain ⟨⟨⟨-, hpoint⟩, he⟩, hE⟩ := h
    unfold readAfterWhole
    split
    · next heq => exact absurd (List.cons.inj heq).1 hpoint
    · next heq => exact absurd (List.cons.inj heq).1 he
    · next heq => exact absurd (List.cons.inj heq).1 hE
    · rw [if_pos rfl]

/-- The digits of a number that does not begin with zero are its whole part. -/
theorem readNumber_cons {c : Char} (hzero : c ≠ '0') (hdigit : Numeral.isDigit c = true)
    (negative : Bool) (cs : List Char) :
    readNumber negative (c :: cs)
      = readAfterWhole negative (takeDigits 0 (c :: cs.takeWhile Numeral.isDigit)).1
          (takeDigits 0 (c :: cs.takeWhile Numeral.isDigit)).2
          (cs.dropWhile Numeral.isDigit) := by
  unfold readNumber
  simp [hzero, hdigit]

/-- A zero that no digit follows is the whole part. -/
theorem readNumber_zero {rest : List Char} (h : Stops Numeral.isDigit rest) (negative : Bool) :
    readNumber negative ('0' :: rest) = readAfterWhole negative 0 0 rest := by
  unfold readNumber
  cases rest with
  | nil => simp
  | cons d ds =>
    rw [stops_cons] at h
    simp [h]

/-- **A whole number that has been written is read back.** -/
theorem readNumber_toDigits {n : Nat} (hn : n < 2 ^ 64) {rest : List Char}
    (h : Stops continuesNumber rest) (negative : Bool) :
    readNumber negative (Nat.toDigits 10 n ++ rest) = .ok (wholeNumber negative n, rest) := by
  have hstop := stops_isDigit h
  by_cases hzero : n = 0
  · rw [hzero, Nat.toDigits_zero, List.singleton_append, readNumber_zero hstop]
    exact readAfterWhole_of_stops h negative 0
  · have hhead := head?_toDigits_ne hzero
    have hdigits : ∀ c ∈ Nat.toDigits 10 n, Numeral.isDigit c = true := fun c hc =>
      isDigit_of_mem_toDigits hc
    have htake := takeDigits_toDigits hn
    cases hchars : Nat.toDigits 10 n with
    | nil => exact absurd hchars Nat.toDigits_ne_nil
    | cons c cs =>
      rw [hchars] at hhead hdigits htake
      have hc : c ≠ '0' := fun hc => hhead (by rw [hc, List.head?_cons])
      obtain ⟨hdigit, hdigits⟩ := List.forall_mem_cons.mp hdigits
      rw [List.cons_append, readNumber_cons hc hdigit, takeWhile_append_of_stops hdigits hstop,
        dropWhile_append_of_stops hdigits hstop, htake]
      exact readAfterWhole_of_stops h negative n

/-! ### Numbers that are read -/

/-- A whole number that fits into 64 bits, or any other number. -/
def IsNumber : Json → Prop
  | .int n => IsWhole64 n
  | .real _ => True
  | _ => False

theorem takeDigits_lt {n : Nat} (h : n < 2 ^ 64) (ds : List Char) :
    (takeDigits n ds).1 < 2 ^ 64 := by
  induction ds generalizing n with
  | nil => exact h
  | cons d ds ih =>
    rw [takeDigits]
    split
    · next hlt => exact ih hlt
    · exact h

theorem isNumber_wholeNumber {n : Nat} (h : n < 2 ^ 64) (negative : Bool) :
    IsNumber (wholeNumber negative n) := by
  unfold wholeNumber
  split_ifs with hsign hreal
  · constructor <;> omega
  · trivial
  · have hle : ¬ 2 ^ 63 < n := by
      intro hlt
      apply hreal
      simp only [Bool.or_eq_true, decide_eq_true_eq]
      exact Or.inr hlt
    constructor <;> omega

section

variable {negative : Bool} {significand : Nat} {exponent : Int} {cs rest : List Char} {v : Json}

theorem isNumber_of_finishReal (h : finishReal negative significand exponent cs = .ok (v, rest)) :
    IsNumber v := by
  unfold finishReal at h
  split at h
  · cases h
    trivial
  · cases h

theorem isNumber_of_readExponent
    (h : readExponent negative significand exponent cs = .ok (v, rest)) : IsNumber v := by
  unfold readExponent at h
  simp only at h
  split at h
  · cases h
  · split at h
    · split at h
      · exact isNumber_of_finishReal h
      · split at h
        · cases h
        · cases h
          trivial
    · cases h

theorem isNumber_of_readFraction
    (h : readFraction negative significand exponent cs = .ok (v, rest)) : IsNumber v := by
  have hafter : ∀ {significand : Nat} {exponent : Int} {cs : List Char},
      readAfterFraction negative significand exponent cs = .ok (v, rest) → IsNumber v := by
    intro significand exponent cs h
    unfold readAfterFraction at h
    split at h
    · exact isNumber_of_readExponent h
    · exact isNumber_of_readExponent h
    · exact isNumber_of_finishReal h
  unfold readFraction at h
  simp only at h
  split at h
  · split at h
    · cases h
    · cases h
  · exact hafter h

theorem isNumber_of_readAfterWhole {dropped : Nat} (hn : significand < 2 ^ 64)
    (h : readAfterWhole negative significand dropped cs = .ok (v, rest)) : IsNumber v := by
  unfold readAfterWhole at h
  split at h
  · exact isNumber_of_readFraction h
  · exact isNumber_of_readExponent h
  · exact isNumber_of_readExponent h
  · split at h
    · cases h
      exact isNumber_wholeNumber hn negative
    · exact isNumber_of_finishReal h

/-- A whole number that is read fits into 64 bits. -/
theorem isNumber_of_readNumber (h : readNumber negative cs = .ok (v, rest)) : IsNumber v := by
  have hzero : 0 < 2 ^ 64 := by decide
  unfold readNumber at h
  split at h
  · cases h
  · split at h
    · split at h
      · split at h
        · cases h
        · exact isNumber_of_readAfterWhole hzero h
      · exact isNumber_of_readAfterWhole hzero h
    · split at h
      · exact isNumber_of_readAfterWhole (takeDigits_lt hzero _) h
      · cases h

end

end FlowCanvas.Json
