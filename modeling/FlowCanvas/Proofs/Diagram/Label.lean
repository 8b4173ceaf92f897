import FlowCanvas.Diagram.Source
import FlowCanvas.Proofs.Text.Wrap

/-!
# Names and labels in the text of a diagram

Names stand in the text of a diagram as they are, and labels stand between double quotes.  Both can
be read back: a name ends where something else than a letter, a digit or a low line stands, and a
label ends at the next double quote, since those inside it have been replaced.

Replacing them is not injective, as a label may have the text in it that stands for a double quote:
labels are written in the same way if they are the same with double quotes for such texts.  Labels
without them are called plain here.

## Main definitions

* `IsName cs` — letters, digits and low lines only.
* `IsPlain label` — on one line, and without the text that stands for a double quote.
* `readQuotes cs` — a text with a double quote for each text that stands for one.

## Main results

* `escapeQuotes_eq_iff` — labels are written in the same way exactly if they are read in the same
  way.
* `escapeQuotes_inj` — **plain labels are determined by what is written for them.**
* `labelChars_append_inj` — **a plain label and what stands behind it are determined by the whole.**
-/

namespace FlowCanvas

/-! ### Names -/

/-- A letter, a digit or a low line. -/
def isNameChar (c : Char) : Bool := c.isAlphanum || c = '_'

/-- Letters, digits and low lines only, and at least one of them. -/
def IsName (cs : List Char) : Prop := cs ≠ [] ∧ ∀ c ∈ cs, isNameChar c

instance (cs : List Char) : Decidable (IsName cs) :=
  @instDecidableAnd _ _ _ (List.decidableBAll (fun c => isNameChar c = true) cs)

theorem IsName.notMem {cs : List Char} (h : IsName cs) {d : Char} (hd : isNameChar d = false) :
    d ∉ cs := by
  intro hmem
  have := h.2 d hmem
  rw [hd] at this
  exact Bool.false_ne_true this

theorem IsName.exists_cons {cs : List Char} (h : IsName cs) :
    ∃ c l, cs = c :: l ∧ isNameChar c := by
  cases cs with
  | nil => exact absurd rfl h.1
  | cons c l => exact ⟨c, l, rfl, h.2 c List.mem_cons_self⟩

/-- A name and what stands behind it are determined by the whole. -/
theorem IsName.append_inj {a b r s : List Char} (ha : IsName a) (hb : IsName b)
    (hr : Stops isNameChar r) (hs : Stops isNameChar s) (h : a ++ r = b ++ s) : a = b ∧ r = s :=
  append_inj_of_stops h ha.2 hr hb.2 hs

/-! ### Labels -/

/-- On one line, and without the text that stands for a double quote. -/
def IsPlain (label : List Char) : Prop := '\n' ∉ label ∧ ¬ quoteEntity <:+: label

instance (label : List Char) : Decidable (IsPlain label) := instDecidableAnd

/-- A plain label is plain when it is wrapped, as wrapping brings nothing together. -/
theorem IsPlain.wrap {label : List Char} (h : IsPlain label) (max : Nat) :
    IsPlain (wrap max label) :=
  ⟨newline_notMem_wrap h.1 max,
    not_infix_wrap (by decide) (forall_mem_of_all (by decide)) h.1 h.2 max⟩

theorem quoteEntity_eq : quoteEntity = '#' :: "quot;".toList := by decide

theorem escapeQuotes_cons (c : Char) (cs : List Char) :
    escapeQuotes (c :: cs) = (if c = '"' then quoteEntity else [c]) ++ escapeQuotes cs :=
  List.flatMap_cons

theorem newline_notMem_escapeQuotes {label : List Char} (h : '\n' ∉ label) :
    '\n' ∉ escapeQuotes label := by
  intro hmem
  obtain ⟨c, hc, hmem⟩ := List.mem_flatMap.mp hmem
  split at hmem
  · exact absurd hmem (by decide)
  · rw [List.mem_singleton.mp hmem] at h
    exact h hc

/-- What has no number sign in it stands in an escaped label only if it stands in the label. -/
theorem exists_append_of_escapeQuotes {w r : List Char} (hw : '#' ∉ w) {label : List Char}
    (h : escapeQuotes label = w ++ r) : ∃ l, label = w ++ l := by
  induction w generalizing label with
  | nil => exact ⟨label, rfl⟩
  | cons c w ih =>
    rw [List.mem_cons, not_or] at hw
    cases label with
    | nil => exact absurd h (List.cons_ne_nil c (w ++ r)).symm
    | cons d label =>
      rw [escapeQuotes_cons] at h
      split at h
      · exact absurd (List.cons.inj h).1 hw.1
      · obtain ⟨hcd, htail⟩ := List.cons.inj h
        obtain ⟨l, rfl⟩ := ih hw.2 htail
        exact ⟨l, by rw [hcd, List.cons_append]⟩

/-- The text that stands for a double quote begins an escaped label only if it begins the label. -/
theorem entity_prefix_of_escapeQuotes {c : Char} {cs : List Char}
    (h : quoteEntity <+: c :: escapeQuotes cs) : quoteEntity <+: c :: cs := by
  obtain ⟨r, hr⟩ := h
  rw [quoteEntity_eq, List.cons_append] at hr
  obtain ⟨rfl, htail⟩ := List.cons.inj hr
  obtain ⟨l, rfl⟩ := exists_append_of_escapeQuotes (by decide) htail.symm
  rw [quoteEntity_eq, ← List.cons_append]
  exact List.prefix_append _ l

/-! ### Reading what stands for a double quote -/

/-- A text with a double quote for each text that stands for one. -/
def readQuotes : List Char → List Char
  | [] => []
  | '#' :: 'q' :: 'u' :: 'o' :: 't' :: ';' :: cs => '"' :: readQuotes cs
  | c :: cs => c :: readQuotes cs

theorem readQuotes_entity_append (cs : List Char) :
    readQuotes (quoteEntity ++ cs) = '"' :: readQuotes cs := by
  rw [quoteEntity_eq]
  rfl

theorem readQuotes_cons {c : Char} {cs : List Char} (h : ¬ quoteEntity <+: c :: cs) :
    readQuotes (c :: cs) = c :: readQuotes cs := by
  rw [readQuotes]
  intro rest hc hcs
  exact h ⟨rest, by rw [hc, hcs]; rfl⟩

/-- Induction along a text in which a text that stands for a double quote is a step of its own. -/
theorem entity_induction {P : List Char → Prop} (nil : P [])
    (entity : ∀ cs, P cs → P (quoteEntity ++ cs))
    (cons : ∀ c cs, ¬ quoteEntity <+: c :: cs → P cs → P (c :: cs)) (cs : List Char) : P cs := by
  induction cs using readQuotes.induct with
  | case1 => exact nil
  | case2 cs ih => exact entity cs ih
  | case3 c cs h ih =>
    refine cons c cs (fun ⟨rest, hrest⟩ => ?_) ih
    obtain ⟨hc, hcs⟩ := List.cons.inj hrest
    exact h rest hc.symm hcs.symm

theorem escapeQuotes_entity_append (cs : List Char) :
    escapeQuotes (quoteEntity ++ cs) = quoteEntity ++ escapeQuotes cs := by
  rw [escapeQuotes_append]
  rfl

/-- A label is read from what is written for it, but for what stands for a double quote in it. -/
theorem readQuotes_escapeQuotes (label : List Char) :
    readQuotes (escapeQuotes label) = readQuotes label := by
  induction label using entity_induction with
  | nil => rfl
  | entity cs ih =>
    rw [escapeQuotes_entity_append, readQuotes_entity_append, readQuotes_entity_append, ih]
  | cons c cs h ih =>
    rw [escapeQuotes_cons, readQuotes_cons h]
    split_ifs with hc
    · rw [readQuotes_entity_append, ih, hc]
    · rw [List.singleton_append, readQuotes_cons (mt entity_prefix_of_escapeQuotes h), ih]

theorem escapeQuotes_readQuotes (label : List Char) :
    escapeQuotes (readQuotes label) = escapeQuotes label := by
  induction label using entity_induction with
  | nil => rfl
  | entity cs ih =>
    rw [readQuotes_entity_append, escapeQuotes_entity_append, escapeQuotes_cons, if_pos rfl, ih]
  | cons c cs h ih => rw [readQuotes_cons h, escapeQuotes_cons, escapeQuotes_cons, ih]

/-- **Labels are written in the same way exactly if they are read in the same way.** -/
theorem escapeQuotes_eq_iff {k l : List Char} :
    escapeQuotes k = escapeQuotes l ↔ readQuotes k = readQuotes l := by
  constructor
  · intro h
    rw [← readQuotes_escapeQuotes k, h, readQuotes_escapeQuotes]
  · intro h
    rw [← escapeQuotes_readQuotes k, h, escapeQuotes_readQuotes]

theorem readQuotes_of_not_infix {cs : List Char} (h : ¬ quoteEntity <:+: cs) :
    readQuotes cs = cs := by
  induction cs with
  | nil => rfl
  | cons c cs ih =>
    rw [List.infix_cons_iff, not_or] at h
    rw [readQuotes_cons h.1, ih h.2]

/-- **Labels without the text that stands for a double quote are determined by what is written for
them.** -/
theorem escapeQuotes_inj {a b : List Char} (h : escapeQuotes a = escapeQuotes b)
    (ha : ¬ quoteEntity <:+: a) (hb : ¬ quoteEntity <:+: b) : a = b := by
  rwa [escapeQuotes_eq_iff, readQuotes_of_not_infix ha, readQuotes_of_not_infix hb] at h

/-! ### Labels in their quotes -/

theorem IsPlain.eq_of_escapeQuotes {a b : List Char} (ha : IsPlain a) (hb : IsPlain b)
    (h : escapeQuotes a = escapeQuotes b) : a = b := escapeQuotes_inj h ha.2 hb.2

theorem labelChars_append (label r : List Char) :
    labelChars label ++ r = '"' :: (escapeQuotes label ++ '"' :: r) := by
  rw [labelChars, List.cons_append, List.append_assoc, List.singleton_append]

/-- **A plain label in its quotes and what stands behind it are determined by the whole.** -/
theorem labelChars_append_inj {a b r s : List Char} (ha : IsPlain a) (hb : IsPlain b)
    (h : labelChars a ++ r = labelChars b ++ s) : a = b ∧ r = s := by
  rw [labelChars_append, labelChars_append] at h
  obtain ⟨hab, hrs⟩ := append_cons_inj_of_notMem (List.cons.inj h).2
    (quote_notMem_escapeQuotes a) (quote_notMem_escapeQuotes b)
  exact ⟨ha.eq_of_escapeQuotes hb hab, hrs⟩

theorem newline_notMem_labelChars {label : List Char} (h : '\n' ∉ label) :
    '\n' ∉ labelChars label := by
  have := newline_notMem_escapeQuotes h
  simp [labelChars, this]

end FlowCanvas
