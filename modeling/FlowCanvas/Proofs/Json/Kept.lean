import FlowCanvas.Json.Reader
import FlowCanvas.Proofs.Json.Lexeme
import FlowCanvas.Proofs.Json.Members

/-!
# What a value that is read is like

Not every value is one that a text denotes.  The members of an object come in the order of their
names, a whole number fits into 64 bits, and the lists and objects of a value are nested no deeper
than the brackets that may be opened.  All three are kept by every turn inside brackets, so they
hold of all that is read.

## Main definitions

* `Kept` — a value that can be read when so many brackets may be opened.

## Main results

* `forall_mem_of_readItems`, `inOrder_and_forall_of_readMembers` — what every turn keeps holds of
  what is inside brackets.
* `kept_of_readValue` — **what is read can be read.**
-/

namespace FlowCanvas.Json

/-! ### Values -/

/-- The value can be read when so many brackets may be opened. -/
inductive Kept : (depth : Nat) → Json → Prop
  | null {d : Nat} : Kept d .null
  | bool {d : Nat} (b : Bool) : Kept d (.bool b)
  | int {d : Nat} {n : Int} (h : IsWhole64 n) : Kept d (.int n)
  | real {d : Nat} (x : Float) : Kept d (.real x)
  | str {d : Nat} (s : String) : Kept d (.str s)
  | list {d : Nat} {vs : List Json} (h : ∀ v ∈ vs, Kept d v) : Kept (d + 1) (.list vs)
  | object {d : Nat} {ms : Members} (horder : InOrder ms) (h : ∀ m ∈ ms, Kept d m.2) :
    Kept (d + 1) (.object ms)

theorem kept_of_isNumber {v : Json} (h : IsNumber v) (d : Nat) : Kept d v := by
  cases v with
  | int n => exact Kept.int h
  | real x => exact Kept.real x
  | _ => exact h.elim

/-! ### What is read -/

/-- What holds of every item that is read holds of the items of a list. -/
theorem forall_mem_of_readItems {α : Type} {P : α → Prop}
    {item : List Char → Result (α × List Char)}
    (hitem : ∀ {cs x rest}, item cs = .ok (x, rest) → P x) {n : Nat} {first : Bool}
    {cs rest : List Char} {xs : List α} (h : readItems item n first cs = .ok (xs, rest)) :
    ∀ x ∈ xs, P x := by
  induction n generalizing first cs xs with
  | zero => cases h
  | succ n ih =>
    rw [readItems] at h
    obtain ⟨turn, -, h⟩ := bind_eq_ok.mp h
    cases turn with
    | close rest' =>
      cases h
      exact fun x hx => absurd hx List.not_mem_nil
    | more cs' =>
      obtain ⟨⟨x, cs₁⟩, hx, h⟩ := bind_eq_ok.mp h
      obtain ⟨⟨xs', rest'⟩, hxs, h⟩ := bind_eq_ok.mp h
      cases h
      exact List.forall_mem_cons.mpr ⟨hitem hx, ih hxs⟩

/-- The members of an object that is read are in order, and what holds of every value that is read
holds of theirs. -/
theorem inOrder_and_forall_of_readMembers {P : Json → Prop}
    {value : List Char → Result (Json × List Char)}
    (hvalue : ∀ {cs v rest}, value cs = .ok (v, rest) → P v) {n : Nat} {first : Bool}
    {acc ms : Members} {cs rest : List Char} (hacc : InOrder acc ∧ ∀ m ∈ acc, P m.2)
    (h : readMembers value n first acc cs = .ok (ms, rest)) : InOrder ms ∧ ∀ m ∈ ms, P m.2 := by
  induction n generalizing first cs acc with
  | zero => cases h
  | succ n ih =>
    rw [readMembers] at h
    obtain ⟨turn, -, h⟩ := bind_eq_ok.mp h
    cases turn with
    | close rest' =>
      cases h
      exact hacc
    | more cs' =>
      obtain ⟨⟨name, cs₁⟩, -, h⟩ := bind_eq_ok.mp h
      obtain ⟨cs₂, -, h⟩ := bind_eq_ok.mp h
      obtain ⟨⟨v, cs₃⟩, hv, h⟩ := bind_eq_ok.mp h
      exact ih ⟨inOrder_put hacc.1, forall_put (hvalue hv) hacc.2⟩ h

/-- The members that are read from the beginning of an object make up an object that can be read. -/
theorem kept_of_readMembers {d : Nat} {value : List Char → Result (Json × List Char)}
    (hvalue : ∀ {cs v rest}, value cs = .ok (v, rest) → Kept d v) {n : Nat} {cs rest : List Char}
    {ms : Members} (h : readMembers value n true [] cs = .ok (ms, rest)) :
    Kept (d + 1) (.object ms) := by
  have hnil : InOrder [] ∧ ∀ m ∈ ([] : Members), Kept d m.2 :=
    ⟨List.Pairwise.nil, fun m hm => absurd hm List.not_mem_nil⟩
  obtain ⟨horder, hkept⟩ := inOrder_and_forall_of_readMembers hvalue hnil h
  exact Kept.object horder hkept

/-- A value that is read has no brackets, or it is a list or an object and the brackets inside it
are one fewer than there may be. -/
theorem cases_of_readValue {bound depth : Nat} {cs rest : List Char} {v : Json}
    (h : readValue bound depth cs = .ok (v, rest)) :
    (∀ d, Kept d v) ∨
    (∃ d cs' vs, depth = d + 1 ∧ v = .list vs ∧
      readItems (readValue bound d) bound true cs' = .ok (vs, rest)) ∨
    (∃ d cs' ms, depth = d + 1 ∧ v = .object ms ∧
      readMembers (readValue bound d) bound true [] cs' = .ok (ms, rest)) := by
  unfold readValue at h
  split at h
  · cases h
  · next c cs' _ =>
    split_ifs at h
    · obtain ⟨_, -, h⟩ := bind_eq_ok.mp h
      cases h
      exact Or.inl fun _ => Kept.null
    · obtain ⟨_, -, h⟩ := bind_eq_ok.mp h
      cases h
      exact Or.inl fun _ => Kept.bool true
    · obtain ⟨_, -, h⟩ := bind_eq_ok.mp h
      cases h
      exact Or.inl fun _ => Kept.bool false
    · exact Or.inl (kept_of_isNumber (isNumber_of_readNumber h))
    · exact Or.inl (kept_of_isNumber (isNumber_of_readNumber h))
    · obtain ⟨⟨s, _⟩, -, h⟩ := bind_eq_ok.mp h
      cases h
      exact Or.inl fun _ => Kept.str _
    · cases depth with
      | zero => cases h
      | succ d =>
        obtain ⟨⟨vs, rest'⟩, hvs, h⟩ := bind_eq_ok.mp h
        cases h
        exact Or.inr (Or.inl ⟨d, cs', vs, rfl, rfl, hvs⟩)
    · cases depth with
      | zero => cases h
      | succ d =>
        obtain ⟨⟨ms, rest'⟩, hms, h⟩ := bind_eq_ok.mp h
        cases h
        exact Or.inr (Or.inr ⟨d, cs', ms, rfl, rfl, hms⟩)
    · cases h

/-- **What is read can be read**: its members are in order, its whole numbers fit into 64 bits, and
it has no more brackets open than there may be. -/
theorem kept_of_readValue {bound depth : Nat} {cs rest : List Char} {v : Json}
    (h : readValue bound depth cs = .ok (v, rest)) : Kept depth v := by
  -- The brackets inside a value are one fewer than those that may be opened.
  induction depth generalizing cs v rest with
  | zero =>
    rcases cases_of_readValue h with hv | ⟨d, _, _, hd, -⟩ | ⟨d, _, _, hd, -⟩
    · exact hv 0
    · cases hd
    · cases hd
  | succ d ih =>
    rcases cases_of_readValue h with hv | ⟨_, _, vs, hd, rfl, hvs⟩ | ⟨_, _, ms, hd, rfl, hms⟩
    · exact hv (d + 1)
    · cases hd
      exact Kept.list (forall_mem_of_readItems ih hvs)
    · cases hd
      exact kept_of_readMembers ih hms

end FlowCanvas.Json
