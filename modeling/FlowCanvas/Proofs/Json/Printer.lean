import FlowCanvas.Json.Printer
import FlowCanvas.Proofs.Json.Members

/-!
# What is not in the text of a JSON value

A control never stands in a string as it is, and the text of a value has no white space between its
parts.  An object of strings is therefore written on one line, whatever the strings are.

## Main results

* `Json.newline_notMem_quote` — there is no line feed in the text of a string.
* `Json.newline_notMem_ofMembers` — nor in that of an object, if there is none in those of its
  members.
-/

namespace FlowCanvas.Json

/-! ### Strings -/

theorem hexDigit_ne_newline (n : Nat) : hexDigit n ≠ '\n' := by
  have hdigits : ∀ n < 16, hexDigit n ≠ '\n' := by decide
  rcases Nat.lt_or_ge n 16 with hn | hn
  · exact hdigits n hn
  · rw [hexDigit, Nat.digitChar_eq_star.mpr hn]
    decide

/-- The escapes of controls have no controls in them. -/
theorem newline_notMem_escapeChar (c : Char) : '\n' ∉ escapeChar c := by
  by_cases hfeed : c = '\n'
  · rw [hfeed]
    decide
  · unfold escapeChar
    split_ifs
    all_goals simp [Ne.symm hfeed, Ne.symm (hexDigit_ne_newline _)]

theorem newline_notMem_quote (cs : List Char) : '\n' ∉ quote cs := by
  have h : '\n' ∉ cs.flatMap escapeChar := by
    intro hmem
    obtain ⟨c, -, hc⟩ := List.mem_flatMap.mp hmem
    exact newline_notMem_escapeChar c hc
  simp [quote, h]

/-! ### Objects -/

/-- The members of an object that is put together are among those that are given. -/
theorem exists_ofMembers {P : Json → Prop} {ms : Members} (h : ∀ m ∈ ms, P m.2) :
    ∃ ns, ofMembers ms = .object ns ∧ ∀ n ∈ ns, P n.2 := by
  refine ⟨_, rfl, ?_⟩
  have hfold : ∀ (ms : Members) (ns : Members), (∀ m ∈ ms, P m.2) → (∀ n ∈ ns, P n.2) →
      ∀ n ∈ ms.foldl (fun ns m => Members.put m.1 m.2 ns) ns, P n.2 := by
    intro ms
    induction ms with
    | nil => exact fun _ _ hns => hns
    | cons m ms ih =>
      intro ns hms hns
      obtain ⟨hm, hms⟩ := List.forall_mem_cons.mp hms
      exact ih _ hms (forall_put hm hns)
  exact hfold ms [] h fun _ hn => absurd hn List.not_mem_nil

theorem newline_notMem_memberChars {ms : Members} (h : ∀ m ∈ ms, '\n' ∉ m.2.chars) :
    '\n' ∉ memberChars ms := by
  induction ms with
  | nil =>
    rw [memberChars]
    decide
  | cons m ms ih =>
    obtain ⟨hm, hms⟩ := List.forall_mem_cons.mp h
    have hname := newline_notMem_quote m.1.toList
    rw [memberChars]
    simp [hname, hm, ih hms]

/-- An object is written on one line if its members are. -/
theorem newline_notMem_object {ms : Members} (h : ∀ m ∈ ms, '\n' ∉ m.2.chars) :
    '\n' ∉ (Json.object ms).chars := by
  cases ms with
  | nil =>
    rw [chars]
    decide
  | cons m ms =>
    obtain ⟨hm, hms⟩ := List.forall_mem_cons.mp h
    have hname := newline_notMem_quote m.1.toList
    have htail := newline_notMem_memberChars hms
    rw [chars]
    simp [hname, hm, htail]

/-- An object that is put together is written on one line if its members are. -/
theorem newline_notMem_ofMembers {ms : Members} (h : ∀ m ∈ ms, '\n' ∉ m.2.chars) :
    '\n' ∉ (ofMembers ms).chars := by
  obtain ⟨ns, hns, h⟩ := exists_ofMembers (P := fun v => '\n' ∉ v.chars) h
  rw [hns]
  exact newline_notMem_object h

end FlowCanvas.Json
