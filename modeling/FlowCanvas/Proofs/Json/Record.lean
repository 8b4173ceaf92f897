import FlowCanvas.Json.Schema
import FlowCanvas.Proofs.Json.RoundTrip
import Mathlib.Data.List.Nodup

/-!
# Records that are read back

A record is read field by field, each field changing one thing in what has been read so far.  What
holds of the blank record and is kept by every field therefore holds of every record that is read,
in whichever of its forms it is written.

A record is written as an object, with members for its fields in their own order; a field that is
not required may be left out.  The relation `Written` says that members are of this kind and which
record reading them makes of another.  It goes through the fields, each of which is written or left
out, and `readMembers_of_written` follows it turn by turn.

## Main definitions

* `Field.Keeps` — reading the field keeps a property of records.
* `LawfulVocabulary` — the word of a value has that value.
* `Written` — members that are written for fields, and what reading them makes of a record.
* `Schema.Behind` — the reader of a record stands between two fields.

## Main results

* `Schema.of_read` — **what every field keeps holds of a record that is read.**
* `readsBack_readText`, `readsBack_readSpelling`, `readsBack_readOption`, `readsBack_readList`,
  `readsBack_readObject` — the values of fields are read back.
* `readMembers_of_written` — so are the members that are written for fields.
* `Schema.readsBack` — **a record that has been written is read back.**
-/

namespace FlowCanvas.Json

/-! ### What a value that is read is like -/

theorem refuseKind_ne_ok {α : Type} {expected : String} {cs : List Char} {x : α} :
    refuseKind expected cs ≠ .ok x := by
  intro h
  unfold refuseKind at h
  split at h
  · cases h
  · split_ifs at h
    any_goals cases h
    all_goals
      obtain ⟨_, -, h⟩ := bind_eq_ok.mp h
      cases h

section

variable {α : Type} {reader : Reader α} {total depth : Nat} {cs rest : List Char}

/-- A value that may be `null` is absent or one that the reader takes. -/
theorem exists_of_readOption {x? : Option α} (h : readOption reader total depth cs = .ok (x?, rest))
    {x : α} (hx : x ∈ x?) : ∃ cs', reader total depth cs' = .ok (x, rest) := by
  unfold readOption at h
  split at h
  · obtain ⟨_, -, h⟩ := bind_eq_ok.mp h
    cases h
    cases hx
  · next cs' _ =>
    obtain ⟨⟨x', rest'⟩, hread, h⟩ := bind_eq_ok.mp h
    cases h
    cases hx
    exact ⟨_, hread⟩

/-- What holds of every value that the reader takes holds of the items of a list. -/
theorem forall_mem_of_readList {P : α → Prop} {xs : List α}
    (hitem : ∀ {cs x rest}, reader total depth cs = .ok (x, rest) → P x)
    (h : readList reader total (depth + 1) cs = .ok (xs, rest)) : ∀ x ∈ xs, P x := by
  unfold readList at h
  split at h
  · cases h
  · split_ifs at h
    · exact forall_mem_of_readItems hitem h
    · exact absurd h refuseKind_ne_ok

/-- An object that is read can be read. -/
theorem kept_of_readObject {ms : Members} (h : readObject total (depth + 1) cs = .ok (ms, rest)) :
    Kept (depth + 1) (.object ms) := by
  unfold readObject at h
  split at h
  · cases h
  · split_ifs at h
    · exact kept_of_readMembers kept_of_readValue h
    · exact absurd h refuseKind_ne_ok

end

/-! ### What a record that is read is like -/

section

variable {ρ : Type} {P : ρ → Prop} {total depth : Nat}

/-- Reading the field keeps a property of records. -/
def Field.Keeps (P : ρ → Prop) (total depth : Nat) (f : Field ρ) : Prop :=
  ∀ cs set rest, f.read total depth cs = .ok (set, rest) → ∀ r, P r → P (set r)

/-- A field keeps a property if its setter does, for every value that its reader takes. -/
theorem Field.keeps_of {α : Type} {name : String} {required : Bool} {reader : Reader α}
    {set : α → ρ → ρ}
    (h : ∀ cs x rest, reader total depth cs = .ok (x, rest) → ∀ r, P r → P (set x r)) :
    (Field.of name required reader set).Keeps P total depth := by
  intro cs change rest hread r hr
  obtain ⟨⟨x, rest'⟩, hx, hchange⟩ := bind_eq_ok.mp hread
  cases hchange
  exact h cs x rest hx r hr

variable {s : Schema ρ}

theorem Schema.of_readMembers (hkeeps : ∀ f ∈ s.fields, f.Keeps P total depth) {n : Nat}
    {first : Bool} {seen : List String} {r r' : ρ} {cs rest : List Char} (hr : P r)
    (h : s.readMembers total depth n first seen r cs = .ok (r', rest)) : P r' := by
  induction n generalizing first seen r cs with
  | zero => cases h
  | succ n ih =>
    rw [Schema.readMembers] at h
    obtain ⟨turn, -, h⟩ := bind_eq_ok.mp h
    cases turn with
    | close rest' =>
      simp only at h
      split at h
      · cases h
      · cases h
        exact hr
    | more cs' =>
      obtain ⟨⟨name, cs₁⟩, -, h⟩ := bind_eq_ok.mp h
      simp only at h
      split at h
      · next f hf =>
        split at h
        · cases h
        · obtain ⟨cs₂, -, h⟩ := bind_eq_ok.mp h
          obtain ⟨⟨set, cs₃⟩, hset, h⟩ := bind_eq_ok.mp h
          have hmem : f ∈ s.fields := List.mem_of_find?_eq_some hf
          exact ih (hkeeps f hmem cs₂ set cs₃ hset r hr) h
      · obtain ⟨cs₂, -, h⟩ := bind_eq_ok.mp h
        obtain ⟨cs₃, -, h⟩ := bind_eq_ok.mp h
        exact ih hr h

theorem Schema.of_readItems {fs : List (Field ρ)} (hkeeps : ∀ f ∈ fs, f.Keeps P total depth)
    {count : Nat} {r r' : ρ} {cs rest : List Char} (hr : P r)
    (h : s.readItems total depth fs count r cs = .ok (r', rest)) : P r' := by
  induction fs generalizing count r cs with
  | nil =>
    rw [Schema.readItems] at h
    obtain ⟨_, -, h⟩ := bind_eq_ok.mp h
    cases h
    exact hr
  | cons f fs ih =>
    obtain ⟨hf, hkeeps⟩ := List.forall_mem_cons.mp hkeeps
    rw [Schema.readItems] at h
    obtain ⟨turn, -, h⟩ := bind_eq_ok.mp h
    cases turn with
    | close rest' =>
      simp only at h
      split at h
      · cases h
      · cases h
        exact hr
    | more cs' =>
      obtain ⟨⟨set, cs₁⟩, hset, h⟩ := bind_eq_ok.mp h
      exact ih hkeeps (hf cs' set cs₁ hset r hr) h

/-- **What every field keeps holds of a record that is read**, if it holds of the blank one. -/
theorem Schema.of_read (hblank : P s.blank) (hkeeps : ∀ f ∈ s.fields, f.Keeps P total depth) {r : ρ}
    {cs rest : List Char} (h : s.read total (depth + 1) cs = .ok (r, rest)) : P r := by
  unfold Schema.read at h
  split at h
  · cases h
  · split_ifs at h
    · exact Schema.of_readItems hkeeps hblank h
    · exact Schema.of_readMembers hkeeps hblank h
    · exact absurd h refuseKind_ne_ok

end

/-! ### Values of fields that are read back -/

/-- The words of a vocabulary are its own: that of a value has that value. -/
class LawfulVocabulary (α : Type) [Vocabulary α] : Prop where
  ofWord?_word : ∀ x : α, ofWord? (Vocabulary.word x) = some x

section

variable {α : Type} {total depth : Nat}

theorem readsBack_readText (s : String) : ReadsBack (readText total depth) (.str s) s := by
  intro rest _
  have hread := readString_quoted s.toList rest
  have hskip : ∀ cs, skipSpace ('"' :: cs) = '"' :: cs := fun _ => rfl
  rw [chars_str, quote, List.cons_append, List.append_assoc, List.singleton_append, readText, hskip]
  simp only [if_true]
  rw [hread, ok_bind, String.ofList_toList]

theorem readsBack_readSpelling [Vocabulary α] [LawfulVocabulary α] (x : α) :
    ReadsBack (readSpelling total depth) (.str (Vocabulary.word x)) x := by
  intro rest _
  have hread := readString_quoted (Vocabulary.word x).toList rest
  have hskip : ∀ cs, skipSpace ('"' :: cs) = '"' :: cs := fun _ => rfl
  rw [chars_str, quote, List.cons_append, List.append_assoc, List.singleton_append, readSpelling,
    hskip]
  simp only [if_true]
  rw [hread, ok_bind, String.ofList_toList, readOfWord, ofWord, LawfulVocabulary.ofWord?_word]

/-- A value that does not begin like `null` is read back where it might be `null`. -/
theorem readsBack_readOption {reader : Reader α} {v : Json} {x : α} (hopens : Opens 'n' v)
    (h : ReadsBack (reader total depth) v x) :
    ReadsBack (readOption reader total depth) v (some x) := by
  intro rest hrest
  have hskip := skipSpace_chars hopens rest
  have hread := h rest hrest
  obtain ⟨c, cs, hchars, -, hc⟩ := hopens
  unfold readOption
  rw [hskip]
  split
  · next hnull =>
    rw [hchars, List.cons_append] at hnull
    exact absurd (List.cons.inj hnull).1 hc
  · rw [hread, ok_bind]

/-- Values that are read back are read back as a list. -/
theorem readsBack_readList {reader : Reader α} {f : α → Json} {xs : List α}
    (hopens : ∀ x ∈ xs, Opens ']' (f x)) (hitem : ∀ x ∈ xs, ReadsBack (reader total depth) (f x) x)
    (hbound : (Json.list (xs.map f)).chars.length < total) :
    ReadsBack (readList reader total (depth + 1)) (.list (xs.map f)) xs := by
  intro rest _
  have hlength := length_lt_chars_list (xs.map f)
  rw [List.length_map] at hlength
  have hitems := readItems_itemsText hopens hitem (n := total) (by omega) true rest
  rw [chars_list, List.cons_append]
  exact hitems

/-- An object that can be read and whose numbers are whole is read back. -/
theorem readsBack_readObject {ms : Members} (hkept : Kept (depth + 1) (.object ms))
    (hexact : Exact (.object ms)) (hbound : (Json.object ms).chars.length < total) :
    ReadsBack (readObject total (depth + 1)) (.object ms) ms := by
  intro rest hrest
  have hvalue := readsBack_readValue hkept hexact hbound rest hrest
  rw [chars_object, List.cons_append] at hvalue ⊢
  rw [readValue_object] at hvalue
  obtain ⟨⟨ms', rest'⟩, hmembers, heq⟩ := bind_eq_ok.mp hvalue
  cases heq
  exact hmembers

end

/-! ### Records that are read back -/

section

variable {ρ : Type} {total depth : Nat}

/-- The members are written for the fields, in their order, and reading them makes one record of
another. -/
inductive Written (total depth : Nat) : List (Field ρ) → Members → ρ → ρ → Prop
  | nil (r : ρ) : Written total depth [] [] r r
  /-- A field whose value is read back as a change of the record. -/
  | member {f : Field ρ} {fs : List (Field ρ)} {v : Json} {ms : Members} {set : ρ → ρ} {r r' : ρ}
    (hread : ReadsBack (f.read total depth) v set) (h : Written total depth fs ms (set r) r') :
    Written total depth (f :: fs) ((f.name, v) :: ms) r r'
  /-- A field that is left out. -/
  | absent {f : Field ρ} {fs : List (Field ρ)} {ms : Members} {r r' : ρ}
    (hoptional : f.required = false) (h : Written total depth fs ms r r') :
    Written total depth (f :: fs) ms r r'

/-- A field whose value is read back and put into the record. -/
theorem Written.value {α : Type} {name : String} {required : Bool} {reader : Reader α}
    {set : α → ρ → ρ} {fs : List (Field ρ)} {v : Json} {x : α} {ms : Members} {r r' : ρ}
    (hread : ReadsBack (reader total depth) v x) (h : Written total depth fs ms (set x r) r') :
    Written total depth (.of name required reader set :: fs) ((name, v) :: ms) r r' := by
  have hfield : ReadsBack ((Field.of name required reader set).read total depth) v (set x) := by
    intro rest hrest
    have hx := hread rest hrest
    unfold Field.of
    simp only
    rw [hx, ok_bind]
  exact Written.member hfield h

variable {s : Schema ρ}

/-- The reader of a record stands between two fields.  Those in `seen` have been read, all of them
before it, and none that is required has been passed by. -/
structure Schema.Behind (s : Schema ρ) (pre fs : List (Field ρ)) (seen : List String) : Prop where
  fields : s.fields = pre ++ fs
  mem_of_seen : ∀ name ∈ seen, name ∈ pre.map Field.name
  seen_of_required : ∀ f ∈ pre, f.required = true → f.name ∈ seen

theorem Schema.behind_nil (s : Schema ρ) : s.Behind [] s.fields [] where
  fields := rfl
  mem_of_seen := fun _ h => absurd h List.not_mem_nil
  seen_of_required := fun _ h => absurd h List.not_mem_nil

section

variable {pre fs : List (Field ρ)} {f : Field ρ} {seen : List String}

theorem Schema.Behind.member (h : s.Behind pre (f :: fs) seen) :
    s.Behind (pre ++ [f]) fs (f.name :: seen) where
  fields := by rw [h.fields, List.append_cons]
  mem_of_seen := by
    intro name hname
    rw [List.map_append, List.mem_append]
    rcases List.mem_cons.mp hname with rfl | hname
    · exact Or.inr (List.mem_singleton_self _)
    · exact Or.inl (h.mem_of_seen name hname)
  seen_of_required := by
    intro g hg hrequired
    rcases List.mem_append.mp hg with hg | hg
    · exact List.mem_cons_of_mem _ (h.seen_of_required g hg hrequired)
    · rw [List.mem_singleton.mp hg]
      exact List.mem_cons_self

theorem Schema.Behind.absent (h : s.Behind pre (f :: fs) seen) (hoptional : f.required = false) :
    s.Behind (pre ++ [f]) fs seen where
  fields := by rw [h.fields, List.append_cons]
  mem_of_seen := by
    intro name hname
    rw [List.map_append]
    exact List.mem_append_left _ (h.mem_of_seen name hname)
  seen_of_required := by
    intro g hg hrequired
    rcases List.mem_append.mp hg with hg | hg
    · exact h.seen_of_required g hg hrequired
    · rw [List.mem_singleton.mp hg, hoptional] at hrequired
      cases hrequired

/-- The fields before the next one have other names. -/
theorem Schema.Behind.name_notMem (h : s.Behind pre (f :: fs) seen)
    (hnodup : (s.fields.map Field.name).Nodup) : f.name ∉ pre.map Field.name := by
  rw [h.fields, List.map_append, List.map_cons] at hnodup
  intro hmem
  exact List.disjoint_of_nodup_append hnodup hmem List.mem_cons_self

/-- The next field has not been read. -/
theorem Schema.Behind.contains_eq_false (h : s.Behind pre (f :: fs) seen)
    (hnodup : (s.fields.map Field.name).Nodup) : seen.contains f.name = false := by
  rw [List.contains_eq_mem, decide_eq_false_iff_not]
  intro hmem
  exact h.name_notMem hnodup (h.mem_of_seen f.name hmem)

/-- The next field is found by its name. -/
theorem Schema.Behind.find?_name (h : s.Behind pre (f :: fs) seen)
    (hnodup : (s.fields.map Field.name).Nodup) :
    s.fields.find? (fun g => g.name = f.name) = some f := by
  have hname := h.name_notMem hnodup
  rw [List.find?_eq_some_iff_append]
  refine ⟨by simp, pre, fs, h.fields, ?_⟩
  intro g hg
  have hne : g.name ≠ f.name := by
    intro heq
    exact hname (heq ▸ List.mem_map_of_mem hg)
  simp [hne]

/-- Behind the last field, none that is required is missing. -/
theorem Schema.Behind.find?_missing (h : s.Behind pre [] seen) :
    s.fields.find? (fun f => f.required && !seen.contains f.name) = none := by
  rw [List.find?_eq_none, h.fields, List.append_nil]
  intro f hf hmissing
  rw [Bool.and_eq_true, Bool.not_eq_true', List.contains_eq_mem, decide_eq_false_iff_not]
    at hmissing
  exact hmissing.2 (h.seen_of_required f hf hmissing.1)

end

/-- The members that are written for the fields of a record are read back. -/
theorem Schema.readMembers_of_written (hnodup : (s.fields.map Field.name).Nodup)
    {fs : List (Field ρ)} {ms : Members} {r r' : ρ} (h : Written total depth fs ms r r') {n : Nat}
    (hn : ms.length < n) (first : Bool) {pre : List (Field ρ)} {seen : List String}
    (hbehind : s.Behind pre fs seen) (rest : List Char) :
    s.readMembers total depth n first seen r (membersText first ms ++ rest) = .ok (r', rest) := by
  -- One step for each field; a field that is left out takes no turn.
  induction h generalizing n first pre seen with
  | nil r =>
    obtain ⟨n, rfl⟩ := Nat.exists_eq_succ_of_ne_zero (Nat.ne_zero_of_lt hn)
    rw [membersText_nil, List.singleton_append, Schema.readMembers, nextMember_close, ok_bind]
    simp only
    rw [hbehind.find?_missing]
  | @member f fs v ms set r r' hread _ ih =>
    obtain ⟨n, rfl⟩ := Nat.exists_eq_succ_of_ne_zero (Nat.ne_zero_of_lt hn)
    have hvalue := hread _ (stops_membersText ms rest)
    have hrest := ih (Nat.lt_of_succ_lt_succ hn) false hbehind.member
    rw [Schema.readMembers, nextMember_more, ok_bind]
    simp only
    rw [readString_quoted, ok_bind]
    simp only
    rw [String.ofList_toList, hbehind.find?_name hnodup]
    simp only
    rw [hbehind.contains_eq_false hnodup, if_neg Bool.false_ne_true, readColon_colon, ok_bind,
      hvalue, ok_bind]
    exact hrest
  | absent hoptional _ ih => exact ih hn first (hbehind.absent hoptional)

/-- **A record that has been written is read back.** -/
theorem Schema.readsBack (hnodup : (s.fields.map Field.name).Nodup) {ms : Members} {r : ρ}
    (h : Written total depth s.fields ms s.blank r)
    (hbound : (Json.object ms).chars.length < total) :
    ReadsBack (s.read total (depth + 1)) (.object ms) r := by
  intro rest _
  have hlength := length_lt_chars_object ms
  have hmembers := Schema.readMembers_of_written hnodup h (n := total) (by omega) true
    s.behind_nil rest
  rw [chars_object, List.cons_append]
  exact hmembers

end

end FlowCanvas.Json
