import FlowCanvas.Proofs.Json.Kept

/-!
# Values that are read back

A value whose numbers are whole is written so that reading the text gives the same value back.
What stands behind the text does not matter, as long as it does not go on with a number: a closing
bracket, a comma and the end do not.

Inside brackets a text is taken turn by turn, and the first turn differs from the others, since it
has no comma before it.  The texts `itemsText` and `membersText` are those between brackets, from
any turn on; every statement about turns is made for both kinds of turn at once.

## Main definitions

* `Exact` — a value whose numbers are whole.
* `itemsText`, `membersText` — what is left of a list and of an object at the beginning of a turn.
* `Opens` — the text of a value begins with something else than space and a given character.
* `ReadsBack` — a reader takes the text of a value and gives a result.

## Main results

* `readItems_itemsText` — items that are read back are read back as a list.
* `readMembers_membersText` — members in order that are read back are read back as an object.
* `readsBack_readValue` — **a value that can be read and whose numbers are whole is read back.**
* `read_chars_of_kept`, `read_chars_of_read` — so the text of such a value denotes the value.
-/

namespace FlowCanvas.Json

/-- All numbers in the value are whole. -/
inductive Exact : Json → Prop
  | null : Exact .null
  | bool (b : Bool) : Exact (.bool b)
  | int (n : Int) : Exact (.int n)
  | str (s : String) : Exact (.str s)
  | list {vs : List Json} (h : ∀ v ∈ vs, Exact v) : Exact (.list vs)
  | object {ms : Members} (h : ∀ m ∈ ms, Exact m.2) : Exact (.object ms)

mutual

/-- Decides whether all numbers in the value are whole. -/
def decideExact : (v : Json) → Decidable (Exact v)
  | .null => .isTrue .null
  | .bool b => .isTrue (.bool b)
  | .int n => .isTrue (.int n)
  | .real _ => .isFalse nofun
  | .str s => .isTrue (.str s)
  | .list vs => @decidable_of_iff _ _ ⟨.list, fun | .list h => h⟩ (decideItems vs)
  | .object ms => @decidable_of_iff _ _ ⟨.object, fun | .object h => h⟩ (decideMembers ms)

/-- Decides whether all numbers in a list are whole. -/
def decideItems : (vs : List Json) → Decidable (∀ v ∈ vs, Exact v)
  | [] => .isTrue fun _ h => absurd h List.not_mem_nil
  | v :: vs => @decidable_of_iff _ _ List.forall_mem_cons.symm
    (@instDecidableAnd _ _ (decideExact v) (decideItems vs))

/-- Decides whether all numbers in the members of an object are whole. -/
def decideMembers : (ms : List (String × Json)) → Decidable (∀ m ∈ ms, Exact m.2)
  | [] => .isTrue fun _ h => absurd h List.not_mem_nil
  | (k, v) :: ms => @decidable_of_iff _ _
    (List.forall_mem_cons (p := fun m => Exact m.2) (a := (k, v))).symm
    (@instDecidableAnd _ _ (decideExact v) (decideMembers ms))

end

instance : DecidablePred Exact := decideExact

/-! ### The text between brackets -/

/-- What is left of a list at the beginning of a turn: its text up to the closing bracket, before
the first item or behind another. -/
def itemsText : (first : Bool) → List Json → List Char
  | true, v :: vs => v.chars ++ itemChars vs
  | _, vs => itemChars vs

/-- What is left of an object at the beginning of a turn. -/
def membersText : (first : Bool) → Members → List Char
  | true, (k, v) :: ms => quote k.toList ++ ':' :: (v.chars ++ memberChars ms)
  | _, ms => memberChars ms

@[simp] theorem itemsText_nil (first : Bool) : itemsText first [] = [']'] := by
  cases first <;> simp [itemsText, itemChars]

theorem itemsText_true_cons (v : Json) (vs : List Json) :
    itemsText true (v :: vs) = v.chars ++ itemsText false vs := by
  simp [itemsText]

theorem itemsText_false_cons (v : Json) (vs : List Json) :
    itemsText false (v :: vs) = ',' :: itemsText true (v :: vs) := by
  simp [itemsText, itemChars]

@[simp] theorem membersText_nil (first : Bool) : membersText first [] = ['\x7d'] := by
  cases first <;> simp [membersText, memberChars]

theorem membersText_true_cons (k : String) (v : Json) (ms : Members) :
    membersText true ((k, v) :: ms)
      = quote k.toList ++ ':' :: (v.chars ++ membersText false ms) := by
  simp [membersText]

theorem membersText_false_cons (m : String × Json) (ms : Members) :
    membersText false (m :: ms) = ',' :: membersText true (m :: ms) := by
  obtain ⟨k, v⟩ := m
  simp [membersText, memberChars]

theorem chars_list (vs : List Json) : (Json.list vs).chars = '[' :: itemsText true vs := by
  cases vs with
  | nil => rw [chars, itemsText_nil]
  | cons v vs =>
    rw [chars]
    rfl

theorem chars_object (ms : Members) : (Json.object ms).chars = '\x7b' :: membersText true ms := by
  cases ms with
  | nil => rw [chars, membersText_nil]
  | cons m ms =>
    rw [chars]
    rfl

theorem chars_str (s : String) : (Json.str s).chars = quote s.toList := by
  rw [chars]

/-- Behind a value in a list stands a comma or the closing bracket. -/
theorem stops_itemsText (vs : List Json) (rest : List Char) :
    Stops continuesNumber (itemsText false vs ++ rest) := by
  cases vs with
  | nil =>
    rw [itemsText_nil, List.singleton_append, stops_cons]
    decide
  | cons v vs =>
    rw [itemsText_false_cons, List.cons_append, stops_cons]
    decide

/-- Behind a value in an object stands a comma or the closing bracket. -/
theorem stops_membersText (ms : Members) (rest : List Char) :
    Stops continuesNumber (membersText false ms ++ rest) := by
  cases ms with
  | nil =>
    rw [membersText_nil, List.singleton_append, stops_cons]
    decide
  | cons m ms =>
    rw [membersText_false_cons, List.cons_append, stops_cons]
    decide

/-! ### Lengths -/

theorem length_lt_itemsText (vs : List Json) : vs.length < (itemsText false vs).length := by
  induction vs with
  | nil => simp
  | cons v vs ih =>
    rw [itemsText_false_cons, itemsText_true_cons, List.length_cons, List.length_cons,
      List.length_append]
    omega

theorem length_lt_membersText (ms : Members) : ms.length < (membersText false ms).length := by
  induction ms with
  | nil => simp
  | cons m ms ih =>
    rw [membersText_false_cons, membersText_true_cons]
    simp only [List.length_cons, List.length_append]
    omega

/-- A list has fewer items than characters. -/
theorem length_lt_chars_list (vs : List Json) : vs.length < (Json.list vs).chars.length := by
  have hlt := length_lt_itemsText vs
  rw [chars_list, List.length_cons]
  cases vs with
  | nil => simp
  | cons v vs =>
    rw [itemsText_false_cons, List.length_cons] at hlt
    exact hlt

/-- An object has fewer members than characters. -/
theorem length_lt_chars_object (ms : Members) : ms.length < (Json.object ms).chars.length := by
  have hlt := length_lt_membersText ms
  rw [chars_object, List.length_cons]
  cases ms with
  | nil => simp
  | cons m ms =>
    rw [membersText_false_cons, List.length_cons] at hlt
    exact hlt

/-- An item has fewer characters than its list. -/
theorem length_chars_lt_list {v : Json} {vs : List Json} (h : v ∈ vs) :
    v.chars.length < (Json.list vs).chars.length := by
  rw [chars_list, List.length_cons]
  induction vs with
  | nil => exact absurd h List.not_mem_nil
  | cons w vs ih =>
    rw [itemsText_true_cons, List.length_append]
    rcases List.mem_cons.mp h with rfl | h
    · omega
    · have hlt := ih h
      cases vs with
      | nil => exact absurd h List.not_mem_nil
      | cons v' vs =>
        rw [itemsText_false_cons, List.length_cons]
        omega

/-- The value of a member has fewer characters than its object. -/
theorem length_chars_lt_object {m : String × Json} {ms : Members} (h : m ∈ ms) :
    m.2.chars.length < (Json.object ms).chars.length := by
  rw [chars_object, List.length_cons]
  induction ms with
  | nil => exact absurd h List.not_mem_nil
  | cons w ms ih =>
    rw [membersText_true_cons]
    simp only [List.length_append, List.length_cons]
    rcases List.mem_cons.mp h with rfl | h
    · omega
    · have hlt := ih h
      cases ms with
      | nil => exact absurd h List.not_mem_nil
      | cons m' ms =>
        rw [membersText_false_cons, List.length_cons]
        omega

/-- The values of members are shorter than whatever their object is shorter than. -/
theorem forall_length_lt_of_object {ms : Members} {n : Nat}
    (h : (Json.object ms).chars.length < n) : ∀ m ∈ ms, m.2.chars.length < n :=
  fun _ hm => Nat.lt_trans (length_chars_lt_object hm) h

/-! ### How the text of a value begins -/

/-- The text of the value begins with something else than space and the given character. -/
def Opens (b : Char) (v : Json) : Prop := ∃ c cs, v.chars = c :: cs ∧ isSpace c = false ∧ c ≠ b

theorem opens_str {b : Char} (h : '"' ≠ b) (s : String) : Opens b (.str s) :=
  ⟨'"', s.toList.flatMap escapeChar ++ ['"'], chars_str s, by decide, h⟩

theorem opens_list {b : Char} (h : '[' ≠ b) (vs : List Json) : Opens b (.list vs) :=
  ⟨'[', itemsText true vs, chars_list vs, by decide, h⟩

theorem opens_object {b : Char} (h : '\x7b' ≠ b) (ms : Members) : Opens b (.object ms) :=
  ⟨'\x7b', membersText true ms, chars_object ms, by decide, h⟩

theorem isSpace_of_isDigit {c : Char} (h : Numeral.isDigit c = true) : isSpace c = false := by
  by_contra hspace
  unfold isSpace at hspace
  simp only [Bool.not_eq_false, Bool.or_eq_true, decide_eq_true_eq] at hspace
  rcases hspace with ((rfl | rfl) | rfl) | rfl
  all_goals exact absurd h (by decide)

theorem exists_toDigits (n : Nat) :
    ∃ c cs, Nat.toDigits 10 n = c :: cs ∧ Numeral.isDigit c = true := by
  obtain ⟨c, cs, hchars⟩ := List.exists_cons_of_ne_nil (Nat.toDigits_ne_nil (b := 10) (n := n))
  have hmem : c ∈ Nat.toDigits 10 n := hchars ▸ List.mem_cons_self
  exact ⟨c, cs, hchars, isDigit_of_mem_toDigits hmem⟩

theorem opens_int (n : Int) : Opens ']' (.int n) := by
  cases n with
  | ofNat n =>
    obtain ⟨c, cs, hchars, hdigit⟩ := exists_toDigits n
    have hc : c ≠ ']' := by
      rintro rfl
      exact absurd hdigit (by decide)
    exact ⟨c, cs, by rw [chars, intChars, hchars], isSpace_of_isDigit hdigit, hc⟩
  | negSucc n =>
    exact ⟨'-', Nat.toDigits 10 (n + 1), by rw [chars, intChars], by decide, by decide⟩

theorem Exact.opens {v : Json} (h : Exact v) : Opens ']' v := by
  cases h with
  | null => exact ⟨'n', "ull".toList, by rw [chars]; rfl, by decide, by decide⟩
  | bool b =>
    cases b
    · exact ⟨'f', "alse".toList, by rw [chars]; rfl, by decide, by decide⟩
    · exact ⟨'t', "rue".toList, by rw [chars]; rfl, by decide, by decide⟩
  | int n => exact opens_int n
  | str s => exact opens_str (by decide) s
  | list h => exact opens_list (by decide) _
  | object h => exact opens_object (by decide) _

theorem skipSpace_chars {b : Char} {v : Json} (h : Opens b v) (rest : List Char) :
    skipSpace (v.chars ++ rest) = v.chars ++ rest := by
  obtain ⟨c, cs, hchars, hspace, -⟩ := h
  rw [hchars, skipSpace]
  apply dropWhile_of_stops
  rw [List.cons_append, stops_cons]
  exact hspace

/-! ### Turns -/

/-- A reader takes the text of a value and gives a result, whatever follows that does not go on
with a number. -/
def ReadsBack {α : Type} (read : List Char → Result (α × List Char)) (v : Json) (x : α) : Prop :=
  ∀ rest, Stops continuesNumber rest → read (v.chars ++ rest) = .ok (x, rest)

theorem nextItem_close (first : Bool) (rest : List Char) :
    nextItem first (']' :: rest) = .ok (.close rest) := by
  cases first <;> rfl

theorem nextItem_more {v : Json} (h : Opens ']' v) (first : Bool) (vs : List Json)
    (rest : List Char) :
    nextItem first (itemsText first (v :: vs) ++ rest)
      = .ok (.more (v.chars ++ (itemsText false vs ++ rest))) := by
  have hskip := skipSpace_chars h (itemsText false vs ++ rest)
  obtain ⟨c, cs, hchars, -, hc⟩ := h
  cases first with
  | true =>
    rw [itemsText_true_cons, List.append_assoc]
    unfold nextItem
    rw [hskip, hchars, List.cons_append]
    simp [hc]
  | false =>
    have hcomma : ∀ text, skipSpace (',' :: text) = ',' :: text := fun _ => rfl
    rw [itemsText_false_cons, itemsText_true_cons, List.cons_append, List.append_assoc]
    unfold nextItem
    rw [hcomma]
    simp only
    rw [hskip, hchars, List.cons_append]
    simp [hc]

theorem nextMember_close (first : Bool) (rest : List Char) :
    nextMember first ('\x7d' :: rest) = .ok (.close rest) := by
  cases first <;> rfl

/-- A member starts behind the opening quote of its name. -/
theorem nextMember_more (first : Bool) (k : String) (v : Json) (ms : Members) (rest : List Char) :
    nextMember first (membersText first ((k, v) :: ms) ++ rest)
      = .ok (.more (k.toList.flatMap escapeChar
          ++ '"' :: ':' :: (v.chars ++ (membersText false ms ++ rest)))) := by
  cases first with
  | true =>
    rw [membersText_true_cons, quote]
    simp only [List.cons_append, List.append_assoc, List.nil_append]
    rfl
  | false =>
    rw [membersText_false_cons, membersText_true_cons, quote]
    simp only [List.cons_append, List.append_assoc, List.nil_append]
    rfl

theorem readColon_colon (rest : List Char) : readColon (':' :: rest) = .ok rest := rfl

/-- Items that are read back are read back as a list. -/
theorem readItems_itemsText {α : Type} {item : List Char → Result (α × List Char)} {f : α → Json}
    {xs : List α} (hopens : ∀ x ∈ xs, Opens ']' (f x))
    (hitem : ∀ x ∈ xs, ReadsBack item (f x) x) {n : Nat} (hn : xs.length < n) (first : Bool)
    (rest : List Char) :
    readItems item n first (itemsText first (xs.map f) ++ rest) = .ok (xs, rest) := by
  induction xs generalizing n first with
  | nil =>
    obtain ⟨n, rfl⟩ := Nat.exists_eq_succ_of_ne_zero (Nat.ne_zero_of_lt hn)
    rw [List.map_nil, itemsText_nil, List.singleton_append, readItems, nextItem_close]
    rfl
  | cons x xs ih =>
    obtain ⟨n, rfl⟩ := Nat.exists_eq_succ_of_ne_zero (Nat.ne_zero_of_lt hn)
    obtain ⟨hx, hopens⟩ := List.forall_mem_cons.mp hopens
    obtain ⟨hread, hitem⟩ := List.forall_mem_cons.mp hitem
    have hfirst := hread _ (stops_itemsText (xs.map f) rest)
    have hrest := ih hopens hitem (Nat.lt_of_succ_lt_succ hn) false
    rw [List.map_cons, readItems, nextItem_more hx, ok_bind]
    simp only
    rw [hfirst, ok_bind, hrest, ok_bind]

/-- Members in order that are read back are read back as an object, behind others before them in
the order. -/
theorem readMembers_membersText {value : List Char → Result (Json × List Char)} {ms : Members}
    (hvalue : ∀ m ∈ ms, ReadsBack value m.2 m.2) {n : Nat} (hn : ms.length < n) (first : Bool)
    {acc : Members} (horder : InOrder (acc ++ ms)) (rest : List Char) :
    readMembers value n first acc (membersText first ms ++ rest) = .ok (acc ++ ms, rest) := by
  induction ms generalizing n first acc with
  | nil =>
    obtain ⟨n, rfl⟩ := Nat.exists_eq_succ_of_ne_zero (Nat.ne_zero_of_lt hn)
    rw [membersText_nil, List.singleton_append, readMembers, nextMember_close, List.append_nil]
    rfl
  | cons m ms ih =>
    obtain ⟨k, v⟩ := m
    obtain ⟨n, rfl⟩ := Nat.exists_eq_succ_of_ne_zero (Nat.ne_zero_of_lt hn)
    obtain ⟨hread, hvalue⟩ := List.forall_mem_cons.mp hvalue
    have hfirst := hread _ (stops_membersText ms rest)
    -- The name comes behind those that have been read, so the member is put at the end.
    have hput : Members.put k v acc = acc ++ [(k, v)] := by
      apply put_eq_append
      intro m hm
      exact (List.pairwise_append.mp horder).2.2 m hm (k, v) List.mem_cons_self
    have hassoc : acc ++ [(k, v)] ++ ms = acc ++ (k, v) :: ms := List.append_cons _ _ _ |>.symm
    have hrest := ih hvalue (Nat.lt_of_succ_lt_succ hn) false (hassoc ▸ horder)
    rw [readMembers, nextMember_more, ok_bind]
    simp only
    rw [readString_quoted, ok_bind]
    simp only
    rw [readColon_colon, ok_bind, hfirst, ok_bind]
    simp only
    rw [String.ofList_toList, hput, hrest, hassoc]

/-! ### Values -/

section

variable {bound depth : Nat}

theorem readValue_digit {c : Char} (h : Numeral.isDigit c = true) (cs : List Char) :
    readValue bound depth (c :: cs) = readNumber false (c :: cs) := by
  have hspace : skipSpace (c :: cs) = c :: cs := by
    rw [skipSpace, dropWhile_of_stops]
    rw [stops_cons]
    exact isSpace_of_isDigit h
  have hne : ∀ b : Char, Numeral.isDigit b = false → c ≠ b := by
    rintro b hb rfl
    rw [h] at hb
    cases hb
  unfold readValue
  rw [hspace]
  simp only [hne 'n' (by decide), hne 't' (by decide), hne 'f' (by decide), hne '-' (by decide),
    h, if_false, if_true]

theorem readValue_minus (cs : List Char) :
    readValue bound depth ('-' :: cs) = readNumber true cs := by
  unfold readValue
  rfl

theorem readValue_quote (cs : List Char) :
    readValue bound depth ('"' :: cs)
      = readString cs >>= fun r => .ok (.str (String.ofList r.1), r.2) := by
  unfold readValue
  rfl

theorem readValue_list (cs : List Char) :
    readValue bound (depth + 1) ('[' :: cs)
      = readItems (readValue bound depth) bound true cs >>= fun r => .ok (.list r.1, r.2) := by
  rfl

theorem readValue_object (cs : List Char) :
    readValue bound (depth + 1) ('\x7b' :: cs)
      = readMembers (readValue bound depth) bound true [] cs >>= fun r =>
          .ok (.object r.1, r.2) := by
  rfl

/-- A whole number that fits into 64 bits is read back. -/
theorem readsBack_int {n : Int} (h : IsWhole64 n) :
    ReadsBack (readValue bound depth) (.int n) (.int n) := by
  obtain ⟨hlow, hhigh⟩ := h
  intro rest hrest
  rw [chars]
  cases n with
  | ofNat n =>
    have hn : n < 2 ^ 64 := by
      rw [Int.ofNat_eq_natCast] at hhigh
      omega
    obtain ⟨c, cs, hchars, hdigit⟩ := exists_toDigits n
    have hread := readNumber_toDigits hn hrest false
    rw [intChars]
    rw [hchars, List.cons_append] at hread ⊢
    rw [readValue_digit hdigit, hread]
    rfl
  | negSucc n =>
    have hn : n + 1 ≤ 2 ^ 63 := by omega
    have hwhole : wholeNumber true (n + 1) = .int (.negSucc n) := by
      have hreal : ¬ (n + 1 = 0 || Nat.pow 2 63 < n + 1) := by
        simp only [Bool.or_eq_true, decide_eq_true_eq]
        rintro (hzero | hlarge)
        · omega
        · exact absurd hlarge (Nat.not_lt.mpr hn)
      rw [wholeNumber, if_neg (by decide), if_neg hreal, Int.negSucc_eq, Int.natCast_succ]
    have hread := readNumber_toDigits (n := n + 1) (by omega) hrest true
    rw [intChars, List.cons_append, readValue_minus, hread, hwhole]

/-- A string is read back. -/
theorem readsBack_str (s : String) : ReadsBack (readValue bound depth) (.str s) (.str s) := by
  intro rest _
  have hread := readString_quoted s.toList rest
  rw [chars_str, quote, List.cons_append, List.append_assoc, List.singleton_append,
    readValue_quote, hread, ok_bind, String.ofList_toList]

end

/-- **A value that can be read and whose numbers are whole is read back**, by a reader for texts of
more characters than it has. -/
theorem readsBack_readValue {bound depth : Nat} {v : Json} (hkept : Kept depth v) (hexact : Exact v)
    (hbound : v.chars.length < bound) : ReadsBack (readValue bound depth) v v := by
  induction hkept with
  | null =>
    intro rest _
    rw [chars]
    unfold readValue
    rfl
  | bool b =>
    intro rest _
    cases b
    all_goals
      rw [chars]
      unfold readValue
      rfl
  | int h => exact readsBack_int h
  | real x => cases hexact
  | str s => exact readsBack_str s
  | @list d vs _ ih =>
    have hexact : ∀ v ∈ vs, Exact v := by
      cases hexact with
      | list h => exact h
    intro rest _
    have hopens : ∀ v ∈ vs, Opens ']' (id v) := fun v hv => (hexact v hv).opens
    have hread : ∀ v ∈ vs, ReadsBack (readValue bound d) (id v) v := by
      intro v hv
      have hlength := length_chars_lt_list hv
      exact ih v hv (hexact v hv) (by omega)
    have hlength := length_lt_chars_list vs
    have hitems := readItems_itemsText hopens hread (n := bound) (by omega) true rest
    rw [List.map_id] at hitems
    rw [chars_list, List.cons_append, readValue_list, hitems, ok_bind]
  | @object d ms horder _ ih =>
    have hexact : ∀ m ∈ ms, Exact m.2 := by
      cases hexact with
      | object h => exact h
    intro rest _
    have hread : ∀ m ∈ ms, ReadsBack (readValue bound d) m.2 m.2 := by
      intro m hm
      exact ih m hm (hexact m hm) (forall_length_lt_of_object hbound m hm)
    have hlength := length_lt_chars_object ms
    have hfirst : InOrder ([] ++ ms) := horder
    have hmembers := readMembers_membersText hread (n := bound) (by omega) true hfirst rest
    rw [List.nil_append] at hmembers
    rw [chars_object, List.cons_append, readValue_object, hmembers, ok_bind]

/-! ### Whole texts -/

/-- What is read to the end of a text was read at its beginning. -/
theorem exists_of_readAll {α : Type} {reader : Reader α} {text : List Char} {x : α}
    (h : readAll reader text = .ok x) :
    ∃ rest, reader (text.length + 1) maxDepth text = .ok (x, rest) := by
  unfold readAll at h
  obtain ⟨⟨x', rest⟩, hread, h⟩ := bind_eq_ok.mp h
  simp only at h
  split at h
  · cases h
    exact ⟨rest, hread⟩
  · cases h

/-- A value that is read back is read back from its text alone. -/
theorem readAll_chars {α : Type} {reader : Reader α} {v : Json} {x : α}
    (h : ReadsBack (reader (v.chars.length + 1) maxDepth) v x) :
    readAll reader v.chars = .ok x := by
  have hread := h [] stops_nil
  rw [List.append_nil] at hread
  rw [readAll, hread]
  rfl

/-- A value that can be read and whose numbers are whole is denoted by its own text. -/
theorem read_chars_of_kept {v : Json} (hkept : Kept maxDepth v) (hexact : Exact v) :
    read v.chars = .ok v :=
  readAll_chars (readsBack_readValue hkept hexact (Nat.lt_succ_self _))

/-- **A value that a text denotes is denoted by its own text**, if its numbers are whole. -/
theorem read_chars_of_read {text : List Char} {v : Json} (h : read text = .ok v)
    (hexact : Exact v) : read v.chars = .ok v := by
  obtain ⟨rest, hread⟩ := exists_of_readAll h
  exact read_chars_of_kept (kept_of_readValue hread) hexact

end FlowCanvas.Json
