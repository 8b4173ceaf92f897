import FlowCanvas.Proofs.Text.Wrap
import Mathlib.Data.List.Chain

/-!
# How a label is set anew

Wrapping a paragraph looks at its words, cuts those that are wider than a line, and packs the rest.
Here cutting and packing are parted.  The words and the pieces of the cut ones, in order, are the
*tokens* of the paragraph, and they are packed by one rule (`packTokens`): a word joins the line
that is being filled if it fits, and everything else begins a new line.  `pack_eq` says that this is
how lines are packed, and what is claimed of the lines is read off the rule, by induction over the
tokens.

## Main definitions

* `Token`, `tokens` — the words and pieces of a paragraph.
* `lineOf` — tokens as a line.
* `packTokens` — the rule by which tokens are packed.
* `Division` — what is true of tokens that stand on lines.

## Main results

* `pack_eq` — packing words is packing their tokens.
* `division_packTokens` — tokens that are packed are divided as they should be.
* `wrap_eq_division` — **a label that does not fit is set anew, paragraph by paragraph, by dividing
  the tokens of each into lines as full as can be.**
-/

namespace FlowCanvas

/-! ### Paragraphs and words -/

section Separators

variable {α : Type} [DecidableEq α] {a : α}

theorem notMem_of_mem_splitOn {l part : List α} (h : part ∈ l.splitOn a) : a ∉ part := by
  induction l generalizing part with
  | nil =>
    rw [List.splitOn_nil, List.mem_singleton] at h
    rw [h]
    exact List.not_mem_nil
  | cons x l ih =>
    rw [List.splitOn_cons_eq_if_modifyHead] at h
    split at h
    · rcases List.mem_cons.mp h with rfl | h
      · exact List.not_mem_nil
      · exact ih h
    · next hx =>
      cases hsplit : l.splitOn a with
      | nil => exact absurd hsplit (List.splitOn_ne_nil a l)
      | cons k ks =>
        rw [hsplit] at h ih
        rcases List.mem_cons.mp h with rfl | h
        · intro hmem
          rcases List.mem_cons.mp hmem with rfl | hmem
          · exact hx (beq_self_eq_true _)
          · exact ih List.mem_cons_self hmem
        · exact ih (List.mem_cons_of_mem k h)

/-- There is one part more than there are separators. -/
theorem length_splitOn (a : α) (l : List α) : (l.splitOn a).length = l.count a + 1 := by
  induction l with
  | nil => rfl
  | cons x l ih =>
    rw [List.splitOn_cons_eq_if_modifyHead, List.count_cons]
    split
    · rw [List.length_cons, ih]
    · rw [List.length_modifyHead, ih, Nat.add_zero]

end Separators

/-- The words of a text are the text without its white space. -/
theorem flatten_words (cs : List Char) : (words cs).flatten = cs.filter fun c => !isBlank c := by
  rw [words, List.flatten_filter_not_isEmpty]
  induction cs with
  | nil => rfl
  | cons c cs ih =>
    rw [List.splitOnP_cons_eq_if_modifyHead]
    by_cases hc : isBlank c
    · rw [if_pos hc, List.flatten_cons, List.nil_append, ih, List.filter_cons_of_neg (by simp [hc])]
    · rw [if_neg hc, List.filter_cons_of_pos (by simp [hc]), ← ih]
      cases hsplit : cs.splitOnP isBlank with
      | nil => exact absurd hsplit (List.splitOnP_ne_nil _ cs)
      | cons k ks => rfl

theorem ne_nil_of_mem_words {cs w : List Char} (h : w ∈ words cs) : w ≠ [] := by
  have := (List.mem_filter.mp h).2
  rintro rfl
  simp at this

theorem words_eq_nil_iff (cs : List Char) : words cs = [] ↔ ∀ c ∈ cs, isBlank c := by
  have hall : (words cs).flatten = [] ↔ ∀ c ∈ cs, isBlank c := by
    rw [flatten_words, List.filter_eq_nil_iff]
    simp
  rw [← hall, List.flatten_eq_nil_iff]
  constructor
  · intro h w hw
    rw [h] at hw
    exact absurd hw List.not_mem_nil
  · intro h
    rw [List.eq_nil_iff_forall_not_mem]
    intro w hw
    exact ne_nil_of_mem_words hw (h w hw)

/-! ### Tokens -/

/-- A part of a paragraph that stands on one line. -/
inductive Token
  /-- A word that fits on a line. -/
  | word (chars : List Char)
  /-- A piece of a word that does not; `last` if it is the last one. -/
  | piece (chars : List Char) (last : Bool)
  deriving DecidableEq, Repr, Inhabited

/-- The text of a token. -/
def Token.chars : Token → List Char
  | .word cs => cs
  | .piece cs _ => cs

@[simp] theorem Token.chars_word (cs : List Char) : (Token.word cs).chars = cs := rfl

@[simp] theorem Token.chars_piece (cs : List Char) (last : Bool) :
    (Token.piece cs last).chars = cs := rfl

/-- The token is a piece of a word that is cut. -/
def Token.IsPiece : Token → Prop
  | .word _ => False
  | .piece _ _ => True

/-- The token is a piece of a word that is cut, and more of the word follows. -/
def Token.GoesOn : Token → Prop
  | .word _ => False
  | .piece _ last => last = false

/-- The pieces of a word as tokens. -/
def pieceTokens : List (List Char) → List Token
  | [] => []
  | [cs] => [.piece cs true]
  | cs :: rest => .piece cs false :: pieceTokens rest

/-- The tokens of a word: itself, or its pieces if it is wider than a line. -/
def wordTokens (max : Nat) (w : List Char) : List Token :=
  if max < columns w then pieceTokens (pieces max w) else [.word w]

/-- The tokens of a paragraph. -/
def tokens (max : Nat) (paragraph : List Char) : List Token :=
  (words paragraph).flatMap (wordTokens max)

/-- Tokens as a line: parted by single spaces. -/
def lineOf (ts : List Token) : List Char := [' '].intercalate (ts.map Token.chars)

theorem pieceTokens_eq {ps : List (List Char)} (h : ps ≠ []) :
    pieceTokens ps = ps.dropLast.map (Token.piece · false) ++ [.piece (ps.getLastD []) true] := by
  induction ps with
  | nil => exact absurd rfl h
  | cons p ps ih =>
    cases ps with
    | nil => rfl
    | cons q qs =>
      have hne : q :: qs ≠ [] := List.cons_ne_nil q qs
      rw [pieceTokens, ih hne]
      · rfl
      · exact hne

theorem isPiece_of_mem_pieceTokens {ps : List (List Char)} {t : Token} (h : t ∈ pieceTokens ps) :
    t.IsPiece := by
  by_cases hps : ps = []
  · rw [hps] at h
    exact absurd h List.not_mem_nil
  · rw [pieceTokens_eq hps] at h
    rcases List.mem_append.mp h with h | h
    · obtain ⟨cs, -, rfl⟩ := List.mem_map.mp h
      trivial
    · rw [List.mem_singleton.mp h]
      trivial

/-- Within a word, a piece stands before a piece. -/
theorem isChain_wordTokens (max : Nat) (w : List Char) :
    (wordTokens max w).IsChain fun t u => t.GoesOn → u.IsPiece := by
  unfold wordTokens
  split
  · refine (List.isChain_isInfix _).imp fun t u h _ => isPiece_of_mem_pieceTokens (h.subset ?_)
    exact List.mem_cons_of_mem t List.mem_cons_self
  · exact List.isChain_singleton _

/-- At the end of a word stands no piece that goes on. -/
theorem not_goesOn_of_getLast {max : Nat} {w : List Char} {t : Token}
    (h : t ∈ (wordTokens max w).getLast?) : ¬ t.GoesOn := by
  unfold wordTokens at h
  split at h
  · by_cases hps : pieces max w = []
    · rw [hps] at h
      exact absurd h (Option.not_mem_none t)
    · rw [pieceTokens_eq hps, List.getLast?_concat] at h
      rw [← Option.some.inj h]
      exact Bool.noConfusion
  · rw [← Option.some.inj h]
    exact id

/-- In a paragraph, a piece that goes on stands before a piece. -/
theorem isChain_tokens (max : Nat) (paragraph : List Char) :
    (tokens max paragraph).IsChain fun t u => t.GoesOn → u.IsPiece := by
  unfold tokens
  induction words paragraph with
  | nil => exact List.isChain_nil
  | cons w ws ih =>
    rw [List.flatMap_cons, List.isChain_append]
    exact ⟨isChain_wordTokens max w, ih, fun t ht _ _ hgoes =>
      absurd hgoes (not_goesOn_of_getLast ht)⟩

theorem pieces_ne_nil {max : Nat} {cs : List Char} (h : cs ≠ []) : pieces max cs ≠ [] := by
  cases cs with
  | nil => exact absurd rfl h
  | cons c cs =>
    rw [pieces_cons]
    exact List.cons_ne_nil _ _

theorem ne_nil_of_mem_pieces {max : Nat} {cs piece : List Char} (h : piece ∈ pieces max cs) :
    piece ≠ [] := by
  induction cs using pieces.induct max with
  | case1 => simp at h
  | case2 c cs ih =>
    rw [pieces_cons] at h
    rcases List.mem_cons.mp h with rfl | h
    · exact List.cons_ne_nil _ _
    · exact ih h

/-- The pieces of a word, and so a token of it, are not empty. -/
theorem chars_ne_nil_of_mem_wordTokens {max : Nat} {w : List Char} (hw : w ≠ []) {t : Token}
    (h : t ∈ wordTokens max w) : t.chars ≠ [] := by
  unfold wordTokens at h
  split at h
  · have hps : pieces max w ≠ [] := pieces_ne_nil hw
    rw [pieceTokens_eq hps] at h
    rcases List.mem_append.mp h with h | h
    · obtain ⟨cs, hcs, rfl⟩ := List.mem_map.mp h
      exact ne_nil_of_mem_pieces (List.mem_of_mem_dropLast hcs)
    · rw [List.mem_singleton.mp h, Token.chars_piece, List.getLastD_eq_getLast?,
        List.getLast?_eq_getLast_of_ne_nil hps]
      exact ne_nil_of_mem_pieces (List.getLast_mem hps)
  · rw [List.mem_singleton.mp h]
    exact hw

/-! ### Lines of tokens -/

theorem lineOf_singleton (t : Token) : lineOf [t] = t.chars := List.intercalate_singleton

/-- A word that joins a line stands behind a space. -/
theorem lineOf_append_word {g : List Token} (hg : g ≠ []) (w : List Char) :
    lineOf (g ++ [.word w]) = lineOf g ++ ' ' :: w := by
  unfold lineOf
  induction g with
  | nil => exact absurd rfl hg
  | cons t g ih =>
    cases g with
    | nil => simp
    | cons u g =>
      have hne : u :: g ≠ [] := List.cons_ne_nil u g
      have := ih hne
      simp only [List.cons_append, List.map_cons, List.intercalate_cons_cons] at this ⊢
      rw [this]
      simp

theorem lineOf_ne_nil {g : List Token} (hg : g ≠ []) (h : ∀ t ∈ g, t.chars ≠ []) :
    lineOf g ≠ [] := by
  cases g with
  | nil => exact absurd rfl hg
  | cons t g =>
    have ht : t.chars ≠ [] := h t List.mem_cons_self
    unfold lineOf
    cases g with
    | nil => simpa using ht
    | cons u g => simp [List.intercalate_cons_cons, ht]

/-! ### Packing tokens -/

/-- A word joins a line if there is one and the word fits on it, behind a space. -/
def Token.Joins (max : Nat) (line : List Token) : Token → Prop
  | .word w => line ≠ [] ∧ columns (lineOf line) + columns w + 1 ≤ max
  | .piece _ _ => False

instance (max : Nat) (line : List Token) (t : Token) : Decidable (t.Joins max line) := by
  cases t <;> unfold Token.Joins <;> infer_instance

/-- A line that is done, unless nothing stands on it. -/
def finished {α : Type} (line : List α) : List (List α) := if line.isEmpty then [] else [line]

/-- Packs tokens into lines.  The first argument after the width is the line being filled. -/
def packTokens (max : Nat) : List Token → List Token → List (List Token)
  | line, [] => finished line
  | line, t :: ts =>
    if t.Joins max line then packTokens max (line ++ [t]) ts
    else finished line ++ packTokens max [t] ts

@[simp] theorem packTokens_nil (max : Nat) (line : List Token) :
    packTokens max line [] = finished line := rfl

theorem packTokens_cons (max : Nat) (line : List Token) (t : Token) (ts : List Token) :
    packTokens max line (t :: ts)
      = if t.Joins max line then packTokens max (line ++ [t]) ts
        else finished line ++ packTokens max [t] ts := rfl

theorem packTokens_piece (max : Nat) (line : List Token) (cs : List Char) (last : Bool)
    (ts : List Token) :
    packTokens max line (.piece cs last :: ts)
      = finished line ++ packTokens max [.piece cs last] ts := by
  have hjoins : ¬ Token.Joins max line (.piece cs last) := id
  rw [packTokens_cons, if_neg hjoins]

/-- Pieces that go on stand on lines of their own. -/
theorem packTokens_pieces (max : Nat) (line : List Token) (ps : List (List Char))
    (cs : List Char) (ts : List Token) :
    packTokens max line (ps.map (Token.piece · false) ++ .piece cs true :: ts)
      = finished line ++ ps.map (fun p => [.piece p false])
        ++ packTokens max [.piece cs true] ts := by
  induction ps generalizing line with
  | nil => rw [List.map_nil, List.nil_append, packTokens_piece, List.map_nil, List.append_nil]
  | cons p ps ih =>
    rw [List.map_cons, List.cons_append, packTokens_piece, ih]
    simp [finished]

theorem map_lineOf_finished {line : List Token} (h : ∀ t ∈ line, t.chars ≠ []) :
    (finished line).map lineOf = finished (lineOf line) := by
  cases line with
  | nil => rfl
  | cons t line =>
    have hne : lineOf (t :: line) ≠ [] := lineOf_ne_nil (List.cons_ne_nil t line) h
    simp [finished, hne]

/-- **Packing words is packing their tokens**, by induction over the words. -/
theorem pack_eq {max : Nat} {line : List Token} (hline : ∀ t ∈ line, t.chars ≠ [])
    {ws : List (List Char)} (hws : ∀ w ∈ ws, w ≠ []) :
    pack max (lineOf line) ws
      = (packTokens max line (ws.flatMap (wordTokens max))).map lineOf := by
  induction ws generalizing line with
  | nil =>
    rw [List.flatMap_nil, packTokens_nil, map_lineOf_finished hline]
    rfl
  | cons w ws ih =>
    obtain ⟨hw, hws⟩ := List.forall_mem_cons.mp hws
    rw [pack_cons, List.flatMap_cons]
    by_cases hwide : max < columns w
    · -- The pieces of the word stand on lines of their own, and the last one is filled up.
      have hps : pieces max w ≠ [] := pieces_ne_nil hw
      have htokens : wordTokens max w = pieceTokens (pieces max w) := if_pos hwide
      have hlast : ∀ t ∈ [Token.piece ((pieces max w).getLastD []) true], t.chars ≠ [] := by
        intro t ht
        apply chars_ne_nil_of_mem_wordTokens hw
        rw [htokens, pieceTokens_eq hps]
        exact List.mem_append_right _ ht
      have hrest := ih hlast hws
      rw [lineOf_singleton, Token.chars_piece] at hrest
      rw [if_pos hwide, hrest, htokens, pieceTokens_eq hps, List.append_assoc (List.map _ _),
        List.singleton_append, packTokens_pieces, List.map_append, List.map_append,
        map_lineOf_finished hline]
      simp [finished, lineOf_singleton, Function.comp_def]
    have htokens : wordTokens max w = [.word w] := if_neg hwide
    rw [if_neg hwide, htokens, List.singleton_append, packTokens_cons]
    have hword : ∀ t ∈ [Token.word w], t.chars ≠ [] := by simpa using hw
    have hnew := ih hword hws
    rw [lineOf_singleton, Token.chars_word] at hnew
    cases line with
    | nil =>
      -- The first word begins the first line.
      have hjoins : ¬ Token.Joins max [] (.word w) := fun h => h.1 rfl
      rw [if_neg hjoins, hnew]
      rfl
    | cons t line =>
      have hne : t :: line ≠ [] := List.cons_ne_nil t line
      have hempty : ¬ (lineOf (t :: line)).isEmpty = true := by
        simpa using lineOf_ne_nil hne hline
      rw [if_neg hempty]
      by_cases hfit : columns (lineOf (t :: line)) + columns w + 1 ≤ max
      · have hjoined : ∀ u ∈ t :: line ++ [.word w], u.chars ≠ [] := by
          intro u hu
          rcases List.mem_append.mp hu with hu | hu
          · exact hline u hu
          · exact hword u hu
        have hjoins : Token.Joins max (t :: line) (.word w) := ⟨hne, hfit⟩
        rw [if_pos hfit, if_pos hjoins, ← lineOf_append_word hne, ih hjoined hws]
      · have hjoins : ¬ Token.Joins max (t :: line) (.word w) := fun h => hfit h.2
        rw [if_neg hfit, if_neg hjoins, hnew]
        rfl

/-! ### Divided tokens -/

/-- What is true of tokens that stand on lines. -/
structure Division (max : Nat) (ts : List Token) (groups : List (List Token)) : Prop where
  /-- Nothing is lost, doubled or moved. -/
  flatten_eq : groups.flatten = ts
  /-- Something stands on every line. -/
  ne_nil : ∀ g ∈ groups, g ≠ []
  /-- A word that is cut begins a new line, and so does each of its pieces. -/
  begins : ∀ g ∈ groups, ∀ t ∈ g.tail, ¬ t.IsPiece
  /-- All pieces but the last one of a word stand alone. -/
  alone : ∀ g ∈ groups, ∀ t ∈ g, t.GoesOn → g = [t]
  /-- A line that begins with a word follows on one that the word does not fit on. -/
  greedy : groups.IsChain fun g h =>
    ∀ w, h.head? = some (.word w) → max < columns (lineOf g) + 1 + columns w

theorem flatten_finished {α : Type} (line : List α) : (finished line).flatten = line := by
  cases line <;> simp [finished]

theorem mem_finished {α : Type} {line g : List α} (h : g ∈ finished line) : g = line ∧ g ≠ [] := by
  cases line with
  | nil => exact absurd h List.not_mem_nil
  | cons t line =>
    rw [List.mem_singleton.mp h]
    exact ⟨rfl, List.cons_ne_nil t line⟩

theorem flatten_packTokens (max : Nat) (line ts : List Token) :
    (packTokens max line ts).flatten = line ++ ts := by
  induction ts generalizing line with
  | nil => rw [packTokens_nil, flatten_finished, List.append_nil]
  | cons t ts ih =>
    rw [packTokens_cons]
    split
    · rw [ih, List.append_assoc, List.singleton_append]
    · rw [List.flatten_append, flatten_finished, ih, List.singleton_append]

theorem ne_nil_of_mem_packTokens {max : Nat} {line ts g : List Token}
    (h : g ∈ packTokens max line ts) : g ≠ [] := by
  induction ts generalizing line with
  | nil => exact (mem_finished h).2
  | cons t ts ih =>
    rw [packTokens_cons] at h
    split at h
    · exact ih h
    · rcases List.mem_append.mp h with h | h
      · exact (mem_finished h).2
      · exact ih h

/-- Only words join a line. -/
theorem not_isPiece_of_mem_tail {max : Nat} {line ts : List Token}
    (hline : ∀ t ∈ line.tail, ¬ t.IsPiece) {g : List Token} (hg : g ∈ packTokens max line ts) :
    ∀ t ∈ g.tail, ¬ t.IsPiece := by
  induction ts generalizing line with
  | nil =>
    rw [(mem_finished hg).1]
    exact hline
  | cons t ts ih =>
    rw [packTokens_cons] at hg
    split at hg
    · next hjoins =>
      have hjoined : ∀ u ∈ (line ++ [t]).tail, ¬ u.IsPiece := by
        cases t with
        | piece _ _ => exact absurd hjoins id
        | word w =>
          intro u hu
          rw [List.tail_append_of_ne_nil hjoins.1] at hu
          rcases List.mem_append.mp hu with hu | hu
          · exact hline u hu
          · rw [List.mem_singleton.mp hu]
            exact id
      exact ih hjoined hg
    · rcases List.mem_append.mp hg with hg | hg
      · rw [(mem_finished hg).1]
        exact hline
      · exact ih (fun _ hu => absurd hu List.not_mem_nil) hg

/-- The line being filled is the beginning of the first line. -/
theorem head?_packTokens (max : Nat) (t : Token) (line ts : List Token) :
    ∃ more, (packTokens max (t :: line) ts).head? = some (t :: more) := by
  induction ts generalizing line with
  | nil => exact ⟨line, rfl⟩
  | cons u ts ih =>
    rw [packTokens_cons]
    split
    · exact ih (line ++ [u])
    · exact ⟨line, rfl⟩

/-- A word that begins a line did not fit on the one before. -/
theorem isChain_packTokens (max : Nat) (line ts : List Token) :
    (packTokens max line ts).IsChain fun g h =>
      ∀ w, h.head? = some (.word w) → max < columns (lineOf g) + 1 + columns w := by
  induction ts generalizing line with
  | nil =>
    rw [packTokens_nil]
    unfold finished
    split
    · exact List.isChain_nil
    · exact List.isChain_singleton _
  | cons t ts ih =>
    rw [packTokens_cons]
    split
    · exact ih _
    · next hjoins =>
      cases line with
      | nil => exact ih _
      | cons u line =>
        have hfinished : finished (u :: line) = [u :: line] := rfl
        rw [hfinished, List.singleton_append, List.isChain_cons]
        refine ⟨fun h hh w hw => ?_, ih _⟩
        obtain ⟨more, hmore⟩ := head?_packTokens max t [] ts
        rw [Option.mem_def, hmore, Option.some.injEq] at hh
        rw [← hh, List.head?_cons, Option.some.injEq] at hw
        rw [hw] at hjoins
        have hnot : ¬ columns (lineOf (u :: line)) + columns w + 1 ≤ max := fun h =>
          hjoins ⟨List.cons_ne_nil u line, h⟩
        omega

/-- Of a stretch of tokens that begins a line, a piece that goes on is all there is: the next token
of the paragraph is a piece, and begins the next line. -/
theorem eq_singleton_of_goesOn {g : List Token}
    (hchain : g.IsChain fun t u => t.GoesOn → u.IsPiece) (htail : ∀ t ∈ g.tail, ¬ t.IsPiece)
    {t : Token} (ht : t ∈ g) (hgoes : t.GoesOn) : g = [t] := by
  cases g with
  | nil => exact absurd ht List.not_mem_nil
  | cons u g =>
    rcases List.mem_cons.mp ht with rfl | ht
    · cases g with
      | nil => rfl
      | cons v g =>
        have hpiece : v.IsPiece := (List.isChain_cons_cons.mp hchain).1 hgoes
        exact absurd hpiece (htail v List.mem_cons_self)
    · have hpiece : t.IsPiece := by
        cases t with
        | word _ => exact hgoes
        | piece _ _ => trivial
      exact absurd hpiece (htail t ht)

/-- **Tokens that are packed are divided as they should be.** -/
theorem division_packTokens {max : Nat} {ts : List Token}
    (hchain : ts.IsChain fun t u => t.GoesOn → u.IsPiece) :
    Division max ts (packTokens max [] ts) := by
  have hflatten : (packTokens max [] ts).flatten = ts := flatten_packTokens max [] ts
  have htail : ∀ g ∈ packTokens max [] ts, ∀ t ∈ g.tail, ¬ t.IsPiece := fun g hg =>
    not_isPiece_of_mem_tail (fun _ ht => absurd ht List.not_mem_nil) hg
  refine ⟨hflatten, fun g hg => ne_nil_of_mem_packTokens hg, htail, ?_, ?greedy⟩
  case greedy => exact isChain_packTokens max [] ts
  intro g hg t ht hgoes
  have hstretch : g <:+: ts := by
    rw [← hflatten]
    exact List.infix_of_mem_flatten hg
  have hline := List.IsChain.infix hchain hstretch
  exact eq_singleton_of_goesOn hline (htail g hg) ht hgoes

/-! ### Labels -/

theorem wordTokens_ne_nil {max : Nat} {w : List Char} (hw : w ≠ []) : wordTokens max w ≠ [] := by
  unfold wordTokens
  split
  · rw [pieceTokens_eq (pieces_ne_nil hw)]
    exact List.append_ne_nil_of_right_ne_nil _ (List.cons_ne_nil _ _)
  · exact List.cons_ne_nil _ _

theorem tokens_eq_nil_iff (max : Nat) (paragraph : List Char) :
    tokens max paragraph = [] ↔ ∀ c ∈ paragraph, isBlank c := by
  rw [← words_eq_nil_iff, tokens, List.flatMap_eq_nil_iff]
  constructor
  · intro h
    rw [List.eq_nil_iff_forall_not_mem]
    intro w hw
    exact wordTokens_ne_nil (ne_nil_of_mem_words hw) (h w hw)
  · intro h w hw
    rw [h] at hw
    exact absurd hw List.not_mem_nil

theorem packTokens_ne_nil {max : Nat} {line ts : List Token} (h : ts ≠ []) :
    packTokens max line ts ≠ [] := by
  intro hnil
  have := flatten_packTokens max line ts
  rw [hnil, List.flatten_nil] at this
  exact h (List.append_eq_nil_iff.mp this.symm).2

/-- The lines of a paragraph are its tokens, packed, and one empty line if it has none. -/
theorem wrapParagraph_eq (max : Nat) (paragraph : List Char) :
    wrapParagraph max paragraph
      = if paragraph.all isBlank then [[]]
        else (packTokens max [] (tokens max paragraph)).map lineOf := by
  have hstart : ∀ t ∈ ([] : List Token), t.chars ≠ [] := fun _ ht => absurd ht List.not_mem_nil
  have hpack : pack max [] (words paragraph)
      = (packTokens max [] (tokens max paragraph)).map lineOf :=
    pack_eq hstart fun w hw => ne_nil_of_mem_words hw
  unfold wrapParagraph
  rw [hpack]
  split_ifs with hblank
  all_goals rw [List.all_eq_true] at hblank
  · rw [(tokens_eq_nil_iff max paragraph).mpr hblank]
    rfl
  · have hne : packTokens max [] (tokens max paragraph) ≠ [] :=
      packTokens_ne_nil (mt (tokens_eq_nil_iff max paragraph).mp hblank)
    cases hlines : packTokens max [] (tokens max paragraph) with
    | nil => exact absurd hlines hne
    | cons g gs => rfl

theorem chars_ne_nil_of_mem_tokens {max : Nat} {paragraph : List Char} {t : Token}
    (h : t ∈ tokens max paragraph) : t.chars ≠ [] := by
  obtain ⟨w, hw, ht⟩ := List.mem_flatMap.mp h
  exact chars_ne_nil_of_mem_wordTokens (ne_nil_of_mem_words hw) ht

/-- Only a paragraph without words has an empty line. -/
theorem wrapParagraph_eq_singleton_nil_iff (max : Nat) (paragraph : List Char) :
    wrapParagraph max paragraph = [[]] ↔ ∀ c ∈ paragraph, isBlank c := by
  rw [wrapParagraph_eq, ← List.all_eq_true]
  constructor
  · intro h
    by_contra hblank
    rw [if_neg hblank] at h
    obtain ⟨g, hg, hline⟩ := List.mem_map.mp (h ▸ List.mem_singleton_self [])
    refine lineOf_ne_nil (ne_nil_of_mem_packTokens hg) (fun t ht => ?_) hline
    have hmem : t ∈ (packTokens max [] (tokens max paragraph)).flatten :=
      List.mem_flatten_of_mem hg ht
    rw [flatten_packTokens, List.nil_append] at hmem
    exact chars_ne_nil_of_mem_tokens hmem
  · intro h
    exact if_pos h

/-- The paragraphs of a label that does not fit are wrapped one by one. -/
theorem splitOn_wrap {max : Nat} {text : List Char} (h : max < columns text) :
    (wrap max text).splitOn '\n'
      = (text.splitOn '\n').map fun paragraph =>
          lineBreak.intercalate (wrapParagraph max paragraph) := by
  have hfeed : ∀ paragraph ∈ text.splitOn '\n',
      '\n' ∉ lineBreak.intercalate (wrapParagraph max paragraph) := by
    intro paragraph hp
    have hnot : ¬ ['\n'] <:+: paragraph := by
      rw [List.singleton_infix_iff]
      exact notMem_of_mem_splitOn hp
    have hlines : ∀ l ∈ wrapParagraph max paragraph, ¬ ['\n'] <:+: l :=
      not_infix_of_mem_wrapParagraph (by decide) (List.cons_ne_nil _ _) hnot
    rw [← List.singleton_infix_iff]
    have hbreak : ∀ c ∈ lineBreak, c ∉ ['\n'] := forall_mem_of_all (by decide)
    exact not_infix_intercalate (by decide) hbreak (List.cons_ne_nil _ _) hlines
  rw [wrap, if_neg (Nat.not_le.mpr h), List.splitOn_intercalate]
  · intro l hl
    obtain ⟨paragraph, hp, rfl⟩ := List.mem_map.mp hl
    exact hfeed paragraph hp
  · exact fun hnil => List.splitOn_ne_nil _ _ (List.map_eq_nil_iff.mp hnil)

/-- **A label that does not fit is set anew.**  Its paragraphs stay what they are, and each is set
in lines by itself: its words, and the pieces of those that are wider than a line, are divided into
lines in the order in which they stand.  A piece begins a new line, and stands alone on it unless it
is the last one of its word; and a line that begins with an uncut word does so because the word does
not fit on the line before. -/
theorem wrap_eq_division {max : Nat} {text : List Char} (h : max < columns text) :
    wrap max text
        = ['\n'].intercalate ((text.splitOn '\n').map fun paragraph =>
            lineBreak.intercalate (wrapParagraph max paragraph))
      ∧ (wrap max text).count '\n' = text.count '\n'
      ∧ ∀ paragraph ∈ text.splitOn '\n',
        (wrapParagraph max paragraph = [[]] ↔ ∀ c ∈ paragraph, isBlank c)
          ∧ ∃ groups, Division max (tokens max paragraph) groups
            ∧ wrapParagraph max paragraph
              = if paragraph.all isBlank then [[]] else groups.map lineOf := by
  refine ⟨?_, ?_, ?_⟩
  · rw [← splitOn_wrap h, List.intercalate_splitOn]
  · have hlength := congrArg List.length (splitOn_wrap h)
    rw [List.length_map, length_splitOn, length_splitOn] at hlength
    omega
  · intro paragraph _
    refine ⟨wrapParagraph_eq_singleton_nil_iff max paragraph, ?_⟩
    exact ⟨_, division_packTokens (isChain_tokens max paragraph), wrapParagraph_eq max paragraph⟩

example : wrap 5 "abcdefghijkl mn op\n \nqr".toList
    = "abcde<br/>fghij<br/>kl mn<br/>op\n\nqr".toList := by decide +kernel

/-- A label of three paragraphs, the first with a word that is cut and the second without words. -/
theorem wrap_eq_division_of_cut_word :
    5 < columns "abcdefghijkl mn op\n \nqr".toList
      ∧ (wrap 5 "abcdefghijkl mn op\n \nqr".toList).count '\n' = 2
      ∧ wrapParagraph 5 [' '] = [[]]
      ∧ ∃ groups, Division 5 (tokens 5 "abcdefghijkl mn op".toList) groups
        ∧ wrapParagraph 5 "abcdefghijkl mn op".toList = groups.map lineOf := by
  have hwide : 5 < columns "abcdefghijkl mn op\n \nqr".toList := by decide
  obtain ⟨-, hcount, hparagraphs⟩ := wrap_eq_division hwide
  have hblank : ∀ c ∈ [' '], isBlank c := forall_mem_of_all (by decide)
  refine ⟨hwide, hcount, (hparagraphs [' '] (by decide)).1.mpr hblank, ?_⟩
  obtain ⟨-, groups, hdivision, hlines⟩ := hparagraphs "abcdefghijkl mn op".toList (by decide)
  rw [if_neg (by decide)] at hlines
  exact ⟨groups, hdivision, hlines⟩

end FlowCanvas
