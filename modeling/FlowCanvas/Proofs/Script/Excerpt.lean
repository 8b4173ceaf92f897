import FlowCanvas.Proofs.Script.Blame

/-!
# How much of a line is shown

A message about a line that is refused shows no more than forty characters of it, with dots behind
them for the rest.  Whether there is a rest is decided by the bytes of the line, though, and where
it is cut by its characters.  A line of at most forty characters that takes up more than forty bytes
is therefore shown as a whole, with dots that stand for nothing.

## Main definitions

* `shortened cs` — a text cut short by its characters, with dots if something is missing.

## Main results

* `excerpt_eq_shortened_iff` — when a line is shown as it is cut by its characters.
* `read_shows_excerpt` — **what is shown of the line that is blamed**, and when this is the line cut
  by its characters.
* `not_forall_shows_shortened` — dots that stand for nothing.
-/

namespace FlowCanvas

/-! ### Characters and bytes -/

theorem foldl_utf8Size (n : Nat) (cs : List Char) :
    cs.foldl (fun n c => n + c.utf8Size) n = n + byteLength cs := by
  induction cs generalizing n with
  | nil => rfl
  | cons c cs ih =>
    unfold byteLength
    rw [List.foldl_cons, List.foldl_cons, ih, ih, Nat.zero_add, Nat.add_assoc]

@[simp] theorem byteLength_cons (c : Char) (cs : List Char) :
    byteLength (c :: cs) = c.utf8Size + byteLength cs := by
  rw [byteLength, List.foldl_cons, foldl_utf8Size, Nat.zero_add]

@[simp] theorem byteLength_append (cs ds : List Char) :
    byteLength (cs ++ ds) = byteLength cs + byteLength ds := by
  rw [byteLength, List.foldl_append, foldl_utf8Size]
  rfl

/-- A character takes up at least one byte. -/
theorem length_le_byteLength (cs : List Char) : cs.length ≤ byteLength cs := by
  induction cs with
  | nil => exact Nat.zero_le _
  | cons c cs ih =>
    have hc : 0 < c.utf8Size := c.utf8Size_pos
    rw [byteLength_cons, List.length_cons]
    omega

namespace Script

/-! ### Cutting a line short -/

/-- A text cut short by its characters, with dots if something is missing. -/
def shortened (cs : List Char) : List Char :=
  if excerptLength < cs.length then cs.take excerptLength ++ "...".toList else cs

/-- A line is shown as it is cut by its characters, unless it has few characters of many bytes. -/
theorem excerpt_eq_shortened_iff {l : List Char} (h : '\n' ∉ l) :
    excerpt l = shortened (trim l)
      ↔ byteLength (trim l) ≤ excerptLength ∨ excerptLength < (trim l).length := by
  rw [excerpt_of_notMem h, shortened]
  by_cases hlong : excerptLength < (trim l).length
  · have hwide : excerptLength < byteLength (trim l) := hlong.trans_le (length_le_byteLength _)
    simp [hlong, hwide]
  · rw [if_neg hlong]
    split_ifs with hwide
    · -- The line is shown as a whole, and the dots are too much.
      rw [List.take_of_length_le (Nat.not_lt.mp hlong)]
      simp [hlong, hwide]
    · simp [Nat.not_lt.mp hwide]

/-- **What is shown of the line that is blamed.**  It is the first line that says nothing, without
the white space at its ends: as a whole if it takes up at most forty bytes, and otherwise its first
forty characters with dots behind them.  This is the line cut short by its characters exactly if it
takes up at most forty bytes or has more than forty characters. -/
theorem read_shows_excerpt {text : List Char} {f : Failure} (h : read text = .error f) :
    ∃ before l after context, segments text = before ++ l :: after
      ∧ (∀ k ∈ before, ∃ o, Says k o) ∧ (∀ o, ¬ Says l o)
      ∧ f = .badScript (before.length + 1) (String.ofList context)
      ∧ context = (if byteLength (trim l) ≤ 40 then trim l
        else (trim l).take 40 ++ "...".toList)
      ∧ (context = shortened (trim l) ↔ byteLength (trim l) ≤ 40 ∨ 40 < (trim l).length) := by
  obtain ⟨n, l, hblame, rfl⟩ := read_eq_error_iff.mp h
  obtain ⟨before, after, hsegments, rfl, hbefore, hl⟩ := hblame.exists_append
  have hmem : l ∈ segments text := hsegments ▸ List.mem_append_right before List.mem_cons_self
  have hfeed : '\n' ∉ l := newline_notMem_of_mem_segments hmem
  refine ⟨before, l, after, excerpt l, hsegments, hbefore, hl, rfl, ?_,
    excerpt_eq_shortened_iff hfeed⟩
  rw [excerpt_of_notMem hfeed, ← ite_not]
  simp only [Nat.not_lt]
  rfl

/-- A line of twenty-one letters that take up two bytes each. -/
def accented : List Char := List.replicate 21 'é'

theorem read_accented :
    read accented = .error (.badScript 1 (String.ofList (accented ++ "...".toList))) := by
  have hline : line accented = none := rfl
  have hgap : ¬ IsGap accented := not_isGap_append_cons (g := []) (by decide)
  rw [read_of_line_eq_none hline hgap]
  rfl

/-- Behind another line it is shown as a whole as well, and with dots, as it has few characters of
many bytes. -/
theorem read_shows_excerpt_of_accented :
    read ("up\n".toList ++ accented)
        = .error (.badScript 2 (String.ofList (accented ++ "...".toList)))
      ∧ ∃ before l after context, segments ("up\n".toList ++ accented) = before ++ l :: after
        ∧ before.length = 1 ∧ context = accented ++ "...".toList
        ∧ (context = shortened (trim l) ↔ byteLength (trim l) ≤ 40 ∨ 40 < (trim l).length) := by
  have hline : line "up".toList = some (some .release, []) := rfl
  have hup : Says (dropReturn "up".toList) (some .release) :=
    ((line_of_notMem (by decide)).mp hline).1
  have hread : read ("up".toList ++ '\n' :: accented)
      = .error (.badScript 2 (String.ofList (accented ++ "...".toList))) :=
    (read_append_feed_eq_error (by decide) hup).mpr ⟨_, read_accented, rfl⟩
  obtain ⟨before, l, after, context, hsegments, -, -, hf, -, hshown⟩ := read_shows_excerpt hread
  obtain ⟨hnumber, hcontext⟩ := Failure.badScript.inj hf
  exact ⟨hread, before, l, after, context, hsegments, by omega,
    (String.ofList_injective hcontext).symm, hshown⟩

/-- Dots do not always stand for something: a line that is cut nowhere may be shown with dots. -/
theorem not_forall_shows_shortened :
    ¬ ∀ text f, read text = .error f → ∃ before l after, segments text = before ++ l :: after
      ∧ (∀ k ∈ before, ∃ o, Says k o) ∧ (∀ o, ¬ Says l o)
      ∧ f = .badScript (before.length + 1) (String.ofList (shortened (trim l))) := by
  intro h
  obtain ⟨before, l, after, hsegments, -, -, hf⟩ := h _ _ read_accented
  -- The script is a single line.
  have hmem : l ∈ segments accented := hsegments ▸ List.mem_append_right before List.mem_cons_self
  rw [segments_of_notMem (by decide), List.mem_singleton] at hmem
  rw [hmem] at hf
  have hcontext := String.ofList_injective (Failure.badScript.inj hf).2
  revert hcontext
  decide

end Script

end FlowCanvas
