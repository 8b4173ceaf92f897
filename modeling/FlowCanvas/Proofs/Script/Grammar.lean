import FlowCanvas.Proofs.Script.Line
import FlowCanvas.Script.Reader
import Mathlib.Data.List.ReduceOption
import Mathlib.Data.List.Forall2

/-!
# The grammar of scripts

What a script says is a matter of its lines, each for itself: a text is cut at the line feeds, a
carriage return before a line feed is not part of the line, and each line must say something.  Here
it is shown that the reader, which never cuts its text, reads exactly these scripts.

A line never says anything with a carriage return in it, and so the sign for its end can be told
from the line (`line_append_feed`).  On the last line there is no such sign; what is blank there is
left over by the reader of lines, and is skipped at the end (`read_of_notMem`).

## Main definitions

* `segments` — the lines of a text, without the signs at their ends.

## Main results

* `read_eq_ok_iff_says` — **the reader accepts exactly the scripts of which each line says
  something, and reads what the lines say.**
-/

namespace FlowCanvas.Script

/-! ### The lines of a text -/

/-- A line without the carriage return that may stand at its end. -/
def dropReturn (cs : List Char) : List Char :=
  if cs.getLast? = some '\r' then cs.dropLast else cs

/-- The lines of a text without the signs at their ends.  On the last line, which has no such sign,
a carriage return is a character like any other. -/
def segments (text : List Char) : List (List Char) :=
  ((text.splitOn '\n').dropLast.map dropReturn) ++ [(text.splitOn '\n').getLastD []]

theorem dropReturn_append (cs : List Char) : dropReturn (cs ++ ['\r']) = cs := by
  rw [dropReturn, List.getLast?_concat, if_pos rfl, List.dropLast_concat]

theorem dropReturn_of_notMem {cs : List Char} (h : '\r' ∉ cs) : dropReturn cs = cs := by
  rw [dropReturn, if_neg fun hlast => h (List.mem_of_getLast? hlast)]

theorem eq_dropReturn_or (cs : List Char) : cs = dropReturn cs ∨ cs = dropReturn cs ++ ['\r'] := by
  by_cases h : cs.getLast? = some '\r'
  · obtain ⟨cs, rfl⟩ := List.getLast?_eq_some_iff.mp h
    exact Or.inr (by rw [dropReturn_append])
  · exact Or.inl (by rw [dropReturn, if_neg h])

/-- A text of one line. -/
theorem segments_of_notMem {l : List Char} (h : '\n' ∉ l) : segments l = [l] := by
  rw [segments, List.splitOn_eq_singleton h]
  rfl

/-- The first line of a text. -/
theorem segments_append_feed {l : List Char} (h : '\n' ∉ l) (cs : List Char) :
    segments (l ++ '\n' :: cs) = dropReturn l :: segments cs := by
  rw [segments, List.splitOn_append_cons_self_of_not_mem h, segments]
  have hne := List.splitOn_ne_nil '\n' cs
  cases hcs : cs.splitOn '\n' with
  | nil => exact absurd hcs hne
  | cons k ks => rfl

/-- What holds of texts of one line, and of a line and a text behind it if it holds of the text,
holds of all texts. -/
theorem text_induction {P : List Char → Prop} (last : ∀ l, '\n' ∉ l → P l)
    (feed : ∀ l cs, '\n' ∉ l → P cs → P (l ++ '\n' :: cs)) (text : List Char) : P text := by
  induction hn : text.length using Nat.strong_induction_on generalizing text with
  | _ n ih =>
    by_cases h : '\n' ∈ text
    · obtain ⟨l, cs, rfl, hl⟩ := List.eq_append_cons_of_mem h
      have hlt : cs.length < n := by
        rw [← hn, List.length_append, List.length_cons]
        omega
      exact feed l cs hl (ih cs.length hlt cs rfl)
    · exact last text h

theorem newline_notMem_dropReturn {l : List Char} (h : '\n' ∉ l) : '\n' ∉ dropReturn l := by
  rcases eq_dropReturn_or l with hl | hl
  · rwa [← hl]
  · exact fun hmem => h (hl ▸ List.mem_append_left _ hmem)

/-- No line has a line feed in it. -/
theorem newline_notMem_of_mem_segments {text l : List Char} (h : l ∈ segments text) :
    '\n' ∉ l := by
  induction text using text_induction with
  | last text hfeed =>
    rw [segments_of_notMem hfeed, List.mem_singleton] at h
    exact h ▸ hfeed
  | feed k cs hfeed ih =>
    rw [segments_append_feed hfeed] at h
    rcases List.mem_cons.mp h with rfl | h
    · exact newline_notMem_dropReturn hfeed
    · exact ih h

/-- There is one line more than there are line feeds. -/
theorem length_segments (text : List Char) : (segments text).length = text.count '\n' + 1 := by
  induction text using text_induction with
  | last l h => rw [segments_of_notMem h, List.count_eq_zero_of_not_mem h, List.length_singleton]
  | feed l cs h ih =>
    rw [segments_append_feed h, List.length_cons, ih, List.count_append, List.count_cons_self,
      List.count_eq_zero_of_not_mem h, Nat.zero_add]

/-- The lines of two texts that are put together are those of the one and of the other, unless the
sign at the end of the first one changes with what comes behind it. -/
theorem segments_append {s : List Char} (hs : s.getLast? ≠ some '\r') (t : List Char) :
    segments (s ++ '\n' :: t) = segments s ++ segments t := by
  induction s using text_induction with
  | last l h =>
    rw [segments_append_feed h, segments_of_notMem h, dropReturn, if_neg hs, List.singleton_append]
  | feed l cs h ih =>
    have hcs : cs.getLast? ≠ some '\r' := by
      intro hlast
      obtain ⟨cs, rfl⟩ := List.getLast?_eq_some_iff.mp hlast
      exact hs (List.getLast?_eq_some_iff.mpr ⟨l ++ '\n' :: cs, by simp⟩)
    rw [List.append_assoc, List.cons_append, segments_append_feed h, segments_append_feed h, ih hcs,
      List.cons_append]

/-- **What is read from a line with a sign for its end is what it says without the sign.** -/
theorem line_append_feed {l cs rest : List Char} {o : Option (Event Float)} (h : '\n' ∉ l) :
    line (l ++ '\n' :: cs) = some (o, rest) ↔ Says (dropReturn l) o ∧ rest = cs := by
  rw [line_eq_some]
  constructor
  · rintro ⟨k, e, hk, hfeed, he, -, heq⟩
    cases he with
    | feed =>
      obtain ⟨rfl, rfl⟩ := append_cons_inj_of_notMem heq h hfeed
      rw [dropReturn_of_notMem hk.return_notMem]
      exact ⟨hk, rfl⟩
    | returnFeed =>
      -- The carriage return is the last character before the line feed.
      have heq : l ++ '\n' :: cs = k ++ ['\r'] ++ '\n' :: rest := by rw [heq]; simp
      have hfeed : '\n' ∉ k ++ ['\r'] := by simp [hfeed]
      obtain ⟨rfl, rfl⟩ := append_cons_inj_of_notMem heq h hfeed
      rw [dropReturn_append]
      exact ⟨hk, rfl⟩
    | whole =>
      rw [List.append_nil, List.append_nil] at heq
      exact absurd (heq ▸ List.mem_append_right l List.mem_cons_self) hfeed
  · rintro ⟨hl, rfl⟩
    have hfeed : '\n' ∉ dropReturn l := newline_notMem_dropReturn h
    rcases eq_dropReturn_or l with heq | heq
    · exact ⟨dropReturn l, ['\n'], hl, hfeed, .feed rest, fun _ => List.cons_ne_nil _ _,
        by rw [← heq]; rfl⟩
    · refine ⟨dropReturn l, ['\r', '\n'], hl, hfeed, .returnFeed rest,
        fun _ => List.cons_ne_nil _ _, ?_⟩
      calc l ++ '\n' :: rest = dropReturn l ++ ['\r'] ++ '\n' :: rest := by rw [← heq]
        _ = dropReturn l ++ (['\r', '\n'] ++ rest) := by simp

/-- **What is read from the last line is what it says, unless it is blank.** -/
theorem line_of_notMem {l rest : List Char} {o : Option (Event Float)} (h : '\n' ∉ l) :
    line l = some (o, rest) ↔ Says l o ∧ ¬ IsGap l ∧ rest = [] := by
  rw [line_eq_some]
  constructor
  · rintro ⟨k, e, hk, -, he, hblank, rfl⟩
    cases he with
    | feed => exact absurd (List.mem_append_right k List.mem_cons_self) h
    | returnFeed => exact absurd (by simp) h
    | whole =>
      rw [List.append_nil, List.append_nil]
      exact ⟨hk, fun hgap => hblank hgap rfl, rfl⟩
  · rintro ⟨hl, hgap, rfl⟩
    exact ⟨l, [], hl, h, .whole, fun h => absurd h hgap, by simp⟩

/-! ### Scripts -/

theorem read_eq_ok {text : List Char} {es : List (Event Float)} :
    read text = .ok es ↔ IsGap (lines text).2 ∧ (lines text).1 = es := by
  rw [← skipGap_eq_nil_iff]
  simp only [read]
  constructor
  · intro h
    split at h
    · next hs => exact ⟨hs, Except.ok.inj h⟩
    · cases h
  · rintro ⟨hs, rfl⟩
    rw [hs]

theorem lines_nil : lines [] = ([], []) :=
  lines_of_none (line_eq_none_of_isGap isGap_nil)

/-- A script is read line by line. -/
theorem read_append_feed {l cs : List Char} {es : List (Event Float)} (h : '\n' ∉ l) :
    read (l ++ '\n' :: cs) = .ok es ↔
      ∃ o es', Says (dropReturn l) o ∧ read cs = .ok es' ∧ es = o.toList ++ es' := by
  cases hline : line (l ++ '\n' :: cs) with
  | none =>
    -- Nothing is taken, and what is left is no gap, as it has a line feed in it.
    constructor
    · intro hread
      have hgap := (read_eq_ok.mp hread).1
      rw [lines_of_none hline] at hgap
      exact absurd (List.mem_append_right l List.mem_cons_self) (notMem_of_isGap hgap (by decide))
    · rintro ⟨o, es', hsaid, -⟩
      have hsome : line (l ++ '\n' :: cs) = some (o, cs) := (line_append_feed h).mpr ⟨hsaid, rfl⟩
      exact absurd (hsome.symm.trans hline) (Option.some_ne_none _)
  | some r =>
    obtain ⟨o, rest⟩ := r
    obtain ⟨hsaid, rfl⟩ := (line_append_feed h).mp hline
    rw [read_eq_ok, lines_of_some hline]
    constructor
    · rintro ⟨hgap, rfl⟩
      exact ⟨o, (lines rest).1, hsaid, read_eq_ok.mpr ⟨hgap, rfl⟩, rfl⟩
    · rintro ⟨o', es', hsaid', hread, rfl⟩
      obtain ⟨hgap, rfl⟩ := read_eq_ok.mp hread
      have hsome : line (l ++ '\n' :: rest) = some (o', rest) :=
        (line_append_feed h).mpr ⟨hsaid', rfl⟩
      cases hline.symm.trans hsome
      exact ⟨hgap, rfl⟩

/-- The last line is read as what it says, blank or not. -/
theorem read_of_notMem {l : List Char} {es : List (Event Float)} (h : '\n' ∉ l) :
    read l = .ok es ↔ ∃ o, Says l o ∧ es = o.toList := by
  rw [read_eq_ok]
  by_cases hgap : IsGap l
  · -- The reader of lines leaves the last line if it is blank, and it is skipped at the end.
    rw [lines_of_none (line_eq_none_of_isGap hgap)]
    constructor
    · rintro ⟨-, rfl⟩
      exact ⟨none, .blank hgap, rfl⟩
    · rintro ⟨o, hsaid, rfl⟩
      rw [hsaid.eq_none_of_isGap hgap]
      exact ⟨hgap, rfl⟩
  · cases hline : line l with
    | none =>
      rw [lines_of_none hline]
      constructor
      · exact fun h => absurd h.1 hgap
      · rintro ⟨o, hsaid, -⟩
        have hsome : line l = some (o, []) := (line_of_notMem h).mpr ⟨hsaid, hgap, rfl⟩
        exact absurd (hsome.symm.trans hline) (Option.some_ne_none _)
    | some r =>
      obtain ⟨o, rest⟩ := r
      obtain ⟨hsaid, -, rfl⟩ := (line_of_notMem h).mp hline
      rw [lines_of_some hline, lines_nil, List.append_nil]
      constructor
      · rintro ⟨-, rfl⟩
        exact ⟨o, hsaid, rfl⟩
      · rintro ⟨o', hsaid', rfl⟩
        have hsome : line l = some (o', []) := (line_of_notMem h).mpr ⟨hsaid', hgap, rfl⟩
        cases hline.symm.trans hsome
        exact ⟨isGap_nil, rfl⟩

theorem reduceOption_cons {α : Type} (o : Option α) (os : List (Option α)) :
    (o :: os).reduceOption = o.toList ++ os.reduceOption := by
  cases o with
  | none => exact List.reduceOption_cons_of_none os
  | some x => exact List.reduceOption_cons_of_some x os

/-- A script is read as what its lines say, by induction over the lines. -/
theorem read_eq_ok_iff_forall₂ {text : List Char} {es : List (Event Float)} :
    read text = .ok es ↔ ∃ os, List.Forall₂ Says (segments text) os ∧ os.reduceOption = es := by
  induction text using text_induction generalizing es with
  | last l h =>
    rw [read_of_notMem h, segments_of_notMem h]
    constructor
    · rintro ⟨o, hsaid, rfl⟩
      refine ⟨[o], .cons hsaid .nil, ?_⟩
      rw [reduceOption_cons, List.reduceOption_nil, List.append_nil]
    · rintro ⟨os, hos, rfl⟩
      cases hos with
      | @cons _ o _ os hsaid hos =>
        cases hos
        refine ⟨o, hsaid, ?_⟩
        rw [reduceOption_cons, List.reduceOption_nil, List.append_nil]
  | feed l cs h ih =>
    rw [read_append_feed h, segments_append_feed h]
    constructor
    · rintro ⟨o, es', hsaid, hread, rfl⟩
      obtain ⟨os, hos, rfl⟩ := ih.mp hread
      exact ⟨o :: os, .cons hsaid hos, reduceOption_cons o os⟩
    · rintro ⟨os, hos, rfl⟩
      cases hos with
      | @cons _ o _ os hsaid hos =>
        exact ⟨o, os.reduceOption, hsaid, ih.mpr ⟨os, hos, rfl⟩, reduceOption_cons o os⟩

/-- Each line of a script that is read says something. -/
theorem exists_says_of_read {text : List Char} {es : List (Event Float)} (h : read text = .ok es) :
    ∀ l ∈ segments text, ∃ o, Says l o := by
  intro l hl
  obtain ⟨os, hos, -⟩ := read_eq_ok_iff_forall₂.mp h
  obtain ⟨i, hi, rfl⟩ := List.mem_iff_getElem.mp hl
  exact ⟨_, List.Forall₂.get hos hi (hos.length_eq ▸ hi)⟩

/-- What each element is related to can be listed. -/
theorem exists_forall₂ {α β : Type} {r : α → β → Prop} {l : List α}
    (h : ∀ x ∈ l, ∃ y, r x y) : ∃ l', List.Forall₂ r l l' := by
  induction l with
  | nil => exact ⟨[], .nil⟩
  | cons x l ih =>
    obtain ⟨⟨y, hy⟩, hl⟩ := List.forall_mem_cons.mp h
    obtain ⟨l', hl'⟩ := ih hl
    exact ⟨y :: l', .cons hy hl'⟩

/-- **The reader accepts exactly the scripts of which each line says something, and what it reads is
what the lines say**: the events, in the order of the lines on which they stand. -/
theorem read_eq_ok_iff_says (text : List Char) :
    ((∃ es, read text = .ok es) ↔ ∀ l ∈ segments text, ∃ o, Says l o) ∧
      ∀ es, read text = .ok es ↔
        ∃ os, List.Forall₂ Says (segments text) os ∧ os.reduceOption = es := by
  refine ⟨?_, fun es => read_eq_ok_iff_forall₂⟩
  constructor
  · rintro ⟨es, hread⟩
    exact exists_says_of_read hread
  · intro hsaid
    obtain ⟨os, hos⟩ := exists_forall₂ hsaid
    exact ⟨os.reduceOption, read_eq_ok_iff_forall₂.mpr ⟨os, hos, rfl⟩⟩

/-- A turn of the wheel, a comment and the press of a button. -/
def wheelScript : List Char := "\twheel -120 .1\t6.05e1 \r\n%% go\nzoom  in".toList

/-- Two events are read, with the doubles of these bits: one hundred and twenty, which is negated,
the double next to a tenth, and sixty and a half. -/
theorem read_eq_ok_of_wheelScript :
    read wheelScript = .ok [
      .wheel (-Float.ofBits 0x405e000000000000)
        ⟨Float.ofBits 0x3fb999999999999a, Float.ofBits 0x404e400000000000⟩,
      .zoomIn] := by
  have hdelta : Number "-120".toList (-Float.ofBits 0x405e000000000000) :=
    ⟨.finite true 120 0, rfl, rfl⟩
  have hx : Number ".1".toList (Float.ofBits 0x3fb999999999999a) :=
    ⟨.finite false 1 (-1), rfl, rfl⟩
  have hy : Number "6.05e1".toList (Float.ofBits 0x404e400000000000) :=
    ⟨.finite false 605 (-1), rfl, rfl⟩
  have hspace : IsGap [' '] := forall_mem_of_all (by decide)
  have hspaces : IsGap [' ', ' '] := forall_mem_of_all (by decide)
  have htab : IsGap ['\t'] := forall_mem_of_all (by decide)
  have hwords : Gapped ["-120".toList, ".1".toList, "6.05e1".toList] " -120 .1\t6.05e1".toList :=
    .cons (List.cons_ne_nil _ _) hspace (.cons (List.cons_ne_nil _ _) hspace
      (.one (List.cons_ne_nil _ _) htab _))
  have hwheel : Says "\twheel -120 .1\t6.05e1 ".toList (some _) :=
    .event htab (.wheel hdelta hx hy) hwords hspace
  have hcomment : Says ([] ++ '%' :: '%' :: " go".toList) none := .comment isGap_nil (by decide)
  have hzoom : Says "zoom  in".toList (some .zoomIn) :=
    .event isGap_nil .zoomIn (.one (List.cons_ne_nil _ _) hspaces _) isGap_nil
  obtain ⟨-, hread⟩ := read_eq_ok_iff_says wheelScript
  exact (hread _).mpr ⟨[_, _, _], .cons hwheel (.cons hcomment (.cons hzoom .nil)), rfl⟩

end FlowCanvas.Script
