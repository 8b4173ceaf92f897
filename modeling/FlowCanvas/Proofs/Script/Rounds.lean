import FlowCanvas.Proofs.Script.Excerpt
import Mathlib.Data.List.SplitBy

/-!
# The rounds of the reader of scripts

A script is read in a loop: the reader of lines is called on what is left of the text until it
fails.  The reader takes its share from the text itself, and so may have begun to take something
when it fails; the loop then puts back the text from which the reader began.  A reader that gives
something without taking anything would be called for ever, and the loop gives up on it.

Here it is shown that this never happens, and how long the loop lasts.  A round, in which the reader
succeeds, takes a physical line: all characters up to a line feed and this line feed, or up to the
end of the text if there is none (`physicalLine_of_line`).  The rounds therefore take the physical
lines of a text one after another (`exists_takes`), and there is at most one line more than there
are line feeds.  The call that fails takes nothing and ends the loop at the beginning of a line.

## Main definitions

* `physicalLines text` — the lines of a text, each with the sign for its end.
* `Loop`, `Loop.call`, `Loop.after` — a loop over any reader, one call at a time.
* `attempt stray` — the reader of lines, which leaves anything at all where it fails.
* `Takes ls os back` — the reader takes the lines `ls` one after another, up to the lines `back`.

## Main results

* `physicalLine_of_line` — what the reader of lines takes is a physical line.
* `rounds_take_physicalLines` — **the loop takes a physical line in each round, is never stuck, and
  ends at the beginning of the line on which the reader fails.**
-/

namespace FlowCanvas.Script

/-! ### Physical lines -/

/-- The physical lines of a text, each with the sign for its end: the text is cut behind each line
feed. -/
def physicalLines (text : List Char) : List (List Char) := text.splitBy fun c _ => c ≠ '\n'

@[simp] theorem physicalLines_nil : physicalLines [] = [] := rfl

@[simp] theorem flatten_physicalLines (text : List Char) : (physicalLines text).flatten = text :=
  List.flatten_splitBy _ _

/-- The text `l` is the first physical line of a text that goes on with `rest`. -/
inductive PhysicalLine : (l rest : List Char) → Prop
  /-- A line with a line feed at its end. -/
  | feed {l : List Char} (h : '\n' ∉ l) (rest : List Char) : PhysicalLine (l ++ ['\n']) rest
  /-- The last line, if it has none. -/
  | last {l : List Char} (hne : l ≠ []) (h : '\n' ∉ l) : PhysicalLine l []

theorem PhysicalLine.ne_nil {l rest : List Char} (h : PhysicalLine l rest) : l ≠ [] := by
  cases h with
  | feed => simp
  | last hne => exact hne

theorem PhysicalLine.byteLength_pos {l rest : List Char} (h : PhysicalLine l rest) :
    0 < byteLength l :=
  (List.length_pos_iff.mpr h.ne_nil).trans_le (length_le_byteLength l)

/-- A line has a single line feed at its end, or none and is the last one. -/
theorem PhysicalLine.count_feed {l rest : List Char} (h : PhysicalLine l rest) :
    l.count '\n' = 1 ∧ l.getLast? = some '\n' ∨ '\n' ∉ l ∧ rest = [] := by
  cases h with
  | feed h =>
    refine Or.inl ⟨?_, List.getLast?_concat⟩
    rw [List.count_append, List.count_eq_zero_of_not_mem h, List.count_singleton_self]
  | last _ h => exact Or.inr ⟨h, rfl⟩

/-- No line feed stands before another character of its line. -/
theorem PhysicalLine.isChain {l rest : List Char} (h : PhysicalLine l rest) :
    l.IsChain fun c _ => decide (c ≠ '\n') := by
  have hpairwise : ∀ {k : List Char}, '\n' ∉ k → k.Pairwise fun c _ => decide (c ≠ '\n') :=
    fun hk => List.pairwise_of_forall_mem_list fun c hc _ _ =>
      decide_eq_true fun hfeed => hk (hfeed ▸ hc)
  cases h with
  | feed h =>
    refine (List.pairwise_append.mpr ⟨hpairwise h, List.pairwise_singleton _ _, ?_⟩).isChain
    exact fun c hc _ _ => decide_eq_true fun hfeed => h (hfeed ▸ hc)
  | last _ h => exact (hpairwise h).isChain

/-- The first physical line is cut off from the others. -/
theorem PhysicalLine.physicalLines_append {l rest : List Char} (h : PhysicalLine l rest) :
    physicalLines (l ++ rest) = l :: physicalLines rest := by
  have hcut : ∀ c ∈ l.getLast?, ∀ d ∈ rest.head?, decide (c ≠ '\n') = false := by
    rcases h.count_feed with ⟨-, hlast⟩ | ⟨-, rfl⟩
    · intro c hc _ _
      rw [hlast, Option.mem_some_iff] at hc
      rw [← hc]
      rfl
    · simp
  rw [physicalLines, List.splitBy_append hcut, List.splitBy_of_isChain h.ne_nil h.isChain]
  rfl

theorem physicalLines_append_feed {l : List Char} (h : '\n' ∉ l) (cs : List Char) :
    physicalLines (l ++ '\n' :: cs) = (l ++ ['\n']) :: physicalLines cs := by
  rw [← (PhysicalLine.feed h cs).physicalLines_append, List.append_assoc, List.singleton_append]

/-- A text of one line, or of none. -/
theorem physicalLines_of_notMem {l : List Char} (h : '\n' ∉ l) :
    physicalLines l = if l = [] then [] else [l] := by
  split_ifs with hne
  · rw [hne, physicalLines_nil]
  · simpa using (PhysicalLine.last hne h).physicalLines_append

/-- There is at most one physical line more than there are line feeds. -/
theorem length_physicalLines_le (text : List Char) :
    (physicalLines text).length ≤ text.count '\n' + 1 := by
  induction text using text_induction with
  | last l h =>
    rw [physicalLines_of_notMem h]
    split_ifs <;> simp
  | feed l cs h ih =>
    rw [physicalLines_append_feed h, List.length_cons, List.count_append, List.count_cons_self]
    omega

/-- As many line feeds as lines stand before a line that is not the first. -/
theorem count_feed_of_physicalLines {text : List Char} {front back : List (List Char)}
    (h : physicalLines text = front ++ back) (hback : back ≠ []) :
    front.flatten.count '\n' = front.length := by
  induction text using text_induction generalizing front with
  | last l hl =>
    -- There is no line before the only one.
    have hone : (physicalLines l).length ≤ 1 := by
      simpa only [List.count_eq_zero_of_not_mem hl] using length_physicalLines_le l
    have hpos : 0 < back.length := List.length_pos_iff.mpr hback
    rw [h, List.length_append] at hone
    have hfront : front = [] := List.length_eq_zero_iff.mp (by omega)
    rw [hfront]
    rfl
  | feed l cs hl ih =>
    cases front with
    | nil => rfl
    | cons k front =>
      rw [physicalLines_append_feed hl, List.cons_append, List.cons.injEq] at h
      obtain ⟨rfl, h⟩ := h
      rw [List.flatten_cons, List.count_append, ih h, List.length_cons, List.count_append,
        List.count_eq_zero_of_not_mem hl, List.count_singleton_self]
      omega

/-! ### Lines one after another -/

/-- **What the reader of lines takes is a physical line.** -/
theorem physicalLine_of_line {cs rest : List Char} {o : Option (Event Float)}
    (h : line cs = some (o, rest)) : ∃ l, PhysicalLine l rest ∧ cs = l ++ rest := by
  obtain ⟨k, e, -, hfeed, he, hblank, rfl⟩ := line_eq_some.mp h
  cases he with
  | feed => exact ⟨k ++ ['\n'], .feed hfeed rest, (List.append_assoc ..).symm⟩
  | returnFeed =>
    have hfeed : '\n' ∉ k ++ ['\r'] := by simp [hfeed]
    exact ⟨k ++ ['\r'] ++ ['\n'], .feed hfeed rest, by simp⟩
  | whole =>
    -- What is taken up to the end of the text is no gap, and so it has characters.
    have hne : k ≠ [] := fun hk => hblank (hk ▸ isGap_nil) rfl
    exact ⟨k, .last hne hfeed, rfl⟩

/-- Of the physical lines `ls` the reader of lines takes one after another, which say `os`, and it
fails where the lines `back` are left. -/
inductive Takes : (ls : List (List Char)) → (os : List (Option (Event Float))) →
    (back : List (List Char)) → Prop
  | fails {ls : List (List Char)} (h : line ls.flatten = none) : Takes ls [] ls
  | takes {l : List Char} {ls back : List (List Char)} {o : Option (Event Float)}
      {os : List (Option (Event Float))} (h : line (l :: ls).flatten = some (o, ls.flatten))
      (hs : Takes ls os back) : Takes (l :: ls) (o :: os) back

/-- The reader takes the physical lines of every text, by induction along what it takes. -/
theorem exists_takes (text : List Char) : ∃ os back, Takes (physicalLines text) os back := by
  induction text using lines.induct with
  | case1 cs h => exact ⟨[], physicalLines cs, .fails (by rwa [flatten_physicalLines])⟩
  | case2 cs o rest h ih =>
    obtain ⟨l, hl, rfl⟩ := physicalLine_of_line h
    obtain ⟨os, back, hs⟩ := ih
    rw [hl.physicalLines_append]
    refine ⟨o :: os, back, .takes ?_ hs⟩
    rwa [List.flatten_cons, flatten_physicalLines]

/-- A script that is refused is blamed on the line behind those that have been taken. -/
theorem blamed_behind {text : List Char} {front back : List (List Char)} {f : Failure}
    (happend : physicalLines text = front ++ back) (hrest : (lines text).2 = back.flatten)
    (hread : read text = .error f) :
    back ≠ [] ∧ ∃ context, f = .badScript (front.length + 1) context := by
  obtain ⟨hgap, rfl⟩ := read_eq_error.mp hread
  rw [hrest] at hgap ⊢
  have hback : back ≠ [] := fun hback => hgap (hback ▸ isGap_nil)
  have htext : text = front.flatten ++ back.flatten := by
    rw [← List.flatten_append, ← happend, flatten_physicalLines]
  have hnumber : lineNumber text (skipGap back.flatten) = front.length + 1 := by
    rw [htext, lineNumber_skipGap, count_feed_of_physicalLines happend hback]
  exact ⟨hback, _, by rw [hnumber]⟩

section Takes

variable {ls back : List (List Char)} {os : List (Option (Event Float))}

theorem Takes.line_back (h : Takes ls os back) : line back.flatten = none := by
  induction h with
  | fails h => exact h
  | takes _ _ ih => exact ih

/-- What is left is the lines behind those that have been taken. -/
theorem Takes.exists_append (h : Takes ls os back) :
    ∃ front, ls = front ++ back ∧ front.length = os.length := by
  induction h with
  | fails => exact ⟨[], rfl, rfl⟩
  | @takes l _ _ _ _ _ _ ih =>
    obtain ⟨front, rfl, hlength⟩ := ih
    exact ⟨l :: front, rfl, congrArg (· + 1) hlength⟩

theorem Takes.lines_eq (h : Takes ls os back) :
    lines ls.flatten = (os.reduceOption, back.flatten) := by
  induction h with
  | fails h => exact lines_of_none h
  | takes h _ ih => rw [lines_of_some h, ih, reduceOption_cons]

end Takes

/-! ### The loop -/

/-- Where a loop over a reader stands. -/
inductive Loop (α : Type) where
  /-- The reader has given the items so far, and is to be called on the text. -/
  | going (items : List α) (cs : List Char)
  /-- The reader has failed.  The loop has ended with the items, and with the text that is left. -/
  | over (items : List α) (rest : List Char)
  /-- The reader has given an item without taking anything, and would do so for ever. -/
  | stuck

/-- Calls a reader, which changes the text, and gives an item or fails.  If it fails, the text is
put back from which it began. -/
def Loop.call {α : Type} (reader : List Char → Option α × List Char) : Loop α → Loop α
  | .going items cs =>
    match reader cs with
    | (none, _) => .over items cs
    | (some x, rest) =>
      if byteLength rest = byteLength cs then .stuck else .going (items ++ [x]) rest
  | .over items rest => .over items rest
  | .stuck => .stuck

/-- Where a loop over a reader stands after a number of calls. -/
def Loop.after {α : Type} (reader : List Char → Option α × List Char) (calls : Nat)
    (text : List Char) : Loop α := (Loop.call reader)^[calls] (.going [] text)

/-- The reader of lines as it changes the text.  Where it fails it may have begun to take something,
and it leaves `stray cs`, which may be anything. -/
def attempt (stray : List Char → List Char) (cs : List Char) :
    Option (Option (Event Float)) × List Char :=
  match line cs with
  | none => (none, stray cs)
  | some (o, rest) => (some o, rest)

theorem attempt_eq_some {stray : List Char → List Char} {cs rest : List Char}
    {o : Option (Event Float)} : attempt stray cs = (some o, rest) ↔ line cs = some (o, rest) := by
  unfold attempt
  cases line cs <;> simp [Prod.ext_iff]

theorem attempt_eq_none {stray : List Char → List Char} {cs rest : List Char} :
    attempt stray cs = (none, rest) ↔ line cs = none ∧ stray cs = rest := by
  unfold attempt
  cases line cs <;> simp [Prod.ext_iff]

section Rounds

variable {stray : List Char → List Char} {ls back : List (List Char)}
  {os : List (Option (Event Float))} {n : Nat}

/-- The loop ends with the text on which the reader fails, whatever the reader leaves of it. -/
theorem call_of_line_eq_none {cs : List Char} (h : line cs = none)
    (items : List (Option (Event Float))) :
    Loop.call (attempt stray) (.going items cs) = .over items cs := by
  simp only [Loop.call, attempt, h]

/-- A round takes a physical line, and so it takes something. -/
theorem call_of_line_eq_some {cs rest : List Char} {o : Option (Event Float)}
    (h : line cs = some (o, rest)) (items : List (Option (Event Float))) :
    Loop.call (attempt stray) (.going items cs) = .going (items ++ [o]) rest := by
  obtain ⟨l, hl, hcs⟩ := physicalLine_of_line h
  have hne : byteLength rest ≠ byteLength cs := by
    have := hl.byteLength_pos
    rw [hcs, byteLength_append]
    omega
  simp only [Loop.call, attempt_eq_some.mpr h, if_neg hne]

/-- The lines are taken in as many rounds, one in each. -/
theorem Takes.iterate_of_le (h : Takes ls os back) (items : List (Option (Event Float)))
    (hn : n ≤ os.length) : (Loop.call (attempt stray))^[n] (.going items ls.flatten)
      = .going (items ++ os.take n) (ls.drop n).flatten := by
  induction h generalizing items n with
  | fails =>
    cases Nat.le_zero.mp hn
    simp
  | takes h _ ih =>
    cases n with
    | zero => simp
    | succ n =>
      rw [Function.iterate_succ_apply, call_of_line_eq_some h, ih _ (Nat.le_of_succ_le_succ hn)]
      simp

/-- After the rounds the reader fails, and the loop is over. -/
theorem Takes.iterate_of_lt (h : Takes ls os back) (items : List (Option (Event Float)))
    (hn : os.length < n) : (Loop.call (attempt stray))^[n] (.going items ls.flatten)
      = .over (items ++ os) back.flatten := by
  induction h generalizing items n with
  | fails h =>
    obtain ⟨n, rfl⟩ := Nat.exists_eq_add_of_lt hn
    rw [Function.iterate_succ_apply, call_of_line_eq_none h, Function.iterate_fixed rfl]
    simp
  | takes h _ ih =>
    cases n with
    | zero => exact absurd hn (Nat.not_lt_zero _)
    | succ n =>
      rw [Function.iterate_succ_apply, call_of_line_eq_some h, ih _ (Nat.lt_of_succ_lt_succ hn)]
      simp

/-! A run over a whole text takes its physical lines, from the first one on. -/

variable {text : List Char}

theorem Takes.after_of_le (h : Takes (physicalLines text) os back) (hn : n ≤ os.length) :
    Loop.after (attempt stray) n text
      = .going (os.take n) ((physicalLines text).drop n).flatten := by
  rw [← List.nil_append (os.take n), ← h.iterate_of_le [] hn, flatten_physicalLines]
  rfl

theorem Takes.after_of_lt (h : Takes (physicalLines text) os back) (hn : os.length < n) :
    Loop.after (attempt stray) n text = .over os back.flatten := by
  rw [← List.nil_append os, ← h.iterate_of_lt [] hn, flatten_physicalLines]
  rfl

/-- At no time has the reader given something without taking anything. -/
theorem after_ne_stuck (n : Nat) (text : List Char) :
    Loop.after (attempt stray) n text ≠ .stuck := by
  obtain ⟨os, back, h⟩ := exists_takes text
  rcases Nat.lt_or_ge os.length n with hn | hn
  · rw [h.after_of_lt hn]
    nofun
  · rw [h.after_of_le hn]
    nofun

end Rounds

/-- **The loop takes a physical line in each round, is never stuck, and ends at the beginning of the
line on which the reader fails.**  What a successful reader takes is not empty, and has a line feed
as its last character and nowhere else, or has none and reaches the end of the text; if the reader
fails, the loop has the text again on which it failed.  Of every text the lines `front` are taken in
as many rounds, which are at most one more than there are line feeds, and the call behind them ends
the loop with the lines `back`.  If there are any, then as many line feeds have been taken as lines;
so it is for a script that is refused, and the line that is blamed is the next one. -/
theorem rounds_take_physicalLines (stray : List Char → List Char) :
    (∀ cs o rest, attempt stray cs = (some o, rest) →
        ∃ taken, cs = taken ++ rest ∧ 1 ≤ byteLength taken
          ∧ (taken.count '\n' = 1 ∧ taken.getLast? = some '\n' ∨ '\n' ∉ taken ∧ rest = []))
      ∧ (∀ cs rest, attempt stray cs = (none, rest) →
        ∀ items, Loop.call (attempt stray) (.going items cs) = .over items cs)
      ∧ ∀ text, ∃ os front back, physicalLines text = front ++ back
        ∧ os.length = front.length ∧ front.length ≤ text.count '\n' + 1
        ∧ lines text = (os.reduceOption, back.flatten)
        ∧ attempt stray back.flatten = (none, stray back.flatten)
        ∧ (∀ n ≤ front.length, Loop.after (attempt stray) n text
          = .going (os.take n) ((physicalLines text).drop n).flatten)
        ∧ (∀ n > front.length, Loop.after (attempt stray) n text = .over os back.flatten)
        ∧ (∀ n, Loop.after (attempt stray) n text ≠ .stuck)
        ∧ (back ≠ [] → front.flatten.count '\n' = front.length)
        ∧ ∀ f, read text = .error f →
          back ≠ [] ∧ ∃ context, f = .badScript (front.length + 1) context := by
  refine ⟨?taken, fun cs rest h => call_of_line_eq_none (attempt_eq_none.mp h).1, fun text => ?loop⟩
  case taken =>
    intro cs o rest h
    obtain ⟨l, hl, hcs⟩ := physicalLine_of_line (attempt_eq_some.mp h)
    exact ⟨l, hcs, hl.byteLength_pos, hl.count_feed⟩
  case loop =>
    obtain ⟨os, back, hs⟩ := exists_takes text
    obtain ⟨front, happend, hlength⟩ := hs.exists_append
    have hbound : front.length ≤ text.count '\n' + 1 := by
      calc front.length ≤ (physicalLines text).length := by
            rw [happend, List.length_append]
            exact Nat.le_add_right _ _
        _ ≤ text.count '\n' + 1 := length_physicalLines_le text
    have hlines : lines text = (os.reduceOption, back.flatten) := by
      rw [← hs.lines_eq, flatten_physicalLines]
    have hfails : attempt stray back.flatten = (none, stray back.flatten) :=
      attempt_eq_none.mpr ⟨hs.line_back, rfl⟩
    refine ⟨os, front, back, happend, hlength.symm, hbound, hlines, hfails, ?_, ?_,
      fun n => after_ne_stuck n text, count_feed_of_physicalLines happend, ?_⟩
    · exact fun n hn => hs.after_of_le (hlength ▸ hn)
    · exact fun n hn => hs.after_of_lt (hlength ▸ hn)
    · exact fun f => blamed_behind happend (congrArg Prod.snd hlines)

/-- A script whose third line says nothing. -/
def refusedScript : List Char := "up\r\n%% go\n\tspin 90".toList

theorem read_refusedScript : read refusedScript = .error (.badScript 3 "spin 90") := by
  have hup : line refusedScript = some (some .release, "%% go\n\tspin 90".toList) := rfl
  have hcomment : line "%% go\n\tspin 90".toList = some (none, "\tspin 90".toList) := rfl
  have hspin : line "\tspin 90".toList = none := rfl
  rw [read_eq_error, lines_of_some hup, lines_of_some hcomment, lines_of_none hspin]
  exact ⟨not_isGap_append_cons (g := ['\t']) (by decide), rfl⟩

/-- Two lines are taken in two rounds, the first one with a carriage return before its line feed.
The third call ends the loop, and the third line is blamed.  The reader has left nothing of it, but
the loop has it again. -/
theorem rounds_of_refusedScript :
    attempt (fun _ => []) refusedScript = (some (some .release), "%% go\n\tspin 90".toList)
      ∧ (∃ taken, refusedScript = taken ++ "%% go\n\tspin 90".toList
        ∧ taken.count '\n' = 1 ∧ taken.getLast? = some '\n')
      ∧ attempt (fun _ => []) "\tspin 90".toList = (none, [])
      ∧ Loop.call (attempt fun _ => []) (.going [] "\tspin 90".toList) = .over [] "\tspin 90".toList
      ∧ read refusedScript = .error (.badScript 3 "spin 90")
      ∧ ∃ os front, front = ["up\r\n".toList, "%% go\n".toList]
        ∧ os.length = 2 ∧ front.flatten.count '\n' = 2
        ∧ Loop.after (attempt fun _ => []) 2 refusedScript = .going os "\tspin 90".toList
        ∧ Loop.after (attempt fun _ => []) 3 refusedScript = .over os "\tspin 90".toList := by
  obtain ⟨htaken, hfails, hloop⟩ := rounds_take_physicalLines fun _ => []
  have hup : attempt (fun _ => []) refusedScript
      = (some (some .release), "%% go\n\tspin 90".toList) := rfl
  have hspin : attempt (fun _ => []) "\tspin 90".toList = (none, []) := rfl
  obtain ⟨taken, htext, -, hfeed⟩ := htaken _ _ _ hup
  have hfeed : taken.count '\n' = 1 ∧ taken.getLast? = some '\n' :=
    hfeed.resolve_right fun h => absurd h.2 (by decide)
  obtain ⟨os, front, back, happend, hos, -, -, -, hle, hlt, -, hcount, hblamed⟩ :=
    hloop refusedScript
  -- The number of the line that is blamed tells how many lines have been taken.
  obtain ⟨hback, context, hf⟩ := hblamed _ read_refusedScript
  have hlength : front.length = 2 := (Nat.succ.inj (Failure.badScript.inj hf).1).symm
  have hlines : physicalLines refusedScript
      = ["up\r\n".toList, "%% go\n".toList] ++ ["\tspin 90".toList] := rfl
  obtain ⟨hfront, rfl⟩ := List.append_inj (happend.symm.trans hlines) hlength
  have htake : os.take 2 = os := List.take_of_length_le (hos.trans hlength).le
  refine ⟨hup, ⟨taken, htext, hfeed⟩, hspin, hfails _ _ hspin [], read_refusedScript, os, front,
    hfront, hos.trans hlength, (hcount hback).trans hlength, ?_, hlt 3 (by omega)⟩
  rw [hle 2 hlength.ge, hlines, htake]
  rfl

end FlowCanvas.Script
