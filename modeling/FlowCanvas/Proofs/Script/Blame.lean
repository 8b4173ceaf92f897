import FlowCanvas.Proofs.Script.Grammar

/-!
# The line that is blamed

The reader of scripts learns where it stopped from the text that is left: the line feeds before it
are counted, and its first line is shown.  What is left begins behind the gap of the line that could
not be read, so the number is that of this line, and what is shown of it is the line without the
white space at its ends, or its beginning.

The lines before it all say something, and it is the first one that does not (`Blames`).  From this
follows what becomes of two scripts that are put together, as the lines of the whole are those of
the two, one after the other (`segments_append`).

## Main definitions

* `Blames ls n l` — the line `l` is the first one of `ls` that says nothing, and its number is `n`.

## Main results

* `read_eq_error_iff` — **the reader refuses exactly the scripts with a line that says nothing, and
  blames the first one.**
* `read_blames_first_line` — what is blamed, and what text that is added does not change.
-/

namespace FlowCanvas.Script

/-! ### What is shown of a line -/

/-- White space at the beginning of a text is trimmed. -/
theorem trim_append_left {g : List Char} (hg : ∀ c ∈ g, isBlank c) (cs : List Char) :
    trim (g ++ cs) = trim cs := by
  unfold trim
  rw [List.dropWhile_append_of_pos hg]

/-- White space at the end of a text is trimmed. -/
theorem trim_append_right {g : List Char} (hg : ∀ c ∈ g, isBlank c) (cs : List Char) :
    trim (cs ++ g) = trim cs := by
  unfold trim
  rw [List.dropWhile_append]
  split
  · next hblank =>
    rw [List.isEmpty_iff.mp hblank, List.dropWhile_eq_nil_iff.mpr hg]
  · have hreverse : ∀ c ∈ g.reverse, isBlank c := fun c hc => hg c (List.mem_reverse.mp hc)
    rw [List.reverse_append, List.dropWhile_append_of_pos hreverse]

/-- The first line of a text. -/
theorem takeWhile_line {l : List Char} (h : '\n' ∉ l) {rest : List Char}
    (hrest : Stops (· ≠ '\n') rest) : (l ++ rest).takeWhile (· ≠ '\n') = l :=
  takeWhile_append_of_stops (fun _ hc => decide_eq_true fun hfeed => h (hfeed ▸ hc)) hrest

theorem excerpt_append {l : List Char} (h : '\n' ∉ l) {rest : List Char}
    (hrest : Stops (· ≠ '\n') rest) :
    excerpt (l ++ rest) = if excerptLength < byteLength (trim l)
      then (trim l).take excerptLength ++ "...".toList else trim l := by
  unfold excerpt
  rw [takeWhile_line h hrest]

/-- What a message shows of a line. -/
theorem excerpt_of_notMem {l : List Char} (h : '\n' ∉ l) :
    excerpt l = if excerptLength < byteLength (trim l)
      then (trim l).take excerptLength ++ "...".toList else trim l := by
  rw [← excerpt_append h stops_nil, List.append_nil]

/-- What a message shows of a line is the beginning of what is left of it without white space, and
maybe dots. -/
theorem exists_prefix_excerpt {l : List Char} (h : '\n' ∉ l) :
    ∃ shown, shown <+: trim l ∧ (excerpt l = shown ∨ excerpt l = shown ++ "...".toList) := by
  rw [excerpt_of_notMem h]
  split
  · exact ⟨_, List.take_prefix _ _, Or.inr rfl⟩
  · exact ⟨_, List.prefix_rfl, Or.inl rfl⟩

/-- What a message shows of a text is what it shows of its first line. -/
theorem excerpt_append_feed {l : List Char} (h : '\n' ∉ l) (cs : List Char) :
    excerpt (l ++ '\n' :: cs) = excerpt l := by
  rw [excerpt_append h (stops_cons.mpr (by decide)), excerpt_of_notMem h]

/-- A carriage return at the end of a line is not shown. -/
theorem excerpt_dropReturn {l : List Char} (h : '\n' ∉ l) : excerpt (dropReturn l) = excerpt l := by
  have htrim : trim (dropReturn l) = trim l := by
    have hreturn : ∀ c ∈ ['\r'], isBlank c := forall_mem_of_all (by decide)
    rcases eq_dropReturn_or l with hl | hl
    · rw [← hl]
    · conv_rhs => rw [hl]
      rw [trim_append_right hreturn]
  rw [excerpt_of_notMem h, excerpt_of_notMem (newline_notMem_dropReturn h), htrim]

/-- A gap at the beginning of a line is not shown. -/
theorem excerpt_skipGap (cs : List Char) : excerpt (skipGap cs) = excerpt cs := by
  obtain ⟨g, hg, hcs, -⟩ := exists_skipGap cs
  have hfeed : ∀ c ∈ g, decide (c ≠ '\n') := fun c hc => decide_eq_true (ne_of_isGap (hg c hc) rfl)
  have hblank : ∀ c ∈ g, isBlank c := by
    intro c hc
    have hgap := hg c hc
    rw [isGap, Bool.or_eq_true, decide_eq_true_eq, decide_eq_true_eq] at hgap
    rcases hgap with rfl | rfl <;> decide
  unfold excerpt
  conv_rhs => rw [hcs]
  rw [List.takeWhile_append_of_pos hfeed, trim_append_left hblank]

/-! ### Where the reader stops -/

theorem lines_suffix (text : List Char) : (lines text).2 <:+ text := by
  induction text using lines.induct with
  | case1 cs h =>
    have hrest : (lines cs).2 = cs := by rw [lines_of_none h]
    exact ⟨[], hrest⟩
  | case2 cs e rest h ih =>
    rw [lines_of_some h]
    obtain ⟨l, e, -, -, -, -, rfl⟩ := line_eq_some.mp h
    exact ih.trans ((List.suffix_append e rest).trans (List.suffix_append l _))

theorem lineNumber_append (front rest : List Char) :
    lineNumber (front ++ rest) rest = front.count '\n' + 1 := by
  unfold lineNumber
  rw [List.length_append, Nat.add_sub_cancel, List.take_left]

/-- A gap is on the line of what stands behind it. -/
theorem lineNumber_skipGap (front rest : List Char) :
    lineNumber (front ++ rest) (skipGap rest) = front.count '\n' + 1 := by
  obtain ⟨g, hg, hrest, -⟩ := exists_skipGap rest
  have hfeed : '\n' ∉ g := notMem_of_isGap hg (by decide)
  calc lineNumber (front ++ rest) (skipGap rest)
      = lineNumber (front ++ g ++ skipGap rest) (skipGap rest) := by
        rw [List.append_assoc, ← hrest]
    _ = front.count '\n' + 1 := by
        rw [lineNumber_append, List.count_append, List.count_eq_zero_of_not_mem hfeed, Nat.add_zero]

/-- The number of a line in a text is one more if there is another line before the text. -/
theorem lineNumber_append_feed {l cs rest : List Char} (h : '\n' ∉ l) (hrest : rest <:+ cs) :
    lineNumber (l ++ '\n' :: cs) rest = lineNumber cs rest + 1 := by
  obtain ⟨front, rfl⟩ := hrest
  have hfront : l ++ '\n' :: (front ++ rest) = (l ++ '\n' :: front) ++ rest := by simp
  rw [hfront, lineNumber_append, lineNumber_append, List.count_append, List.count_cons_self,
    List.count_eq_zero_of_not_mem h, Nat.zero_add]

theorem read_eq_error {text : List Char} {f : Failure} :
    read text = .error f ↔ ¬ IsGap (lines text).2 ∧
      f = .badScript (lineNumber text (skipGap (lines text).2))
        (String.ofList (excerpt (lines text).2)) := by
  rw [← skipGap_eq_nil_iff, ← excerpt_skipGap]
  unfold read
  dsimp only
  split
  · next hs => simp [hs]
  · next c rest hs =>
    rw [hs]
    simp [eq_comm]

/-- A script whose first line cannot be read. -/
theorem read_of_line_eq_none {text : List Char} (h : line text = none) (hgap : ¬ IsGap text) :
    read text = .error (.badScript 1 (String.ofList (excerpt text))) := by
  have hnumber : lineNumber text (skipGap text) = 1 := lineNumber_skipGap [] text
  rw [read_eq_error, lines_of_none h]
  exact ⟨hgap, by rw [hnumber]⟩

/-- The failure of a script that stands behind a line of another one. -/
def nextLine : Failure → Failure
  | .badScript line context => .badScript (line + 1) context
  | f => f

/-- A script with a line before it that says something fails as it does without the line. -/
theorem read_append_feed_eq_error {l cs : List Char} (h : '\n' ∉ l) {o : Option (Event Float)}
    (hl : Says (dropReturn l) o) {f : Failure} :
    read (l ++ '\n' :: cs) = .error f ↔ ∃ f', read cs = .error f' ∧ f = nextLine f' := by
  have hline : line (l ++ '\n' :: cs) = some (o, cs) := (line_append_feed h).mpr ⟨hl, rfl⟩
  have hrest : skipGap (lines cs).2 <:+ cs := (skipGap_suffix _).trans (lines_suffix cs)
  simp only [read_eq_error, lines_of_some hline, lineNumber_append_feed h hrest]
  constructor
  · rintro ⟨hgap, rfl⟩
    exact ⟨_, ⟨hgap, rfl⟩, rfl⟩
  · rintro ⟨_, ⟨hgap, rfl⟩, rfl⟩
    exact ⟨hgap, rfl⟩

/-! ### The first line that says nothing -/

/-- The line `l` is the first one of `ls` that says nothing, and it is line number `n`. -/
inductive Blames : (ls : List (List Char)) → (n : Nat) → (l : List Char) → Prop
  | here {l : List Char} {ls : List (List Char)} (h : ∀ o, ¬ Says l o) : Blames (l :: ls) 1 l
  | next {k l : List Char} {ls : List (List Char)} {n : Nat} {o : Option (Event Float)}
      (h : Says k o) (rest : Blames ls n l) : Blames (k :: ls) (n + 1) l

theorem not_blames_nil {n : Nat} {l : List Char} : ¬ Blames [] n l := nofun

/-- A line that says something is not blamed, and is counted if one behind it is. -/
theorem blames_behind_iff {k l : List Char} {ls : List (List Char)} {n : Nat}
    {o : Option (Event Float)} (h : Says k o) :
    Blames (k :: ls) n l ↔ ∃ m, n = m + 1 ∧ Blames ls m l := by
  constructor
  · intro hblame
    cases hblame with
    | here hnot => exact absurd h (hnot o)
    | next _ rest => exact ⟨_, rfl, rest⟩
  · rintro ⟨m, rfl, rest⟩
    exact .next h rest

/-- A line that says nothing is blamed, whatever is behind it. -/
theorem blames_first_iff {k l : List Char} {ls : List (List Char)} {n : Nat}
    (h : ∀ o, ¬ Says k o) : Blames (k :: ls) n l ↔ n = 1 ∧ l = k := by
  constructor
  · intro hblame
    cases hblame with
    | here => exact ⟨rfl, rfl⟩
    | next hk _ => exact absurd hk (h _)
  · rintro ⟨rfl, rfl⟩
    exact .here h

/-- The lines before the one that is blamed all say something. -/
theorem Blames.exists_append {ls : List (List Char)} {n : Nat} {l : List Char}
    (h : Blames ls n l) :
    ∃ before after, ls = before ++ l :: after ∧ n = before.length + 1
      ∧ (∀ k ∈ before, ∃ o, Says k o) ∧ ∀ o, ¬ Says l o := by
  induction h with
  | @here l ls h => exact ⟨[], ls, rfl, rfl, fun _ hk => absurd hk List.not_mem_nil, h⟩
  | @next k l ls n o hk _ ih =>
    obtain ⟨before, after, rfl, rfl, hbefore, hl⟩ := ih
    exact ⟨k :: before, after, rfl, rfl, List.forall_mem_cons.mpr ⟨⟨o, hk⟩, hbefore⟩, hl⟩

/-- Lines behind the one that is blamed do not matter. -/
theorem Blames.append_right {ls : List (List Char)} {n : Nat} {l : List Char}
    (h : Blames ls n l) (ms : List (List Char)) : Blames (ls ++ ms) n l := by
  induction h with
  | here h => exact .here h
  | next hk _ ih => exact .next hk ih

/-- Lines that say something before the one that is blamed are counted. -/
theorem Blames.append_left {ls : List (List Char)} {n : Nat} {l : List Char} (h : Blames ls n l)
    {ks : List (List Char)} (hks : ∀ k ∈ ks, ∃ o, Says k o) :
    Blames (ks ++ ls) (n + ks.length) l := by
  induction ks with
  | nil => exact h
  | cons k ks ih =>
    obtain ⟨⟨o, hk⟩, hks⟩ := List.forall_mem_cons.mp hks
    exact .next hk (ih hks)

/-- **The reader refuses exactly the scripts with a line that says nothing, and blames the first
one**, by induction over the lines. -/
theorem read_eq_error_iff {text : List Char} {f : Failure} :
    read text = .error f ↔
      ∃ n l, Blames (segments text) n l ∧ f = .badScript n (String.ofList (excerpt l)) := by
  induction text using text_induction generalizing f with
  | last l h =>
    rw [segments_of_notMem h]
    by_cases hl : ∃ o, Says l o
    · obtain ⟨o, hl⟩ := hl
      have hok : read l = .ok o.toList := (read_of_notMem h).mpr ⟨o, hl, rfl⟩
      simp [hok, blames_behind_iff hl, not_blames_nil]
    · have hnot : ∀ o, ¬ Says l o := not_exists.mp hl
      have hgap : ¬ IsGap l := fun hgap => hnot none (.blank hgap)
      have hline : line l = none := Option.eq_none_iff_forall_ne_some.mpr fun ⟨o, rest⟩ hsome =>
        hnot o ((line_of_notMem h).mp hsome).1
      rw [read_of_line_eq_none hline hgap]
      simp [blames_first_iff hnot, eq_comm]
  | feed l cs h ih =>
    rw [segments_append_feed h]
    by_cases hl : ∃ o, Says (dropReturn l) o
    · obtain ⟨o, hl⟩ := hl
      simp only [read_append_feed_eq_error h hl, blames_behind_iff hl, ih]
      constructor
      · rintro ⟨f', ⟨n, k, hblame, rfl⟩, rfl⟩
        exact ⟨n + 1, k, ⟨n, rfl, hblame⟩, rfl⟩
      · rintro ⟨_, k, ⟨n, rfl, hblame⟩, rfl⟩
        exact ⟨_, ⟨n, k, hblame, rfl⟩, rfl⟩
    · have hnot : ∀ o, ¬ Says (dropReturn l) o := not_exists.mp hl
      have hgap : ¬ IsGap (l ++ '\n' :: cs) := not_isGap_append_cons (by decide)
      have hline : line (l ++ '\n' :: cs) = none :=
        Option.eq_none_iff_forall_ne_some.mpr fun ⟨o, rest⟩ hsome =>
          hnot o ((line_append_feed h).mp hsome).1
      rw [read_of_line_eq_none hline hgap, excerpt_append_feed h, ← excerpt_dropReturn h]
      simp [blames_first_iff hnot, eq_comm]

/-! ### Scripts put together -/

/-- What is said by scripts that are put together. -/
theorem read_append {s t : List Char} (hs : s.getLast? ≠ some '\r') {es es' : List (Event Float)}
    (hread : read s = .ok es) (hread' : read t = .ok es') :
    read (s ++ '\n' :: t) = .ok (es ++ es') := by
  obtain ⟨os, hos, rfl⟩ := read_eq_ok_iff_forall₂.mp hread
  obtain ⟨os', hos', rfl⟩ := read_eq_ok_iff_forall₂.mp hread'
  rw [read_eq_ok_iff_forall₂, segments_append hs]
  exact ⟨os ++ os', List.rel_append hos hos', List.reduceOption_append os os'⟩

/-- **What is blamed, and what text that is added does not change.**  Of a script that is refused
the first line that says nothing is blamed, by its number and by what is left of it without the
white space at its ends, or the beginning of this.  A script behind it changes nothing; a script
before it that is read, or one that is read behind one that is read, only adds to the number or to
the events.  The first of two scripts must not end with a carriage return, which would become part
of the sign for the end of its line. -/
theorem read_blames_first_line :
    (∀ text f, read text = .error f →
        ∃ before l after context, segments text = before ++ l :: after
          ∧ (∀ k ∈ before, ∃ o, Says k o) ∧ (∀ o, ¬ Says l o)
          ∧ f = .badScript (before.length + 1) (String.ofList context)
          ∧ ∃ shown, shown <+: trim l ∧ (context = shown ∨ context = shown ++ "...".toList))
      ∧ ∀ s t : List Char, s.getLast? ≠ some '\r' →
        (∀ f, read s = .error f → read (s ++ '\n' :: t) = .error f)
          ∧ (∀ es n context, read s = .ok es → read t = .error (.badScript n context) →
            read (s ++ '\n' :: t) = .error (.badScript (n + 1 + s.count '\n') context))
          ∧ ∀ es es', read s = .ok es → read t = .ok es' →
            read (s ++ '\n' :: t) = .ok (es ++ es') := by
  refine ⟨?blamed, fun s t hs => ⟨?behind, ?before, fun _ _ => read_append hs⟩⟩
  case blamed =>
    intro text f hread
    obtain ⟨n, l, hblame, rfl⟩ := read_eq_error_iff.mp hread
    obtain ⟨before, after, hsegments, rfl, hbefore, hl⟩ := hblame.exists_append
    have hmem : l ∈ segments text := hsegments ▸ List.mem_append_right before List.mem_cons_self
    exact ⟨before, l, after, excerpt l, hsegments, hbefore, hl, rfl,
      exists_prefix_excerpt (newline_notMem_of_mem_segments hmem)⟩
  case behind =>
    intro f hread
    obtain ⟨n, l, hblame, rfl⟩ := read_eq_error_iff.mp hread
    rw [read_eq_error_iff, segments_append hs]
    exact ⟨n, l, hblame.append_right _, rfl⟩
  case before =>
    intro es n context hread hread'
    obtain ⟨m, l, hblame, heq⟩ := read_eq_error_iff.mp hread'
    obtain ⟨rfl, rfl⟩ := Failure.badScript.inj heq
    rw [read_eq_error_iff, segments_append hs]
    have hlater := hblame.append_left (exists_says_of_read hread)
    rw [length_segments] at hlater
    exact ⟨n + 1 + s.count '\n', l, by rwa [Nat.add_assoc, Nat.add_comm 1], rfl⟩

/-- The second of two lines is blamed, also with a script behind them, and as the fourth one with
a comment and another line before them.  Twice these two say an event twice. -/
theorem read_blames_second_line :
    ("up\n\tspin 90".toList.getLast? ≠ some '\r' ∧ "%% go\nup".toList.getLast? ≠ some '\r')
      ∧ read "up\n\tspin 90".toList = .error (.badScript 2 "spin 90")
      ∧ read "%% go\nup".toList = .ok [.release]
      ∧ read ("up\n\tspin 90".toList ++ '\n' :: "reset".toList)
        = .error (.badScript 2 "spin 90")
      ∧ read ("%% go\nup".toList ++ '\n' :: "up\n\tspin 90".toList)
        = .error (.badScript 4 "spin 90")
      ∧ read ("%% go\nup".toList ++ '\n' :: "%% go\nup".toList) = .ok [.release, .release] := by
  have hends : "up\n\tspin 90".toList.getLast? ≠ some '\r'
      ∧ "%% go\nup".toList.getLast? ≠ some '\r' := by decide
  have hbad : read "up\n\tspin 90".toList = .error (.badScript 2 "spin 90") := by
    have hup : line "up\n\tspin 90".toList = some (some .release, "\tspin 90".toList) := rfl
    have hspin : line "\tspin 90".toList = none := rfl
    rw [read_eq_error, lines_of_some hup, lines_of_none hspin]
    exact ⟨not_isGap_append_cons (g := ['\t']) (by decide), rfl⟩
  have hgood : read "%% go\nup".toList = .ok [.release] := by
    have hcomment : line "%% go\nup".toList = some (none, "up".toList) := rfl
    have hup : line "up".toList = some (some .release, []) := rfl
    rw [read_eq_ok, lines_of_some hcomment, lines_of_some hup, lines_nil]
    exact ⟨isGap_nil, rfl⟩
  obtain ⟨-, happend⟩ := read_blames_first_line
  exact ⟨hends, hbad, hgood, (happend _ _ hends.1).1 _ hbad,
    (happend _ _ hends.2).2.1 _ _ _ hgood hbad, (happend _ _ hends.2).2.2 _ _ hgood hgood⟩

end FlowCanvas.Script
