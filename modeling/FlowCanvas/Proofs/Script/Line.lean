import FlowCanvas.Proofs.Script.Word

/-!
# What a line of a script says

A line is blank, or a comment, or an event with its words.  The reader of lines knows nothing of
this: it takes one thing after another from the whole text, and turns back where an alternative
fails.  Here it is shown that it takes exactly the lines that say something, each with the sign for
its end, and nothing of the lines behind it.

Three things are needed for this.  What denotes an event has no sign for the end of a line in it
(`Denotes.notMem`); a number ends where its word ends, since only a gap or the end of the line may
follow (`Gapped.stops`); and the first letter of a keyword already tells it from the others, so that
no alternative takes what another one is meant for (`event_of_denotes`).

## Main definitions

* `Gapped ws cs` — the text `cs` is the words `ws`, each behind a gap.
* `Denotes keyword ws e` — a keyword and the words behind it denote an event.
* `Says cs o` — the line `cs` says `o`, which is an event or nothing.

## Main results

* `line_eq_some` — **what a line takes is a line that says something, and the sign for its end.**
-/

namespace FlowCanvas.Script

/-! ### Words behind gaps -/

/-- The text is the words, each behind a gap. -/
inductive Gapped : List (List Char) → List Char → Prop
  | nil : Gapped [] []
  | cons {g w : List Char} {ws : List (List Char)} {cs : List Char} (hne : g ≠ []) (hg : IsGap g)
      (h : Gapped ws cs) : Gapped (w :: ws) (g ++ w ++ cs)

theorem Gapped.one {g : List Char} (hne : g ≠ []) (hg : IsGap g) (w : List Char) :
    Gapped [w] (g ++ w) := by
  have h : Gapped [w] (g ++ w ++ []) := .cons hne hg .nil
  rwa [List.append_nil] at h

theorem Gapped.append {ws ws' : List (List Char)} {cs cs' : List Char} (h : Gapped ws cs)
    (h' : Gapped ws' cs') : Gapped (ws ++ ws') (cs ++ cs') := by
  induction h with
  | nil => exact h'
  | cons hne hg _ ih =>
    rw [List.append_assoc]
    exact .cons hne hg ih

theorem Gapped.exists_append (ws : List (List Char)) {ws' : List (List Char)} {cs : List Char}
    (h : Gapped (ws ++ ws') cs) : ∃ l r, cs = l ++ r ∧ Gapped ws l ∧ Gapped ws' r := by
  induction ws generalizing cs with
  | nil => exact ⟨[], cs, rfl, .nil, h⟩
  | cons w ws ih =>
    cases h with
    | cons hne hg h =>
      obtain ⟨l, r, rfl, hl, hr⟩ := ih h
      exact ⟨_, r, (List.append_assoc ..).symm, .cons hne hg hl, hr⟩

/-- Behind a word comes a gap or what comes behind all of the words. -/
theorem Gapped.stops {ws : List (List Char)} {cs rest : List Char} (h : Gapped ws cs)
    (hrest : Stops inWord rest) : Stops inWord (cs ++ rest) := by
  cases h with
  | nil => exact hrest
  | cons hne hg _ =>
    rw [List.append_assoc, List.append_assoc]
    exact (stops_inWord_of_isGap hg).append hne

/-- What holds of the characters of gaps and of words holds of all characters. -/
theorem Gapped.forall {P : Char → Prop} (hgap : ∀ c, isGap c → P c) {ws : List (List Char)}
    {cs : List Char} (h : Gapped ws cs) (hws : ∀ w ∈ ws, ∀ c ∈ w, P c) : ∀ c ∈ cs, P c := by
  induction h with
  | nil => exact fun _ hc => absurd hc List.not_mem_nil
  | cons _ hg _ ih =>
    obtain ⟨hw, hws⟩ := List.forall_mem_cons.mp hws
    intro c hc
    rcases List.mem_append.mp hc with hc | hc
    · rcases List.mem_append.mp hc with hc | hc
      · exact hgap c (hg c hc)
      · exact hw c hc
    · exact ih hws c hc

/-- A gap and a number that have been read are a word behind a gap. -/
theorem gapped_of_number {cs cs₁ rest : List Char} {x : Float} (hgap : gap cs = some cs₁)
    (hnumber : number cs₁ = some (x, rest)) :
    ∃ w l, Number w x ∧ Gapped [w] l ∧ cs = l ++ rest := by
  obtain ⟨g, hne, hg, rfl, -⟩ := gap_eq_some.mp hgap
  obtain ⟨w, hw, rfl, -⟩ := number_eq_some.mp hnumber
  exact ⟨w, g ++ w, hw, .one hne hg w, (List.append_assoc ..).symm⟩

/-- A gap is taken as a whole if the word behind it does not go on with it. -/
theorem Gapped.gap_eq {w l rest : List Char} (h : Gapped [w] l)
    (hstop : Stops isGap (w ++ rest)) : gap (l ++ rest) = some (w ++ rest) := by
  cases h with
  | @cons g _ _ _ hne hg h =>
    cases h
    refine gap_eq_some.mpr ⟨g, hne, hg, ?_, hstop⟩
    rw [List.append_nil, List.append_assoc]

/-- A number behind a gap is read. -/
theorem exists_gap_number {w l rest : List Char} {x : Float} (hw : Number w x)
    (hl : Gapped [w] l) (hrest : Stops inWord rest) :
    ∃ cs, gap (l ++ rest) = some cs ∧ number cs = some (x, rest) :=
  ⟨w ++ rest, hl.gap_eq (stops_isGap_of_number hw rest), number_eq_some.mpr ⟨w, hw, rfl, hrest⟩⟩

/-- A point is read where two numbers stand behind gaps. -/
theorem gapped_of_point {cs rest : List Char} {p : Point Float} (h : point cs = some (p, rest)) :
    ∃ a b l, Number a p.x ∧ Number b p.y ∧ Gapped [a, b] l ∧ cs = l ++ rest := by
  simp only [point, Option.bind_eq_bind, Option.bind_eq_some_iff, Option.some.injEq,
    Prod.mk.injEq] at h
  obtain ⟨_, hgap, ⟨x, _⟩, hx, _, hgap', ⟨y, _⟩, hy, rfl, rfl⟩ := h
  obtain ⟨a, l, ha, hl, rfl⟩ := gapped_of_number hgap hx
  obtain ⟨b, l', hb, hl', rfl⟩ := gapped_of_number hgap' hy
  exact ⟨a, b, l ++ l', ha, hb, hl.append hl', (List.append_assoc ..).symm⟩

theorem point_of_gapped {a b l rest : List Char} {x y : Float} (ha : Number a x)
    (hb : Number b y) (hl : Gapped [a, b] l) (hrest : Stops inWord rest) :
    point (l ++ rest) = some (⟨x, y⟩, rest) := by
  obtain ⟨l, l', rfl, hl, hl'⟩ := Gapped.exists_append [a] hl
  obtain ⟨_, hgap, hx⟩ := exists_gap_number ha hl (hl'.stops hrest)
  obtain ⟨_, hgap', hy⟩ := exists_gap_number hb hl' hrest
  rw [List.append_assoc]
  simp only [point, Option.bind_eq_bind, hgap, hx, hgap', hy, Option.bind_some]

/-! ### Events -/

/-- A keyword and the words behind it denote an event. -/
inductive Denotes : String → List (List Char) → Event Float → Prop
  | wheel {d a b : List Char} {delta x y : Float} (hd : Number d delta) (ha : Number a x)
      (hb : Number b y) : Denotes "wheel" [d, a, b] (.wheel delta ⟨x, y⟩)
  | press {a b : List Char} {x y : Float} (ha : Number a x) (hb : Number b y) :
      Denotes "down" [a, b] (.press ⟨x, y⟩)
  | move {a b : List Char} {x y : Float} (ha : Number a x) (hb : Number b y) :
      Denotes "move" [a, b] (.move ⟨x, y⟩)
  | release : Denotes "up" [] .release
  | zoomIn : Denotes "zoom" ["in".toList] .zoomIn
  | zoomOut : Denotes "zoom" ["out".toList] .zoomOut
  | fit {a b c d : List Char} {x y width height : Float} (ha : Number a x) (hb : Number b y)
      (hc : Number c width) (hd : Number d height) :
      Denotes "fit" [a, b, c, d] (.fit ⟨x, y, width, height⟩)
  | reset : Denotes "reset" [] .reset

/-- Keywords are words of small letters. -/
theorem Denotes.isLower {keyword : String} {ws : List (List Char)} {e : Event Float}
    (h : Denotes keyword ws e) : keyword.toList ≠ [] ∧ ∀ c ∈ keyword.toList, c.isLower := by
  cases h <;> exact ⟨by decide, forall_mem_of_all (by decide)⟩

/-- The words behind a keyword have nothing in them that ends words. -/
theorem Denotes.inWord_of_mem {keyword : String} {ws : List (List Char)} {e : Event Float}
    (h : Denotes keyword ws e) : ∀ w ∈ ws, ∀ c ∈ w, inWord c := by
  cases h with
  | wheel hd ha hb =>
    simpa using ⟨inWord_of_number hd, inWord_of_number ha, inWord_of_number hb⟩
  | press ha hb => simpa using ⟨inWord_of_number ha, inWord_of_number hb⟩
  | move ha hb => simpa using ⟨inWord_of_number ha, inWord_of_number hb⟩
  | release => exact fun _ hw => absurd hw List.not_mem_nil
  | zoomIn => exact List.forall_mem_singleton.mpr (forall_mem_of_all (by decide))
  | zoomOut => exact List.forall_mem_singleton.mpr (forall_mem_of_all (by decide))
  | fit ha hb hc hd =>
    simpa using ⟨inWord_of_number ha, inWord_of_number hb, inWord_of_number hc, inWord_of_number hd⟩
  | reset => exact fun _ hw => absurd hw List.not_mem_nil

/-- The text begins with a keyword and its words, which denote the event, and goes on with the
rest. -/
def Begins (cs : List Char) (e : Event Float) (rest : List Char) : Prop :=
  ∃ keyword ws l, Denotes keyword ws e ∧ Gapped ws l ∧ cs = keyword.toList ++ (l ++ rest)

theorem begins_of_wheelEvent {cs rest : List Char} {e : Event Float}
    (h : wheelEvent cs = some (e, rest)) : Begins cs e rest := by
  simp only [wheelEvent, Option.bind_eq_bind, Option.bind_eq_some_iff, Option.some.injEq,
    Prod.mk.injEq] at h
  obtain ⟨_, hkeyword, _, hgap, ⟨_, _⟩, hdelta, ⟨_, _⟩, hpoint, rfl, rfl⟩ := h
  obtain ⟨d, l, hd, hl, rfl⟩ := gapped_of_number hgap hdelta
  obtain ⟨a, b, l', ha, hb, hl', rfl⟩ := gapped_of_point hpoint
  refine ⟨"wheel", [d, a, b], l ++ l', .wheel hd ha hb, hl.append hl', ?_⟩
  rw [keyword_eq_some.mp hkeyword, List.append_assoc]

theorem begins_of_pointerEvent {word : String} {event : Point Float → Event Float}
    (hevent : ∀ {a b x y}, Number a x → Number b y → Denotes word [a, b] (event ⟨x, y⟩))
    {cs rest : List Char} {e : Event Float} (h : pointerEvent word event cs = some (e, rest)) :
    Begins cs e rest := by
  simp only [pointerEvent, Option.bind_eq_bind, Option.bind_eq_some_iff, Option.some.injEq,
    Prod.mk.injEq] at h
  obtain ⟨_, hkeyword, ⟨_, _⟩, hpoint, rfl, rfl⟩ := h
  obtain ⟨a, b, l, ha, hb, hl, rfl⟩ := gapped_of_point hpoint
  exact ⟨word, [a, b], l, hevent ha hb, hl, keyword_eq_some.mp hkeyword⟩

theorem wordEvent_eq_some {word : String} {event e : Event Float} {cs rest : List Char} :
    wordEvent word event cs = some (e, rest) ↔ event = e ∧ cs = word.toList ++ rest := by
  simp only [wordEvent, Option.bind_eq_bind, Option.bind_eq_some_iff, Option.some.injEq,
    Prod.mk.injEq, keyword_eq_some]
  constructor
  · rintro ⟨_, hcs, he, rfl⟩
    exact ⟨he, hcs⟩
  · rintro ⟨he, hcs⟩
    exact ⟨rest, hcs, he, rfl⟩

theorem begins_of_wordEvent {word : String} {event : Event Float} (hevent : Denotes word [] event)
    {cs rest : List Char} {e : Event Float} (h : wordEvent word event cs = some (e, rest)) :
    Begins cs e rest := by
  obtain ⟨rfl, rfl⟩ := wordEvent_eq_some.mp h
  exact ⟨word, [], [], hevent, .nil, rfl⟩

theorem begins_of_zoomEvent {cs rest : List Char} {e : Event Float}
    (h : zoomEvent cs = some (e, rest)) : Begins cs e rest := by
  simp only [zoomEvent, Option.bind_eq_bind, Option.bind_eq_some_iff, Option.orElse_eq_orElse,
    Option.orElse_eq_or, Option.or_eq_some_iff, wordEvent_eq_some] at h
  obtain ⟨_, hkeyword, _, hgap, h⟩ := h
  obtain ⟨g, hne, hg, rfl, -⟩ := gap_eq_some.mp hgap
  rcases h with ⟨rfl, rfl⟩ | ⟨-, rfl, rfl⟩
  · refine ⟨"zoom", [_], _, .zoomIn, .one hne hg _, ?_⟩
    rw [keyword_eq_some.mp hkeyword, List.append_assoc]
  · refine ⟨"zoom", [_], _, .zoomOut, .one hne hg _, ?_⟩
    rw [keyword_eq_some.mp hkeyword, List.append_assoc]

theorem begins_of_fitEvent {cs rest : List Char} {e : Event Float}
    (h : fitEvent cs = some (e, rest)) : Begins cs e rest := by
  simp only [fitEvent, Option.bind_eq_bind, Option.bind_eq_some_iff, Option.some.injEq,
    Prod.mk.injEq] at h
  obtain ⟨_, hkeyword, ⟨_, _⟩, hcorner, ⟨_, _⟩, hsize, rfl, rfl⟩ := h
  obtain ⟨a, b, l, ha, hb, hl, rfl⟩ := gapped_of_point hcorner
  obtain ⟨c, d, l', hc, hd, hl', rfl⟩ := gapped_of_point hsize
  refine ⟨"fit", [a, b, c, d], l ++ l', .fit ha hb hc hd, hl.append hl', ?_⟩
  rw [keyword_eq_some.mp hkeyword, List.append_assoc]

/-- An event is read only where a keyword and its words stand that denote it. -/
theorem begins_of_event {cs rest : List Char} {e : Event Float} (h : event cs = some (e, rest)) :
    Begins cs e rest := by
  simp only [event, Option.orElse_eq_orElse, Option.orElse_eq_or, Option.or_eq_some_iff] at h
  -- The events in the order in which they are tried; that the earlier ones fail is not needed.
  rcases h with h | ⟨-, h | ⟨-, h | ⟨-, h | ⟨-, h | ⟨-, h | ⟨-, h⟩⟩⟩⟩⟩⟩
  · exact begins_of_wheelEvent h
  · exact begins_of_pointerEvent .press h
  · exact begins_of_pointerEvent .move h
  · exact begins_of_wordEvent .release h
  · exact begins_of_zoomEvent h
  · exact begins_of_fitEvent h
  · exact begins_of_wordEvent .reset h

/-- **Where a keyword and its words stand that denote an event, it is read**, since the first letter
of a keyword already tells it from the others. -/
theorem event_of_denotes {word : String} {ws : List (List Char)} {e : Event Float}
    (he : Denotes word ws e) {l rest : List Char} (hl : Gapped ws l) (hrest : Stops inWord rest) :
    event (word.toList ++ (l ++ rest)) = some (e, rest) := by
  cases he with
  | wheel hd ha hb =>
    -- Each number ends where the gap before the next one begins.
    obtain ⟨l, l', rfl, hl, hl'⟩ := Gapped.exists_append [_] hl
    obtain ⟨_, hgap, hdelta⟩ := exists_gap_number hd hl (hl'.stops hrest)
    have hpoint := point_of_gapped ha hb hl' hrest
    simp [event, wheelEvent, keyword, hgap, hdelta, hpoint]
  | press ha hb =>
    have hpoint := point_of_gapped ha hb hl hrest
    simp [event, wheelEvent, pointerEvent, keyword, hpoint]
  | move ha hb =>
    have hpoint := point_of_gapped ha hb hl hrest
    simp [event, wheelEvent, pointerEvent, keyword, hpoint]
  | release =>
    cases hl
    rfl
  | zoomIn =>
    have hstop : Stops isGap ("in".toList ++ rest) := stops_cons.mpr (by decide)
    have hgap := hl.gap_eq hstop
    simp [event, wheelEvent, pointerEvent, wordEvent, zoomEvent, keyword, hgap]
  | zoomOut =>
    have hstop : Stops isGap ("out".toList ++ rest) := stops_cons.mpr (by decide)
    have hgap := hl.gap_eq hstop
    simp [event, wheelEvent, pointerEvent, wordEvent, zoomEvent, keyword, hgap]
  | fit ha hb hc hd =>
    -- A box is read as two points.
    obtain ⟨l, l', rfl, hl, hl'⟩ := Gapped.exists_append [_, _] hl
    have hcorner := point_of_gapped ha hb hl (hl'.stops hrest)
    have hsize := point_of_gapped hc hd hl' hrest
    simp [event, wheelEvent, pointerEvent, wordEvent, zoomEvent, fitEvent, keyword, hcorner, hsize]
  | reset =>
    cases hl
    rfl

/-! ### Lines -/

/-- What a line says: the line is blank, or a comment, or an event with its words. -/
inductive Says : List Char → Option (Event Float) → Prop
  | blank {g : List Char} (hg : IsGap g) : Says g none
  | comment {g text : List Char} (hg : IsGap g) (htext : '\r' ∉ text) :
      Says (g ++ '%' :: '%' :: text) none
  | event {g g' l : List Char} {keyword : String} {ws : List (List Char)} {e : Event Float}
      (hg : IsGap g) (he : Denotes keyword ws e) (hl : Gapped ws l) (hg' : IsGap g') :
      Says (g ++ (keyword.toList ++ (l ++ g'))) (some e)

/-- A keyword begins with a small letter. -/
theorem Denotes.exists_cons {keyword : String} {ws : List (List Char)} {e : Event Float}
    (h : Denotes keyword ws e) : ∃ c cs, keyword.toList = c :: cs ∧ c.isLower := by
  obtain ⟨hne, hlower⟩ := h.isLower
  cases hk : keyword.toList with
  | nil => exact absurd hk hne
  | cons c cs => exact ⟨c, cs, rfl, hlower c (hk ▸ List.mem_cons_self)⟩

theorem isGap_of_isLower {c : Char} (h : c.isLower) : isGap c = false := by
  by_contra hc
  rw [Bool.not_eq_false, isGap, Bool.or_eq_true, decide_eq_true_eq, decide_eq_true_eq] at hc
  rcases hc with rfl | rfl <;> exact absurd h (by decide)

/-- Events stand on one line. -/
theorem Denotes.notMem {keyword : String} {ws : List (List Char)} {e : Event Float}
    (he : Denotes keyword ws e) {g l g' : List Char} (hg : IsGap g) (hl : Gapped ws l)
    (hg' : IsGap g') {d : Char} (hd : inWord d = false) (hgap : isGap d = false)
    (hlower : d.isLower = false) : d ∉ g ++ (keyword.toList ++ (l ++ g')) := by
  have hkeyword : d ∉ keyword.toList := fun h => by
    have := he.isLower.2 d h
    rw [hlower] at this
    exact Bool.false_ne_true this
  have hl : d ∉ l := fun h =>
    hl.forall (P := (· ≠ d)) (fun _ hc => ne_of_isGap hc hgap)
      (fun w hw c hc hcd => by
        have := he.inWord_of_mem w hw c hc
        rw [hcd, hd] at this
        exact Bool.false_ne_true this) d h rfl
  rw [List.mem_append, List.mem_append, List.mem_append, not_or, not_or, not_or]
  exact ⟨notMem_of_isGap hg hgap, hkeyword, hl, notMem_of_isGap hg' hgap⟩

/-- A line that says something has no carriage return in it. -/
theorem Says.return_notMem {cs : List Char} {o : Option (Event Float)} (h : Says cs o) :
    '\r' ∉ cs := by
  cases h with
  | blank hg => exact notMem_of_isGap hg (by decide)
  | comment hg htext =>
    rw [List.mem_append, List.mem_cons, List.mem_cons, not_or, not_or, not_or]
    exact ⟨notMem_of_isGap hg (by decide), by decide, by decide, htext⟩
  | event hg he hl hg' => exact he.notMem hg hl hg' (by decide) (by decide) (by decide)

/-- A blank line says nothing. -/
theorem Says.eq_none_of_isGap {cs : List Char} {o : Option (Event Float)} (h : Says cs o)
    (hcs : IsGap cs) : o = none := by
  cases h with
  | blank => rfl
  | comment => rfl
  | event hg he _ _ =>
    obtain ⟨c, k, hk, hc⟩ := he.exists_cons
    rw [hk] at hcs
    exact absurd hcs (not_isGap_append_cons (isGap_of_isLower hc))

theorem line_of_skipGap {cs : List Char} (h : skipGap cs ≠ []) :
    line cs = ((commentLine (skipGap cs)).map fun rest => (none, rest)).or
      (((lineEnd (skipGap cs)).map fun rest => (none, rest)).or
        ((eventLine (skipGap cs)).map fun r => (some r.1, r.2))) := by
  unfold line
  split
  · next hs => exact absurd hs h
  · next hs =>
    rw [hs]
    simp only [Option.orElse_eq_orElse, Option.orElse_eq_or]

/-- What is left when no line can be taken for want of text is a gap. -/
theorem line_eq_none_of_isGap {cs : List Char} (h : IsGap cs) : line cs = none := by
  unfold line
  rw [skipGap_eq_nil_iff.mpr h]

/-- A comment goes on to the end of the line. -/
theorem commentLine_eq_some {cs rest : List Char} :
    commentLine cs = some rest ↔ ∃ text e, '\r' ∉ text ∧ '\n' ∉ text ∧ LineEnd e rest ∧
      cs = '%' :: '%' :: text ++ (e ++ rest) := by
  simp only [commentLine, Option.bind_eq_bind, Option.bind_eq_some_iff]
  constructor
  · rintro ⟨cs, hkeyword, hend⟩
    obtain ⟨g, e, hg, he, hcs⟩ := endOfLine_eq_some.mp hend
    have hinComment : ∀ c ∈ cs.takeWhile inComment, c ≠ '\r' ∧ c ≠ '\n' := fun c hc => by
      have := List.mem_takeWhile_imp hc
      simpa only [inComment, Bool.and_eq_true, decide_eq_true_eq] using this
    -- The gap that `endOfLine` skips belongs to the comment.
    refine ⟨cs.takeWhile inComment ++ g, e, ?_, ?_, he, ?_⟩
    · rw [List.mem_append, not_or]
      exact ⟨fun h => (hinComment _ h).1 rfl, notMem_of_isGap hg (by decide)⟩
    · rw [List.mem_append, not_or]
      exact ⟨fun h => (hinComment _ h).2 rfl, notMem_of_isGap hg (by decide)⟩
    · rw [keyword_eq_some.mp hkeyword]
      have hcs : cs = cs.takeWhile inComment ++ (g ++ e ++ rest) := by
        rw [← hcs, List.takeWhile_append_dropWhile]
      calc "%%".toList ++ cs = "%%".toList ++ (cs.takeWhile inComment ++ (g ++ e ++ rest)) := by
            rw [← hcs]
        _ = '%' :: '%' :: (cs.takeWhile inComment ++ g) ++ (e ++ rest) := by simp
  · rintro ⟨text, e, hreturn, hfeed, he, rfl⟩
    refine ⟨text ++ (e ++ rest), keyword_eq_some.mpr rfl, ?_⟩
    have hdrop : (text ++ (e ++ rest)).dropWhile inComment = e ++ rest := by
      refine dropWhile_append_of_stops (fun c hc => ?_) (he.stops (by decide) (by decide))
      have hc' : c ≠ '\r' ∧ c ≠ '\n' := ⟨fun h => hreturn (h ▸ hc), fun h => hfeed (h ▸ hc)⟩
      simpa only [inComment, Bool.and_eq_true, decide_eq_true_eq] using hc'
    rw [hdrop]
    exact endOfLine_eq_some.mpr ⟨[], e, isGap_nil, he, rfl⟩

theorem commentLine_eq_none {c : Char} {cs : List Char} (hc : c ≠ '%') :
    commentLine (c :: cs) = none := by
  simp [commentLine, keyword, hc.symm]

/-- An event is taken with the gap behind it and the sign for the end of the line. -/
theorem eventLine_of_denotes {keyword : String} {ws : List (List Char)} {event : Event Float}
    (hdenotes : Denotes keyword ws event) {l g e rest : List Char} (hl : Gapped ws l)
    (hg : IsGap g) (he : LineEnd e rest) :
    eventLine (keyword.toList ++ (l ++ (g ++ (e ++ rest)))) = some (event, rest) := by
  have hrest : Stops inWord (g ++ (e ++ rest)) :=
    stops_inWord_append hg (he.stops (by decide) (by decide))
  have hend : endOfLine (g ++ (e ++ rest)) = some rest :=
    endOfLine_eq_some.mpr ⟨g, e, hg, he, (List.append_assoc ..).symm⟩
  simp only [eventLine, Option.bind_eq_bind, event_of_denotes hdenotes hl hrest, hend,
    Option.bind_some]

/-- A line that is taken says something, and the sign for its end is taken with it. -/
theorem said_of_line {cs rest : List Char} {o : Option (Event Float)}
    (h : line cs = some (o, rest)) :
    ∃ l e, Says l o ∧ '\n' ∉ l ∧ LineEnd e rest ∧ (IsGap l → e ≠ []) ∧ cs = l ++ (e ++ rest) := by
  obtain ⟨g, hg, hcs, -⟩ := exists_skipGap cs
  have hgap : '\n' ∉ g := notMem_of_isGap hg (by decide)
  have hskip : skipGap cs ≠ [] := fun hskip => by
    rw [line_eq_none_of_isGap (skipGap_eq_nil_iff.mp hskip)] at h
    exact absurd h.symm (Option.some_ne_none _)
  rw [line_of_skipGap hskip, Option.or_eq_some_iff, Option.or_eq_some_iff] at h
  simp only [Option.map_eq_some_iff, Prod.mk.injEq] at h
  -- a comment, a blank line or an event
  rcases h with ⟨_, hcomment, rfl, rfl⟩ | ⟨-, ⟨_, hend, rfl, rfl⟩ | ⟨-, ⟨e, _⟩, hevent, rfl, rfl⟩⟩
  · obtain ⟨text, e, hreturn, hfeed, he, hskip⟩ := commentLine_eq_some.mp hcomment
    refine ⟨g ++ '%' :: '%' :: text, e, .comment hg hreturn, ?_, he, ?_, ?_⟩
    · rw [List.mem_append, List.mem_cons, List.mem_cons, not_or, not_or, not_or]
      exact ⟨hgap, by decide, by decide, hfeed⟩
    · exact fun h => absurd h (not_isGap_append_cons (by decide))
    · rw [hcs, hskip, List.append_assoc]
  · rcases lineEnd_eq_some.mp hend with hskip | hskip
    · exact ⟨g, ['\n'], .blank hg, hgap, .feed _, fun _ => List.cons_ne_nil _ _,
        hcs.trans (by rw [hskip]; rfl)⟩
    · exact ⟨g, ['\r', '\n'], .blank hg, hgap, .returnFeed _, fun _ => List.cons_ne_nil _ _,
        hcs.trans (by rw [hskip]; rfl)⟩
  · simp only [eventLine, Option.bind_eq_bind, Option.bind_eq_some_iff, Option.some.injEq,
      Prod.mk.injEq] at hevent
    obtain ⟨⟨_, cs'⟩, hevent, _, hend, rfl, rfl⟩ := hevent
    obtain ⟨keyword, ws, l, hdenotes, hl, hskip⟩ := begins_of_event hevent
    obtain ⟨g', e, hg', he, rfl⟩ := endOfLine_eq_some.mp hend
    refine ⟨_, e, .event hg hdenotes hl hg', ?_, he, ?_, ?_⟩
    · exact hdenotes.notMem hg hl hg' (by decide) (by decide) (by decide)
    · obtain ⟨c, k, hk, hc⟩ := hdenotes.exists_cons
      rw [hk]
      exact fun h => absurd h (not_isGap_append_cons (isGap_of_isLower hc))
    · rw [hcs, hskip]
      simp only [List.append_assoc]

/-- **What a line takes is a line that says something, and the sign for its end.** -/
theorem line_eq_some {cs rest : List Char} {o : Option (Event Float)} :
    line cs = some (o, rest) ↔ ∃ l e, Says l o ∧ '\n' ∉ l ∧ LineEnd e rest ∧
      (IsGap l → e ≠ []) ∧ cs = l ++ (e ++ rest) := by
  refine ⟨said_of_line, ?_⟩
  rintro ⟨l, e, hl, hfeed, he, hblank, rfl⟩
  cases hl with
  | blank hg =>
    have hskip := skipGap_append hg (he.stops (p := isGap) (by decide) (by decide))
    cases he with
    | feed => rw [line_of_skipGap (by rw [hskip]; simp), hskip]; rfl
    | returnFeed => rw [line_of_skipGap (by rw [hskip]; simp), hskip]; rfl
    -- A gap at the end of the text is no line.
    | whole => exact absurd rfl (hblank hg)
  | @comment g text hg hreturn =>
    rw [List.mem_append, List.mem_cons, List.mem_cons, not_or, not_or, not_or] at hfeed
    have hskip : skipGap (g ++ '%' :: '%' :: text ++ (e ++ rest)) =
        '%' :: '%' :: text ++ (e ++ rest) := by
      rw [List.append_assoc]
      exact skipGap_append hg (stops_cons.mpr (by decide))
    rw [line_of_skipGap (by rw [hskip]; simp), hskip,
      commentLine_eq_some.mpr ⟨text, e, hreturn, hfeed.2.2.2, he, rfl⟩]
    rfl
  | @event g g' l keyword ws event hg hdenotes hl hg' =>
    -- The first letter of the keyword is neither a percent sign nor a sign for the end of a line.
    obtain ⟨c, k, hk, hc⟩ := hdenotes.exists_cons
    have hne : c ≠ '%' ∧ c ≠ '\n' ∧ c ≠ '\r' := by
      refine ⟨?_, ?_, ?_⟩ <;> rintro rfl <;> exact absurd hc (by decide)
    have hskip : skipGap (g ++ (keyword.toList ++ (l ++ g')) ++ (e ++ rest)) =
        keyword.toList ++ (l ++ (g' ++ (e ++ rest))) := by
      simp only [List.append_assoc]
      exact skipGap_append hg (hk ▸ stops_cons.mpr (isGap_of_isLower hc))
    rw [line_of_skipGap (by rw [hskip, hk]; simp), hskip, eventLine_of_denotes hdenotes hl hg' he,
      hk, List.cons_append, commentLine_eq_none hne.1, lineEnd_eq_none hne.2.1 hne.2.2]
    rfl

end FlowCanvas.Script
