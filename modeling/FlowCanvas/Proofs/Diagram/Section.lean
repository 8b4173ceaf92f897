import FlowCanvas.Proofs.Diagram.Line

/-!
# Telling apart the sections of a diagram

The nodes, the edges, the groups, the legend, the classes and the clicks of a flow chart stand
behind each other with nothing in between, and any of them but nodes and clicks may be missing.
Where a section ends can be seen from the first line of the next one: behind the first word, a node
goes on with a sign and an edge with an arrow, and all other sections begin with a line on which a
name stands there.  The groups and the legend begin with frames, which the classes and the clicks do
not have, and the frame of the legend has a name that no group uses.

## Main definitions

* `IsStatement l` — a line with a word and a name behind it.
* `isNodeLine`, `isEdgeLine` — how nodes and edges are recognised.

## Main results

* `nodes_append_inj`, `edges_append_inj`, `groups_append_inj`, `legend_append_inj` — **each section
  and what stands behind it are determined by the whole.**
* `classes_inj` — the classes of nodes are determined by the lines that set them.
-/

namespace FlowCanvas

/-! ### Lists of lines -/

/-- What the elements of two lists have in common is what makes their lines the same. -/
theorem map_eq_map_iff_forall₂ {α β : Type} {f : α → β} {r : α → α → Prop} {l k : List α}
    (h : ∀ x ∈ l, ∀ y ∈ k, f x = f y ↔ r x y) : l.map f = k.map f ↔ List.Forall₂ r l k := by
  induction l generalizing k with
  | nil => cases k <;> simp
  | cons x l ih =>
    cases k with
    | nil => simp
    | cons y k =>
      have hxy := h x List.mem_cons_self y List.mem_cons_self
      have hlk := ih fun x hx y hy => h x (List.mem_cons_of_mem _ hx) y (List.mem_cons_of_mem _ hy)
      rw [List.map_cons, List.map_cons, List.cons.injEq, List.forall₂_cons, hxy, hlk]

/-- Lists that agree element by element have the same lines if these say no more. -/
theorem map_eq_map_of_forall₂ {α β : Type} {f : α → β} {r : α → α → Prop} {l k : List α}
    (h : List.Forall₂ r l k) (hf : ∀ x y, r x y → f x = f y) : l.map f = k.map f := by
  induction h with
  | nil => rfl
  | cons hxy _ ih => rw [List.map_cons, List.map_cons, hf _ _ hxy, ih]

/-- What holds of the first elements of two lists holds of the first element of both together. -/
theorem head?_append_of {α : Type} {P : α → Prop} {l r : List α} (hl : ∀ x ∈ l.head?, P x)
    (hr : ∀ x ∈ r.head?, P x) : ∀ x ∈ (l ++ r).head?, P x := by
  cases l with
  | nil => exact hr
  | cons x l => exact hl

theorem head?_of_forall {α : Type} {P : α → Prop} {l : List α} (h : ∀ x ∈ l, P x) :
    ∀ x ∈ l.head?, P x := fun x hx => h x (List.mem_of_mem_head? hx)

/-! ### The first lines of sections -/

/-- A line with a word at its beginning and a name behind it. -/
def IsStatement (l : List Char) : Prop :=
  ∃ word name r, (∀ c ∈ word, isNameChar c) ∧ IsName name ∧
    l = indent ++ (word ++ ' ' :: (name ++ r))

/-- What stands on a line behind its first word. -/
def behindWord (l : List Char) : List Char := (l.drop indent.length).dropWhile isNameChar

/-- A node goes on with the sign before its label. -/
def isNodeLine (l : List Char) : Bool := (behindWord l).head? ≠ some ' '

/-- An edge goes on with its arrow. -/
def isEdgeLine (l : List Char) : Bool := ((behindWord l).drop 1).head?.any (!isNameChar ·)

theorem behindWord_append {word r : List Char} (hword : ∀ c ∈ word, isNameChar c)
    (hr : Stops isNameChar r) : behindWord (indent ++ (word ++ r)) = r := by
  rw [behindWord, List.drop_left, dropWhile_append_of_stops hword hr]

theorem isNodeLine_nodeLine {n : Node} (h : IsName n.id.toList) (w : Nat) :
    isNodeLine (nodeLine w n) := by
  rw [nodeLine_eq, isNodeLine, behindWord_append h.2 (Shape.stops_opening _ _)]
  cases n.shape <;> rfl

theorem behindWord_edgeLine {e : Edge} (h : IsName e.source.toList) :
    behindWord (edgeLine e)
      = ' ' :: (e.lineStyle.token.toList ++ (edgeLabel e.label ++ ' ' :: e.target.toList)) := by
  rw [edgeLine_eq, behindWord_append h.2 (stops_cons.mpr (by decide))]

theorem isNodeLine_edgeLine {e : Edge} (h : IsName e.source.toList) :
    isNodeLine (edgeLine e) = false := by
  rw [isNodeLine, behindWord_edgeLine h]
  rfl

theorem isEdgeLine_edgeLine {e : Edge} (h : IsName e.source.toList) : isEdgeLine (edgeLine e) := by
  rw [isEdgeLine, behindWord_edgeLine h]
  cases e.lineStyle <;> rfl

theorem IsStatement.not_node_not_edge {l : List Char} (h : IsStatement l) :
    isNodeLine l = false ∧ isEdgeLine l = false := by
  obtain ⟨word, name, r, hword, hname, rfl⟩ := h
  -- Behind the word stands a space and then a character of the name.
  obtain ⟨c, cs, rfl, hc⟩ := hname.exists_cons
  have hbehind := behindWord_append (r := ' ' :: (c :: cs ++ r)) hword (stops_cons.mpr (by decide))
  rw [isNodeLine, isEdgeLine, hbehind]
  simp [hc]

theorem isStatement_frameLine {id : List Char} (h : IsName id) (title : List Char) :
    IsStatement (frameLine id title) :=
  ⟨"subgraph".toList, id, _, forall_mem_of_all (by decide), h, frameLine_eq id title⟩

theorem isStatement_classLine {n : Node} (h : IsName n.id.toList) :
    ∀ l ∈ classLine? n, IsStatement l := by
  intro l hl
  obtain ⟨c, -, rfl⟩ := Option.map_eq_some_iff.mp hl
  refine ⟨"class".toList, n.id.toList, ' ' :: c.toList, forall_mem_of_all (by decide), h, ?_⟩
  simp

theorem isStatement_clickLine {n : Node} (h : IsName n.id.toList) (hook : String) :
    IsStatement (clickLine hook n) := by
  refine ⟨"click".toList, n.id.toList, ' ' :: hook.toList, forall_mem_of_all (by decide), h, ?_⟩
  simp [clickLine]

/-- Groups begin with a frame. -/
theorem isStatement_head?_groups {gs : List Group} (h : ∀ g ∈ gs, IsName g.id.toList) :
    ∀ l ∈ (gs.flatMap groupLines).head?, IsStatement l := by
  intro l hl
  cases gs with
  | nil => cases hl
  | cons g gs =>
    cases hl
    exact isStatement_frameLine (h g List.mem_cons_self) _

/-- The legend begins with its frame. -/
theorem eq_of_mem_head?_legendLines {legend : Option (List LegendEntry)} :
    ∀ l ∈ (legendLines legend).head?, l = frameLine legendId "Legend".toList := by
  intro l hl
  cases legend with
  | none => cases hl
  | some es =>
    cases hl
    rfl

/-- Neither classes nor clicks begin with a frame. -/
theorem ne_frameLine_of_mem_head? (ns : List Node) (hook : String) (id title : List Char) :
    ∀ l ∈ (ns.filterMap classLine? ++ ns.map (clickLine hook)).head?, l ≠ frameLine id title := by
  refine head?_append_of (head?_of_forall fun l hl => ?_) (head?_of_forall fun l hl => ?_)
  · obtain ⟨n, -, hline⟩ := List.mem_filterMap.mp hl
    obtain ⟨c, -, rfl⟩ := Option.map_eq_some_iff.mp hline
    simp [frameLine]
  · obtain ⟨n, -, rfl⟩ := List.mem_map.mp hl
    simp [clickLine, frameLine]

/-! ### Nodes and edges -/

/-- **The nodes and what stands behind them are determined by the whole.** -/
theorem nodes_append_inj {w : Nat} {ms ns : List Node} {t u : List (List Char)}
    (hms : ∀ n ∈ ms, IsName n.id.toList ∧ IsPlain n.label.toList)
    (hns : ∀ n ∈ ns, IsName n.id.toList ∧ IsPlain n.label.toList)
    (ht : Stops isNodeLine t) (hu : Stops isNodeLine u)
    (h : ms.map (nodeLine w) ++ t = ns.map (nodeLine w) ++ u) :
    List.Forall₂ (fun m n => m.id = n.id ∧ m.shape = n.shape ∧
      wrap w m.label.toList = wrap w n.label.toList) ms ns ∧ t = u := by
  have hlines : ∀ {ns : List Node}, (∀ n ∈ ns, IsName n.id.toList ∧ IsPlain n.label.toList) →
      ∀ l ∈ ns.map (nodeLine w), isNodeLine l := by
    intro ns hns l hl
    obtain ⟨n, hn, rfl⟩ := List.mem_map.mp hl
    exact isNodeLine_nodeLine (hns n hn).1 w
  obtain ⟨hmap, htail⟩ := append_inj_of_stops h (hlines hms) ht (hlines hns) hu
  refine ⟨(map_eq_map_iff_forall₂ fun m hm n hn => ?_).mp hmap, htail⟩
  exact nodeLine_inj (hms m hm).1 (hns n hn).1 (hms m hm).2 (hns n hn).2

/-- **The edges and what stands behind them are determined by the whole.** -/
theorem edges_append_inj {ds es : List Edge} {t u : List (List Char)}
    (hds : ∀ e ∈ ds, IsName e.source.toList ∧ ∀ l ∈ e.label, IsPlain l.toList)
    (hes : ∀ e ∈ es, IsName e.source.toList ∧ ∀ l ∈ e.label, IsPlain l.toList)
    (ht : Stops isEdgeLine t) (hu : Stops isEdgeLine u)
    (h : ds.map edgeLine ++ t = es.map edgeLine ++ u) :
    List.Forall₂ (fun d e => d.source = e.source ∧ d.target = e.target ∧
      d.lineStyle = e.lineStyle ∧ d.label = e.label) ds es ∧ t = u := by
  have hlines : ∀ {es : List Edge},
      (∀ e ∈ es, IsName e.source.toList ∧ ∀ l ∈ e.label, IsPlain l.toList) →
      ∀ l ∈ es.map edgeLine, isEdgeLine l := by
    intro es hes l hl
    obtain ⟨e, he, rfl⟩ := List.mem_map.mp hl
    exact isEdgeLine_edgeLine (hes e he).1
  obtain ⟨hmap, htail⟩ := append_inj_of_stops h (hlines hds) ht (hlines hes) hu
  refine ⟨(map_eq_map_iff_forall₂ fun d hd e he => ?_).mp hmap, htail⟩
  exact edgeLine_inj (hds d hd).1 (hes e he).1 (hds d hd).2 (hes e he).2

/-! ### Groups -/

/-- A group with a name of its own and a plain label. -/
def Group.Legible (g : Group) : Prop :=
  IsName g.id.toList ∧ g.id.toList ≠ legendId ∧ IsPlain g.label.toList

theorem groupLines_append (g : Group) (t : List (List Char)) :
    groupLines g ++ t = frameLine g.id.toList g.label.toList ::
      ((g.members.map fun id => indent ++ indent ++ id.toList) ++ frameEnd :: t) := by
  simp [groupLines]

theorem frameEnd_notMem_members (ids : List String) :
    frameEnd ∉ ids.map fun id => indent ++ indent ++ id.toList := by
  intro h
  obtain ⟨id, -, hid⟩ := List.mem_map.mp h
  exact indent_append_ne_frameEnd _ hid

/-- A group is determined by its lines: the members end where the frame does. -/
theorem groupLines_append_inj {f g : Group} (hf : f.Legible) (hg : g.Legible)
    {t u : List (List Char)} (h : groupLines f ++ t = groupLines g ++ u) : f = g ∧ t = u := by
  rw [groupLines_append, groupLines_append] at h
  obtain ⟨hframe, h⟩ := List.cons.inj h
  obtain ⟨hid, hlabel⟩ := frameLine_inj hf.1 hg.1 hf.2.2 hg.2.2 hframe
  obtain ⟨hmembers, htail⟩ :=
    append_cons_inj_of_notMem h (frameEnd_notMem_members _) (frameEnd_notMem_members _)
  have hinj : Function.Injective fun id : String => indent ++ indent ++ id.toList :=
    fun _ _ hid => String.toList_inj.mp (List.append_cancel_left hid)
  refine ⟨?_, htail⟩
  rw [Group.mk.injEq]
  exact ⟨String.toList_inj.mp hid, String.toList_inj.mp hlabel,
    List.map_injective_iff.mpr hinj hmembers⟩

/-- **The groups and what stands behind them are determined by the whole**, if what stands behind
them does not begin with a frame that a group may have. -/
theorem groups_append_inj {gs hs : List Group} {t u : List (List Char)}
    (hgs : ∀ g ∈ gs, g.Legible) (hhs : ∀ g ∈ hs, g.Legible)
    (ht : ∀ l ∈ t.head?, ∀ g : Group, g.Legible → l ≠ frameLine g.id.toList g.label.toList)
    (hu : ∀ l ∈ u.head?, ∀ g : Group, g.Legible → l ≠ frameLine g.id.toList g.label.toList)
    (h : gs.flatMap groupLines ++ t = hs.flatMap groupLines ++ u) : gs = hs ∧ t = u := by
  induction gs generalizing hs with
  | nil =>
    cases hs with
    | nil => exact ⟨rfl, h⟩
    | cons g hs =>
      -- What stands behind no groups would begin like the first group of the other list.
      have hhead : frameLine g.id.toList g.label.toList ∈ t.head? := by
        rw [show t = (g :: hs).flatMap groupLines ++ u from h]
        rfl
      exact absurd rfl (ht _ hhead g (hhs g List.mem_cons_self))
  | cons f gs ih =>
    obtain ⟨hf, hgs⟩ := List.forall_mem_cons.mp hgs
    cases hs with
    | nil =>
      have hhead : frameLine f.id.toList f.label.toList ∈ u.head? := by
        rw [show u = (f :: gs).flatMap groupLines ++ t from h.symm]
        rfl
      exact absurd rfl (hu _ hhead f hf)
    | cons g hs =>
      obtain ⟨hg, hhs⟩ := List.forall_mem_cons.mp hhs
      rw [List.flatMap_cons, List.flatMap_cons, List.append_assoc, List.append_assoc] at h
      obtain ⟨hfg, hbehind⟩ := groupLines_append_inj hf hg h
      obtain ⟨hgroups, htail⟩ := ih hgs hhs hbehind
      exact ⟨by rw [hfg, hgroups], htail⟩

/-! ### The legend -/

theorem legendLines_append (ls : List LegendEntry) (t : List (List Char)) :
    legendLines (some ls) ++ t = frameLine legendId "Legend".toList ::
      (legendEntryLines 0 ls ++ frameEnd :: (legendStyleLines 0 ls ++ t)) := by
  simp [legendLines]

/-- **The legend and what stands behind it are determined by the whole**, if what stands behind it
does not begin with a frame. -/
theorem legend_append_inj {k l : Option (List LegendEntry)} {t u : List (List Char)}
    (hk : ∀ e ∈ k.getD [], IsPlain e.label.toList) (hl : ∀ e ∈ l.getD [], IsPlain e.label.toList)
    (ht : ∀ x ∈ t.head?, x ≠ frameLine legendId "Legend".toList)
    (hu : ∀ x ∈ u.head?, x ≠ frameLine legendId "Legend".toList)
    (h : legendLines k ++ t = legendLines l ++ u) :
    Option.Rel (List.Forall₂ fun d e => d.label = e.label ∧ swatch d.swatch = swatch e.swatch) k l
      ∧ t = u := by
  cases k with
  | none =>
    cases l with
    | none => exact ⟨.none, h⟩
    | some es =>
      -- A legend on one side only would begin what stands behind it on the other.
      have hhead : frameLine legendId "Legend".toList ∈ t.head? := by
        rw [show t = legendLines (some es) ++ u from h]
        rfl
      exact absurd rfl (ht _ hhead)
  | some ds =>
    cases l with
    | none =>
      have hhead : frameLine legendId "Legend".toList ∈ u.head? := by
        rw [show u = legendLines (some ds) ++ t from h.symm]
        rfl
      exact absurd rfl (hu _ hhead)
    | some es =>
      rw [legendLines_append, legendLines_append] at h
      obtain ⟨hentries, h⟩ := append_cons_inj_of_notMem (List.cons.inj h).2
        (frameEnd_notMem_legendEntryLines 0 ds) (frameEnd_notMem_legendEntryLines 0 es)
      have hlabels : List.Forall₂ (fun d e => d.label = e.label) ds es :=
        legendEntryLines_inj hk hl hentries
      -- There are as many lines for colours as for labels, and so it is known where they end.
      obtain ⟨hstyles, htail⟩ := List.append_inj h (by
        rw [length_legendStyleLines, length_legendStyleLines, hlabels.length_eq])
      have hswatches := legendStyleLines_inj hstyles
      exact ⟨.some (List.Forall₂.mp (fun _ _ => And.intro) hlabels hswatches), htail⟩

/-! ### Classes -/

theorem classLine_eq_none_iff {n : Node} : classLine? n = none ↔ n.styleClass = none :=
  Option.map_eq_none_iff

/-- The line for a node's class is none of those for other nodes. -/
theorem classLine_notMem {n : Node} {ns : List Node} (hn : IsName n.id.toList)
    (hns : ∀ k ∈ ns, IsName k.id.toList) (hid : n.id ∉ ns.map Node.id) :
    ∀ l ∈ classLine? n, l ∉ ns.filterMap classLine? := by
  intro l hl hmem
  obtain ⟨k, hk, hline⟩ := List.mem_filterMap.mp hmem
  obtain ⟨hkn, -⟩ := classLine_inj (hns k hk) hn hline hl
  exact hid (hkn ▸ List.mem_map_of_mem hk)

/-- **The classes of nodes with different ids are determined by the lines that set them**, by
induction over the nodes: if one of two nodes has a class and the other has none, then the line that
sets it would have to be found further on. -/
theorem classes_inj {ms ns : List Node} (hms : ∀ n ∈ ms, IsName n.id.toList)
    (hns : ∀ n ∈ ns, IsName n.id.toList) (hids : List.Forall₂ (fun m n => m.id = n.id) ms ns)
    (hnodup : (ns.map Node.id).Nodup)
    (h : ms.filterMap classLine? = ns.filterMap classLine?) :
    List.Forall₂ (fun m n => m.styleClass = n.styleClass) ms ns := by
  induction hids with
  | nil => exact .nil
  | @cons m n ms ns hid hids ih =>
    obtain ⟨hm, hms⟩ := List.forall_mem_cons.mp hms
    obtain ⟨hn, hns⟩ := List.forall_mem_cons.mp hns
    obtain ⟨hnotMem, hnodup⟩ := List.nodup_cons.mp hnodup
    have hsame : ms.map Node.id = ns.map Node.id := map_eq_map_of_forall₂ hids fun _ _ h => h
    cases hl : classLine? m with
    | none =>
      rw [List.filterMap_cons_none hl] at h
      cases hk : classLine? n with
      | none =>
        rw [List.filterMap_cons_none hk] at h
        refine .cons ?_ (ih hms hns hnodup h)
        rw [classLine_eq_none_iff.mp hl, classLine_eq_none_iff.mp hk]
      | some k =>
        -- The first line on the right is not among the lines for the other nodes on the left.
        rw [List.filterMap_cons_some hk] at h
        exact absurd (h ▸ List.mem_cons_self)
          (classLine_notMem hn hms (hsame ▸ hnotMem) k hk)
    | some l =>
      rw [List.filterMap_cons_some hl] at h
      cases hk : classLine? n with
      | none =>
        rw [List.filterMap_cons_none hk] at h
        exact absurd (h ▸ List.mem_cons_self) (classLine_notMem hm hns (hid ▸ hnotMem) l hl)
      | some k =>
        rw [List.filterMap_cons_some hk] at h
        obtain ⟨rfl, htail⟩ := List.cons.inj h
        exact .cons (classLine_inj hm hn hl hk).2 (ih hms hns hnodup htail)

end FlowCanvas
