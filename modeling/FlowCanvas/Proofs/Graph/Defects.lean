import FlowCanvas.Graph.Defect
import Mathlib.Data.Finset.Card
import Mathlib.Data.Fintype.Basic
import Mathlib.Data.List.FinRange

/-!
# Which defects a specification has

The defects of a specification are found by scans: one of the nodes, which collects the ids as it
goes on, and one each of the edges and the groups, which look ids up among those collected.  Here
the defects are described without the scans, by the places at which they are found.

The invariant of the first scan has two halves.  The ids collected are those that were there before
and those of the nodes scanned, each of them once (`mem_scanIds_fst`, `nodup_scanIds_fst`); and
every id adds either to the collection or to the defects (`length_scanIds`).

## Main definitions

* `GraphSpec.Declares id` — some node has the id.
* `GraphSpec.Repeats i` — some node before place `i` has the id of the node there.
* `GraphSpec.repeatedIds`, `GraphSpec.danglingEnds`, `GraphSpec.danglingMembers` — the defects of
  nodes, edges and groups, place by place.

## Main results

* `scanIds_snd`, `edgeDefects_eq`, `groupDefects_eq` — what each scan reports.
* `defectsOf_some_exact` — **the report is exact**: it is the list of the defects of all places in
  order, it is empty for the sound specifications only, and it counts the nodes whose id is not new.
-/

namespace FlowCanvas

/-! ### Places -/

namespace GraphSpec

variable (spec : GraphSpec)

/-- Some node has the id. -/
def Declares (id : String) : Prop := ∃ n ∈ spec.nodes, n.id = id

instance (id : String) : Decidable (spec.Declares id) :=
  inferInstanceAs (Decidable (∃ n ∈ spec.nodes, n.id = id))

/-- Some node before place `i` has the id of the node there. -/
def Repeats (i : Fin spec.nodes.length) : Prop := ∃ j < i, spec.nodes[j].id = spec.nodes[i].id

instance (i : Fin spec.nodes.length) : Decidable (spec.Repeats i) :=
  inferInstanceAs (Decidable (∃ j < i, spec.nodes[j].id = spec.nodes[i].id))

/-- A defect for each node whose id belongs to an earlier node. -/
def repeatedIds : List Defect :=
  (List.finRange spec.nodes.length).filterMap fun i =>
    if spec.Repeats i then some (.duplicateId spec.nodes[i].id) else none

/-- A defect for each end of an edge that is no node, the start of an edge before its end. -/
def danglingEnds : List Defect :=
  (List.finRange spec.edges.length).flatMap fun k =>
    (if spec.Declares spec.edges[k].source then [] else [.unknownSource k spec.edges[k].source])
      ++ if spec.Declares spec.edges[k].target then []
        else [.unknownTarget k spec.edges[k].target]

/-- A defect for each time that a group names a member that is no node. -/
def danglingMembers : List Defect :=
  (spec.groups.getD []).flatMap fun g =>
    g.members.filterMap fun id =>
      if spec.Declares id then none else some (.unknownMember g.label id)

/-- Ids are declared if they are among the ids of the nodes. -/
theorem mem_ids_iff {id : String} : id ∈ spec.nodes.map Node.id ↔ spec.Declares id := List.mem_map

end GraphSpec

/-- The defect is an id that belongs to an earlier node. -/
def Defect.isDuplicateId : Defect → Bool
  | .duplicateId _ => true
  | _ => false

/-- The places of a row are the first one and those behind it. -/
theorem finRange_length_cons {α : Type} (a : α) (l : List α) :
    List.finRange (a :: l).length = ⟨0, Nat.succ_pos _⟩ :: (List.finRange l.length).map Fin.succ :=
  List.finRange_succ

/-! ### The scan of the nodes -/

/-- The ids collected are the ones before the scan and the ones scanned. -/
theorem mem_scanIds_fst {seen ids : List String} {x : String} :
    x ∈ (scanIds seen ids).1 ↔ x ∈ seen ∨ x ∈ ids := by
  induction ids generalizing seen with
  | nil => simp
  | cons id ids ih =>
    rw [scanIds_cons]
    split
    · next hs =>
      rw [List.contains_iff_mem] at hs
      rw [ih, List.mem_cons]
      -- The id is not collected again, but it has been collected before.
      constructor
      · exact Or.imp_right Or.inr
      · rintro (h | rfl | h)
        · exact Or.inl h
        · exact Or.inl hs
        · exact Or.inr h
    · rw [ih, List.mem_cons, List.mem_cons, or_assoc, or_left_comm]

/-- No id is collected twice. -/
theorem nodup_scanIds_fst {seen : List String} (hseen : seen.Nodup) (ids : List String) :
    (scanIds seen ids).1.Nodup := by
  induction ids generalizing seen with
  | nil => exact hseen
  | cons id ids ih =>
    rw [scanIds_cons]
    split
    · exact ih hseen
    · next hs =>
      rw [List.contains_iff_mem] at hs
      exact ih (List.nodup_cons.mpr ⟨hs, hseen⟩)

/-- Every id adds to the collection or to the defects. -/
theorem length_scanIds (seen ids : List String) :
    (scanIds seen ids).2.length + (scanIds seen ids).1.length = ids.length + seen.length := by
  induction ids generalizing seen with
  | nil => simp
  | cons id ids ih =>
    rw [scanIds_cons]
    split
    · have := ih seen
      simp only [List.length_cons]
      omega
    · have := ih (id :: seen)
      simp only [List.length_cons] at this ⊢
      omega

/-- The id of the node at place `i` is among those seen before the nodes, or an earlier one of the
nodes has it. -/
def RepeatsFrom (seen : List String) (ns : List Node) (i : Fin ns.length) : Prop :=
  ns[i].id ∈ seen ∨ ∃ j < i, ns[j].id = ns[i].id

instance (seen : List String) (ns : List Node) (i : Fin ns.length) :
    Decidable (RepeatsFrom seen ns i) :=
  inferInstanceAs (Decidable (ns[i].id ∈ seen ∨ ∃ j < i, ns[j].id = ns[i].id))

theorem repeatsFrom_zero {seen : List String} {n : Node} {ns : List Node} :
    RepeatsFrom seen (n :: ns) ⟨0, Nat.succ_pos _⟩ ↔ n.id ∈ seen := by
  constructor
  · rintro (h | ⟨j, hj, -⟩)
    · exact h
    · exact absurd hj (Nat.not_lt_zero _)
  · exact Or.inl

/-- Behind a node, its id counts as seen. -/
theorem repeatsFrom_succ {seen : List String} {n : Node} {ns : List Node} {i : Fin ns.length} :
    RepeatsFrom seen (n :: ns) i.succ ↔ RepeatsFrom (n.id :: seen) ns i := by
  have hplaces : (∃ j < i.succ, (n :: ns)[j].id = ns[i].id)
      ↔ n.id = ns[i].id ∨ ∃ j < i, ns[j].id = ns[i].id := by
    refine Fin.exists_fin_succ.trans (or_congr ?_ (exists_congr fun j => ?_))
    · exact and_iff_right (Fin.succ_pos i)
    · exact and_congr_left fun _ => Fin.succ_lt_succ_iff
  unfold RepeatsFrom
  rw [List.mem_cons, or_assoc, or_left_comm, eq_comm, ← hplaces]
  rfl

/-- An id that has been seen already can be seen again without a difference. -/
theorem repeatsFrom_cons_of_mem {seen : List String} {id : String} (h : id ∈ seen)
    {ns : List Node} {i : Fin ns.length} :
    RepeatsFrom (id :: seen) ns i ↔ RepeatsFrom seen ns i := by
  unfold RepeatsFrom
  rw [List.mem_cons, or_iff_right_of_imp (fun hid : ns[i].id = id => hid ▸ h)]

/-- Place by place, the scan reports the nodes whose id belongs to one before them. -/
theorem scanIds_snd (seen : List String) (ns : List Node) :
    (scanIds seen (ns.map Node.id)).2
      = (List.finRange ns.length).filterMap fun i =>
          if RepeatsFrom seen ns i then some (.duplicateId ns[i].id) else none := by
  induction ns generalizing seen with
  | nil => rfl
  | cons n ns ih =>
    rw [List.map_cons, scanIds_cons, finRange_length_cons, List.filterMap_cons,
      List.filterMap_map]
    have hsucc : ((fun i => if RepeatsFrom seen (n :: ns) i then
          some (Defect.duplicateId (n :: ns)[i].id) else none) ∘ Fin.succ)
        = fun i : Fin ns.length => if RepeatsFrom (n.id :: seen) ns i then
          some (Defect.duplicateId ns[i].id) else none :=
      funext fun i => if_congr repeatsFrom_succ rfl rfl
    rw [hsucc]
    -- If the first id is a repeated one, the collection stays as it is.
    by_cases hs : n.id ∈ seen
    · rw [if_pos (List.contains_iff_mem.mpr hs), if_pos (repeatsFrom_zero.mpr hs), ih]
      simp only [repeatsFrom_cons_of_mem hs]
      rfl
    · rw [if_neg (mt List.contains_iff_mem.mp hs), if_neg (mt repeatsFrom_zero.mp hs), ih]

/-! ### The scans of edges and groups -/

/-- Place by place, the scan reports the ends that are not among the ids. -/
theorem edgeDefects_eq (ids : List String) (index : Nat) (es : List Edge) :
    edgeDefects ids index es
      = (List.finRange es.length).flatMap fun k =>
          (if es[k].source ∈ ids then [] else [.unknownSource (index + k) es[k].source])
            ++ if es[k].target ∈ ids then [] else [.unknownTarget (index + k) es[k].target] := by
  induction es generalizing index with
  | nil => rfl
  | cons e es ih =>
    rw [edgeDefects_cons, ih, finRange_length_cons, List.flatMap_cons, List.flatMap_map]
    simp only [List.contains_iff_mem, Nat.add_assoc, Nat.add_comm 1]
    rfl

/-- The members reported are those that are not among the ids. -/
theorem groupDefects_eq (ids : List String) (g : Group) :
    groupDefects ids g
      = g.members.filterMap fun id =>
        if id ∈ ids then none else some (.unknownMember g.label id) := by
  unfold groupDefects
  rw [← List.filterMap_eq_map, List.filterMap_filter]
  refine congrArg (List.filterMap · g.members) (funext fun id => ?_)
  by_cases h : id ∈ ids <;> simp [h]

/-! ### The whole report -/

namespace GraphSpec

variable (spec : GraphSpec)

/-- The ids that edges and groups are checked against are those of the nodes. -/
theorem mem_scan_iff {id : String} :
    id ∈ (scanIds [] (spec.nodes.map Node.id)).1 ↔ spec.Declares id := by
  rw [mem_scanIds_fst, or_iff_right List.not_mem_nil, mem_ids_iff]

theorem scanIds_snd_eq_repeatedIds :
    (scanIds [] (spec.nodes.map Node.id)).2 = spec.repeatedIds := by
  have h : ∀ i, RepeatsFrom [] spec.nodes i ↔ spec.Repeats i := fun i =>
    or_iff_right List.not_mem_nil
  rw [scanIds_snd, repeatedIds]
  simp only [h]

/-- The report lists the defects of the nodes, the edges and the groups, place by place. -/
theorem defects_eq :
    spec.defects
      = (if spec.nodes = [] then [.noNodes] else []) ++ spec.repeatedIds ++ spec.danglingEnds
        ++ spec.danglingMembers := by
  have hedges : edgeDefects (scanIds [] (spec.nodes.map Node.id)).1 0 spec.edges
      = spec.danglingEnds := by
    rw [edgeDefects_eq, danglingEnds]
    simp only [mem_scan_iff, Nat.zero_add]
  have hgroups : groupDefects (scanIds [] (spec.nodes.map Node.id)).1
      = fun g => g.members.filterMap fun id =>
          if spec.Declares id then none else some (.unknownMember g.label id) := by
    funext g
    rw [groupDefects_eq]
    simp only [mem_scan_iff]
  rw [defects, scanIds_snd_eq_repeatedIds, hedges, hgroups, danglingMembers]
  simp only [List.isEmpty_iff]

/-! ### Sound specifications -/

theorem repeatedIds_eq_nil_iff : spec.repeatedIds = [] ↔ (spec.nodes.map Node.id).Nodup := by
  rw [List.Nodup, List.pairwise_map, List.pairwise_iff_getElem, repeatedIds,
    List.filterMap_eq_nil_iff]
  constructor
  · intro h i j hi hj hij heq
    have := h ⟨j, hj⟩ (List.mem_finRange _)
    rw [if_pos ⟨⟨i, hi⟩, hij, heq⟩] at this
    exact Option.some_ne_none _ this
  · intro h j _
    refine if_neg ?_
    rintro ⟨i, hij, heq⟩
    exact h i j i.isLt j.isLt hij heq

theorem danglingEnds_eq_nil_iff :
    spec.danglingEnds = [] ↔ ∀ e ∈ spec.edges, spec.Declares e.source ∧ spec.Declares e.target := by
  rw [danglingEnds, List.flatMap_eq_nil_iff]
  constructor
  · intro h e he
    obtain ⟨k, hk, rfl⟩ := List.getElem_of_mem he
    have := h ⟨k, hk⟩ (List.mem_finRange _)
    simpa using this
  · intro h k _
    have := h spec.edges[k] (List.getElem_mem _)
    simpa using this

theorem danglingMembers_eq_nil_iff :
    spec.danglingMembers = []
      ↔ ∀ g ∈ spec.groups.getD [], ∀ id ∈ g.members, spec.Declares id := by
  rw [danglingMembers, List.flatMap_eq_nil_iff]
  simp only [List.filterMap_eq_nil_iff, ite_eq_left_iff, reduceCtorEq, imp_false, not_not]

/-- A specification is sound if it has nodes, their ids differ, and every end of an edge and every
member of a group is a node. -/
theorem defects_eq_nil_iff :
    spec.defects = []
      ↔ spec.nodes ≠ [] ∧ (spec.nodes.map Node.id).Nodup
        ∧ (∀ e ∈ spec.edges, spec.Declares e.source ∧ spec.Declares e.target)
        ∧ ∀ g ∈ spec.groups.getD [], ∀ id ∈ g.members, spec.Declares id := by
  rw [defects_eq, List.append_eq_nil_iff, List.append_eq_nil_iff, List.append_eq_nil_iff,
    repeatedIds_eq_nil_iff, danglingEnds_eq_nil_iff, danglingMembers_eq_nil_iff]
  simp only [ite_eq_right_iff, reduceCtorEq, imp_false, and_assoc, ne_eq]

/-! ### Counting repeated ids -/

theorem countP_repeatedIds :
    spec.repeatedIds.countP Defect.isDuplicateId = spec.repeatedIds.length := by
  rw [List.countP_eq_length, repeatedIds]
  intro d hd
  obtain ⟨i, -, hi⟩ := List.mem_filterMap.mp hd
  rw [Option.ite_none_right_eq_some, Option.some.injEq] at hi
  rw [← hi.2]
  rfl

theorem countP_danglingEnds : spec.danglingEnds.countP Defect.isDuplicateId = 0 := by
  rw [List.countP_eq_zero, danglingEnds]
  intro d hd
  obtain ⟨k, -, hk⟩ := List.mem_flatMap.mp hd
  rcases List.mem_append.mp hk with h | h
  all_goals
    split at h
    · exact absurd h List.not_mem_nil
    · rw [List.mem_singleton.mp h]
      exact Bool.false_ne_true

theorem countP_danglingMembers : spec.danglingMembers.countP Defect.isDuplicateId = 0 := by
  rw [List.countP_eq_zero, danglingMembers]
  intro d hd
  obtain ⟨g, -, hg⟩ := List.mem_flatMap.mp hd
  obtain ⟨id, -, hid⟩ := List.mem_filterMap.mp hg
  rw [Option.ite_none_left_eq_some, Option.some.injEq] at hid
  rw [← hid.2]
  exact Bool.false_ne_true

/-- With the nodes whose id is not new counted by the report, the ids account for all nodes. -/
theorem countP_isDuplicateId :
    spec.defects.countP Defect.isDuplicateId + (spec.nodes.map Node.id).toFinset.card
      = spec.nodes.length := by
  have hids : (spec.nodes.map Node.id).toFinset
      = (scanIds [] (spec.nodes.map Node.id)).1.toFinset := by
    ext id
    rw [List.mem_toFinset, List.mem_toFinset, mem_scan_iff, mem_ids_iff]
  have hfirst : (if spec.nodes = [] then [Defect.noNodes] else []).countP Defect.isDuplicateId
      = 0 := by
    split <;> rfl
  -- Each id is collected once, so there are as many ids as the collection is long.
  rw [hids, List.toFinset_card_of_nodup (nodup_scanIds_fst List.nodup_nil _), defects_eq]
  simp only [List.countP_append, hfirst, countP_repeatedIds, countP_danglingEnds,
    countP_danglingMembers]
  rw [← scanIds_snd_eq_repeatedIds]
  have := length_scanIds [] (spec.nodes.map Node.id)
  simp only [List.length_map, List.length_nil] at this
  omega

end GraphSpec

/-- **The report is exact.**  It consists of the defects of the nodes, the edges and the groups,
place by place and in this order; it is empty exactly for the sound specifications; and it has one
repeated id for every node by which the nodes outnumber the ids. -/
theorem defectsOf_some_exact (spec : GraphSpec) :
    defectsOf (some spec)
        = (if spec.nodes = [] then [.noNodes] else []) ++ spec.repeatedIds ++ spec.danglingEnds
          ++ spec.danglingMembers
      ∧ (defectsOf (some spec) = []
        ↔ spec.nodes ≠ [] ∧ (spec.nodes.map Node.id).Nodup
          ∧ (∀ e ∈ spec.edges, spec.Declares e.source ∧ spec.Declares e.target)
          ∧ ∀ g ∈ spec.groups.getD [], ∀ id ∈ g.members, spec.Declares id)
      ∧ (defectsOf (some spec)).countP Defect.isDuplicateId
          + (spec.nodes.map Node.id).toFinset.card = spec.nodes.length :=
  ⟨spec.defects_eq, spec.defects_eq_nil_iff, spec.countP_isDuplicateId⟩

end FlowCanvas
