import FlowCanvas.Graph.Schema
import FlowCanvas.Proofs.Json.Record

/-!
# Specifications that are read back

A specification may be written in many ways: as an object or as a list of its fields, with fields
left out or members that are no fields, with other spellings of its words.  All of them denote a
record, and the text that is written for this record denotes it again.  The one thing of a
specification whose shape is not fixed is its metadata.

Reading counts the brackets that are open.  Around the metadata there are three: of the
specification, of a list in it, and of a node or an edge.  Every text that denotes the specification
has these three there, so the text that is written is no deeper than the one that was read.

## Main definitions

* `GraphSpec.IsExact` — all numbers in the metadata are whole.
* `Node.IsKept`, `Edge.IsKept`, `GraphSpec.IsKept` — the metadata can be read.
* `GraphSpec.rewritten` — the text of the specification that a text denotes.

## Main results

* `GraphSpec.isKept_of_read` — the metadata of a specification that is read can be read.
* `GraphSpec.readsBack` — a specification that has been written is read back.
* `ofJson_text_of_ofJson` — **what a text denotes is denoted by its own text**, so that writing
  again what has been written changes nothing.
-/

namespace FlowCanvas

open Json

/-! ### Words -/

instance : LawfulVocabulary DiagramKind where
  ofWord?_word := by
    intro x
    cases x
    all_goals rfl

instance : LawfulVocabulary Direction where
  ofWord?_word := by
    intro x
    cases x
    all_goals rfl

instance : LawfulVocabulary Theme where
  ofWord?_word := by
    intro x
    cases x
    all_goals rfl

instance : LawfulVocabulary Shape where
  ofWord?_word := by
    intro x
    cases x
    all_goals rfl

instance : LawfulVocabulary LineStyle where
  ofWord?_word := by
    intro x
    cases x
    all_goals rfl

/-! ### Metadata -/

/-- All numbers in the metadata are whole. -/
def Metadata.IsExact (ms : Metadata) : Prop := ∀ m ∈ ms, Exact m.2

/-- All numbers in the metadata of the specification are whole. -/
def GraphSpec.IsExact (s : GraphSpec) : Prop :=
  (∀ n ∈ s.nodes, ∀ ms ∈ n.metadata, Metadata.IsExact ms)
    ∧ ∀ e ∈ s.edges, ∀ ms ∈ e.metadata, Metadata.IsExact ms

instance (s : GraphSpec) : Decidable s.IsExact :=
  inferInstanceAs (Decidable ((∀ n ∈ s.nodes, ∀ ms ∈ n.metadata, ∀ m ∈ ms, Exact m.2)
    ∧ ∀ e ∈ s.edges, ∀ ms ∈ e.metadata, ∀ m ∈ ms, Exact m.2))

/-- The metadata of the node can be read when so many brackets may be opened. -/
def Node.IsKept (depth : Nat) (n : Node) : Prop := ∀ ms ∈ n.metadata, Kept depth (.object ms)

/-- The metadata of the edge can be read when so many brackets may be opened. -/
def Edge.IsKept (depth : Nat) (e : Edge) : Prop := ∀ ms ∈ e.metadata, Kept depth (.object ms)

/-- The metadata in the specification can be read when so many brackets may be opened. -/
def GraphSpec.IsKept (depth : Nat) (s : GraphSpec) : Prop :=
  (∀ n ∈ s.nodes, n.IsKept depth) ∧ ∀ e ∈ s.edges, e.IsKept depth

/-! ### What a specification that is read is like -/

section

variable {total depth : Nat} {cs rest : List Char}

/-- The metadata of a node or an edge that is read can be read. -/
theorem isKept_of_readOption {ms? : Option Metadata}
    (h : readOption readObject total (depth + 1) cs = .ok (ms?, rest)) :
    ∀ ms ∈ ms?, Kept (depth + 1) (.object ms) := by
  intro ms hms
  obtain ⟨cs', hread⟩ := exists_of_readOption h hms
  exact kept_of_readObject hread

theorem Node.isKept_of_read {n : Node} (h : Node.schema.read total (depth + 2) cs = .ok (n, rest)) :
    n.IsKept (depth + 1) := by
  have hblank : Node.schema.blank.IsKept (depth + 1) := by
    intro ms hms
    cases hms
  -- No other field changes the metadata.
  have hkeeps : ∀ f ∈ Node.schema.fields, f.Keeps (Node.IsKept (depth + 1)) total (depth + 1) := by
    unfold Node.schema
    simp only [List.forall_mem_cons]
    refine ⟨?_, ?_, ?_, ?_, ?metadata, fun _ h => absurd h List.not_mem_nil⟩
    case metadata => exact Field.keeps_of fun _ _ _ hread _ _ => isKept_of_readOption hread
    all_goals exact Field.keeps_of fun _ _ _ _ _ hr => hr
  exact Schema.of_read hblank hkeeps h

theorem Edge.isKept_of_read {e : Edge} (h : Edge.schema.read total (depth + 2) cs = .ok (e, rest)) :
    e.IsKept (depth + 1) := by
  have hblank : Edge.schema.blank.IsKept (depth + 1) := by
    intro ms hms
    cases hms
  have hkeeps : ∀ f ∈ Edge.schema.fields, f.Keeps (Edge.IsKept (depth + 1)) total (depth + 1) := by
    unfold Edge.schema
    simp only [List.forall_mem_cons]
    refine ⟨?_, ?_, ?_, ?_, ?_, ?metadata, fun _ h => absurd h List.not_mem_nil⟩
    case metadata => exact Field.keeps_of fun _ _ _ hread _ _ => isKept_of_readOption hread
    all_goals exact Field.keeps_of fun _ _ _ _ _ hr => hr
  exact Schema.of_read hblank hkeeps h

/-- The metadata of a specification that is read can be read. -/
theorem GraphSpec.isKept_of_read {spec : GraphSpec}
    (h : GraphSpec.schema.read total (depth + 4) cs = .ok (spec, rest)) :
    spec.IsKept (depth + 1) := by
  have hblank : GraphSpec.schema.blank.IsKept (depth + 1) :=
    ⟨fun _ h => absurd h List.not_mem_nil, fun _ h => absurd h List.not_mem_nil⟩
  have hkeeps : ∀ f ∈ GraphSpec.schema.fields,
      f.Keeps (GraphSpec.IsKept (depth + 1)) total (depth + 3) := by
    unfold GraphSpec.schema
    simp only [List.forall_mem_cons]
    refine ⟨?_, ?_, ?nodes, ?edges, ?_, ?_, ?_, fun _ h => absurd h List.not_mem_nil⟩
    case nodes =>
      exact Field.keeps_of fun _ _ _ hread _ hr =>
        ⟨forall_mem_of_readList Node.isKept_of_read hread, hr.2⟩
    case edges =>
      exact Field.keeps_of fun _ _ _ hread _ hr =>
        ⟨hr.1, forall_mem_of_readList Edge.isKept_of_read hread⟩
    all_goals exact Field.keeps_of fun _ _ _ _ _ hr => hr
  exact Schema.of_read hblank hkeeps h

end

/-! ### Members that are read back -/

section

variable {total depth : Nat}

theorem mem_memberOf {α : Type} {name : String} {f : α → Json} {x? : Option α} {x : α}
    (h : x ∈ x?) : (name, f x) ∈ memberOf name f x? := by
  rw [Option.mem_def.mp h]
  exact List.mem_singleton_self _

/-- A field that is left out if it has no value. -/
theorem Json.Written.option {α ρ : Type} {name : String} {reader : Reader α} {f : α → Json}
    {set : Option α → ρ → ρ} {fs : List (Field ρ)} {x? : Option α} {ms : Members} {r r' : ρ}
    (hopens : ∀ x, Opens 'n' (f x)) (hread : ∀ x ∈ x?, ReadsBack (reader total depth) (f x) x)
    (hnone : set none r = r) (h : Written total depth fs ms (set x? r) r') :
    Written total depth (.of name false (readOption reader) set :: fs) (memberOf name f x? ++ ms)
      r r' := by
  cases x? with
  | none =>
    rw [hnone] at h
    exact Written.absent rfl h
  | some x => exact Written.value (readsBack_readOption (hopens x) (hread x rfl)) h

/-- The metadata of a node or an edge is read back. -/
theorem readsBack_metadata {ms? : Option Metadata}
    (hkept : ∀ ms ∈ ms?, Kept (depth + 1) (.object ms)) (hexact : ∀ ms ∈ ms?, Metadata.IsExact ms)
    (hbound : ∀ m ∈ memberOf "metadata" .object ms?, m.2.chars.length < total) :
    ∀ ms ∈ ms?, ReadsBack (readObject total (depth + 1)) (.object ms) ms := by
  intro ms hms
  have hlength := hbound _ (mem_memberOf hms)
  exact readsBack_readObject (hkept ms hms) (Exact.object (hexact ms hms)) hlength

/-! ### Records that are read back -/

theorem Node.toJson_eq (n : Node) :
    n.toJson = .object (("id", .str n.id) :: ("label", .str n.label)
      :: ("shape", wordJson n.shape) :: (memberOf "styleClass" .str n.styleClass
        ++ (memberOf "metadata" .object n.metadata ++ []))) := by
  simp [Node.toJson]

theorem Node.readsBack {n : Node} (hkept : n.IsKept (depth + 1))
    (hexact : ∀ ms ∈ n.metadata, Metadata.IsExact ms) (hbound : n.toJson.chars.length < total) :
    ReadsBack (Node.schema.read total (depth + 2)) n.toJson n := by
  rw [Node.toJson_eq] at hbound ⊢
  have hvalues := forall_length_lt_of_object hbound
  have hmetadata := readsBack_metadata hkept hexact fun m hm => hvalues m (by simp [hm])
  refine Schema.readsBack (by decide) ?_ hbound
  refine Written.value (readsBack_readText n.id) ?_
  refine Written.value (readsBack_readText n.label) ?_
  refine Written.value (readsBack_readSpelling n.shape) ?_
  refine Written.option (opens_str (by decide)) (fun s _ => readsBack_readText s) rfl ?_
  refine Written.option (opens_object (by decide)) hmetadata rfl ?_
  exact Written.nil n

theorem Edge.toJson_eq (e : Edge) :
    e.toJson = .object (("from", .str e.source) :: ("to", .str e.target)
      :: (memberOf "label" .str e.label ++ (("lineStyle", wordJson e.lineStyle)
        :: (memberOf "styleClass" .str e.styleClass
          ++ (memberOf "metadata" .object e.metadata ++ []))))) := by
  simp [Edge.toJson]

theorem Edge.readsBack {e : Edge} (hkept : e.IsKept (depth + 1))
    (hexact : ∀ ms ∈ e.metadata, Metadata.IsExact ms) (hbound : e.toJson.chars.length < total) :
    ReadsBack (Edge.schema.read total (depth + 2)) e.toJson e := by
  rw [Edge.toJson_eq] at hbound ⊢
  have hvalues := forall_length_lt_of_object hbound
  have hmetadata := readsBack_metadata hkept hexact fun m hm => hvalues m (by simp [hm])
  refine Schema.readsBack (by decide) ?_ hbound
  refine Written.value (readsBack_readText e.source) ?_
  refine Written.value (readsBack_readText e.target) ?_
  refine Written.option (opens_str (by decide)) (fun s _ => readsBack_readText s) rfl ?_
  refine Written.value (readsBack_readSpelling e.lineStyle) ?_
  refine Written.option (opens_str (by decide)) (fun s _ => readsBack_readText s) rfl ?_
  refine Written.option (opens_object (by decide)) hmetadata rfl ?_
  exact Written.nil e

theorem Group.readsBack {g : Group} (hbound : g.toJson.chars.length < total) :
    ReadsBack (Group.schema.read total (depth + 2)) g.toJson g := by
  have hvalues := forall_length_lt_of_object hbound
  have hmembers := hvalues ("memberNodeIds", .list (g.members.map .str)) (by simp)
  refine Schema.readsBack (by decide) ?_ hbound
  refine Written.value (readsBack_readText g.id) ?_
  refine Written.value (readsBack_readText g.label) ?_
  refine Written.value (readsBack_readList ?_ ?_ hmembers) ?_
  · exact fun s _ => opens_str (by decide) s
  · exact fun s _ => readsBack_readText s
  · exact Written.nil g

theorem LegendEntry.readsBack {l : LegendEntry} (hbound : l.toJson.chars.length < total) :
    ReadsBack (LegendEntry.schema.read total (depth + 1)) l.toJson l := by
  refine Schema.readsBack (by decide) ?_ hbound
  refine Written.value (readsBack_readText l.swatch) ?_
  refine Written.value (readsBack_readText l.label) ?_
  exact Written.nil l

/-- Records that are read back are read back as a list, which is part of a text. -/
theorem readsBack_records {ρ : Type} {s : Schema ρ} {f : ρ → Json} {rs : List ρ}
    (hobject : ∀ r, ∃ ms, f r = .object ms)
    (hread : ∀ r ∈ rs, (f r).chars.length < total → ReadsBack (s.read total depth) (f r) r)
    (hbound : (Json.list (rs.map f)).chars.length < total) :
    ReadsBack (readList s.read total (depth + 1)) (.list (rs.map f)) rs := by
  refine readsBack_readList ?_ ?_ hbound
  · intro r _
    obtain ⟨ms, hms⟩ := hobject r
    rw [hms]
    exact opens_object (by decide) ms
  · intro r hr
    have hlength := length_chars_lt_list (List.mem_map_of_mem (f := f) hr)
    exact hread r hr (Nat.lt_trans hlength hbound)

theorem GraphSpec.toJson_eq (s : GraphSpec) :
    s.toJson = .object (("kind", wordJson s.kind) :: ("direction", wordJson s.direction)
      :: ("nodes", .list (s.nodes.map Node.toJson)) :: ("edges", .list (s.edges.map Edge.toJson))
      :: (memberOf "groups" (fun gs => .list (gs.map Group.toJson)) s.groups
        ++ (memberOf "legendItems" (fun ls => .list (ls.map LegendEntry.toJson)) s.legend
          ++ (("themeName", wordJson s.theme) :: [])))) := by
  simp [GraphSpec.toJson]

/-- A specification that has been written is read back. -/
theorem GraphSpec.readsBack {s : GraphSpec} (hkept : s.IsKept (depth + 1)) (hexact : s.IsExact)
    (hbound : s.toJson.chars.length < total) :
    ReadsBack (GraphSpec.schema.read total (depth + 4)) s.toJson s := by
  rw [GraphSpec.toJson_eq] at hbound ⊢
  have hvalues := forall_length_lt_of_object hbound
  have hnodes : ReadsBack (readList Node.schema.read total (depth + 3))
      (.list (s.nodes.map Node.toJson)) s.nodes := by
    have hlength := hvalues ("nodes", .list (s.nodes.map Node.toJson)) (by simp)
    refine readsBack_records (fun _ => ⟨_, rfl⟩) ?_ hlength
    exact fun n hn => Node.readsBack (hkept.1 n hn) (hexact.1 n hn)
  have hedges : ReadsBack (readList Edge.schema.read total (depth + 3))
      (.list (s.edges.map Edge.toJson)) s.edges := by
    have hlength := hvalues ("edges", .list (s.edges.map Edge.toJson)) (by simp)
    refine readsBack_records (fun _ => ⟨_, rfl⟩) ?_ hlength
    exact fun e he => Edge.readsBack (hkept.2 e he) (hexact.2 e he)
  have hgroups : ∀ gs ∈ s.groups, ReadsBack (readList Group.schema.read total (depth + 3))
      (.list (gs.map Group.toJson)) gs := by
    intro gs hgs
    have hmem : ("groups", Json.list (gs.map Group.toJson)) ∈
        memberOf "groups" (fun gs => .list (gs.map Group.toJson)) s.groups := mem_memberOf hgs
    have hlength := hvalues ("groups", .list (gs.map Group.toJson)) (by simp [hmem])
    exact readsBack_records (fun _ => ⟨_, rfl⟩) (fun _ _ => Group.readsBack) hlength
  have hlegend : ∀ ls ∈ s.legend, ReadsBack (readList LegendEntry.schema.read total (depth + 3))
      (.list (ls.map LegendEntry.toJson)) ls := by
    intro ls hls
    have hmem : ("legendItems", Json.list (ls.map LegendEntry.toJson)) ∈
        memberOf "legendItems" (fun ls => .list (ls.map LegendEntry.toJson)) s.legend :=
      mem_memberOf hls
    have hlength := hvalues ("legendItems", .list (ls.map LegendEntry.toJson)) (by simp [hmem])
    exact readsBack_records (fun _ => ⟨_, rfl⟩) (fun _ _ => LegendEntry.readsBack) hlength
  refine Schema.readsBack (by decide) ?_ hbound
  refine Written.value (readsBack_readSpelling s.kind) ?_
  refine Written.value (readsBack_readSpelling s.direction) ?_
  refine Written.value hnodes ?_
  refine Written.value hedges ?_
  refine Written.option (fun _ => opens_list (by decide) _) hgroups rfl ?_
  refine Written.option (fun _ => opens_list (by decide) _) hlegend rfl ?_
  refine Written.value (readsBack_readSpelling s.theme) ?_
  exact Written.nil s

end

/-! ### Texts -/

theorem GraphSpec.toList_text (s : GraphSpec) : s.text.toList = s.toJson.chars := by
  rw [GraphSpec.text, Json.text, String.toList_ofList]

/-- The text that is written for the specification that a text denotes. -/
def GraphSpec.rewritten (text : List Char) : Result (List Char) := do
  let spec ← GraphSpec.ofJson text
  .ok spec.text.toList

/-- **What a text denotes is denoted by its own text**, if the numbers in its metadata are whole.
Writing again what has been written changes nothing. -/
theorem ofJson_text_of_ofJson {text : List Char} {spec : GraphSpec}
    (h : GraphSpec.ofJson text = .ok spec) (hexact : spec.IsExact) :
    GraphSpec.ofJson spec.text.toList = .ok spec ∧
      (GraphSpec.rewritten text >>= GraphSpec.rewritten) = GraphSpec.rewritten text := by
  obtain ⟨rest, hread⟩ := exists_of_readAll h
  -- Three brackets are open around the metadata, of the 127 that may be.
  have hkept : spec.IsKept 124 := GraphSpec.isKept_of_read hread
  have hback : GraphSpec.ofJson spec.text.toList = .ok spec := by
    rw [GraphSpec.toList_text]
    exact readAll_chars (GraphSpec.readsBack hkept hexact (Nat.lt_succ_self _))
  have hrewritten : ∀ t, GraphSpec.ofJson t = .ok spec →
      GraphSpec.rewritten t = .ok spec.text.toList := by
    intro t ht
    rw [GraphSpec.rewritten, ht, ok_bind]
  refine ⟨hback, ?_⟩
  rw [hrewritten text h, ok_bind, hrewritten _ hback]

/-- A text with a member that is no field, an alias, a node that is a list of its fields, a control,
a word that is an object, a field that is `null`, and metadata in which a name comes twice. -/
def manyForms : List Char :=
  ("\x7b\"direction\":\"TD\",\"x\":[0.5],\"nodes\":[[\"A\",\"\\u0001\",\x7b\"round\":null\x7d,null,"
    ++ "\x7b\"b\":1,\"a\":-5,\"b\":2\x7d]],\"groups\":[]\x7d").toList

theorem ofJson_text_of_manyForms :
    ∃ spec, GraphSpec.ofJson manyForms = .ok spec ∧ spec.IsExact
      ∧ spec.nodes.any (·.metadata.isSome) ∧ GraphSpec.ofJson spec.text.toList = .ok spec
      ∧ (GraphSpec.rewritten manyForms >>= GraphSpec.rewritten)
        = GraphSpec.rewritten manyForms := by
  have hread : (GraphSpec.ofJson manyForms).toOption.any
      (fun spec => decide (spec.IsExact ∧ spec.nodes.any (·.metadata.isSome))) = true := by
    decide +kernel
  cases hspec : GraphSpec.ofJson manyForms with
  | error _ =>
    rw [hspec] at hread
    cases hread
  | ok spec =>
    rw [hspec] at hread
    obtain ⟨hexact, hmetadata⟩ := of_decide_eq_true hread
    exact ⟨spec, rfl, hexact, hmetadata, ofJson_text_of_ofJson hspec hexact⟩

end FlowCanvas
