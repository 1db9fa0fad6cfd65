/-
The classes of a diagram, as its name table lists them.

- `mem_names_ofDiagram`: the classes are the identifiers of the labels, and nothing else;
- `closed_ofDiagram`: no class is listed twice, and the class of a node is listed;
- `nodup_attributes`: no class has two attributes of one name;
- `named?_eq_some`: an id leads to a class with a name exactly when it leads to a class that is not the empty text.
-/
import Classwright.NameTable
import Classwright.Proofs.Tables

namespace Classwright

/-- the table of a diagram without the warnings -/
def Diagram.nameTable (d : Diagram) : NameTable := (NameTable.ofDiagram d).1

namespace NameTable

/-- every class once, and no node without its class -/
structure Closed (t : NameTable) : Prop where
  names_nodup : t.names.Nodup
  class_mem : ∀ {id name : String}, t.resolve id = some name → name ∈ t.names

theorem mem_names_add (t : NameTable) (n : Node) (name : String) :
    name ∈ (t.add n).names ↔ name = Naming.identifier n.label ∨ name ∈ t.names :=
  Table.mem_keys_set t.classes _ name _

theorem closed_empty : empty.Closed where
  names_nodup := List.nodup_nil
  class_mem := by
    intro id name hr
    simp [resolve, empty, Table.get?] at hr

theorem Closed.add {t : NameTable} (h : t.Closed) (n : Node) : (t.add n).Closed where
  names_nodup := Table.nodup_set h.names_nodup _ _
  class_mem := by
    intro id name hr
    rw [mem_names_add]
    simp only [resolve, NameTable.add, Table.get?_set] at hr
    split_ifs at hr
    · exact Or.inl (Option.some.inj hr).symm
    · exact Or.inr (h.class_mem hr)

theorem fst_foldl_step (nodes : List Node) (s : NameTable × Log) :
    (nodes.foldl step s).1 = nodes.foldl NameTable.add s.1 := by
  induction nodes generalizing s with
  | nil => rfl
  | cons n rest ih => exact ih _

theorem nameTable_eq (d : Diagram) : d.nameTable = d.nodes.foldl NameTable.add empty :=
  fst_foldl_step d.nodes _

theorem closed_foldl_add (nodes : List Node) {t : NameTable} (h : t.Closed) :
    (nodes.foldl NameTable.add t).Closed := by
  induction nodes generalizing t with
  | nil => exact h
  | cons n rest ih => exact ih (h.add n)

theorem closed_ofDiagram (d : Diagram) : d.nameTable.Closed := by
  rw [nameTable_eq]
  exact closed_foldl_add d.nodes closed_empty

theorem mem_names_foldl_add (nodes : List Node) (t : NameTable) (name : String) :
    name ∈ (nodes.foldl NameTable.add t).names ↔
      name ∈ t.names ∨ ∃ n ∈ nodes, Naming.identifier n.label = name := by
  induction nodes generalizing t with
  | nil => simp
  | cons n rest ih =>
    rw [List.foldl_cons, ih, mem_names_add]
    simp only [List.mem_cons, exists_eq_or_imp]
    rw [eq_comm (a := name), or_assoc, or_left_comm]

theorem mem_names_ofDiagram (d : Diagram) (name : String) :
    name ∈ d.nameTable.names ↔ ∃ n ∈ d.nodes, Naming.identifier n.label = name := by
  rw [nameTable_eq, mem_names_foldl_add]
  simp [empty, names]

theorem named?_eq_some {t : NameTable} {id name : String} :
    t.named? id = some name ↔ t.resolve id = some name ∧ name ≠ "" := by
  unfold named?
  cases h : t.resolve id with
  | none => simp
  | some c =>
    simp only [String.isEmpty_iff, Option.some.injEq]
    split_ifs with hc
    · simp only [false_iff, not_and, not_not]
      rintro rfl
      exact hc
    · rw [Option.some.injEq]
      constructor
      · rintro rfl
        exact ⟨rfl, hc⟩
      · exact And.left

theorem Closed.named_mem {t : NameTable} (h : t.Closed) {id name : String} (hn : t.named? id = some name) :
    name ∈ t.names :=
  h.class_mem (named?_eq_some.1 hn).1

/-! ## Attributes -/

/-- each attribute stands under its name, and no name comes twice -/
theorem attributeTable_foldl (attributes : List Attribute) {t : List (String × Attribute)} (hkeys : (Table.keys t).Nodup)
    (hnames : ∀ p ∈ t, p.2.name = p.1) :
    (Table.keys (attributes.foldl (fun t a => Table.set t a.name a) t)).Nodup ∧
      ∀ p ∈ attributes.foldl (fun t a => Table.set t a.name a) t, p.2.name = p.1 := by
  induction attributes generalizing t with
  | nil => exact ⟨hkeys, hnames⟩
  | cons a rest ih =>
    refine ih (Table.nodup_set hkeys a.name a) fun p hp => ?_
    rcases Table.mem_of_mem_set hp with rfl | hp
    · rfl
    · exact hnames p hp

theorem nodup_distinctAttributes (attributes : List Attribute) :
    ((distinctAttributes attributes).map Attribute.name).Nodup := by
  obtain ⟨hkeys, hnames⟩ :=
    attributeTable_foldl attributes (t := []) List.nodup_nil fun p hp => absurd hp List.not_mem_nil
  have hmap : (distinctAttributes attributes).map Attribute.name = Table.keys (attributeTable attributes) := by
    unfold distinctAttributes Table.keys
    rw [List.map_map]
    exact List.map_congr_left hnames
  rw [hmap]
  exact hkeys

/-- the attributes of a class are those of one of its nodes -/
theorem exists_node_of_mem_foldl_add (nodes : List Node) {t : NameTable} {c : String × List Attribute}
    (hc : c ∈ (nodes.foldl NameTable.add t).classes) :
    c ∈ t.classes ∨ ∃ n ∈ nodes, c = (Naming.identifier n.label, distinctAttributes n.attributes) := by
  induction nodes generalizing t with
  | nil => exact Or.inl hc
  | cons n rest ih =>
    rcases ih hc with hadd | ⟨m, hm, rfl⟩
    · exact (Table.mem_of_mem_set hadd).symm.imp id fun h => ⟨n, List.mem_cons_self, h⟩
    · exact Or.inr ⟨m, List.mem_cons_of_mem _ hm, rfl⟩

/-- no class has two attributes of one name -/
theorem nodup_attributes (d : Diagram) {c : String × List Attribute} (hc : c ∈ d.nameTable.classes) :
    (c.2.map Attribute.name).Nodup := by
  rw [nameTable_eq] at hc
  rcases exists_node_of_mem_foldl_add d.nodes hc with h | ⟨n, -, rfl⟩
  · exact absurd h List.not_mem_nil
  · exact nodup_distinctAttributes n.attributes

theorem Closed.attributesOf_eq {t : NameTable} (h : t.Closed) {name : String} {attributes : List Attribute}
    (hc : (name, attributes) ∈ t.classes) : t.attributesOf name = attributes := by
  unfold attributesOf
  rw [Table.get?_of_mem h.names_nodup hc]
  rfl

end NameTable

end Classwright
