/-
The name table of a diagram, told from its nodes alone.

The nodes are read one after the other. An id leads to the class of its node. The classes stand in the order in which they
come first, each with the attributes of its last node; an attribute that is declared again keeps its place and takes the last
declaration. A class is an association class as soon as one of its nodes is. There is a warning for each label that no letter
or digit is left of, for each node of a class that is there already, and for each attribute that is declared again.

- `LastWith`: the last element of a list with some key; `Table.get?_fill_iff`: a table made of rows holds the last of each key;
- `repeats`: how many elements of a list came before; `repeats_concat`: one more element;
- `Attribute.Settled`: what is left of the attributes of a node; `settled_distinctAttributes`;
- `NameTable.length_warnings`, `length_log`: the warnings about one node, and about all of them;
- `NameTable.Describes`: what a table says of nodes; `names_described`: the table of a diagram says it of its nodes.
-/
import Mathlib.Algebra.GroupWithZero.Nat
import Classwright.Proofs.NodeOrder

namespace Classwright

/-! ## The last of each key -/

/-- `x` has the key `k`, and nothing behind it has -/
def LastWith {α κ : Type} (key : α → κ) (xs : List α) (k : κ) (x : α) : Prop :=
  ∃ before after, xs = before ++ x :: after ∧ key x = k ∧ ∀ y ∈ after, key y ≠ k

theorem LastWith.concat_iff {α κ : Type} {key : α → κ} {xs : List α} {k : κ} {x y : α} :
    LastWith key (xs ++ [y]) k x ↔ (key y = k ∧ x = y) ∨ (key y ≠ k ∧ LastWith key xs k x) := by
  constructor
  · rintro ⟨before, after, heq, hx, hafter⟩
    rcases List.eq_nil_or_concat after with rfl | ⟨front, z, rfl⟩
    · obtain ⟨-, hxy⟩ := List.append_inj' heq rfl
      obtain rfl : y = x := List.singleton_inj.1 hxy
      exact Or.inl ⟨hx, rfl⟩
    · have hsplit : xs ++ [y] = (before ++ x :: front) ++ [z] := by simpa using heq
      obtain ⟨hfront, hyz⟩ := List.append_inj' hsplit rfl
      obtain rfl : y = z := List.singleton_inj.1 hyz
      refine Or.inr ⟨hafter y (by simp), before, front, hfront, hx, fun w hw => hafter w (by simp [hw])⟩
  · rintro (⟨hy, rfl⟩ | ⟨hy, before, after, rfl, hx, hafter⟩)
    · exact ⟨xs, [], rfl, hy, by simp⟩
    · refine ⟨before, after ++ [y], by simp, hx, fun w hw => ?_⟩
      rcases List.mem_append.1 hw with hw | hw
      · exact hafter w hw
      · rw [List.mem_singleton.1 hw]
        exact hy

/-- where no two elements have the same key, each is the last with its own -/
theorem LastWith.iff_of_nodup {α κ : Type} {key : α → κ} {xs : List α} (h : (xs.map key).Nodup) {k : κ} {x : α} :
    LastWith key xs k x ↔ x ∈ xs ∧ key x = k := by
  constructor
  · rintro ⟨before, after, rfl, hx, -⟩
    exact ⟨by simp, hx⟩
  · rintro ⟨hmem, rfl⟩
    obtain ⟨before, after, rfl⟩ := List.append_of_mem hmem
    refine ⟨before, after, rfl, rfl, fun y hy heq => ?_⟩
    rw [List.map_append, List.map_cons, List.nodup_append, List.nodup_cons] at h
    exact h.2.1.1 (heq ▸ List.mem_map_of_mem hy)

namespace Table

variable {α κ β : Type} [DecidableEq κ]

/-- **A table made of rows holds the last row of each key.** -/
theorem get?_fill_iff {key : α → κ} {val : α → β} (xs : List α) (k : κ) (b : β) :
    get? (fill [] (xs.map fun x => (key x, val x))) k = some b ↔ ∃ x, LastWith key xs k x ∧ val x = b := by
  induction xs using List.reverseRecOn with
  | nil =>
    refine iff_of_false nofun ?_
    rintro ⟨x, ⟨before, after, heq, -⟩, -⟩
    simp at heq
  | append_singleton xs y ih =>
    rw [List.map_append, fill_append]
    simp only [List.map_cons, List.map_nil, fill, List.foldl_cons, List.foldl_nil, get?_set, LastWith.concat_iff]
    by_cases hy : key y = k
    · simp [hy]
    · simp only [fill] at ih
      simp [hy, ih]

end Table

/-! ## Counting what came before -/

section Repeats

variable {κ : Type} [DecidableEq κ]

/-- how many elements of a list came before -/
def repeats (ks : List κ) : Nat := ks.length - ks.eraseDups.length

theorem eraseDups_concat (ks : List κ) (k : κ) :
    (ks ++ [k]).eraseDups = ks.eraseDups ++ if k ∈ ks then [] else [k] := by
  rw [List.eraseDups_append, List.removeAll]
  by_cases hk : k ∈ ks
  · simp [hk]
  · simp only [hk, List.elem_eq_mem, decide_false, Bool.not_false, List.filter_cons_of_pos, List.filter_nil, if_false]
    rfl

theorem length_eraseDups_le (ks : List κ) : ks.eraseDups.length ≤ ks.length := by
  induction ks using List.reverseRecOn with
  | nil => exact Nat.le_refl 0
  | append_singleton ks k ih =>
    rw [eraseDups_concat]
    split_ifs <;> simp only [List.length_append, List.length_cons, List.length_nil] <;> omega

theorem nodup_eraseDups (ks : List κ) : ks.eraseDups.Nodup := by
  induction ks using List.reverseRecOn with
  | nil => exact List.nodup_nil
  | append_singleton ks k ih =>
    rw [eraseDups_concat]
    split_ifs with hk
    · simpa using ih
    · exact List.nodup_append.2 ⟨ih, List.nodup_singleton k, by simpa using fun x hx (hxk : x = k) => hk (hxk ▸ hx)⟩

theorem repeats_concat (ks : List κ) (k : κ) : repeats (ks ++ [k]) = repeats ks + if k ∈ ks then 1 else 0 := by
  have hle := length_eraseDups_le ks
  unfold repeats
  rw [eraseDups_concat]
  split_ifs <;> simp only [List.length_append, List.length_cons, List.length_nil] <;> omega

end Repeats

/-! ## Attributes -/

namespace Attribute

/-- what is left of the attributes of a node: each name where it was declared first, as it was declared last -/
structure Settled (declared left : List Attribute) : Prop where
  names : left.map name = (declared.map name).eraseDups
  nodup : (left.map name).Nodup
  last : ∀ a ∈ left, LastWith name declared a.name a

end Attribute

namespace NameTable

theorem attributeTable_eq_fill (attributes : List Attribute) :
    attributeTable attributes = Table.fill [] (attributes.map fun a => (a.name, a)) := by
  unfold attributeTable Table.fill
  rw [List.foldl_map]

theorem settled_distinctAttributes (attributes : List Attribute) :
    Attribute.Settled attributes (distinctAttributes attributes) := by
  have hkeys : Table.keys (attributeTable attributes) = (attributes.map Attribute.name).eraseDups := by
    rw [attributeTable_eq_fill, Table.keys_fill, List.map_map]
    rfl
  have hlast : ∀ p ∈ attributeTable attributes, LastWith Attribute.name attributes p.1 p.2 := by
    intro p hp
    have hget : Table.get? (attributeTable attributes) p.1 = some p.2 :=
      Table.get?_of_mem (hkeys ▸ nodup_eraseDups _) hp
    rw [attributeTable_eq_fill, Table.get?_fill_iff] at hget
    obtain ⟨a, ha, rfl⟩ := hget
    exact ha
  have hname : ∀ p ∈ attributeTable attributes, p.2.name = p.1 := by
    intro p hp
    obtain ⟨-, -, -, hkey, -⟩ := hlast p hp
    exact hkey
  have hnames : (distinctAttributes attributes).map Attribute.name = (attributes.map Attribute.name).eraseDups := by
    rw [← hkeys, distinctAttributes, Table.keys, List.map_map]
    exact List.map_congr_left hname
  refine ⟨hnames, nodup_distinctAttributes attributes, fun a ha => ?_⟩
  obtain ⟨p, hp, rfl⟩ := List.mem_map.1 ha
  rw [hname p hp]
  exact hlast p hp

/-! ## Warnings -/

/-- one warning for each attribute whose name came before -/
theorem length_repeatWarnings (className : String) {seen earlier : List String} (h : ∀ x, x ∈ seen ↔ x ∈ earlier)
    (attributes : List Attribute) :
    (repeatWarnings className seen attributes).length + repeats earlier =
      repeats (earlier ++ attributes.map Attribute.name) := by
  induction attributes generalizing seen earlier with
  | nil => simp [repeatWarnings]
  | cons a rest ih =>
    have hagree : ∀ x, x ∈ a.name :: seen ↔ x ∈ earlier ++ [a.name] := fun x => by simp [h, or_comm]
    have hrest := ih hagree
    rw [repeats_concat, List.append_assoc, List.singleton_append] at hrest
    rw [repeatWarnings, List.length_append, List.map_cons, ← hrest]
    by_cases hseen : a.name ∈ earlier
    · simp only [List.contains_iff_mem.2 ((h _).2 hseen), hseen, if_true, List.length_cons, List.length_nil]
      omega
    · have hnew : seen.contains a.name = false := by simpa [h] using hseen
      simp only [hnew, hseen, if_false, Bool.false_eq_true, List.length_nil]
      omega

/-- what a node is worth in warnings, after the classes that are there already -/
theorem length_warnings (t : NameTable) (n : Node) :
    (t.warnings n).length = (if Naming.className n.label = "" then 1 else 0) +
      (if Naming.identifier n.label ∈ t.names then 1 else 0) + repeats (n.attributes.map Attribute.name) := by
  have hagree : ∀ x, x ∈ ([] : List String) ↔ x ∈ ([] : List String) := fun _ => Iff.rfl
  have hrepeats := length_repeatWarnings (Naming.identifier n.label) hagree n.attributes
  have hhas : Table.has t.classes (Naming.identifier n.label) = true ↔ Naming.identifier n.label ∈ t.names :=
    Table.isSome_get?_iff t.classes _
  have hzero : repeats ([] : List String) = 0 := rfl
  rw [hzero, Nat.add_zero, List.nil_append] at hrepeats
  unfold warnings
  simp only [List.length_append, hrepeats, String.isEmpty_iff, hhas]
  split_ifs <;> rfl

theorem level_of_mem_repeatWarnings {className : String} {seen : List String} {attributes : List Attribute} {entry : LogEntry}
    (h : entry ∈ repeatWarnings className seen attributes) : entry.level = .warning := by
  induction attributes generalizing seen with
  | nil => cases h
  | cons a rest ih =>
    rcases List.mem_append.1 h with h | h
    · split_ifs at h
      · rw [List.mem_singleton.1 h]
        rfl
      · cases h
    · exact ih h

theorem level_of_mem_warnings {t : NameTable} {n : Node} {entry : LogEntry} (h : entry ∈ t.warnings n) :
    entry.level = .warning := by
  simp only [warnings, List.mem_append] at h
  rcases h with (h | h) | h
  · split_ifs at h
    · rw [List.mem_singleton.1 h]
      rfl
    · cases h
  · split_ifs at h
    · rw [List.mem_singleton.1 h]
      rfl
    · cases h
  · exact level_of_mem_repeatWarnings h

theorem ofNodes_concat (nodes : List Node) (n : Node) : ofNodes (nodes ++ [n]) = step (ofNodes nodes) n := by
  unfold ofNodes
  rw [List.foldl_append]
  rfl

theorem names_ofNodes (nodes : List Node) :
    (ofNodes nodes).1.names = (nodes.map fun n => Naming.identifier n.label).eraseDups :=
  Diagram.names_eq_classOrder ⟨nodes, [], .null⟩

/-- **The warnings about all nodes.** -/
theorem length_log (nodes : List Node) :
    (ofNodes nodes).2.length = (nodes.countP fun n => Naming.className n.label = "") +
      repeats (nodes.map fun n => Naming.identifier n.label) +
      (nodes.map fun n => repeats (n.attributes.map Attribute.name)).sum := by
  induction nodes using List.reverseRecOn with
  | nil => rfl
  | append_singleton nodes n ih =>
    rw [ofNodes_concat, step, List.length_append, ih, length_warnings, names_ofNodes]
    simp only [List.mem_eraseDups, List.map_append, List.map_cons, List.map_nil, repeats_concat, List.countP_append,
      List.countP_singleton, List.sum_append, List.sum_cons, List.sum_nil, decide_eq_true_eq]
    omega

theorem level_of_mem_log {nodes : List Node} {entry : LogEntry} (h : entry ∈ (ofNodes nodes).2) :
    entry.level = .warning := by
  induction nodes using List.reverseRecOn with
  | nil => cases h
  | append_singleton nodes n ih =>
    rw [ofNodes_concat, step] at h
    rcases List.mem_append.1 h with h | h
    · exact ih h
    · exact level_of_mem_warnings h

/-! ## The table of a diagram -/

/-- what a table says of nodes -/
structure Describes (t : NameTable) (nodes : List Node) : Prop where
  classOf : ∀ id name, t.resolve id = some name ↔ ∃ n ∈ nodes, n.id = id ∧ Naming.identifier n.label = name
  names : t.names = (nodes.map fun n => Naming.identifier n.label).eraseDups
  names_nodup : t.names.Nodup
  attributes : ∀ name ∈ t.names, ∃ n, LastWith (fun n => Naming.identifier n.label) nodes name n ∧
    ∃ left, Table.get? t.classes name = some left ∧ Attribute.Settled n.attributes left
  no_attributes : ∀ name, name ∉ t.names → Table.get? t.classes name = none
  associationClasses : ∀ name, name ∈ t.associationClasses ↔
    ∃ n ∈ nodes, n.isAssociationClass = true ∧ Naming.identifier n.label = name
  associationClasses_nodup : t.associationClasses.Nodup

theorem associationClasses_nodup_add {t : NameTable} (h : t.associationClasses.Nodup) (n : Node) :
    (t.add n).associationClasses.Nodup := by
  unfold add
  dsimp only
  split_ifs with hnew
  · have hname : Naming.identifier n.label ∉ t.associationClasses := by simpa using (Bool.and_eq_true_iff.1 hnew).2
    exact List.nodup_append.2 ⟨h, List.nodup_singleton _, fun x hx y hy hxy => hname (by
      rw [List.mem_singleton] at hy
      exact hy ▸ hxy ▸ hx)⟩
  · exact h

theorem associationClasses_nodup_foldl_add (nodes : List Node) {t : NameTable} (h : t.associationClasses.Nodup) :
    (nodes.foldl add t).associationClasses.Nodup := by
  induction nodes generalizing t with
  | nil => exact h
  | cons n rest ih => exact ih (associationClasses_nodup_add h n)

theorem resolve_iff (d : Diagram) (id name : String) :
    d.nameTable.resolve id = some name ↔ ∃ n, LastWith Node.id d.nodes id n ∧ Naming.identifier n.label = name := by
  rw [resolve, classOf_ofDiagram]
  exact Table.get?_fill_iff d.nodes id name

theorem get?_classes_iff (d : Diagram) (name : String) (left : List Attribute) :
    Table.get? d.nameTable.classes name = some left ↔
      ∃ n, LastWith (fun n => Naming.identifier n.label) d.nodes name n ∧ distinctAttributes n.attributes = left := by
  rw [classes_ofDiagram]
  exact Table.get?_fill_iff d.nodes name left

theorem describes_ofDiagram {d : Diagram} (h : (d.nodes.map Node.id).Nodup) : d.nameTable.Describes d.nodes where
  classOf := fun id name => by simp only [resolve_iff, LastWith.iff_of_nodup h, and_assoc]
  names := d.names_eq_classOrder
  names_nodup := (closed_ofDiagram d).names_nodup
  attributes := fun name hname => by
    obtain ⟨left, hleft⟩ := Option.isSome_iff_exists.1 ((Table.isSome_get?_iff _ _).2 hname)
    obtain ⟨n, hn, rfl⟩ := (get?_classes_iff d name left).1 hleft
    exact ⟨n, hn, _, hleft, settled_distinctAttributes n.attributes⟩
  no_attributes := fun name hname => by
    rw [← Option.not_isSome_iff_eq_none, Table.isSome_get?_iff]
    exact hname
  associationClasses := mem_associationClasses d
  associationClasses_nodup := by
    rw [nameTable_eq]
    exact associationClasses_nodup_foldl_add d.nodes List.nodup_nil

end NameTable

/-- **A name table is told from its nodes.** The table of a diagram with distinct ids has the class of each id, the classes in
the order in which they come first, the settled attributes of the last node of each, and the classes of flagged nodes. Each
entry of the log is a warning; there is one for each label without a letter or digit, one for each node whose class came
before, and one for each attribute of a node whose name came before. -/
theorem names_described (d : Diagram) (h : (d.nodes.map Node.id).Nodup) :
    (NameTable.ofDiagram d).1.Describes d.nodes ∧ (∀ entry ∈ (NameTable.ofDiagram d).2, entry.level = .warning) ∧
      (NameTable.ofDiagram d).2.length = (d.nodes.countP fun n => Naming.className n.label = "") +
        (d.nodes.length - (d.nodes.map fun n => Naming.identifier n.label).eraseDups.length) +
        (d.nodes.map fun n => n.attributes.length - (n.attributes.map Attribute.name).eraseDups.length).sum := by
  refine ⟨NameTable.describes_ofDiagram h, fun entry hentry => NameTable.level_of_mem_log hentry, ?_⟩
  refine (NameTable.length_log d.nodes).trans ?_
  simp only [repeats, List.length_map]

/-- two users, the second an association class and the first with a name given twice, beside two labels without a letter -/
def namesakes : Diagram where
  nodes := [⟨"1", "user", [⟨"", "name", .string, "string", none⟩, ⟨"", "age", .int, "int", none⟩,
      ⟨"", "name", .int, "int", none⟩], false⟩,
    ⟨"2", "!!!", [], false⟩, ⟨"3", "User", [⟨"", "mail", .string, "text", none⟩], true⟩, ⟨"4", "", [], false⟩]
  edges := []
  metadata := .null

theorem namesakes_described : (namesakes.nodes.map Node.id).Nodup ∧ namesakes.nameTable.Describes namesakes.nodes ∧
    namesakes.nameTable.names = ["User", "!!!", ""] ∧ (NameTable.ofDiagram namesakes).2.length = 4 := by
  obtain ⟨hdescribes, -, hlength⟩ := names_described namesakes (by decide)
  exact ⟨by decide, hdescribes, by decide, hlength.trans (by decide)⟩

end Classwright
