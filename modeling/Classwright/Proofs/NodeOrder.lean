/-
Nodes in another order.

A class takes its attributes from the last of its nodes, its mark as an association class from any of them, and its place from
the first. The nodes of a diagram with distinct ids can thus be put in any order in which those of one class keep theirs: the
names mean the same, every edge is read as before, and each class gets its files. Only the order of the classes follows the
nodes.

- `Table.fill`: a table from rows; `keys_fill`: its keys, `get?_fill_filter`: a look-up depends on the rows of its key only;
- `NameTable.classes_ofDiagram`, `classOf_ofDiagram`, `mem_associationClasses`: the names of a diagram as such tables;
- `Diagram.Reseated`: the same diagram with its nodes in another order; `resolve_eq`, `attributesOf_eq`: what stays the same;
- `Diagram.classOrder`: the classes in the order of their first nodes;
- `render_reseated`: the files stand class by class in the new order, and nothing else changes.
-/
import Classwright.Proofs.Locality

namespace Classwright

/-! ## Tables from rows -/

namespace Table

variable {κ α : Type} [DecidableEq κ]

/-- rows set one after the other -/
def fill (t rows : List (κ × α)) : List (κ × α) := rows.foldl (fun t r => set t r.1 r.2) t

theorem fill_append (t rows more : List (κ × α)) : fill t (rows ++ more) = fill (fill t rows) more := List.foldl_append

/-- each key stands where it came first -/
theorem keys_fill (rows : List (κ × α)) : keys (fill [] rows) = (rows.map Prod.fst).eraseDups := by
  induction rows using List.reverseRecOn with
  | nil => rfl
  | append_singleton rows r ih =>
    have hset : fill [] (rows ++ [r]) = set (fill [] rows) r.1 r.2 := fill_append [] rows [r]
    rw [hset, keys_set, ih, List.map_append, List.eraseDups_append]
    simp only [List.mem_eraseDups, List.map_cons, List.map_nil, List.removeAll]
    by_cases hmem : r.1 ∈ rows.map Prod.fst
    · rw [if_pos hmem, List.filter_cons_of_neg (by simpa using hmem)]
      exact (List.append_nil _).symm
    · rw [if_neg hmem, List.filter_cons_of_pos (by simpa using hmem)]
      rfl

/-- a look-up depends on the rows of its key only -/
theorem get?_fill_filter {t u : List (κ × α)} {k : κ} (h : get? t k = get? u k) (rows : List (κ × α)) :
    get? (fill t rows) k = get? (fill u (rows.filter fun r => r.1 = k)) k := by
  induction rows generalizing t u with
  | nil => exact h
  | cons r rest ih =>
    by_cases hk : r.1 = k
    · rw [List.filter_cons_of_pos (by simpa using hk)]
      exact ih (by rw [get?_set, get?_set, if_pos hk, if_pos hk])
    · rw [List.filter_cons_of_neg (by simpa using hk)]
      exact ih (by rw [get?_set_of_ne t r.2 hk, h])

/-- rows that are the same for a key give the same look-up -/
theorem get?_fill_congr {rows rows' : List (κ × α)} {k : κ}
    (h : rows.filter (fun r => r.1 = k) = rows'.filter fun r => r.1 = k) : get? (fill [] rows) k = get? (fill [] rows') k := by
  rw [get?_fill_filter rfl rows, h, ← get?_fill_filter rfl rows']

end Table

/-- elements with a key each, gathered key by key -/
theorem flatMap_filter_key {α κ : Type} [DecidableEq κ] {key : α → κ} {xs : List α} (h : (xs.map key).Nodup) :
    (xs.map key).flatMap (fun k => xs.filter fun x => key x = k) = xs := by
  induction xs with
  | nil => rfl
  | cons x rest ih =>
    obtain ⟨hx, hrest⟩ := List.nodup_cons.1 h
    have hself : (x :: rest).filter (fun y => key y = key x) = [x] := by
      rw [List.filter_cons_of_pos (by simp), List.filter_eq_nil_iff.2 fun y hy hkey => ?_]
      exact hx (of_decide_eq_true hkey ▸ List.mem_map_of_mem hy)
    have hothers : (rest.map key).flatMap (fun k => (x :: rest).filter fun y => key y = k) =
        (rest.map key).flatMap fun k => rest.filter fun y => key y = k := by
      refine List.flatMap_congr fun k hk => List.filter_cons_of_neg ?_
      simp only [decide_eq_true_eq]
      rintro rfl
      exact hx hk
    rw [List.map_cons, List.flatMap_cons, hself, hothers, ih hrest]
    rfl

/-! ## The names of a diagram -/

namespace NameTable

/-- the attributes that a node gives to its class -/
def classRow (n : Node) : String × List Attribute := (Naming.identifier n.label, distinctAttributes n.attributes)

def idRow (n : Node) : String × String := (n.id, Naming.identifier n.label)

theorem classes_foldl_add (nodes : List Node) (t : NameTable) :
    (nodes.foldl add t).classes = Table.fill t.classes (nodes.map classRow) := by
  induction nodes generalizing t with
  | nil => rfl
  | cons n rest ih => exact ih (t.add n)

theorem classOf_foldl_add (nodes : List Node) (t : NameTable) :
    (nodes.foldl add t).classOf = Table.fill t.classOf (nodes.map idRow) := by
  induction nodes generalizing t with
  | nil => rfl
  | cons n rest ih => exact ih (t.add n)

theorem classes_ofDiagram (d : Diagram) : d.nameTable.classes = Table.fill [] (d.nodes.map classRow) := by
  rw [nameTable_eq, classes_foldl_add]
  rfl

theorem classOf_ofDiagram (d : Diagram) : d.nameTable.classOf = Table.fill [] (d.nodes.map idRow) := by
  rw [nameTable_eq, classOf_foldl_add]
  rfl

theorem mem_associationClasses_add {t : NameTable} {n : Node} {name : String} :
    name ∈ (t.add n).associationClasses ↔
      name ∈ t.associationClasses ∨ (n.isAssociationClass = true ∧ Naming.identifier n.label = name) := by
  unfold add
  dsimp only
  cases n.isAssociationClass with
  | false => simp
  | true =>
    by_cases hmem : Naming.identifier n.label ∈ t.associationClasses
    · simp only [Bool.true_and, List.contains_iff_mem.2 hmem, Bool.not_true, Bool.false_eq_true, if_false, true_and]
      exact ⟨Or.inl, fun h => h.elim id fun heq => heq ▸ hmem⟩
    · have hnew : t.associationClasses.contains (Naming.identifier n.label) = false := by simpa using hmem
      simp only [Bool.true_and, hnew, Bool.not_false, if_true, List.mem_append, List.mem_singleton, true_and]
      rw [eq_comm (a := name)]

/-- a class is an association class as soon as one of its nodes is -/
theorem mem_associationClasses (d : Diagram) (name : String) :
    name ∈ d.nameTable.associationClasses ↔
      ∃ n ∈ d.nodes, n.isAssociationClass = true ∧ Naming.identifier n.label = name := by
  have hfold : ∀ (nodes : List Node) (t : NameTable), name ∈ (nodes.foldl add t).associationClasses ↔
      name ∈ t.associationClasses ∨ ∃ n ∈ nodes, n.isAssociationClass = true ∧ Naming.identifier n.label = name := by
    intro nodes
    induction nodes with
    | nil => simp
    | cons n rest ih =>
      intro t
      rw [List.foldl_cons, ih, mem_associationClasses_add]
      simp only [List.mem_cons, exists_eq_or_imp, or_assoc]
  rw [nameTable_eq, hfold]
  simp [empty]

end NameTable

/-! ## Nodes in another order -/

/-- of one class -/
def Node.SameClass (n m : Node) : Prop := Naming.identifier n.label = Naming.identifier m.label

instance (n m : Node) : Decidable (n.SameClass m) := by unfold Node.SameClass; infer_instance

namespace Diagram

/-- the classes in the order of their first nodes -/
def classOrder (d : Diagram) : List String := (d.nodes.map fun n => Naming.identifier n.label).eraseDups

theorem names_eq_classOrder (d : Diagram) : d.nameTable.names = d.classOrder := by
  unfold classOrder NameTable.names
  rw [NameTable.classes_ofDiagram]
  refine (Table.keys_fill _).trans ?_
  rw [List.map_map]
  rfl

/-- the same diagram with its nodes, which have distinct ids, in an order in which those of one class keep theirs -/
structure Reseated (d d' : Diagram) : Prop where
  ids : (d.nodes.map Node.id).Nodup
  nodes : Rearranged Node.SameClass d.nodes d'.nodes
  edges : d'.edges = d.edges

namespace Reseated

variable {d d' : Diagram}

/-- rows of nodes are the same for a key when all nodes with this key are of one class -/
theorem filter_rows_eq (h : d.Reseated d') {κ α : Type} [DecidableEq κ] {f : Node → κ × α} {k : κ}
    (hrow : ∀ n ∈ d.nodes, ∀ m ∈ d.nodes, (f n).1 = k → (f m).1 = k → n.SameClass m) :
    (d.nodes.map f).filter (fun r => r.1 = k) = (d'.nodes.map f).filter fun r => r.1 = k := by
  rw [List.filter_map, List.filter_map]
  refine congrArg (List.map f) (h.nodes.filter_eq fun n hn m hm hk hk' => ?_)
  exact hrow n hn m hm (of_decide_eq_true hk) (of_decide_eq_true hk')

theorem attributesOf_eq (h : d.Reseated d') (name : String) :
    d.nameTable.attributesOf name = d'.nameTable.attributesOf name := by
  have hrows := h.filter_rows_eq (f := NameTable.classRow) (k := name) fun n _ m _ hn hm => hn.trans hm.symm
  unfold NameTable.attributesOf
  rw [NameTable.classes_ofDiagram, NameTable.classes_ofDiagram, Table.get?_fill_congr hrows]

/-- an id leads to the same class, as no other node has it -/
theorem resolve_eq (h : d.Reseated d') (id : String) : d.nameTable.resolve id = d'.nameTable.resolve id := by
  unfold NameTable.resolve
  rw [NameTable.classOf_ofDiagram, NameTable.classOf_ofDiagram]
  refine Table.get?_fill_congr (h.filter_rows_eq fun n hn m hm hid hid' => ?_)
  obtain rfl : n = m := List.inj_on_of_nodup_map h.ids hn hm (hid.trans hid'.symm)
  rfl

theorem named?_eq (h : d.Reseated d') : d.nameTable.named? = d'.nameTable.named? := by
  funext id
  unfold NameTable.named?
  rw [h.resolve_eq]

theorem associationClasses_iff (h : d.Reseated d') (name : String) :
    name ∈ d.nameTable.associationClasses ↔ name ∈ d'.nameTable.associationClasses := by
  rw [NameTable.mem_associationClasses, NameTable.mem_associationClasses]
  simp only [h.nodes.perm.mem_iff]

theorem names_perm (h : d.Reseated d') : d.nameTable.names.Perm d'.nameTable.names := by
  rw [List.perm_ext_iff_of_nodup (NameTable.closed_ofDiagram d).names_nodup (NameTable.closed_ofDiagram d').names_nodup]
  intro name
  rw [NameTable.mem_names_ofDiagram, NameTable.mem_names_ofDiagram]
  simp only [h.nodes.perm.mem_iff]

theorem edges_alike (h : d.Reseated d') :
    List.Forall₂ (Edge.Alike d.nameTable d'.nameTable) d.edges d'.edges := by
  rw [h.edges]
  refine List.forall₂_same.2 fun e _ => ?_
  have hassoc : d.nameTable.assoc? e = d'.nameTable.assoc? e := by
    unfold NameTable.assoc?
    rw [h.named?_eq]
  exact ⟨rfl, congrFun h.named?_eq _, congrFun h.named?_eq _, hassoc, fun _ => rfl, fun _ => rfl⟩

theorem agreesOn (h : d.Reseated d') (name : String) : d.AgreesOn d' name := by
  refine .of_forall (fun name => ownIdType_congr (h.attributesOf_eq name)) (fun name => ?_) (fun name => ?_) name
  · rw [links_eq_of_edges h.edges_alike]
  · unfold lastParent?
    rw [parentClaims_eq_of_edges h.edges_alike]

theorem countP_drops (h : d.Reseated d') :
    (d.edges.countP fun e => d.nameTable.Drops e) = d'.edges.countP fun e => d'.nameTable.Drops e := by
  have hdrops : ∀ e, d.nameTable.Drops e ↔ d'.nameTable.Drops e := by
    intro e
    unfold NameTable.Drops
    rw [h.named?_eq]
  rw [h.edges]
  simp only [hdrops]

end Reseated

end Diagram

/-! ## Plans -/

namespace Plan

variable {policy policy' : Policy} {d d' : Diagram} {p p' : Plan}

/-- a class of both plans is the same in both -/
theorem entity_eq_of_reseated (h : d.Reseated d') (hp : build policy d = .ok p) (hp' : build policy' d' = .ok p')
    {e e' : Entity} (he : e ∈ p.entities) (he' : e' ∈ p'.entities) (hname : e.name = e'.name) : e = e' := by
  obtain ⟨hfields, hidentity, hinheritance⟩ := alike_of_build hp hp' he he' hname (h.agreesOn e.name)
  have hattributes : e.attributes = e'.attributes := by
    have hclass := (NameTable.closed_ofDiagram d).attributesOf_eq (attributes_of_build hp e he)
    have hclass' := (NameTable.closed_ofDiagram d').attributesOf_eq (attributes_of_build hp' e' he')
    rw [← hclass, ← hclass', hname, h.attributesOf_eq]
  have hassociation : e.isAssociationClass = e'.isAssociationClass := by
    rw [isAssociationClass_of_build hp e he, isAssociationClass_of_build hp' e' he', hname, Bool.eq_iff_iff,
      List.contains_iff_mem, List.contains_iff_mem, h.associationClasses_iff]
  exact Entity.mk.injEq .. |>.mpr ⟨hname, hattributes, hfields, hinheritance, hidentity, hassociation⟩

theorem nodup_names_of_build (hp : build policy d = .ok p) : (p.entities.map Entity.name).Nodup := by
  rw [names_of_build hp]
  exact (NameTable.closed_ofDiagram d).names_nodup

/-- the classes of one name are the same in both plans -/
theorem filter_entities_eq (h : d.Reseated d') (hp : build policy d = .ok p) (hp' : build policy' d' = .ok p') (name : String) :
    p.entities.filter (fun e => e.name = name) = p'.entities.filter fun e => e.name = name := by
  have hnames : (p.entities.filter fun e => e.name = name).map Entity.name =
      (p'.entities.filter fun e => e.name = name).map Entity.name := by
    have hperm : (p.entities.map Entity.name).Perm (p'.entities.map Entity.name) := by
      rw [names_of_build hp, names_of_build hp']
      exact h.names_perm
    have hcount : (p.entities.map Entity.name).filter (fun n => n = name) =
        (p'.entities.map Entity.name).filter fun n => n = name := by
      rw [List.filter_eq, List.filter_eq, hperm.count_eq]
    rwa [List.filter_map, List.filter_map] at hcount
  have hsame := map_eq_of_keys (f := id) hnames fun e he e' he' =>
    entity_eq_of_reseated h hp hp' (List.mem_filter.1 he).1 (List.mem_filter.1 he').1
  rwa [List.map_id, List.map_id] at hsame

/-- the classes of a plan, one after the other by their names -/
theorem entities_eq_flatMap (hp : build policy d = .ok p) :
    p.entities = d.classOrder.flatMap fun name => p.entities.filter fun e => e.name = name := by
  have hgather := flatMap_filter_key (nodup_names_of_build hp)
  rw [names_of_build hp, d.names_eq_classOrder] at hgather
  exact hgather.symm

theorem entities_perm (h : d.Reseated d') (hp : build policy d = .ok p) (hp' : build policy' d' = .ok p') :
    p.entities.Perm p'.entities := by
  have horder : d.classOrder.Perm d'.classOrder := by
    rw [← d.names_eq_classOrder, ← d'.names_eq_classOrder]
    exact h.names_perm
  rw [entities_eq_flatMap hp, entities_eq_flatMap hp']
  simp only [filter_entities_eq h hp hp']
  exact horder.flatMap_right _

/-- the files of a plan, class by class -/
theorem ofPlan_eq_flatMap (hp : build policy d = .ok p) :
    Artifact.ofPlan p = d.classOrder.flatMap (Artifact.ofClass (Artifact.ofPlan p)) := by
  have hclass : Artifact.ofClass (Artifact.ofPlan p) =
      fun name => (p.entities.filter fun e => e.name = name).flatMap Artifact.ofEntity :=
    funext (Artifact.ofClass_ofPlan p)
  rw [hclass, ← List.flatMap_assoc, ← entities_eq_flatMap hp]
  rfl

end Plan

/-- **Only the order of the files follows the order of the nodes.** When the last claim wins, a diagram has the same classes
and the same files with its nodes in any order in which those of one class keep theirs. The files stand class by class, now in
the order of the first nodes; as many edges are dropped, and as many keys are composite. -/
theorem render_reseated {d d' : Diagram} (h : d.Reseated d') :
    ∃ p p', Plan.build .lastWins d = .ok p ∧ Plan.build .lastWins d' = .ok p' ∧
      p'.dropped = p.dropped ∧ p'.identityCount = p.identityCount ∧ p'.entities.Perm p.entities ∧
      ∃ as as', render .lastWins d = .ok as ∧ render .lastWins d' = .ok as' ∧
        (∀ name, Artifact.ofClass as' name = Artifact.ofClass as name) ∧ as'.Perm as ∧
        as' = d'.classOrder.flatMap (Artifact.ofClass as) := by
  obtain ⟨p, hp⟩ := Plan.exists_build d
  obtain ⟨p', hp'⟩ := Plan.exists_build d'
  have hperm : p'.entities.Perm p.entities := (Plan.entities_perm h hp hp').symm
  have hclass : ∀ name, Artifact.ofClass (Artifact.ofPlan p') name = Artifact.ofClass (Artifact.ofPlan p) name := by
    intro name
    rw [Artifact.ofClass_ofPlan, Artifact.ofClass_ofPlan, Plan.filter_entities_eq h hp hp']
  refine ⟨p, p', hp, hp', ?_, ?_, hperm, _, _, render_of_build hp, render_of_build hp', hclass, ?_, ?_⟩
  · rw [Plan.dropped_of_build hp, Plan.dropped_of_build hp', h.countP_drops]
  · exact (hperm.filter _).length_eq
  · exact hperm.flatMap_right _
  · calc Artifact.ofPlan p' = d'.classOrder.flatMap (Artifact.ofClass (Artifact.ofPlan p')) := Plan.ofPlan_eq_flatMap hp'
      _ = d'.classOrder.flatMap (Artifact.ofClass (Artifact.ofPlan p)) := List.flatMap_congr fun name _ => hclass name

/-- an order in two boxes, the second of which is marked and has the attributes that count, and its items -/
def basket : Diagram where
  nodes := [⟨"1", "Order", [], false⟩, ⟨"2", "Item", [], false⟩, ⟨"3", "Order!", [⟨"", "total", .int, "int", none⟩], true⟩]
  edges := [⟨"", "1", "2", none, none, none, .composition⟩, ⟨"", "3", "3", none, none, some "*", .aggregation⟩]
  metadata := .null

/-- the items in front -/
def itemsFirst : Diagram := { basket with
  nodes := [⟨"2", "Item", [], false⟩, ⟨"1", "Order", [], false⟩, ⟨"3", "Order!", [⟨"", "total", .int, "int", none⟩], true⟩] }

/-- where each box goes -/
def basketOrder : Fin 3 ≃ Fin 3 where
  toFun := ![1, 0, 2]
  invFun := ![1, 0, 2]
  left_inv := fun i => by revert i; decide
  right_inv := fun i => by revert i; decide

theorem basket_reseated : basket.Reseated itemsFirst ∧ basket.classOrder = ["Order", "Item"] ∧
    itemsFirst.classOrder = ["Item", "Order"] ∧
    ∃ as as', render .lastWins basket = .ok as ∧ render .lastWins itemsFirst = .ok as' ∧ as'.Perm as ∧
      as' = ["Item", "Order"].flatMap (Artifact.ofClass as) := by
  have hnodes : Rearranged Node.SameClass basket.nodes itemsFirst.nodes :=
    ⟨basketOrder, by decide, by decide⟩
  have h : basket.Reseated itemsFirst := ⟨by decide, hnodes, rfl⟩
  have horder : itemsFirst.classOrder = ["Item", "Order"] := by decide
  obtain ⟨-, -, -, -, -, -, -, as, as', has, has', -, hperm, hgroups⟩ := render_reseated h
  exact ⟨h, by decide, horder, as, as', has, has', hperm, horder ▸ hgroups⟩

end Classwright
