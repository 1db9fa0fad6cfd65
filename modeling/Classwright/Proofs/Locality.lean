/-
How far a change of a diagram reaches.

What a plan says of a class comes from its attributes, the links at it, its parent and its children. One more edge changes
this for its own classes only, and for the class that loses a child by it. One more node that no edge leads to changes it for
no other class, and its own class comes out as if it were alone.

- `Artifact.ofEntity_eq_of_agreesOn`: diagrams that agree on a class give it the same files;
- `Diagram.withEdge`, `Diagram.Bereaves`: one more edge, and the class it takes a child from;
- `Diagram.agreesOn_withEdge`: the diagrams agree on every other class;
- `Table.Inserted`, `NameTable.Gains`: a table with one row more, and the names of a diagram with one node more;
- `Gains.edge_alike`: an edge that does not mention the node is read as before;
- `Diagram.Detached`: a node that no edge mentions, with a class of its own; `Detached.agreesOn`, `agreesOn_alone`: no other
  class notices it, nor its class the others;
- `generation_is_local`: the files that remain, for one more edge and for one more node.
-/
import Classwright.Proofs.Likeness
import Classwright.Proofs.Rearrangement

namespace Classwright

/-! ## Files of a class -/

namespace Artifact

/-- **Diagrams that agree on a class** give it the same files, when it has the same attributes. -/
theorem ofEntity_eq_of_agreesOn {policy policy' : Policy} {d d' : Diagram} {p p' : Plan} (h : Plan.build policy d = .ok p)
    (h' : Plan.build policy' d' = .ok p') {e e' : Entity} (he : e ∈ p.entities) (he' : e' ∈ p'.entities)
    (hname : e.name = e'.name) (hattributes : d.nameTable.attributesOf e.name = d'.nameTable.attributesOf e.name)
    (hagree : d.AgreesOn d' e.name) : ofEntity e = ofEntity e' := by
  rw [(NameTable.closed_ofDiagram d).attributesOf_eq (Plan.attributes_of_build h e he), hname,
    (NameTable.closed_ofDiagram d').attributesOf_eq (Plan.attributes_of_build h' e' he')] at hattributes
  refine ofEntity_eq hname ?_ (Plan.alike_of_build h h' he he' hname hagree)
  rw [hattributes]
  exact List.forall₂_same.2 fun a _ => .refl a

theorem className_of_mem_ofEntity {e : Entity} {a : Artifact} (h : a ∈ ofEntity e) : a.className = e.name := by
  unfold ofEntity at h
  simp only [List.mem_append, List.mem_cons, List.not_mem_nil, or_false] at h
  rcases h with (rfl | rfl | rfl | rfl) | h
  any_goals rfl
  split at h
  · obtain rfl := List.mem_singleton.1 h
    rfl
  · cases h

/-- the files of one class among others -/
def ofClass (as : List Artifact) (name : String) : List Artifact := as.filter fun a => a.className = name

theorem ofClass_ofPlan (p : Plan) (name : String) :
    ofClass (ofPlan p) name = (p.entities.filter fun e => e.name = name).flatMap ofEntity := by
  unfold ofClass ofPlan ofEntities
  rw [List.filter_flatMap, ← flatMap_filter_of_idle fun e _ hother => ?_]
  · refine List.flatMap_congr fun e he => List.filter_eq_self.2 fun a ha => ?_
    rw [className_of_mem_ofEntity ha]
    exact (List.mem_filter.1 he).2
  · refine List.filter_eq_nil_iff.2 fun a ha => ?_
    rw [className_of_mem_ofEntity ha]
    exact hother

end Artifact

/-! ## One more edge -/

namespace Diagram

variable {d : Diagram} {e : Edge} {name : String}

/-- one more edge behind all others -/
def withEdge (d : Diagram) (e : Edge) : Diagram := { d with edges := d.edges ++ [e] }

/-- the parent that an edge claims, if it is an inheritance edge -/
def claimOf (d : Diagram) (e : Edge) : Option (String × String) :=
  if Plan.isInheritance e then d.nameTable.parentClaim? e else none

/-- an inheritance edge gives the child of a class another parent -/
def Bereaves (d : Diagram) (e : Edge) (name : String) : Prop :=
  ∃ child parent, d.claimOf e = some (child, parent) ∧ d.lastParent? child = some name ∧ name ≠ parent

theorem links_withEdge (d : Diagram) (e : Edge) : (d.withEdge e).links =
    d.links ++ if Plan.isInheritance e then [] else d.nameTable.linksOf (Plan.fieldCall e) := by
  show ((d.edges ++ [e]).filter fun e => !Plan.isInheritance e).flatMap (fun e => d.nameTable.linksOf (Plan.fieldCall e)) = _
  rw [List.filter_append, List.flatMap_append]
  congr 1
  cases he : Plan.isInheritance e with
  | true => rw [List.filter_cons_of_neg (by simp [he])]; rfl
  | false => rw [List.filter_cons_of_pos (by simp [he])]; exact List.flatMap_singleton _ _

theorem parentClaims_withEdge (d : Diagram) (e : Edge) :
    (d.withEdge e).parentClaims = d.parentClaims ++ (d.claimOf e).toList := by
  show ((d.edges ++ [e]).filter Plan.isInheritance).filterMap d.nameTable.parentClaim? = _
  rw [List.filter_append, List.filterMap_append]
  congr 1
  unfold claimOf
  cases he : Plan.isInheritance e with
  | false => rw [List.filter_cons_of_neg (by simp [he])]; rfl
  | true =>
    rw [List.filter_cons_of_pos he, List.filter_nil, if_pos rfl]
    cases hclaim : d.nameTable.parentClaim? e <;> simp [hclaim]

/-- the late claim counts, for the class that makes it -/
theorem lastParent?_withEdge (d : Diagram) (e : Edge) (name : String) :
    (d.withEdge e).lastParent? name = (Table.get? (d.claimOf e).toList name).or (d.lastParent? name) := by
  unfold lastParent?
  rw [parentClaims_withEdge, List.reverse_append, Table.get?_append]
  cases d.claimOf e <;> rfl

theorem mem_classesOf_of_claimOf {child parent : String} (h : d.claimOf e = some (child, parent)) :
    child ∈ d.nameTable.classesOf e ∧ parent ∈ d.nameTable.classesOf e := by
  unfold claimOf NameTable.parentClaim? at h
  split_ifs at h
  split at h
  · next hends =>
    split_ifs at h
    cases h
    rw [NameTable.mem_classesOf hends, NameTable.mem_classesOf hends]
    exact ⟨Or.inr (Or.inl rfl), Or.inl rfl⟩
  · cases h

/-- **One more edge** changes nothing for a class that is not its own, unless it takes a child from it. -/
theorem agreesOn_withEdge (hclass : name ∉ d.nameTable.classesOf e) (hchild : ¬ d.Bereaves e name) :
    d.AgreesOn (d.withEdge e) name where
  ownIdType := rfl
  links := by
    rw [links_withEdge, List.filter_append, List.self_eq_append_right]
    refine List.filter_eq_nil_iff.2 fun l hl htouches => hclass ?_
    split_ifs at hl
    · cases hl
    · exact NameTable.mem_classesOf_of_touches hl htouches
  parent := by
    rw [lastParent?_withEdge]
    cases hclaim : d.claimOf e with
    | none => rfl
    | some c =>
      have hne : c.1 ≠ name := fun heq => hclass (heq ▸ (mem_classesOf_of_claimOf hclaim).1)
      simp [Table.get?, hne]
  children := by
    simp only [lastParent?_withEdge]
    cases hclaim : d.claimOf e with
    | none => rfl
    | some c =>
      obtain ⟨late, parent⟩ := c
      have hne : parent ≠ name := fun heq => hclass (heq ▸ (mem_classesOf_of_claimOf hclaim).2)
      -- the class that claims last is a child of this one neither before nor after
      refine exists_congr fun child => ?_
      by_cases hlate : late = child
      · subst hlate
        simp only [Option.toList_some, Table.get?, if_true, Option.some_or, Option.some.injEq, hne, iff_false]
        exact fun hlast => hchild ⟨late, parent, hclaim, hlast, Ne.symm hne⟩
      · simp [Table.get?, hlate]

end Diagram

/-! ## One more row -/

namespace Table

variable {κ α : Type}

/-- the second table has a row more, under a key that the first does not have -/
def Inserted (k : κ) (a : α) (t u : List (κ × α)) : Prop :=
  k ∉ keys t ∧ ∃ before after, t = before ++ after ∧ u = before ++ (k, a) :: after

variable [DecidableEq κ] {t u : List (κ × α)} {k other : κ} {a : α}

theorem inserted_set (h : k ∉ keys t) (a : α) : Inserted k a t (set t k a) :=
  ⟨h, t, [], (List.append_nil t).symm, set_of_not_mem h a⟩

/-- another row that is set is set in both -/
theorem Inserted.set (h : Inserted k a t u) (hne : other ≠ k) (b : α) : Inserted k a (set t other b) (set u other b) := by
  obtain ⟨hrow, before, after, rfl, rfl⟩ := h
  refine ⟨fun hmem => ?_, ?_⟩
  · rcases (mem_keys_set _ _ _ _).1 hmem with heq | hmem
    · exact hne heq.symm
    · exact hrow hmem
  · by_cases hbefore : other ∈ keys before
    · exact ⟨Table.set before other b, after, set_append_of_mem hbefore _ b, set_append_of_mem hbefore _ b⟩
    · refine ⟨before, Table.set after other b, set_append_of_not_mem hbefore _ b, ?_⟩
      rw [set_append_of_not_mem hbefore, Table.set, if_neg (Ne.symm hne)]

theorem Inserted.get?_of_ne (h : Inserted k a t u) (hne : other ≠ k) : get? u other = get? t other := by
  obtain ⟨-, before, after, rfl, rfl⟩ := h
  rw [get?_append, get?_append, get?, if_neg (Ne.symm hne)]

theorem Inserted.get?_self (h : Inserted k a t u) : get? u k = some a := by
  obtain ⟨hrow, before, after, rfl, rfl⟩ := h
  have hbefore : get? before k = none := by
    rw [← Option.not_isSome_iff_eq_none, isSome_get?_iff]
    exact fun hmem => hrow (by rw [keys, List.map_append]; exact List.mem_append_left _ hmem)
  rw [get?_append, hbefore, get?, if_pos rfl]
  rfl

end Table

/-! ## One more node -/

namespace NameTable

/-- the second table has a node more, with a class of its own -/
structure Gains (n : Node) (t u : NameTable) : Prop where
  classes : Table.Inserted (Naming.identifier n.label) (distinctAttributes n.attributes) t.classes u.classes
  resolve : ∀ {id}, id ≠ n.id → u.resolve id = t.resolve id

variable {n : Node} {t u : NameTable}

theorem gains_add (h : Naming.identifier n.label ∉ t.names) : Gains n t (t.add n) where
  classes := Table.inserted_set h _
  resolve := fun hid => Table.get?_set_of_ne _ _ (Ne.symm hid)

theorem Gains.add (h : Gains n t u) {m : Node} (hm : Naming.identifier m.label ≠ Naming.identifier n.label) :
    Gains n (t.add m) (u.add m) where
  classes := h.classes.set hm _
  resolve := by
    intro id hid
    unfold NameTable.resolve NameTable.add
    rw [Table.get?_set, Table.get?_set]
    split_ifs
    · rfl
    · exact h.resolve hid

theorem Gains.foldl_add (h : Gains n t u) {ms : List Node}
    (hms : ∀ m ∈ ms, Naming.identifier m.label ≠ Naming.identifier n.label) :
    Gains n (ms.foldl NameTable.add t) (ms.foldl NameTable.add u) := by
  induction ms generalizing t u with
  | nil => exact h
  | cons m rest ih =>
    exact ih (h.add (hms m List.mem_cons_self)) fun m' hm' => hms m' (List.mem_cons_of_mem m hm')

theorem Gains.named?_eq (h : Gains n t u) {id : String} (hid : id ≠ n.id) : u.named? id = t.named? id := by
  unfold named?
  rw [h.resolve hid]

theorem Gains.attributesOf_eq (h : Gains n t u) {name : String} (hname : name ≠ Naming.identifier n.label) :
    u.attributesOf name = t.attributesOf name := by
  unfold attributesOf
  rw [h.classes.get?_of_ne hname]

end NameTable

/-- the ids of the nodes that an edge mentions -/
def Edge.mentions (e : Edge) : List String := e.source :: e.target :: e.kind.associationClassId.toList

/-- an edge that does not mention the node is read as before -/
theorem NameTable.Gains.edge_alike {n : Node} {t u : NameTable} (h : Gains n t u) {e : Edge} (he : n.id ∉ e.mentions) :
    e.Alike t u e := by
  unfold Edge.mentions at he
  simp only [List.mem_cons, Option.mem_toList, not_or] at he
  obtain ⟨hsource, htarget, hassoc⟩ := he
  have hsame : t.assoc? e = u.assoc? e := by
    unfold assoc? given?
    cases hid : e.kind.associationClassId with
    | none => rfl
    | some id =>
      dsimp only
      split_ifs
      · rfl
      · refine (h.named?_eq fun heq => hassoc ?_).symm
        rw [hid, heq]
  exact ⟨rfl, (h.named?_eq (Ne.symm hsource)).symm, (h.named?_eq (Ne.symm htarget)).symm, hsame, fun _ => rfl, fun _ => rfl⟩

namespace Diagram

variable {d : Diagram} {n : Node} {name : String}

/-- one more node at some place -/
def withNode (d : Diagram) (i : Nat) (n : Node) : Diagram := { d with nodes := d.nodes.take i ++ n :: d.nodes.drop i }

/-- a diagram with one node and nothing else -/
def alone (n : Node) : Diagram := ⟨[n], [], .null⟩

/-- no edge mentions the node, and no other node has its class -/
structure Detached (d : Diagram) (n : Node) : Prop where
  unmentioned : ∀ e ∈ d.edges, n.id ∉ e.mentions
  unshared : ∀ m ∈ d.nodes, Naming.identifier m.label ≠ Naming.identifier n.label

theorem Detached.fresh (h : d.Detached n) : Naming.identifier n.label ∉ d.nameTable.names := by
  rw [NameTable.mem_names_ofDiagram]
  rintro ⟨m, hm, hname⟩
  exact h.unshared m hm hname

theorem Detached.gains (h : d.Detached n) (i : Nat) : NameTable.Gains n d.nameTable (d.withNode i n).nameTable := by
  have hsplit : d.nameTable = (d.nodes.drop i).foldl NameTable.add ((d.nodes.take i).foldl NameTable.add .empty) := by
    rw [NameTable.nameTable_eq, ← List.foldl_append, List.take_append_drop]
  rw [hsplit, NameTable.nameTable_eq, withNode, List.foldl_append, List.foldl_cons]
  refine (NameTable.gains_add fun hmem => ?_).foldl_add fun m hm => h.unshared m (List.mem_of_mem_drop hm)
  rcases (NameTable.mem_names_foldl_add _ _ _).1 hmem with hempty | ⟨m, hm, hname⟩
  · cases hempty
  · exact h.unshared m (List.mem_of_mem_take hm) hname

theorem Detached.edges_alike (h : d.Detached n) (i : Nat) :
    List.Forall₂ (Edge.Alike d.nameTable (d.withNode i n).nameTable) d.edges (d.withNode i n).edges :=
  List.forall₂_same.2 fun e he => (h.gains i).edge_alike (h.unmentioned e he)

theorem Detached.links_eq (h : d.Detached n) (i : Nat) : d.links = (d.withNode i n).links :=
  links_eq_of_edges (h.edges_alike i)

theorem Detached.lastParent?_eq (h : d.Detached n) (i : Nat) : d.lastParent? = (d.withNode i n).lastParent? := by
  funext child
  unfold lastParent?
  rw [parentClaims_eq_of_edges (h.edges_alike i)]

theorem ownIdType_congr {d d' : Diagram} (h : d.nameTable.attributesOf name = d'.nameTable.attributesOf name) :
    d.ownIdType name = d'.ownIdType name := by
  unfold ownIdType Session.ownIdType
  dsimp only [Session.start]
  rw [h]

/-- **One more node** that no edge leads to changes nothing for the other classes. -/
theorem Detached.agreesOn (h : d.Detached n) (i : Nat) (hname : name ≠ Naming.identifier n.label) :
    d.AgreesOn (d.withNode i n) name where
  ownIdType := ownIdType_congr ((h.gains i).attributesOf_eq hname).symm
  links := by rw [h.links_eq i]
  parent := by rw [h.lastParent?_eq i]
  children := by rw [h.lastParent?_eq i]

theorem Detached.attributesOf_alone (h : d.Detached n) (i : Nat) :
    (d.withNode i n).nameTable.attributesOf (Naming.identifier n.label) =
      (alone n).nameTable.attributesOf (Naming.identifier n.label) := by
  have halone : NameTable.Gains n .empty (alone n).nameTable := NameTable.gains_add List.not_mem_nil
  unfold NameTable.attributesOf
  exact congrArg (Option.getD · []) ((h.gains i).classes.get?_self.trans halone.classes.get?_self.symm)

/-- its own class comes out as if it were alone -/
theorem Detached.agreesOn_alone (h : d.Detached n) (i : Nat) :
    (d.withNode i n).AgreesOn (alone n) (Naming.identifier n.label) where
  ownIdType := ownIdType_congr (h.attributesOf_alone i)
  links := by
    rw [← h.links_eq i]
    refine List.filter_eq_nil_iff.2 fun l hl htouches => h.fresh ?_
    obtain ⟨⟨id, hsource⟩, id', htarget⟩ := named_of_mem_links hl
    rcases Link.touches_iff.1 htouches with heq | heq
    · exact heq ▸ (NameTable.closed_ofDiagram d).named_mem hsource
    · exact heq ▸ (NameTable.closed_ofDiagram d).named_mem htarget
  parent := by
    rw [← h.lastParent?_eq i]
    exact Option.eq_none_iff_forall_ne_some.2 fun parent hparent => h.fresh (named_of_lastParent? hparent).1
  children := by
    rw [← h.lastParent?_eq i]
    refine iff_of_false ?_ ?_
    · rintro ⟨child, hchild⟩
      exact h.fresh (named_of_lastParent? hchild).2
    · rintro ⟨child, hchild⟩
      cases hchild

end Diagram

/-- the class of a node that no edge leads to -/
def Node.bareEntity (n : Node) : Entity where
  name := Naming.identifier n.label
  attributes := NameTable.distinctAttributes n.attributes

theorem Plan.build_alone (policy : Policy) (n : Node) : ∃ flag, Plan.build policy (Diagram.alone n) =
    .ok ⟨[{ n.bareEntity with isAssociationClass := flag }], 0⟩ :=
  ⟨_, rfl⟩

/-! ## Files of a diagram -/

theorem Diagram.render_withEdge (d : Diagram) (e : Edge) :
    ∃ as as', render .lastWins d = .ok as ∧ render .lastWins (d.withEdge e) = .ok as' ∧ ∀ name,
      name ∉ d.nameTable.classesOf e → ¬ d.Bereaves e name → Artifact.ofClass as name = Artifact.ofClass as' name := by
  obtain ⟨p, hp⟩ := Plan.exists_build d
  obtain ⟨q, hq⟩ := Plan.exists_build (d.withEdge e)
  refine ⟨_, _, render_of_build hp, render_of_build hq, fun name hclass hchild => ?_⟩
  have hnames : (p.entities.filter fun e => e.name = name).map Entity.name =
      (q.entities.filter fun e => e.name = name).map Entity.name := by
    have hsame : p.entities.map Entity.name = q.entities.map Entity.name := by
      rw [Plan.names_of_build hp, Plan.names_of_build hq]
      rfl
    have hfilter := congrArg (List.filter fun c => decide (c = name)) hsame
    rwa [List.filter_map, List.filter_map] at hfilter
  rw [Artifact.ofClass_ofPlan, Artifact.ofClass_ofPlan, List.flatMap_def, List.flatMap_def,
    map_eq_of_keys hnames fun x hx y hy hxy => ?_]
  obtain ⟨hmem, hname⟩ := List.mem_filter.1 hx
  have hagree := agreesOn_withEdge hclass hchild
  rw [← of_decide_eq_true hname] at hagree
  exact Artifact.ofEntity_eq_of_agreesOn hp hq hmem (List.mem_filter.1 hy).1 hxy rfl hagree

namespace Diagram.Detached

variable {d : Diagram} {n : Node} {i : Nat} {p q : Plan} {x y : Entity}

theorem ofEntity_eq (h : d.Detached n) (hp : Plan.build .lastWins d = .ok p)
    (hq : Plan.build .lastWins (d.withNode i n) = .ok q) (hx : x ∈ p.entities) (hy : y ∈ q.entities) (hxy : x.name = y.name) :
    Artifact.ofEntity x = Artifact.ofEntity y := by
  have hother : x.name ≠ Naming.identifier n.label := fun heq =>
    h.fresh (heq ▸ Plan.names_of_build hp ▸ List.mem_map_of_mem hx)
  exact Artifact.ofEntity_eq_of_agreesOn hp hq hx hy hxy ((h.gains i).attributesOf_eq hother).symm (h.agreesOn i hother)

theorem ofEntity_new (h : d.Detached n) (hq : Plan.build .lastWins (d.withNode i n) = .ok q) (hy : y ∈ q.entities)
    (hname : y.name = Naming.identifier n.label) : Artifact.ofEntity y = Artifact.ofEntity n.bareEntity := by
  obtain ⟨flag, halone⟩ := Plan.build_alone .lastWins n
  calc Artifact.ofEntity y
      = Artifact.ofEntity { n.bareEntity with isAssociationClass := flag } := by
        refine Artifact.ofEntity_eq_of_agreesOn hq halone hy List.mem_cons_self hname ?_ ?_
        · rw [hname, h.attributesOf_alone i]
        · rw [hname]
          exact h.agreesOn_alone i
    _ = Artifact.ofEntity n.bareEntity :=
        Artifact.ofEntity_eq rfl (List.forall₂_same.2 fun a _ => .refl a) ⟨rfl, rfl, rfl⟩

/-- the classes before the new one and those behind it have their files as before -/
theorem render_withNode (h : d.Detached n) (i : Nat) :
    ∃ before after, render .lastWins d = .ok (before ++ after) ∧
      render .lastWins (d.withNode i n) = .ok (before ++ Artifact.ofEntity n.bareEntity ++ after) := by
  obtain ⟨p, hp⟩ := Plan.exists_build d
  obtain ⟨q, hq⟩ := Plan.exists_build (d.withNode i n)
  obtain ⟨-, before, after, hclasses, hclasses'⟩ := (h.gains i).classes
  have hnames : p.entities.map Entity.name = before.map Prod.fst ++ after.map Prod.fst := by
    rw [Plan.names_of_build hp, NameTable.names, hclasses, List.map_append]
  have hnames' : q.entities.map Entity.name =
      before.map Prod.fst ++ Naming.identifier n.label :: after.map Prod.fst := by
    rw [Plan.names_of_build hq, NameTable.names, hclasses', List.map_append, List.map_cons]
  obtain ⟨es, fs, hp', hes, hfs⟩ := List.map_eq_append_iff.1 hnames
  obtain ⟨es', gs, hq', hes', hgs⟩ := List.map_eq_append_iff.1 hnames'
  obtain ⟨e, fs', rfl, hname, hfs'⟩ := List.map_eq_cons_iff.1 hgs
  have hfirst : es.map Artifact.ofEntity = es'.map Artifact.ofEntity :=
    map_eq_of_keys (hes.trans hes'.symm) fun x hx y hy =>
      h.ofEntity_eq hp hq (hp' ▸ List.mem_append_left _ hx) (hq' ▸ List.mem_append_left _ hy)
  have hlast : fs.map Artifact.ofEntity = fs'.map Artifact.ofEntity :=
    map_eq_of_keys (hfs.trans hfs'.symm) fun x hx y hy =>
      h.ofEntity_eq hp hq (hp' ▸ List.mem_append_right _ hx) (hq' ▸ List.mem_append_right _ (List.mem_cons_of_mem _ hy))
  have hnew : Artifact.ofEntity e = Artifact.ofEntity n.bareEntity :=
    h.ofEntity_new hq (hq' ▸ List.mem_append_right _ List.mem_cons_self) hname
  refine ⟨es.flatMap Artifact.ofEntity, fs.flatMap Artifact.ofEntity, ?_, ?_⟩
  · rw [render_of_build hp, Artifact.ofPlan, hp', Artifact.ofEntities, List.flatMap_append]
  · rw [render_of_build hq, Artifact.ofPlan, hq', Artifact.ofEntities, List.flatMap_append, List.flatMap_cons, hnew,
      List.append_assoc, List.flatMap_def, List.flatMap_def, List.flatMap_def, List.flatMap_def, hfirst, hlast]

end Diagram.Detached

/-- **How far a change reaches.** When the last claim wins, one more edge behind all others leaves the files of a class as they
are, unless the class is its own or loses a child by it. One more node, wherever it is put, adds the four files of its class
if no edge mentions it and no other node has its class; all other files stay as they are, and in their order. -/
theorem generation_is_local (d : Diagram) :
    (∀ e, ∃ as as', render .lastWins d = .ok as ∧ render .lastWins (d.withEdge e) = .ok as' ∧ ∀ name,
      name ∉ d.nameTable.classesOf e → ¬ d.Bereaves e name → Artifact.ofClass as name = Artifact.ofClass as' name) ∧
    ∀ i n, d.Detached n → ∃ before after, render .lastWins d = .ok (before ++ after) ∧
      render .lastWins (d.withNode i n) = .ok (before ++ Artifact.ofEntity n.bareEntity ++ after) ∧
      (Artifact.ofEntity n.bareEntity).length = 4 ∧
      ∀ a ∈ Artifact.ofEntity n.bareEntity, a.className = Naming.identifier n.label := by
  refine ⟨d.render_withEdge, fun i n hdetached => ?_⟩
  obtain ⟨before, after, hold, hnew⟩ := hdetached.render_withNode i
  exact ⟨before, after, hold, hnew, rfl, fun a => Artifact.className_of_mem_ofEntity⟩

/-- the truck takes the car from the vehicle; fleet, driver and shift have no part in it, and a wheel stands by itself -/
theorem fleet_local :
    (∃ as as', render .lastWins fleet = .ok as ∧
      render .lastWins (fleet.withEdge ⟨"", "t", "c", none, none, none, .inheritance⟩) = .ok as' ∧
      ∀ name ∈ ["Fleet", "Driver", "Shift"], Artifact.ofClass as name = Artifact.ofClass as' name) ∧
    ∃ before after, render .lastWins fleet = .ok (before ++ after) ∧
      render .lastWins (fleet.withNode 2 ⟨"w", "Wheel", [], false⟩) =
        .ok (before ++ Artifact.ofEntity { name := "Wheel" } ++ after) := by
  obtain ⟨hedge, hnode⟩ := generation_is_local fleet
  obtain ⟨as, as', has, has', hkept⟩ := hedge ⟨"", "t", "c", none, none, none, .inheritance⟩
  obtain ⟨before, after, hold, hnew, -⟩ := hnode 2 ⟨"w", "Wheel", [], false⟩ ⟨by decide, by decide⟩
  refine ⟨⟨as, as', has, has', fun name hname => hkept name ?_ ?_⟩, before, after, hold, hnew⟩
  · revert name
    decide
  · rintro ⟨child, parent, hclaim, hlast, -⟩
    cases hclaim
    cases hlast
    revert hname
    decide

end Classwright
