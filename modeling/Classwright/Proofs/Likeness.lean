/-
What of a diagram reaches its files.

The files of a diagram show the labels of its nodes, the names and types of their attributes, and for every edge how it is
read and which classes it is between. Nothing else of the diagram shows: not its ids, not the labels of its edges, not the
marks on association classes. Of a written type only its meaning counts, and whether there is one.

- `Table.Alike`: tables with the same keys and with values that are alike; `Alike.set`, `Alike.get?`: changed and read alike;
- `Attribute.Alike`, `Node.Alike`, `Edge.Alike`, `Diagram.Alike`: diagrams that look the same in what shows;
- `Alike.classes`, `Alike.links`, `Alike.parentClaims`: their classes, links and claims are the same;
- `Artifact.ofEntity_eq`: the files of a class, from what shows of it;
- `Diagram.Disguise`: other ids, labels, marks, and loose edges of another kind; `Disguise.alike`: none of it shows;
- `render_alike`: diagrams that are alike have the same files, or are refused with the same conflict.
-/
import Mathlib.Data.List.Forall2
import Classwright.Java.Artifact
import Classwright.Proofs.Drops

namespace Classwright

/-! ## Tables -/

namespace Table

variable {κ α : Type} {R : α → α → Prop} {t u : List (κ × α)}

/-- the same keys in the same order, with values that are alike -/
def Alike (R : α → α → Prop) (t u : List (κ × α)) : Prop := List.Forall₂ (fun p q => p.1 = q.1 ∧ R p.2 q.2) t u

theorem Alike.keys (h : Alike R t u) : keys t = keys u := by
  induction h with
  | nil => rfl
  | cons hpq _ ih => rw [keys_cons, keys_cons, hpq.1, ih]

variable [DecidableEq κ]

theorem Alike.set (h : Alike R t u) (k : κ) {a b : α} (hab : R a b) : Alike R (set t k a) (set u k b) := by
  induction h with
  | nil => exact .cons ⟨rfl, hab⟩ .nil
  | @cons p q _ _ hpq hrest ih =>
    obtain ⟨k', a'⟩ := p
    obtain ⟨_, b'⟩ := q
    obtain ⟨rfl, hvalues⟩ := hpq
    unfold Table.set
    split_ifs
    · exact .cons ⟨rfl, hab⟩ hrest
    · exact .cons ⟨rfl, hvalues⟩ ih

theorem Alike.get? (h : Alike R t u) (k : κ) : Option.Rel R (get? t k) (get? u k) := by
  induction h with
  | nil => exact .none
  | @cons p q _ _ hpq _ ih =>
    obtain ⟨k', a⟩ := p
    obtain ⟨_, b⟩ := q
    obtain ⟨rfl, hvalues⟩ := hpq
    unfold Table.get?
    split_ifs
    · exact .some hvalues
    · exact ih

end Table

/-! ## Nodes and their attributes -/

/-- two attributes that give the same field: of the written type only its meaning counts, and whether there is one -/
structure Attribute.Alike (a b : Attribute) : Prop where
  name : a.name = b.name
  type : a.type = b.type
  written : a.rawType = "" ↔ b.rawType = ""

theorem Attribute.Alike.refl (a : Attribute) : a.Alike a := ⟨rfl, rfl, Iff.rfl⟩

/-- two nodes that give the same class -/
structure Node.Alike (n m : Node) : Prop where
  label : n.label = m.label
  attributes : List.Forall₂ Attribute.Alike n.attributes m.attributes

namespace NameTable

variable {t t' : NameTable}

/-- the same classes in the same order, with attributes that are alike -/
def AlikeClasses (t t' : NameTable) : Prop := Table.Alike (List.Forall₂ Attribute.Alike) t.classes t'.classes

theorem attributeTable_alike {as bs : List Attribute} (h : List.Forall₂ Attribute.Alike as bs) :
    Table.Alike Attribute.Alike (attributeTable as) (attributeTable bs) := by
  have hfold : ∀ {t u : List (String × Attribute)}, Table.Alike Attribute.Alike t u →
      Table.Alike Attribute.Alike (as.foldl (fun t a => Table.set t a.name a) t)
        (bs.foldl (fun t a => Table.set t a.name a) u) := by
    induction h with
    | nil => exact id
    | @cons a b _ _ hab _ ih =>
      intro t u htu
      refine ih ?_
      show Table.Alike _ (Table.set t a.name a) (Table.set u b.name b)
      rw [← hab.name]
      exact htu.set a.name hab
  exact hfold .nil

theorem distinctAttributes_alike {as bs : List Attribute} (h : List.Forall₂ Attribute.Alike as bs) :
    List.Forall₂ Attribute.Alike (distinctAttributes as) (distinctAttributes bs) := by
  unfold distinctAttributes
  rw [List.forall₂_map_left_iff, List.forall₂_map_right_iff]
  exact (attributeTable_alike h).imp fun _ _ hpq => hpq.2

theorem AlikeClasses.add (h : t.AlikeClasses t') {n m : Node} (hnm : n.Alike m) :
    (t.add n).AlikeClasses (t'.add m) := by
  show Table.Alike _ (Table.set t.classes _ _) (Table.set t'.classes _ _)
  rw [← hnm.label]
  exact h.set _ (distinctAttributes_alike hnm.attributes)

theorem AlikeClasses.foldl_add {ns ms : List Node} (hnodes : List.Forall₂ Node.Alike ns ms) (h : t.AlikeClasses t') :
    (ns.foldl NameTable.add t).AlikeClasses (ms.foldl NameTable.add t') := by
  induction hnodes generalizing t t' with
  | nil => exact h
  | cons hnm _ ih => exact ih (h.add hnm)

theorem AlikeClasses.names (h : t.AlikeClasses t') : t.names = t'.names := h.keys

theorem AlikeClasses.attributesOf (h : t.AlikeClasses t') (name : String) :
    List.Forall₂ Attribute.Alike (t.attributesOf name) (t'.attributesOf name) := by
  have hget := h.get? name
  unfold NameTable.attributesOf
  generalize Table.get? t.classes name = found at hget ⊢
  generalize Table.get? t'.classes name = found' at hget ⊢
  cases hget with
  | none => exact .nil
  | some hab => exact hab

end NameTable

/-- a search by name, among attributes with a written type, finds attributes that are alike -/
theorem find?_alike {as bs : List Attribute} (h : List.Forall₂ Attribute.Alike as bs) {p : Attribute → Bool}
    (hp : ∀ a b, a.Alike b → p a = p b) : Option.Rel Attribute.Alike (as.find? p) (bs.find? p) := by
  induction h with
  | nil => exact .none
  | @cons a b _ _ hab _ ih =>
    rw [List.find?_cons, List.find?_cons, ← hp a b hab]
    cases p a with
    | true => exact .some hab
    | false => exact ih

/-! ## Edges -/

/-- how an edge is read -/
inductive EdgeGroup where
  | inheritance
  | composition
  | other
  deriving DecidableEq, Repr

def EdgeKind.group : EdgeKind → EdgeGroup
  | .inheritance => .inheritance
  | .composition => .composition
  | _ => .other

theorem EdgeKind.group_eq_inheritance {k : EdgeKind} : k.group = .inheritance ↔ k = .inheritance := by
  cases k <;> simp [group]

theorem EdgeKind.group_eq_composition {k : EdgeKind} : k.group = .composition ↔ k = .composition := by
  cases k <;> simp [group]

/-- two edges that are read in the same way, between the same classes; where no association class is known, their ends are
single or many alike -/
structure Edge.Alike (t t' : NameTable) (e e' : Edge) : Prop where
  group : e.kind.group = e'.kind.group
  source : t.named? e.source = t'.named? e'.source
  target : t.named? e.target = t'.named? e'.target
  assoc : t.assoc? e = t'.assoc? e'
  sourceMany : t.assoc? e = none → Naming.isMany e.sourceCardinality = Naming.isMany e'.sourceCardinality
  targetMany : t.assoc? e = none → Naming.isMany e.targetCardinality = Naming.isMany e'.targetCardinality

/-- two diagrams that look the same, node by node and edge by edge -/
structure Diagram.Alike (d d' : Diagram) : Prop where
  nodes : List.Forall₂ Node.Alike d.nodes d'.nodes
  edges : List.Forall₂ (Edge.Alike d.nameTable d'.nameTable) d.edges d'.edges

namespace Edge.Alike

variable {t t' : NameTable} {e e' : Edge}

theorem ends?_eq (h : e.Alike t t' e') : t.ends? e = t'.ends? e' := by
  unfold NameTable.ends?
  rw [h.source, h.target]

theorem isInheritance_eq (h : e.Alike t t' e') : Plan.isInheritance e = Plan.isInheritance e' := by
  rw [Bool.eq_iff_iff, Plan.isInheritance_iff, Plan.isInheritance_iff, ← EdgeKind.group_eq_inheritance,
    ← EdgeKind.group_eq_inheritance, h.group]

theorem isComposition_iff (h : e.Alike t t' e') : e.kind = .composition ↔ e'.kind = .composition := by
  rw [← EdgeKind.group_eq_composition, ← EdgeKind.group_eq_composition, h.group]

theorem plainLinks_eq (h : e.Alike t t' e') (source target : String) :
    t.plainLinks e source target = t'.plainLinks e' source target := by
  unfold NameTable.plainLinks
  rw [← h.assoc]
  cases hassoc : t.assoc? e with
  | some j => rfl
  | none => rw [h.sourceMany hassoc, h.targetMany hassoc]

/-- the edges tie the same classes -/
theorem linksOf_eq (h : e.Alike t t' e') : t.linksOf (Plan.fieldCall e) = t'.linksOf (Plan.fieldCall e') := by
  have hinherit : e.kind = .inheritance ↔ e'.kind = .inheritance := by
    rw [← Plan.isInheritance_iff, ← Plan.isInheritance_iff, h.isInheritance_eq]
  unfold Plan.fieldCall
  simp only [h.isComposition_iff]
  split_ifs with hcompose
  · simp only [NameTable.linksOf, h.ends?_eq]
  · simp only [NameTable.linksOf, hinherit, h.isComposition_iff, h.ends?_eq, h.plainLinks_eq]

/-- the edges claim the same parent -/
theorem parentClaim?_eq (h : e.Alike t t' e') : t.parentClaim? e = t'.parentClaim? e' := by
  unfold NameTable.parentClaim?
  rw [h.ends?_eq]

end Edge.Alike

/-- what lists of elements that are alike come to is the same -/
theorem flatMap_filter_alike {α β : Type} {R : α → α → Prop} {xs ys : List α} (h : List.Forall₂ R xs ys)
    {p : α → Bool} {f g : α → List β} (hp : ∀ x y, R x y → p x = p y) (hfg : ∀ x y, R x y → f x = g y) :
    (xs.filter p).flatMap f = (ys.filter p).flatMap g := by
  induction h with
  | nil => rfl
  | @cons x y _ _ hxy _ ih =>
    rw [List.filter_cons, List.filter_cons, hp x y hxy]
    split_ifs
    · rw [List.flatMap_cons, List.flatMap_cons, hfg x y hxy, ih]
    · exact ih

namespace Diagram

variable {d d' : Diagram}

theorem links_eq_of_edges (h : List.Forall₂ (Edge.Alike d.nameTable d'.nameTable) d.edges d'.edges) :
    d.links = d'.links :=
  flatMap_filter_alike h (fun _ _ he => by rw [he.isInheritance_eq]) fun _ _ he => he.linksOf_eq

theorem parentClaims_eq_of_edges (h : List.Forall₂ (Edge.Alike d.nameTable d'.nameTable) d.edges d'.edges) :
    d.parentClaims = d'.parentClaims := by
  unfold parentClaims
  rw [List.filterMap_eq_flatMap_toList, List.filterMap_eq_flatMap_toList]
  exact flatMap_filter_alike h (fun _ _ he => he.isInheritance_eq) fun _ _ he => by rw [he.parentClaim?_eq]

end Diagram

namespace Diagram.Alike

variable {d d' : Diagram}

theorem classes (h : d.Alike d') : d.nameTable.AlikeClasses d'.nameTable := by
  rw [NameTable.nameTable_eq, NameTable.nameTable_eq]
  exact NameTable.AlikeClasses.foldl_add h.nodes .nil

theorem ownIdType_eq (h : d.Alike d') (name : String) : d.ownIdType name = d'.ownIdType name := by
  have hfind := find?_alike (h.classes.attributesOf name) (p := fun a => a.name == "id" && !a.rawType.isEmpty)
    fun a b hab => by
      have hwritten : a.rawType.isEmpty = b.rawType.isEmpty := by
        rw [Bool.eq_iff_iff, String.isEmpty_iff, String.isEmpty_iff]
        exact hab.written
      rw [hab.name, hwritten]
  unfold ownIdType Session.ownIdType
  dsimp only [Session.start]
  generalize (d.nameTable.attributesOf name).find? _ = found at hfind ⊢
  generalize (d'.nameTable.attributesOf name).find? _ = found' at hfind ⊢
  cases hfind with
  | none => rfl
  | some hab => exact congrArg Naming.javaType hab.type

theorem links_eq (h : d.Alike d') : d.links = d'.links := links_eq_of_edges h.edges

theorem parentClaims_eq (h : d.Alike d') : d.parentClaims = d'.parentClaims := parentClaims_eq_of_edges h.edges

theorem claims_eq (h : d.Alike d') (k : ClaimKind) : d.claims k = d'.claims k := by
  cases k with
  | inheritance => exact h.parentClaims_eq
  | composition =>
    show d.wholeClaims = d'.wholeClaims
    rw [wholeClaims_eq, wholeClaims_eq, h.links_eq]

theorem agreesOn (h : d.Alike d') (name : String) : d.AgreesOn d' name := by
  refine .of_forall h.ownIdType_eq (fun _ => ?_) (fun _ => ?_) name
  · rw [h.links_eq]
  · unfold lastParent?
    rw [h.parentClaims_eq]

end Diagram.Alike

/-! ## Files -/

namespace Java

variable {e e' : Entity}

theorem attributeMembers_eq (h : List.Forall₂ Attribute.Alike e.attributes e'.attributes) :
    attributeMembers e = attributeMembers e' := by
  unfold attributeMembers
  generalize e.attributes = as at h ⊢
  generalize e'.attributes = bs at h ⊢
  induction h with
  | nil => rfl
  | @cons a b _ _ hab _ ih =>
    rw [List.filter_cons, List.filter_cons, hab.name]
    split_ifs
    · rw [List.map_cons, List.map_cons, hab.name, hab.type, ih]
    · exact ih

theorem hasOwnId_eq (h : List.Forall₂ Attribute.Alike e.attributes e'.attributes) : hasOwnId e = hasOwnId e' := by
  unfold hasOwnId
  generalize e.attributes = as at h ⊢
  generalize e'.attributes = bs at h ⊢
  induction h with
  | nil => rfl
  | cons hab _ ih => rw [List.any_cons, List.any_cons, hab.name, ih]

/-- the source of a class shows its attributes by name and type only, and not whether it is an association class -/
theorem renderEntity_eq (hname : e.name = e'.name) (hattributes : List.Forall₂ Attribute.Alike e.attributes e'.attributes)
    (hedges : e.AlikeByEdges e') : renderEntity e = renderEntity e' := by
  have hown := hasOwnId_eq hattributes
  have hmembers := attributeMembers_eq hattributes
  obtain ⟨name, as, fields, inheritance, identity, mark⟩ := e
  obtain ⟨_, bs, _, _, _, mark'⟩ := e'
  obtain ⟨rfl, rfl, rfl⟩ := hedges
  obtain rfl := hname
  unfold renderEntity entitySource entityImports keyMember keyImports
  rw [hown, hmembers]
  rfl

/-- a controller shows the name of its class, and whether it is a child -/
theorem renderController_eq (hname : e.name = e'.name) (hinheritance : e.inheritance = e'.inheritance) :
    renderController e = renderController e' := by
  have hchild : e.isChild = e'.isChild := by
    unfold Entity.isChild
    rw [hinheritance]
  unfold renderController Entity.lowerName
  rw [hname, hchild]

end Java

/-- **The files of a class** are the same for classes that are alike. -/
theorem Artifact.ofEntity_eq {e e' : Entity} (hname : e.name = e'.name)
    (hattributes : List.Forall₂ Attribute.Alike e.attributes e'.attributes) (hedges : e.AlikeByEdges e') :
    ofEntity e = ofEntity e' := by
  unfold ofEntity
  rw [Java.renderEntity_eq hname hattributes hedges, Java.renderController_eq hname hedges.inheritance, hname,
    hedges.identity]

namespace Diagram.Alike

variable {d d' : Diagram} {policy policy' : Policy}

theorem attributes_of_build (h : d.Alike d') {p p' : Plan} (hp : Plan.build policy d = .ok p)
    (hp' : Plan.build policy' d' = .ok p') {e e' : Entity} (he : e ∈ p.entities) (he' : e' ∈ p'.entities)
    (hname : e.name = e'.name) : List.Forall₂ Attribute.Alike e.attributes e'.attributes := by
  have hclass := (NameTable.closed_ofDiagram d).attributesOf_eq (Plan.attributes_of_build hp e he)
  have hclass' := (NameTable.closed_ofDiagram d').attributesOf_eq (Plan.attributes_of_build hp' e' he')
  have halike := h.classes.attributesOf e.name
  rw [hclass] at halike
  rwa [hname, hclass'] at halike

/-- plans of diagrams that are alike give the same files -/
theorem ofPlan_eq (h : d.Alike d') {p p' : Plan} (hp : Plan.build policy d = .ok p)
    (hp' : Plan.build policy' d' = .ok p') : Artifact.ofPlan p = Artifact.ofPlan p' := by
  have hnames : p.entities.map Entity.name = p'.entities.map Entity.name := by
    rw [Plan.names_of_build hp, Plan.names_of_build hp', h.classes.names]
  have hfiles : p.entities.map Artifact.ofEntity = p'.entities.map Artifact.ofEntity := by
    refine map_eq_of_keys hnames fun e he e' he' hname => ?_
    exact Artifact.ofEntity_eq hname (h.attributes_of_build hp hp' he he' hname)
      (Plan.alike_of_build hp hp' he he' hname (h.agreesOn e.name))
  unfold Artifact.ofPlan Artifact.ofEntities
  rw [List.flatMap_def, List.flatMap_def, hfiles]

theorem render_eq (h : d.Alike d') (policy : Policy) : render policy d = render policy d' := by
  have herror : ∀ x, Plan.build policy d = .error x ↔ Plan.build policy d' = .error x :=
    Plan.build_eq_error_iff policy h.claims_eq
  cases hp : Plan.build policy d with
  | error x =>
    unfold render
    rw [hp, (herror x).1 hp]
  | ok p =>
    cases hp' : Plan.build policy d' with
    | error x => rw [(herror x).2 hp'] at hp; cases hp
    | ok p' => rw [render_of_build hp, render_of_build hp', h.ofPlan_eq hp hp']

end Diagram.Alike

/-! ## Disguises -/

namespace EdgeKind

/-- the kind with another id for its association class -/
def rename (f : String → String) : EdgeKind → EdgeKind
  | .association c => .association (c.map f)
  | k => k

/-- edges of these kinds join their ends by the cardinalities alone -/
def isLoose : EdgeKind → Bool
  | .association none | .aggregation | .realization | .dependency => true
  | _ => false

theorem group_rename (f : String → String) (k : EdgeKind) : (k.rename f).group = k.group := by cases k <;> rfl

theorem associationClassId_rename (f : String → String) (k : EdgeKind) :
    (k.rename f).associationClassId = k.associationClassId.map f := by cases k <;> rfl

theorem of_isLoose {k : EdgeKind} (h : k.isLoose = true) : k.group = .other ∧ k.associationClassId = none := by
  cases k with
  | association c =>
    cases c with
    | none => exact ⟨rfl, rfl⟩
    | some id => cases h
  | composition => cases h
  | inheritance => cases h
  | _ => exact ⟨rfl, rfl⟩

end EdgeKind

/-- the same node under another id, marked as an association class or not -/
structure Node.Disguise (f : String → String) (n m : Node) : Prop where
  id : m.id = f n.id
  label : m.label = n.label
  attributes : m.attributes = n.attributes

/-- the same edge with other ids and another label; a loose edge may become a loose edge of another kind -/
structure Edge.Disguise (f : String → String) (e e' : Edge) : Prop where
  source : e'.source = f e.source
  target : e'.target = f e.target
  sourceCardinality : e'.sourceCardinality = e.sourceCardinality
  targetCardinality : e'.targetCardinality = e.targetCardinality
  kind : e'.kind = e.kind.rename f ∨ e.kind.isLoose = true ∧ e'.kind.isLoose = true

namespace Diagram

/-- the ids of the nodes, and those that the edges mention -/
def ids (d : Diagram) : List String :=
  d.nodes.map Node.id ++ d.edges.flatMap fun e => e.source :: e.target :: e.kind.associationClassId.toList

/-- the same diagram under other ids, different ones for different ids, and with all else that does not show changed -/
structure Disguise (f : String → String) (d d' : Diagram) : Prop where
  nodes : List.Forall₂ (Node.Disguise f) d.nodes d'.nodes
  edges : List.Forall₂ (Edge.Disguise f) d.edges d'.edges
  inj : ∀ a ∈ d.ids, ∀ b ∈ d.ids, f a = f b → a = b
  empty_iff : ∀ a ∈ d.ids, f a = "" ↔ a = ""

namespace Disguise

variable {f : String → String} {d d' : Diagram}

/-- under its new id a node has its class -/
theorem resolve_foldl_add {ids : List String} (hinj : ∀ a ∈ ids, ∀ b ∈ ids, f a = f b → a = b) {ns ms : List Node}
    (hnodes : List.Forall₂ (Node.Disguise f) ns ms) (hids : ∀ n ∈ ns, n.id ∈ ids) {t t' : NameTable}
    (h : ∀ id ∈ ids, t'.resolve (f id) = t.resolve id) :
    ∀ id ∈ ids, (ms.foldl NameTable.add t').resolve (f id) = (ns.foldl NameTable.add t).resolve id := by
  induction hnodes generalizing t t' with
  | nil => exact h
  | @cons n m _ _ hnm _ ih =>
    refine ih (fun k hk => hids k (List.mem_cons_of_mem n hk)) fun id hid => ?_
    have hsame : f n.id = f id ↔ n.id = id :=
      ⟨hinj n.id (hids n List.mem_cons_self) id hid, congrArg f⟩
    have hrest : Table.get? t'.classOf (f id) = Table.get? t.classOf id := h id hid
    simp only [NameTable.resolve, NameTable.add, Table.get?_set, hnm.id, hnm.label, hsame, hrest]

theorem named?_eq (h : d.Disguise f d') {id : String} (hid : id ∈ d.ids) :
    d'.nameTable.named? (f id) = d.nameTable.named? id := by
  have hresolve : d'.nameTable.resolve (f id) = d.nameTable.resolve id := by
    rw [NameTable.nameTable_eq, NameTable.nameTable_eq]
    refine resolve_foldl_add h.inj h.nodes (fun n hn => ?_) (fun _ _ => rfl) id hid
    exact List.mem_append_left _ (List.mem_map_of_mem hn)
  unfold NameTable.named?
  rw [hresolve]

theorem mem_ids {e : Edge} (he : e ∈ d.edges) {id : String}
    (hid : id ∈ e.source :: e.target :: e.kind.associationClassId.toList) : id ∈ d.ids :=
  List.mem_append_right _ (List.mem_flatMap.2 ⟨e, he, hid⟩)

theorem assoc?_eq (h : d.Disguise f d') {e e' : Edge} (he : e ∈ d.edges) (hee : e.Disguise f e') :
    d'.nameTable.assoc? e' = d.nameTable.assoc? e := by
  unfold NameTable.assoc?
  rcases hee.kind with hkind | ⟨hloose, hloose'⟩
  · rw [hkind, EdgeKind.associationClassId_rename]
    cases hc : e.kind.associationClassId with
    | none => rfl
    | some id =>
      have hid : id ∈ d.ids := mem_ids he (by rw [hc]; simp)
      have hempty : (f id).isEmpty = id.isEmpty := by
        rw [Bool.eq_iff_iff, String.isEmpty_iff, String.isEmpty_iff]
        exact h.empty_iff id hid
      rw [Option.map_some, given?, given?, hempty]
      split_ifs
      · rfl
      · exact h.named?_eq hid
  · rw [(EdgeKind.of_isLoose hloose).2, (EdgeKind.of_isLoose hloose').2]
    rfl

theorem edge_alike (h : d.Disguise f d') {e e' : Edge} (he : e ∈ d.edges) (hee : e.Disguise f e') :
    e.Alike d.nameTable d'.nameTable e' where
  group := by
    rcases hee.kind with hkind | ⟨hloose, hloose'⟩
    · rw [hkind, EdgeKind.group_rename]
    · rw [(EdgeKind.of_isLoose hloose).1, (EdgeKind.of_isLoose hloose').1]
  source := by rw [hee.source, h.named?_eq (mem_ids he (by simp))]
  target := by rw [hee.target, h.named?_eq (mem_ids he (by simp))]
  assoc := (h.assoc?_eq he hee).symm
  sourceMany := fun _ => by rw [hee.sourceCardinality]
  targetMany := fun _ => by rw [hee.targetCardinality]

/-- **A disguise does not show.** -/
theorem alike (h : d.Disguise f d') : d.Alike d' where
  nodes := h.nodes.imp fun n m hnm => by
    refine ⟨hnm.label.symm, ?_⟩
    rw [hnm.attributes, List.forall₂_same]
    exact fun a _ => Attribute.Alike.refl a
  edges := by
    have hmem : List.Forall₂ (fun e e' => e ∈ d.edges ∧ e.Disguise f e') d.edges d'.edges :=
      (List.forall₂_and_left ..).2 ⟨fun _ he => he, h.edges⟩
    exact hmem.imp fun e e' hee => h.edge_alike hee.1 hee.2

end Disguise

end Diagram

/-- **What does not show does not count.** Diagrams that are alike, or of which one is the other in disguise, have the same
files when the last claim wins; under the strict policy the same conflict refuses both, or they have the same files. -/
theorem render_alike {d d' : Diagram} (h : d.Alike d' ∨ ∃ f, d.Disguise f d') :
    (∃ as, render .lastWins d = .ok as ∧ render .lastWins d' = .ok as) ∧
      ((∃ x, render .fail d = .error x ∧ render .fail d' = .error x) ∨
        ∃ as, render .fail d = .ok as ∧ render .fail d' = .ok as) := by
  have halike : d.Alike d' := by
    rcases h with h | ⟨f, h⟩
    · exact h
    · exact h.alike
  obtain ⟨p, hp⟩ := Plan.exists_build d
  refine ⟨⟨_, render_of_build hp, (halike.render_eq .lastWins).symm.trans (render_of_build hp)⟩, ?_⟩
  have hfail := halike.render_eq .fail
  cases hr : render .fail d with
  | error x => exact Or.inl ⟨x, rfl, hfail.symm.trans hr⟩
  | ok as => exact Or.inr ⟨as, rfl, hfail.symm.trans hr⟩

/-- an order with its items, and a part that is no class -/
def ordered : Diagram where
  nodes := [⟨"o", "Order", [⟨"1", "id", .int, "int", none⟩], false⟩, ⟨"i", "Item", [⟨"2", "title", .string, "", none⟩], false⟩]
  edges := [⟨"e", "o", "i", none, some "1", some "0..*", .aggregation⟩, ⟨"", "o", "p", none, none, none, .composition⟩]
  metadata := .null

/-- the same, with other ids, types written otherwise, and other numbers at the ends -/
def reordered : Diagram where
  nodes := [⟨"a", "Order", [⟨"7", "id", .int, " Integer", some "-"⟩], true⟩,
    ⟨"b", "Item", [⟨"8", "title", .string, "", some "+"⟩], false⟩]
  edges := [⟨"", "a", "b", some "holds", none, some "1..*", .dependency⟩, ⟨"", "a", "", none, some "1", none, .composition⟩]
  metadata := .null

/-- the same with an `n` before each id, and an association in place of the aggregation -/
def masked : Diagram where
  nodes := [⟨"no", "Order", [⟨"1", "id", .int, "int", none⟩], false⟩,
    ⟨"ni", "Item", [⟨"2", "title", .string, "", none⟩], true⟩]
  edges := [⟨"", "no", "ni", none, some "1", some "0..*", .association none⟩,
    ⟨"", "no", "np", some "owns", none, none, .composition⟩]
  metadata := .bool true

theorem ordered_alike : ordered.Alike reordered ∧ ordered.Disguise ("n" ++ ·) masked ∧
    (∃ as, render .lastWins ordered = .ok as ∧ render .lastWins reordered = .ok as) ∧
      ∃ as, render .lastWins ordered = .ok as ∧ render .lastWins masked = .ok as := by
  have halike : ordered.Alike reordered := by
    refine ⟨.cons ⟨rfl, .cons ⟨rfl, rfl, by decide⟩ .nil⟩ (.cons ⟨rfl, .cons ⟨rfl, rfl, by decide⟩ .nil⟩ .nil), ?_⟩
    refine .cons ⟨rfl, by decide, by decide, by decide, fun _ => by decide, fun _ => by decide⟩ (.cons ?_ .nil)
    exact ⟨rfl, by decide, by decide, by decide, fun _ => by decide, fun _ => by decide⟩
  have hdisguise : ordered.Disguise ("n" ++ ·) masked := by
    refine ⟨.cons ⟨by decide, rfl, rfl⟩ (.cons ⟨by decide, rfl, rfl⟩ .nil), .cons ?_ (.cons ?_ .nil), by decide, by decide⟩
    · exact ⟨by decide, by decide, rfl, rfl, Or.inr ⟨rfl, rfl⟩⟩
    · exact ⟨by decide, by decide, rfl, rfl, Or.inl rfl⟩
  exact ⟨halike, hdisguise, (render_alike (Or.inl halike)).1, (render_alike (Or.inr ⟨_, hdisguise⟩)).1⟩

end Classwright
