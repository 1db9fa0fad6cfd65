/-
The keys along a chain of classes.

A class that extends another takes its key from there, and any other class declares one of its own. A part has the key of
its whole, and declares it wherever the part stands in a hierarchy, so a chain has one key as long as no child is a part.
The chain must also end: in a circle every class relies on the next.

- `Java.Member.isKey`: a field that declares a key; `keys_entitySource`: an entity class has its key field and no other;
- `Plan.Extends`, `Plan.chain`: a class and its superclasses, read off the sources;
- `Follows.superclass_eq`: a class extends its last parent; `Follows.exists_holder`: without a circle some class of a chain
  extends no other; `Follows.holder_unique`: there is one such class at most;
- `Plan.OneKeyPerChain`: children declare no key, all others one, and every chain has one;
- `keys_of_chains`: what the classes of a diagram declare, and when every chain has one key.
-/
import Mathlib.Logic.Relation
import Classwright.Proofs.Ancestry
import Classwright.Proofs.Files

namespace Classwright

open Relation (ReflTransGen)

/-! ## The keys of a class -/

namespace Java

/-- the annotations that make a field the key of its class -/
def keyMarkings : List String := ["Id", "EmbeddedId"]

/-- a field that declares a key -/
def Member.isKey (m : Member) : Bool := m.markings.any fun a => keyMarkings.contains a.name

/-- the fields of a class that declare a key -/
def ClassSource.keys (c : ClassSource) : List Member := c.members.filter Member.isKey

variable {e : Entity}

theorem keyMember_of_identity {i : CompositeIdentity} (h : e.identity = some i) :
    keyMember e = some ⟨[⟨"EmbeddedId", []⟩], i.idClassName, "id"⟩ := by
  unfold keyMember
  rw [h]

theorem keyMember_of_child (h : e.identity = none) (hchild : e.isChild = true) : keyMember e = none := by
  unfold keyMember
  rw [h]
  exact if_pos hchild

/-- a class that is neither a part nor a child has a number as its key -/
theorem keyMember_of_top (h : e.identity = none) (hchild : e.isChild = false) :
    ∃ m, keyMember e = some m ∧ m.type = "Long" ∧ m.isKey = true := by
  unfold keyMember
  rw [h, hchild]
  dsimp only
  rw [if_neg Bool.false_ne_true]
  split_ifs
  · exact ⟨_, rfl, rfl, rfl⟩
  · exact ⟨_, rfl, rfl, rfl⟩

theorem isKey_keyMember {m : Member} (h : keyMember e = some m) : m.isKey = true := by
  cases hid : e.identity with
  | some i =>
    rw [keyMember_of_identity hid] at h
    cases h
    rfl
  | none =>
    cases hchild : e.isChild with
    | true =>
      rw [keyMember_of_child hid hchild] at h
      cases h
    | false =>
      obtain ⟨m', hm', -, hkey⟩ := keyMember_of_top hid hchild
      rw [hm'] at h
      cases h
      exact hkey

theorem isKey_attributeMembers {m : Member} (h : m ∈ attributeMembers e) : m.isKey = false := by
  obtain ⟨a, -, rfl⟩ := List.mem_map.1 h
  rfl

/-- the annotations of a relationship field -/
theorem name_of_mem_relationMarkings {f : RelationField} {a : Marking} (h : a ∈ relationMarkings f) :
    a.name = f.kind.marking ∨ a.name ∈ ["MapsId", "JoinColumn", "JoinTable", f.referenceMarking] := by
  unfold relationMarkings at h
  simp only [List.mem_append, List.mem_singleton] at h
  rcases h with (((rfl | h) | h) | h) | h
  · exact Or.inl rfl
  all_goals
    refine Or.inr ?_
    split at h
    · obtain rfl := List.mem_singleton.1 h
      simp [Marking.only, Marking.keyed, joinTableMarking]
    · cases h

theorem isKey_relationMember (f : RelationField) : (relationMember f).isKey = false := by
  unfold Member.isKey
  rw [List.any_eq_false]
  intro a ha hkey
  have hmarking : f.kind.marking ∉ keyMarkings := by cases f.kind <;> decide
  have hothers : ∀ name ∈ ["MapsId", "JoinColumn", "JoinTable", f.referenceMarking], name ∉ keyMarkings := by
    unfold RelationField.referenceMarking
    cases f.owning <;> decide
  have hname : a.name ∈ keyMarkings := List.contains_iff_mem.1 hkey
  rcases name_of_mem_relationMarkings ha with h | h
  · exact hmarking (h ▸ hname)
  · exact hothers _ h hname

/-- **The key field is the only field that declares a key.** -/
theorem keys_entitySource (e : Entity) : (entitySource e).keys = (keyMember e).toList := by
  have hattributes : (attributeMembers e).filter Member.isKey = [] :=
    List.filter_eq_nil_iff.2 fun m hm => by rw [isKey_attributeMembers hm]; exact Bool.false_ne_true
  have hfields : (e.fields.map relationMember).filter Member.isKey = [] := by
    refine List.filter_eq_nil_iff.2 fun m hm => ?_
    obtain ⟨f, -, rfl⟩ := List.mem_map.1 hm
    rw [isKey_relationMember]
    exact Bool.false_ne_true
  unfold ClassSource.keys entitySource
  dsimp only
  rw [List.filter_append, List.filter_append, hattributes, hfields, List.append_nil, List.append_nil]
  cases hkey : keyMember e with
  | none => rfl
  | some m => exact List.filter_cons_of_pos (isKey_keyMember hkey)

end Java

/-- the fields of its class that declare a key -/
def Entity.keys (e : Entity) : List Java.Member := (Java.entitySource e).keys

/-- a class declares no key exactly when it is a child and no part -/
theorem Entity.keys_eq_nil_iff (e : Entity) : e.keys = [] ↔ e.isChild = true ∧ e.identity = none := by
  unfold keys
  rw [Java.keys_entitySource]
  cases hid : e.identity with
  | some i => simp [Java.keyMember_of_identity hid]
  | none =>
    cases hchild : e.isChild with
    | true => simp [Java.keyMember_of_child hid hchild]
    | false =>
      obtain ⟨m, hm, -⟩ := Java.keyMember_of_top hid hchild
      simp [hm]

/-- a class declares one key or none -/
theorem Entity.length_keys (e : Entity) : e.keys.length = 1 ↔ e.keys ≠ [] := by
  unfold keys
  rw [Java.keys_entitySource]
  cases Java.keyMember e <;> simp

/-! ## Chains -/

namespace Diagram

/-- the classes that some parent claims -/
def children (d : Diagram) : List String := d.parentClaims.map Prod.fst

/-- the classes that some whole claims -/
def parts (d : Diagram) : List String := d.wholeClaims.map Prod.fst

theorem mem_children_iff {d : Diagram} {name : String} :
    name ∈ d.children ↔ ∃ parent, d.lastParent? name = some parent := by
  rw [lastParent?, ← Option.isSome_iff_exists, Table.isSome_get?_iff, Table.keys, List.map_reverse, List.mem_reverse]
  rfl

end Diagram

namespace Plan

variable {p : Plan} {d : Diagram} {e a b : Entity}

/-- a class is written as a subclass of another -/
def Extends (p : Plan) (e a : Entity) : Prop := a ∈ p.entities ∧ (Java.entitySource e).superclass = some a.name

/-- a class and its superclasses -/
def chain (p : Plan) (e : Entity) : Set Entity := {a | ReflTransGen p.Extends e a}

/-- the classes of a chain declare one key between them -/
def OneKey (p : Plan) (e : Entity) : Prop :=
  ∃ a ∈ p.chain e, a.keys.length = 1 ∧ ∀ b ∈ p.chain e, b ≠ a → b.keys = []

structure OneKeyPerChain (p : Plan) : Prop where
  child : ∀ e ∈ p.entities, (Java.entitySource e).superclass ≠ none → e.keys = []
  top : ∀ e ∈ p.entities, (Java.entitySource e).superclass = none → e.keys.length = 1
  chain : ∀ e ∈ p.entities, p.OneKey e

theorem mem_of_chain (he : e ∈ p.entities) (h : a ∈ p.chain e) : a ∈ p.entities := by
  induction h with
  | refl => exact he
  | tail _ hstep _ => exact hstep.1

namespace Follows

/-- **A class extends its last parent.** -/
theorem superclass_eq (hf : p.Follows d) (he : e ∈ p.entities) :
    (Java.entitySource e).superclass = d.lastParent? e.name := by
  have hparent : e.inheritance.bind Inheritance.parentName = d.lastParent? e.name := by
    rw [← hf.parentName?, Plan.parentName?, Entity.find?_eq hf.nodup he, Option.bind_some]
  unfold Java.entitySource
  dsimp only
  rw [hparent]
  cases hlast : d.lastParent? e.name with
  | some parent => exact if_pos ((hf.isChild e he).2 ⟨parent, hlast⟩)
  | none =>
    refine if_neg fun hchild => ?_
    obtain ⟨parent, hsome⟩ := (hf.isChild e he).1 hchild
    rw [hlast] at hsome
    cases hsome

theorem superclass_eq_none_iff (hf : p.Follows d) (he : e ∈ p.entities) :
    (Java.entitySource e).superclass = none ↔ e.isChild = false := by
  rw [hf.superclass_eq he, ← Bool.not_eq_true, hf.isChild e he, Option.eq_none_iff_forall_ne_some, not_exists]

/-- a class extends one other at most -/
theorem extends_unique (hf : p.Follows d) (ha : p.Extends e a) (hb : p.Extends e b) : a = b := by
  have hname : a.name = b.name := Option.some.inj (ha.2.symm.trans hb.2)
  exact List.inj_on_of_nodup_map hf.nodup ha.1 hb.1 hname

/-- the superclasses of a class are its ancestors -/
theorem ancestor_of_chain (hf : p.Follows d) (he : e ∈ p.entities) (h : a ∈ p.chain e) :
    ∃ n, ancestor? d.lastParent? n e.name = some a.name := by
  induction h with
  | refl => exact ⟨0, rfl⟩
  | tail hchain hstep ih =>
    obtain ⟨n, hn⟩ := ih
    refine ⟨n + 1, ?_⟩
    rw [ancestor?_add, hn, Option.bind_some, ancestor?, ← hf.superclass_eq (mem_of_chain he hchain), hstep.2]
    rfl

theorem chain_of_ancestor (hf : p.Follows d) {n : Nat} {r : String} (he : e ∈ p.entities)
    (h : ancestor? d.lastParent? n e.name = some r) : ∃ a ∈ p.chain e, a.name = r := by
  induction n generalizing e with
  | zero => exact ⟨e, .refl, Option.some.inj h⟩
  | succ n ih =>
    obtain ⟨q, hq, hr⟩ := Option.bind_eq_some_iff.1 h
    obtain ⟨c, hc, rfl⟩ := hf.entity_of_mem (Diagram.named_of_lastParent? hq).2
    obtain ⟨a, ha, hname⟩ := ih hc hr
    exact ⟨a, ha.head ⟨hc, (hf.superclass_eq he).trans hq⟩, hname⟩

/-- **Without a circle some class of a chain extends no other.** -/
theorem exists_holder (hf : p.Follows d) (hcircle : NoCircle d.lastParent?) (he : e ∈ p.entities) :
    ∃ a ∈ p.chain e, (Java.entitySource a).superclass = none := by
  have hmem : e.name ∈ d.nameTable.names := hf.names ▸ List.mem_map_of_mem he
  obtain ⟨n, top, -, hn, hnone⟩ := exists_top (fun h => (Diagram.named_of_lastParent? h).2) hcircle hmem
  obtain ⟨a, ha, rfl⟩ := hf.chain_of_ancestor he hn
  exact ⟨a, ha, (hf.superclass_eq (mem_of_chain he ha)).trans hnone⟩

/-- a chain ends in one class at most -/
theorem holder_unique (hf : p.Follows d) (ha : a ∈ p.chain e) (hatop : (Java.entitySource a).superclass = none)
    (hb : b ∈ p.chain e) (hbtop : (Java.entitySource b).superclass = none) : a = b := by
  have hend : ∀ {x y : Entity}, (Java.entitySource x).superclass = none → ReflTransGen p.Extends x y → y = x := by
    intro x y hx hxy
    refine (Relation.reflTransGen_iff_eq fun z hz => ?_).1 hxy
    have hsome := hz.2
    rw [hx] at hsome
    cases hsome
  have hright : Relator.RightUnique p.Extends := fun _ _ _ hx hy => hf.extends_unique hx hy
  have hea : ReflTransGen p.Extends e a := ha
  rcases hea.total_of_right_unique hright hb with hab | hba
  · exact (hend hatop hab).symm
  · exact hend hbtop hba

/-- the ancestors of a class in a circle are children, all of them -/
theorem child_of_chain (hf : p.Follows d) (he : e ∈ p.entities)
    (hcircle : Relation.TransGen (fun a b => d.lastParent? a = some b) e.name e.name) (ha : a ∈ p.chain e) :
    (Java.entitySource a).superclass ≠ none := by
  obtain ⟨n, hn⟩ := hf.ancestor_of_chain he ha
  obtain ⟨q, hq⟩ := exists_parent_of_circle (circle_of_ancestor? hcircle hn)
  rw [hf.superclass_eq (mem_of_chain he ha), hq]
  exact Option.some_ne_none q

end Follows

/-! ## One key for each chain -/

/-- what a class declares: one key, unless it extends another class and is no part -/
theorem keys_of_build {policy : Policy} (h : build policy d = .ok p) (he : e ∈ p.entities) :
    ((Java.entitySource e).superclass = none → e.keys.length = 1) ∧
      ((Java.entitySource e).superclass ≠ none → (e.keys = [] ↔ e.name ∉ d.parts)) := by
  have hf := follows_of_build h
  have hpart : e.identity = none ↔ e.name ∉ d.parts := by
    rw [Diagram.parts, ← identity_isSome_iff h he, Option.not_isSome_iff_eq_none]
  constructor
  · intro htop
    rw [Entity.length_keys, Ne, Entity.keys_eq_nil_iff]
    rintro ⟨hchild, -⟩
    rw [(hf.superclass_eq_none_iff he).1 htop] at hchild
    cases hchild
  · intro hsub
    rw [Ne, hf.superclass_eq_none_iff he, Bool.not_eq_false] at hsub
    rw [Entity.keys_eq_nil_iff, hpart]
    exact and_iff_right hsub

/-- **When every chain has one key.** No child is a part, and no class is among its own ancestors. -/
theorem oneKeyPerChain_iff {policy : Policy} (h : build policy d = .ok p) :
    p.OneKeyPerChain ↔ (∀ c ∈ d.children, c ∉ d.parts) ∧ NoCircle d.lastParent? := by
  have hf := follows_of_build h
  constructor
  · intro hkeys
    refine ⟨fun name hchild hpart => ?_, fun c hcircle => ?_⟩
    · obtain ⟨parent, hparent⟩ := Diagram.mem_children_iff.1 hchild
      obtain ⟨e, he, rfl⟩ := hf.entity_of_mem (Diagram.named_of_lastParent? hparent).1
      have hsub : (Java.entitySource e).superclass ≠ none := by
        rw [hf.superclass_eq he, hparent]
        exact Option.some_ne_none parent
      exact ((keys_of_build h he).2 hsub).1 (hkeys.child e he hsub) hpart
    · obtain ⟨parent, hparent⟩ := exists_parent_of_circle hcircle
      obtain ⟨e, he, rfl⟩ := hf.entity_of_mem (Diagram.named_of_lastParent? hparent).1
      -- the class with the key would be a child like all others of the circle
      obtain ⟨a, ha, hone, -⟩ := hkeys.chain e he
      rw [hkeys.child a (mem_of_chain he ha) (hf.child_of_chain he hcircle ha)] at hone
      cases hone
  · rintro ⟨hapart, hcircle⟩
    have hchild : ∀ e ∈ p.entities, (Java.entitySource e).superclass ≠ none → e.keys = [] := by
      intro e he hsub
      refine ((keys_of_build h he).2 hsub).2 (hapart e.name ?_)
      rw [hf.superclass_eq he, Option.ne_none_iff_exists'] at hsub
      exact Diagram.mem_children_iff.2 hsub
    refine ⟨hchild, fun e he => (keys_of_build h he).1, fun e he => ?_⟩
    obtain ⟨a, ha, htop⟩ := hf.exists_holder hcircle he
    refine ⟨a, ha, (keys_of_build h (mem_of_chain he ha)).1 htop, fun b hb hne => ?_⟩
    exact hchild b (mem_of_chain he hb) fun hbtop => hne (hf.holder_unique hb hbtop ha htop)

end Plan

/-- **The keys of chains.** The files of a diagram are those of a plan in which a class that extends no other declares one
key, and a class that extends another declares one exactly when it is a part. So children have no key of their own, all
other classes have one, and every chain has one, exactly when no child is a part and the last claims have no circle. -/
theorem keys_of_chains (policy : Policy) (d : Diagram) (as : List Artifact) (h : render policy d = .ok as) :
    ∃ p, Plan.build policy d = .ok p ∧ as = Artifact.ofPlan p ∧
      (∀ e ∈ p.entities, ((Java.entitySource e).superclass = none → e.keys.length = 1) ∧
        ((Java.entitySource e).superclass ≠ none → (e.keys = [] ↔ e.name ∉ d.parts))) ∧
      (p.OneKeyPerChain ↔ (∀ c ∈ d.children, c ∉ d.parts) ∧ NoCircle d.lastParent?) := by
  obtain ⟨p, hp, rfl⟩ := artifacts_of_render h
  exact ⟨p, hp, rfl, fun e he => Plan.keys_of_build hp he, Plan.oneKeyPerChain_iff hp⟩

/-- a truck under a vehicle under an asset with an `id`; an engine is part of the truck, and a bolt of the engine -/
def convoy : Diagram where
  nodes := [⟨"a", "Asset", [⟨"", "id", .int, "int", none⟩], false⟩, ⟨"v", "Vehicle", [], false⟩, ⟨"t", "Truck", [], false⟩,
    ⟨"e", "Engine", [], false⟩, ⟨"b", "Bolt", [], false⟩]
  edges := [⟨"", "v", "t", none, none, none, .inheritance⟩, ⟨"", "e", "b", none, none, none, .composition⟩,
    ⟨"", "a", "v", none, none, none, .inheritance⟩, ⟨"", "t", "e", none, none, none, .composition⟩]
  metadata := .null

theorem noCircle_convoy : NoCircle convoy.lastParent? := by
  have hclaims : convoy.parentClaims.reverse = [("Vehicle", "Asset"), ("Truck", "Vehicle")] := by decide
  refine noCircle_of_rank (fun c => if c = "Truck" then 0 else if c = "Vehicle" then 1 else 2) fun {c q} h => ?_
  unfold Diagram.lastParent? at h
  rw [hclaims] at h
  simp only [Table.get?] at h
  split_ifs at h with hv ht
  · cases h; subst hv; decide
  · cases h; subst ht; decide

theorem convoy_keys : ∃ as, render .fail convoy = .ok as ∧ ∃ p, as = Artifact.ofPlan p ∧ p.OneKeyPerChain := by
  obtain ⟨p, -, has, -, hiff⟩ := keys_of_chains .fail convoy _ rfl
  exact ⟨_, rfl, p, has, hiff.2 ⟨by decide, noCircle_convoy⟩⟩

/-- a car that is a vehicle and part of a fleet -/
def carpool : Diagram where
  nodes := [⟨"v", "Vehicle", [], false⟩, ⟨"c", "Car", [], false⟩, ⟨"f", "Fleet", [], false⟩]
  edges := [⟨"", "v", "c", none, none, none, .inheritance⟩, ⟨"", "f", "c", none, none, none, .composition⟩]
  metadata := .null

/-- **A chain with two keys.** The car extends the vehicle and declares the key of a part; the vehicle declares its own. -/
theorem carpool_two_keys : ∃ p, Plan.build .lastWins carpool = .ok p ∧ Plan.build .fail carpool = .ok p ∧
    (∃ car ∈ p.entities, ∃ vehicle, p.Extends car vehicle ∧ car.keys = [⟨[⟨"EmbeddedId", []⟩], "CarId", "id"⟩] ∧
      vehicle.keys.map Java.Member.type = ["Long"]) ∧ ¬ p.OneKeyPerChain := by
  refine ⟨_, rfl, rfl, ⟨_, List.mem_cons_of_mem _ List.mem_cons_self, _, ⟨List.mem_cons_self, rfl⟩, rfl, rfl⟩, ?_⟩
  intro hkeys
  have hcar := hkeys.child _ (List.mem_cons_of_mem _ List.mem_cons_self) nofun
  cases hcar

end Classwright
