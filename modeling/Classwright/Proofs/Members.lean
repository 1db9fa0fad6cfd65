/-
The names of the members of a class.

A class is written with its key, then its attributes, then the fields of its relationships. The attributes have the names that
the diagram gives them, without `id`, which is the name of the key; the fields are named after the classes they lead to. So
the key never meets an attribute, but a field meets whatever the diagram happens to call like it.

- `Entity.MembersApart`: the three kinds of members of a class share no name; `Entity.nodup_members_iff`: then a class that
  declares a member twice does so among its fields;
- `Diagram.Meets`: a field that is called like an attribute or like the key of its class;
- `members_apart`: the members of all classes are apart exactly when no field meets another member;
- `stocked_members_meet`: a diagram where they are not.
-/
import Classwright.Proofs.Distinct
import Classwright.Proofs.KeyTypes

namespace Classwright

namespace Entity

open Java (keyMember attributeMembers relationMember entitySource)

variable {e : Entity} {n : String}

/-! ## Three kinds of members -/

def keyNames (e : Entity) : List String := (keyMember e).toList.map Java.Member.name

def attributeNames (e : Entity) : List String := (attributeMembers e).map Java.Member.name

def fieldNames (e : Entity) : List String := (e.fields.map relationMember).map Java.Member.name

/-- the key, the attributes and the relationships of a class have no name in common -/
structure MembersApart (e : Entity) : Prop where
  keyAttributes : e.keyNames.Disjoint e.attributeNames
  keyFields : e.keyNames.Disjoint e.fieldNames
  attributesFields : e.attributeNames.Disjoint e.fieldNames

theorem names_members (e : Entity) :
    (entitySource e).members.map Java.Member.name = e.keyNames ++ (e.attributeNames ++ e.fieldNames) := by
  simp [entitySource, keyNames, attributeNames, fieldNames]

theorem mem_keyNames : n ∈ e.keyNames ↔ n = "id" ∧ e.keys ≠ [] := by
  unfold keyNames keys
  rw [Java.keys_entitySource]
  cases hkey : keyMember e with
  | none => simp
  | some m => simp [Java.name_keyMember hkey]

theorem mem_attributeNames : n ∈ e.attributeNames ↔ n ≠ "id" ∧ n ∈ e.attributes.map Attribute.name := by
  unfold attributeNames attributeMembers
  rw [List.map_map]
  constructor
  · intro h
    obtain ⟨a, ha, rfl⟩ := List.mem_map.1 h
    obtain ⟨ha, hid⟩ := List.mem_filter.1 ha
    exact ⟨by simpa using hid, List.mem_map_of_mem ha⟩
  · rintro ⟨hid, h⟩
    obtain ⟨a, ha, rfl⟩ := List.mem_map.1 h
    exact List.mem_map.2 ⟨a, List.mem_filter.2 ⟨ha, by simpa using hid⟩, rfl⟩

theorem fieldNames_eq (e : Entity) : e.fieldNames = e.fields.map RelationField.name := List.map_map

/-- the key takes the place of an attribute of its name -/
theorem disjoint_key_attributes (e : Entity) : e.keyNames.Disjoint e.attributeNames := fun _ hkey hattribute =>
  (mem_attributeNames.1 hattribute).1 (mem_keyNames.1 hkey).1

theorem nodup_keyNames (e : Entity) : e.keyNames.Nodup := by
  unfold keyNames
  cases keyMember e <;> simp

theorem nodup_attributeNames (h : (e.attributes.map Attribute.name).Nodup) : e.attributeNames.Nodup := by
  unfold attributeNames attributeMembers
  rw [List.map_map]
  exact h.sublist (List.filter_sublist.map _)

/-- a class without repeated attributes declares no member twice exactly when its members are apart and no two of its
fields have the same name -/
theorem nodup_members_iff (h : (e.attributes.map Attribute.name).Nodup) :
    ((entitySource e).members.map Java.Member.name).Nodup ↔ e.MembersApart ∧ (e.fields.map RelationField.name).Nodup := by
  rw [names_members, List.nodup_append', List.nodup_append', List.disjoint_append_right, fieldNames_eq]
  constructor
  · rintro ⟨-, ⟨-, hfields, hattributes⟩, hkey, hkeyFields⟩
    exact ⟨⟨hkey, by rwa [fieldNames_eq], by rwa [fieldNames_eq]⟩, hfields⟩
  · rintro ⟨hapart, hfields⟩
    exact ⟨e.nodup_keyNames, ⟨nodup_attributeNames h, hfields, fieldNames_eq e ▸ hapart.attributesFields⟩,
      hapart.keyAttributes, fieldNames_eq e ▸ hapart.keyFields⟩

end Entity

/-! ## What a diagram lets meet -/

namespace Diagram

/-- a field that is called like an attribute of its class, or like the key where its class has one -/
def Meets (d : Diagram) (q : Placed) : Prop :=
  (q.field.name ≠ "id" ∧ q.field.name ∈ (d.nameTable.attributesOf q.owner).map Attribute.name) ∨
    (q.field.name = "id" ∧ (q.owner ∈ d.children → q.owner ∈ d.parts))

instance (d : Diagram) (q : Placed) : Decidable (d.Meets q) :=
  inferInstanceAs (Decidable (_ ∨ _))

end Diagram

namespace Plan

variable {policy : Policy} {d : Diagram} {p : Plan} {e : Entity}

theorem name_mem_names (h : build policy d = .ok p) (he : e ∈ p.entities) : e.name ∈ d.nameTable.names := by
  rw [← names_of_build h]
  exact List.mem_map_of_mem he

theorem mem_fieldNames (h : build policy d = .ok p) (he : e ∈ p.entities) {n : String} :
    n ∈ e.fieldNames ↔ ∃ q ∈ d.placements, q.owner = e.name ∧ q.field.name = n := by
  have hnames : e.fields.map RelationField.name = (onClass e.name d.placements).map RelationField.name := by
    rw [← fields_of_build h he, List.map_map]
    rfl
  rw [Entity.fieldNames_eq, hnames, onClass, List.map_map, List.mem_map]
  constructor
  · rintro ⟨q, hq, rfl⟩
    obtain ⟨hq, howner⟩ := List.mem_filter.1 hq
    exact ⟨q, hq, of_decide_eq_true howner, rfl⟩
  · rintro ⟨q, hq, howner, rfl⟩
    exact ⟨q, List.mem_filter.2 ⟨hq, decide_eq_true howner⟩, rfl⟩

/-- a class has a key unless it is a child and no part -/
theorem keys_ne_nil_iff (h : build policy d = .ok p) (he : e ∈ p.entities) :
    e.keys ≠ [] ↔ (e.name ∈ d.children → e.name ∈ d.parts) := by
  have hchild : e.isChild = true ↔ e.name ∈ d.children :=
    ((follows_of_build h).isChild e he).trans Diagram.mem_children_iff.symm
  have hpart : e.identity = none ↔ e.name ∉ d.parts := by
    rw [Diagram.parts, ← identity_isSome_iff h he, Option.not_isSome_iff_eq_none]
  rw [Ne, Entity.keys_eq_nil_iff, hchild, hpart, not_and, not_not]

/-- a name is taken in a class exactly when a field of that name would meet another member -/
theorem meets_iff (h : build policy d = .ok p) (he : e ∈ p.entities) {q : Placed} (hq : q.owner = e.name) :
    d.Meets q ↔ q.field.name ∈ e.keyNames ∨ q.field.name ∈ e.attributeNames := by
  have hattributes : d.nameTable.attributesOf q.owner = e.attributes := by
    rw [hq]
    exact (NameTable.closed_ofDiagram d).attributesOf_eq (attributes_of_build h e he)
  unfold Diagram.Meets
  rw [Entity.mem_keyNames, Entity.mem_attributeNames, keys_ne_nil_iff h he, hattributes, hq, or_comm]

/-- **The members of all classes are apart exactly when no field meets another member.** -/
theorem membersApart_iff (h : build policy d = .ok p) :
    (∀ e ∈ p.entities, e.MembersApart) ↔ ∀ q ∈ d.placements, ¬ d.Meets q := by
  constructor
  · intro hall q hq hmeets
    obtain ⟨e, he, howner⟩ := (follows_of_build h).entity_of_mem (Diagram.owner_mem_names hq)
    have hfield : q.field.name ∈ e.fieldNames := (mem_fieldNames h he).2 ⟨q, hq, howner.symm, rfl⟩
    rcases (meets_iff h he howner.symm).1 hmeets with hkey | hattribute
    · exact (hall e he).keyFields hkey hfield
    · exact (hall e he).attributesFields hattribute hfield
  · intro hnone e he
    refine ⟨e.disjoint_key_attributes, fun n hn hfield => ?_, fun n hn hfield => ?_⟩ <;>
      obtain ⟨q, hq, howner, rfl⟩ := (mem_fieldNames h he).1 hfield
    · exact hnone q hq ((meets_iff h he howner).2 (Or.inl hn))
    · exact hnone q hq ((meets_iff h he howner).2 (Or.inr hn))

end Plan

/-- **When members are apart.** The key and the attributes of a class never share a name. The key, the attributes and the
fields of all classes share none exactly when no field is called like an attribute of its class, nor `id` in a class with a
key; a class then declares a member twice only where two of its fields have the same name. -/
theorem members_apart (policy : Policy) (d : Diagram) (as : List Artifact) (h : render policy d = .ok as) :
    ∃ p, Plan.build policy d = .ok p ∧ as = Artifact.ofPlan p ∧
      (∀ e ∈ p.entities, e.keyNames.Disjoint e.attributeNames) ∧
      ((∀ e ∈ p.entities, e.MembersApart) ↔ ∀ q ∈ d.placements, ¬ d.Meets q) ∧
      ∀ e ∈ p.entities, ((Java.entitySource e).members.map Java.Member.name).Nodup ↔
        e.MembersApart ∧ (e.fields.map RelationField.name).Nodup := by
  obtain ⟨p, hp, rfl⟩ := artifacts_of_render h
  exact ⟨p, hp, rfl, fun e _ => e.disjoint_key_attributes, Plan.membersApart_iff hp,
    fun e he => Entity.nodup_members_iff (NameTable.nodup_attributes d (Plan.attributes_of_build hp e he))⟩

/-- a user with a name and orders; a customer is a user with an identity card, whose class is called `Id` -/
def counter : Diagram where
  nodes := [⟨"u", "User", [⟨"", "id", .long, "long", none⟩, ⟨"", "name", .string, "string", none⟩], false⟩,
    ⟨"o", "Order", [⟨"", "total", .int, "int", none⟩], false⟩, ⟨"c", "Customer", [], false⟩,
    ⟨"i", "Id", [], false⟩]
  edges := [⟨"", "u", "c", none, none, none, .inheritance⟩,
    ⟨"", "u", "o", none, some "1", some "*", .association none⟩,
    ⟨"", "c", "i", none, some "1", some "1", .association none⟩]
  metadata := .null

theorem counter_members_apart : ∃ as, render .fail counter = .ok as ∧ ∃ p, as = Artifact.ofPlan p ∧
    ∀ e ∈ p.entities, e.MembersApart := by
  obtain ⟨p, -, has, -, hiff, -⟩ := members_apart .fail counter _ rfl
  exact ⟨_, rfl, p, has, hiff.2 (by decide)⟩

/-- a user with an attribute for orders, with orders, and with an identity card -/
def stocked : Diagram where
  nodes := [⟨"u", "User", [⟨"", "orders", .string, "string", none⟩], false⟩, ⟨"o", "Order", [], false⟩,
    ⟨"i", "Id", [], false⟩]
  edges := [⟨"", "u", "o", none, some "1", some "*", .association none⟩,
    ⟨"", "u", "i", none, some "1", some "1", .association none⟩]
  metadata := .null

/-- **Members that meet.** The user declares `orders` as an attribute and as the list of its orders, and `id` as its key and
as its identity card. -/
theorem stocked_members_meet : ∃ p, Plan.build .lastWins stocked = .ok p ∧ Plan.build .fail stocked = .ok p ∧
    ∃ user ∈ p.entities, user.keyNames = ["id"] ∧ user.attributeNames = ["orders"] ∧ user.fieldNames = ["orders", "id"] ∧
      ¬ user.MembersApart := by
  refine ⟨_, rfl, rfl, _, List.mem_cons_self, rfl, rfl, rfl, fun hapart => ?_⟩
  exact hapart.keyFields (show "id" ∈ ["id"] from List.mem_cons_self)
    (show "id" ∈ ["orders", "id"] from List.mem_cons_of_mem _ List.mem_cons_self)

end Classwright
