/-
The keys of the parts in a plan.

Any number of wholes can claim a class. The last one gives it its key, and the fields to the earlier ones lose their share
of it. The classes with a composite key, and the wholes they take it from, are thus read off the composition edges.

- `Link.wholeClaim?`, `Diagram.wholeClaims_eq`: the claims of a diagram on parts are those of its links;
- `Diagram.lastWhole?`: the whole that claimed a class last;
- `Entity.HasOwnKey`: the type of the key that a class has by itself; `Entity.PartOf`: a key taken from a whole;
- `Entity.KeyedBy`: a class has the key that the numbered links leave it with;
- `identities_of_last_claims`: every class of a plan has the key of its last claim.
-/
import Mathlib.Data.Finset.Card
import Classwright.Proofs.Conflicts
import Classwright.Proofs.Entities
import Classwright.Proofs.Identities

namespace Classwright

open Classwright.Numbering (suffix)

/-! ## The last whole -/

/-- the part and the whole of a composition -/
def Link.wholeClaim? (l : Link) : Option (String × String) :=
  if l.shape = .composition then some (l.target, l.source) else none

theorem Link.claims_of_wholeClaim? {l : Link} {part whole : String} (h : l.wholeClaim? = some (part, whole)) :
    l.Claims part := by
  unfold wholeClaim? at h
  split_ifs at h with hshape
  cases h
  exact ⟨hshape, rfl⟩

namespace NameTable

theorem filterMap_plainLinks (t : NameTable) (e : Edge) (source target : String) :
    (t.plainLinks e source target).filterMap Link.wholeClaim? = [] := by
  unfold plainLinks
  split <;> rfl

/-- the links of a call make the claim of the call -/
theorem filterMap_linksOf (t : NameTable) (c : Call) :
    (t.linksOf c).filterMap Link.wholeClaim? = (t.claimOf? .composition c).toList := by
  cases c with
  | inherit e => rfl
  | apply => rfl
  | compose e =>
    simp only [linksOf, claimOf?, wholeClaim?]
    cases t.ends? e <;> rfl
  | relate e =>
    simp only [linksOf, claimOf?]
    split_ifs
    · rfl
    · split
      · exact t.filterMap_plainLinks e _ _
      · rfl

end NameTable

theorem map_fst_numbered (earlier ks : List Link) : (numbered earlier ks).map Prod.fst = ks := by
  induction ks generalizing earlier with
  | nil => rfl
  | cons k rest ih => exact congrArg (k :: ·) (ih _)

/-- the claims that numbered links make -/
def claimed (ns : List (Link × Nat)) : List (String × String) := (ns.map Prod.fst).filterMap Link.wholeClaim?

namespace Diagram

theorem wholeClaims_eq (d : Diagram) : d.wholeClaims = claimed (numbered [] d.links) := by
  have hcall : (fun c => (d.nameTable.claimOf? .composition c).toList) =
      fun c => (d.nameTable.linksOf c).filterMap Link.wholeClaim? :=
    funext fun c => (d.nameTable.filterMap_linksOf c).symm
  calc d.wholeClaims
      = (Plan.calls d.edges).filterMap (d.nameTable.claimOf? .composition) := (Plan.filterMap_calls d .composition).symm
    _ = (Plan.calls d.edges).flatMap fun c => (d.nameTable.linksOf c).filterMap Link.wholeClaim? := by
        rw [List.filterMap_eq_flatMap_toList, hcall]
    _ = ((Plan.calls d.edges).flatMap d.nameTable.linksOf).filterMap Link.wholeClaim? := (List.filterMap_flatMap ..).symm
    _ = d.links.filterMap Link.wholeClaim? := by rw [Plan.flatMap_linksOf_calls]; rfl
    _ = claimed (numbered [] d.links) := by rw [claimed, map_fst_numbered]

/-- the whole that claimed a class last -/
def lastWhole? (d : Diagram) (name : String) : Option String := Table.get? d.wholeClaims.reverse name

/-- a part is a class -/
theorem mem_names_of_wholeClaims {d : Diagram} {part whole : String} (h : (part, whole) ∈ d.wholeClaims) :
    part ∈ d.nameTable.names := by
  obtain ⟨e, -, hclaim⟩ := List.mem_filterMap.1 h
  obtain ⟨⟨a, b⟩, hends, hswap⟩ := Option.map_eq_some_iff.1 hclaim
  cases hswap
  exact (NameTable.closed_ofDiagram d).named_mem (NameTable.named_of_ends? hends).2

end Diagram

theorem get?_claimed_of_free {ns : List (Link × Nat)} {name : String} (h : ∀ n ∈ ns, ¬ n.1.Claims name) :
    Table.get? (claimed ns).reverse name = none := by
  rw [← Option.not_isSome_iff_eq_none]
  intro hsome
  obtain ⟨whole, hwhole⟩ := Option.isSome_iff_exists.1 hsome
  obtain ⟨l, hl, hclaim⟩ := List.mem_filterMap.1 (List.mem_reverse.1 (Table.mem_of_get? hwhole))
  obtain ⟨n, hn, rfl⟩ := List.mem_map.1 hl
  exact h n hn (Link.claims_of_wholeClaim? hclaim)

theorem get?_claimed_of_last {before after : List (Link × Nat)} {whole name : String} {k : Nat}
    (h : ∀ n ∈ after, ¬ n.1.Claims name) :
    Table.get? (claimed (before ++ (⟨.composition, whole, name⟩, k) :: after)).reverse name = some whole := by
  have hclaimed : claimed (before ++ (⟨.composition, whole, name⟩, k) :: after) =
      claimed before ++ (name, whole) :: claimed after := by
    unfold claimed
    rw [List.map_append, List.filterMap_append]
    rfl
  rw [hclaimed, List.reverse_append, List.reverse_cons, Table.get?_append, Table.get?_append, get?_claimed_of_free h]
  simp [Table.get?]

/-! ## Keys -/

/-- the field to each whole that claimed a class -/
theorem backReference_mem {ns : List (Link × Nat)} {n : Link × Nat} {name : String} (hn : n ∈ ns)
    (h : n.1.Claims name) : Relationship.backReference n.1.source (suffix n.2) ∈ onClass name (placements ns) := by
  obtain ⟨⟨shape, source, target⟩, k⟩ := n
  obtain ⟨rfl, rfl⟩ := h
  refine List.mem_map.2 ⟨⟨target, Relationship.keyReference source (suffix k)⟩, List.mem_filter.2 ⟨?_, by simp⟩, rfl⟩
  refine List.mem_flatMap.2 ⟨_, hn, ?_⟩
  exact List.mem_cons_of_mem _ List.mem_cons_self

namespace Entity

/-- the type of the key that a class has by itself: that of its `id` attribute, when this has a written type -/
structure HasOwnKey (e : Entity) (type : String) : Prop where
  written : ∀ a ∈ e.attributes, a.name = "id" → a.rawType ≠ "" → type = Naming.javaType a.type
  unwritten : (∀ a ∈ e.attributes, a.name = "id" → a.rawType = "") → type = "Long"

/-- a class takes its key from a whole, and has one field with a share of it -/
structure PartOf (e : Entity) (whole suffix : String) : Prop where
  identity : ∃ own, e.HasOwnKey own ∧ e.identity = some (e.keyUnder own whole suffix)
  share : ∃ before after, e.fields = before ++ Relationship.keyReference whole suffix :: after ∧
    ∀ f ∈ before ++ after, f.mapsId = none

/-- a class that no composition claims has no key from a whole; any other has that of the last one, and still refers to the
wholes of those before -/
inductive KeyedBy (e : Entity) (ns : List (Link × Nat)) : Prop
  | free (hnone : ∀ n ∈ ns, ¬ n.1.Claims e.name) (hidentity : e.identity = none) (hshare : ∀ f ∈ e.fields, f.mapsId = none)
  | part (before after : List (Link × Nat)) (whole : String) (k : Nat)
      (hns : ns = before ++ (e.partLink whole, k) :: after) (hlast : ∀ n ∈ after, ¬ n.1.Claims e.name)
      (hpart : e.PartOf whole (suffix k))
      (hearlier : ∀ n ∈ before, n.1.Claims e.name → Relationship.backReference n.1.source (suffix n.2) ∈ e.fields)

variable {e : Entity} {ns : List (Link × Nat)}

theorem KeyedBy.whole_eq (h : e.KeyedBy ns) :
    e.identity.map CompositeIdentity.wholeClass = Table.get? (claimed ns).reverse e.name := by
  cases h with
  | free hnone hidentity _ => rw [hidentity, get?_claimed_of_free hnone]; rfl
  | part before after whole k hns hlast hpart _ =>
    obtain ⟨own, -, hidentity⟩ := hpart.identity
    rw [hidentity, hns, partLink, get?_claimed_of_last hlast]
    rfl

theorem Held.keyedBy {own : String → String} (h : e.Held own ns) (hown : e.HasOwnKey (own e.name)) : e.KeyedBy ns := by
  cases h with
  | free hnone hidentity hfields =>
    exact .free hnone hidentity fun f hf => mapsId_of_mem_onClass (hfields ▸ hf)
  | @held before after whole k hns hlast hidentity hfields =>
    obtain ⟨others, hothers, hnone⟩ := Link.fieldsOn_part whole e.name k
    rw [partLink, hothers] at hfields
    refine .part before after whole k hns hlast ⟨⟨_, hown, hidentity⟩, ?_⟩ fun n hn hclaims => ?_
    · refine ⟨onClass e.name (placements before) ++ others, onClass e.name (placements after), ?_, fun f hf => ?_⟩
      · rw [hfields]
        simp only [List.append_assoc, List.singleton_append]
      · simp only [List.mem_append] at hf
        rcases hf with (hf | hf) | hf
        · exact mapsId_of_mem_onClass hf
        · exact hnone f hf
        · exact mapsId_of_mem_onClass hf
    · rw [hfields, List.append_assoc]
      exact List.mem_append_left _ (backReference_mem hn hclaims)

end Entity

/-! ## Plans -/

namespace Plan

/-- no call changes the attributes of a class -/
theorem attributes_of_build {policy : Policy} {d : Diagram} {p : Plan} (h : build policy d = .ok p) :
    ∀ e ∈ p.entities, (e.name, e.attributes) ∈ d.nameTable.classes := by
  have hinvariant : EntityInvariant fun e => (e.name, e.attributes) ∈ d.nameTable.classes :=
    ⟨fun he _ => he, fun he _ => he, fun he _ _ _ => he, fun he => he⟩
  refine hinvariant.of_build (fun e he => ?_) h
  obtain ⟨c, hc, rfl⟩ := List.mem_map.1 he
  exact hc

theorem hasOwnKey_of_build {policy : Policy} {d : Diagram} {p : Plan} (h : build policy d = .ok p) {e : Entity}
    (he : e ∈ p.entities) : e.HasOwnKey ((Session.start d.nameTable policy).ownIdType e.name) := by
  have hclass := attributes_of_build h e he
  have hnodup : (e.attributes.map Attribute.name).Nodup := NameTable.nodup_attributes d hclass
  unfold Session.ownIdType
  rw [show (Session.start d.nameTable policy).names = d.nameTable from rfl,
    (NameTable.closed_ofDiagram d).attributesOf_eq hclass]
  cases hfind : e.attributes.find? fun a => a.name == "id" && !a.rawType.isEmpty with
  | none =>
    rw [List.find?_eq_none] at hfind
    exact ⟨fun a ha hid hraw => absurd (by simp [hid, hraw]) (hfind a ha), fun _ => rfl⟩
  | some found =>
    have hmem := List.mem_of_find?_eq_some hfind
    obtain ⟨hid, hraw⟩ : found.name = "id" ∧ found.rawType ≠ "" := by simpa using List.find?_some hfind
    -- names of attributes are unique, so no other attribute is called `id`
    refine ⟨fun a ha hid' _ => ?_, fun hall => absurd (hall found hmem hid) hraw⟩
    rw [List.inj_on_of_nodup_map hnodup ha hmem (hid'.trans hid.symm)]

/-- the parts of a plan, counted by their names -/
theorem identityCount_eq {p : Plan} {parts : List String} (hnodup : (p.entities.map Entity.name).Nodup)
    (hparts : ∀ part ∈ parts, part ∈ p.entities.map Entity.name)
    (h : ∀ e ∈ p.entities, e.identity.isSome ↔ e.name ∈ parts) : p.identityCount = parts.toFinset.card := by
  have hfilter : ((p.entities.filter fun e => e.identity.isSome).map Entity.name).Nodup :=
    hnodup.sublist (List.filter_sublist.map _)
  have hset : parts.toFinset = ((p.entities.filter fun e => e.identity.isSome).map Entity.name).toFinset := by
    ext part
    rw [List.mem_toFinset, List.mem_toFinset, List.mem_map]
    constructor
    · intro hpart
      obtain ⟨e, he, rfl⟩ := List.mem_map.1 (hparts part hpart)
      exact ⟨e, List.mem_filter.2 ⟨he, (h e he).2 hpart⟩, rfl⟩
    · rintro ⟨e, he, rfl⟩
      obtain ⟨he, hsome⟩ := List.mem_filter.1 he
      exact (h e he).1 hsome
  rw [hset, List.toFinset_card_of_nodup hfilter, List.length_map]
  rfl

end Plan

/-- **The last whole decides.** When the last claim wins, a diagram has a plan in which every class has its key from the
whole of the last composition that claims it, or no key from a whole when there is none. -/
theorem identities_of_last_claims (d : Diagram) :
    ∃ p, Plan.build .lastWins d = .ok p ∧ p.entities.map Entity.name = d.nameTable.names ∧
      p.identityCount = (d.wholeClaims.map Prod.fst).toFinset.card ∧
      ∀ e ∈ p.entities, e.identity.map CompositeIdentity.wholeClass = d.lastWhole? e.name ∧
        e.KeyedBy (numbered [] d.links) := by
  obtain ⟨p, hp⟩ := Plan.exists_build d
  have hnames := Plan.names_of_build hp
  have hkeyed : ∀ e ∈ p.entities, e.KeyedBy (numbered [] d.links) := fun e he =>
    (Plan.held_of_build hp e he).keyedBy (Plan.hasOwnKey_of_build hp he)
  have hwhole : ∀ e ∈ p.entities, e.identity.map CompositeIdentity.wholeClass = d.lastWhole? e.name := by
    intro e he
    rw [Diagram.lastWhole?, d.wholeClaims_eq]
    exact (hkeyed e he).whole_eq
  refine ⟨p, hp, hnames, Plan.identityCount_eq ?_ ?_ ?_, fun e he => ⟨hwhole e he, hkeyed e he⟩⟩
  · exact hnames ▸ (NameTable.closed_ofDiagram d).names_nodup
  · intro part hpart
    obtain ⟨⟨_, whole⟩, hclaim, rfl⟩ := List.mem_map.1 hpart
    exact hnames ▸ Diagram.mem_names_of_wholeClaims hclaim
  · intro e he
    rw [← Option.isSome_map (f := CompositeIdentity.wholeClass), hwhole e he, Diagram.lastWhole?, Table.isSome_get?_iff,
      Table.keys, List.map_reverse, List.mem_reverse]

/-- a wheel claimed by a car, by a bike, and by the car again; its `id` has a written type -/
def reclaimed : Diagram where
  nodes := [⟨"c", "Car", [], false⟩, ⟨"b", "Bike", [], false⟩, ⟨"w", "Wheel", [⟨"i", "id", .int, "int", none⟩], false⟩]
  edges := [⟨"", "c", "w", none, none, none, .composition⟩, ⟨"", "b", "w", none, none, none, .composition⟩,
    ⟨"", "c", "w", none, none, none, .composition⟩]
  metadata := .null

theorem reclaimed_keys : ∃ p, Plan.build .lastWins reclaimed = .ok p ∧ p.identityCount = 1 ∧
    ∀ e ∈ p.entities, e.name = "Wheel" → e.identity.map CompositeIdentity.wholeClass = some "Car" := by
  obtain ⟨p, hp, -, hcount, hkeys⟩ := identities_of_last_claims reclaimed
  refine ⟨p, hp, hcount.trans (by decide), fun e he hname => (hkeys e he).1.trans ?_⟩
  rw [hname]
  decide

/-- the key comes through the second relationship with the car -/
example : (Plan.build .lastWins reclaimed).map (fun p => p.entities.map Entity.identity) =
    .ok [none, none, some ⟨"WheelId", "Car", "car2", "Integer", "Long"⟩] := rfl

end Classwright
