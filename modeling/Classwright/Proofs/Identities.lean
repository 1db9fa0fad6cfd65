/-
The keys of parts.

A part takes its key from the whole that claimed it last. The field to that whole is the only one of the part with a share
of the key; the fields to earlier wholes stay as required foreign keys. What a class holds is thus read off the numbered
links of the diagram: it is free as long as no composition claims it, and held by the last one that does.

- `Link.Claims`: a link is a composition with a class as its part;
- `Entity.Held`: what a class holds after some numbered links; `Held.append`: a link that does not claim it adds fields
  without a share of the key; `Held.fields_release`: a release takes the one share back;
- `Session.Tied`: a session that has tied some links; `Tied.step`: a call ties the links it asks for;
- `held_of_build`: what the classes of a plan hold.
-/
import Classwright.Proofs.Numbered

namespace Classwright

open Classwright.Numbering (suffix)

/-! ## Fields to a whole -/

namespace Relationship

/-- the field that leads from a part to a whole, with no share of the key -/
def backReference (whole suffix : String) : RelationField where
  name := wholeField whole suffix
  kind := .manyToOne
  related := whole
  owning := false
  joinColumn := some (wholeField whole suffix ++ "_id")
  optional := false
  jsonReference := some (wholeField whole suffix ++ "_composition")

/-- the field that leads from a part to the whole it takes its key from -/
def keyReference (whole suffix : String) : RelationField :=
  { backReference whole suffix with mapsId := some (wholeField whole suffix ++ "Id") }

end Relationship

theorem RelationField.plain_of_mapsId {f : RelationField} (h : f.mapsId = none) : f.plain = f := by
  cases f
  cases h
  rfl

/-- the fields of one class, with their share of the key -/
def fieldsOn (name : String) (ps : List Placed) : List RelationField :=
  (ps.filter fun p => p.owner = name).map Placed.field

theorem map_plain_fieldsOn (name : String) (ps : List Placed) :
    (fieldsOn name ps).map RelationField.plain = onClass name ps := by
  unfold fieldsOn onClass
  rw [List.map_map]
  rfl

theorem fieldsOn_cons (name : String) (p : Placed) (ps : List Placed) :
    fieldsOn name (p :: ps) = (if p.owner = name then [p.field] else []) ++ fieldsOn name ps := by
  unfold fieldsOn
  by_cases h : p.owner = name <;> simp [h]

theorem mapsId_of_mem_onClass {name : String} {ps : List Placed} {f : RelationField} (h : f ∈ onClass name ps) :
    f.mapsId = none := by
  obtain ⟨p, -, rfl⟩ := List.mem_map.1 h
  rfl

namespace Link

/-- a composition with a class as its part -/
def Claims (l : Link) (part : String) : Prop := l.shape = .composition ∧ l.target = part

instance (l : Link) (part : String) : Decidable (l.Claims part) := by unfold Claims; infer_instance

/-- only a composition gives a share of the key, and only to its part -/
theorem mapsId_of_not_claims {l : Link} {k : Nat} {p : Placed} (hp : p ∈ l.fields k) (h : ¬ l.Claims p.owner) :
    p.field.mapsId = none := by
  obtain ⟨shape, source, target⟩ := l
  cases shape with
  | viaClass =>
    simp only [fields, Relationship.viaClass, List.mem_cons, List.not_mem_nil, or_false] at hp
    rcases hp with rfl | rfl <;> rfl
  | composition =>
    simp only [fields, Relationship.composition, List.mem_cons, List.not_mem_nil, or_false] at hp
    rcases hp with rfl | rfl
    · rfl
    · exact absurd ⟨rfl, rfl⟩ h
  | byCardinality sourceMany targetMany =>
    simp only [fields] at hp
    cases sourceMany <;> cases targetMany <;>
      simp only [Relationship.byCardinality, Relationship.manyToMany, Relationship.oneToMany, Relationship.oneToOne,
        List.mem_cons, List.not_mem_nil, or_false] at hp <;>
      rcases hp with rfl | rfl <;> rfl

theorem fieldsOn_of_not_claims {l : Link} {name : String} (h : ¬ l.Claims name) (k : Nat) :
    fieldsOn name (l.fields k) = onClass name (l.fields k) := by
  rw [← map_plain_fieldsOn, List.map_congr_left (g := id), List.map_id]
  intro f hf
  obtain ⟨p, hp, rfl⟩ := List.mem_map.1 hf
  obtain ⟨hp, howner⟩ := List.mem_filter.1 hp
  exact RelationField.plain_of_mapsId (mapsId_of_not_claims hp (of_decide_eq_true howner ▸ h))

/-- a composition gives its part one share of the key, on the field to the whole -/
theorem fieldsOn_part (whole part : String) (k : Nat) :
    ∃ others, fieldsOn part (Link.fields ⟨.composition, whole, part⟩ k) =
      others ++ [Relationship.keyReference whole (suffix k)] ∧ ∀ f ∈ others, f.mapsId = none := by
  simp only [fields, Relationship.composition, fieldsOn_cons, if_true]
  refine ⟨_, rfl, fun f hf => ?_⟩
  split_ifs at hf
  · rw [List.mem_singleton] at hf
    rw [hf]
  · cases hf

end Link

theorem map_plain_onClass (name : String) (ps : List Placed) :
    (onClass name ps).map RelationField.plain = onClass name ps := by
  refine (List.map_congr_left fun f hf => ?_).trans (List.map_id _)
  exact RelationField.plain_of_mapsId (mapsId_of_mem_onClass hf)

theorem placements_append (ns ms : List (Link × Nat)) : placements (ns ++ ms) = placements ns ++ placements ms :=
  List.flatMap_append

theorem placements_cons (n : Link × Nat) (ns : List (Link × Nat)) :
    placements (n :: ns) = n.1.fields n.2 ++ placements ns := rfl

theorem onClass_snoc (name : String) (ns : List (Link × Nat)) (n : Link × Nat) :
    onClass name (placements (ns ++ [n])) = onClass name (placements ns) ++ onClass name (n.1.fields n.2) := by
  rw [placements_append, placements_cons, onClass_append, onClass_append]
  exact congrArg _ (List.append_nil _)

/-! ## What a class holds -/

namespace Entity

/-- the composition that makes a class part of a whole -/
def partLink (e : Entity) (whole : String) : Link := ⟨.composition, whole, e.name⟩

/-- the key of a class that is part of a whole; `own` is the type of the key it has by itself -/
def keyUnder (e : Entity) (own whole suffix : String) : CompositeIdentity :=
  ⟨e.name ++ "Id", whole, Relationship.wholeField whole suffix, own, "Long"⟩

/-- what a class holds after some numbered links -/
inductive Held (own : String → String) (e : Entity) (ns : List (Link × Nat)) : Prop
  | free (hnone : ∀ n ∈ ns, ¬ n.1.Claims e.name) (hidentity : e.identity = none)
      (hfields : e.fields = onClass e.name (placements ns))
  | held (before after : List (Link × Nat)) {whole : String} {k : Nat} (hns : ns = before ++ (e.partLink whole, k) :: after)
      (hlast : ∀ n ∈ after, ¬ n.1.Claims e.name) (hidentity : e.identity = some (e.keyUnder (own e.name) whole (suffix k)))
      (hfields : e.fields = onClass e.name (placements before) ++ fieldsOn e.name ((e.partLink whole).fields k) ++
        onClass e.name (placements after))

/-- a class with more fields -/
def addAll (fs : List RelationField) (e : Entity) : Entity := { e with fields := e.fields ++ fs }

namespace Held

variable {own : String → String} {e : Entity} {ns : List (Link × Nat)}

/-- **A link that does not claim a class** adds fields to it without a share of the key. -/
theorem append (h : e.Held own ns) {n : Link × Nat} (hn : ¬ n.1.Claims e.name) :
    (e.addAll (fieldsOn e.name (n.1.fields n.2))).Held own (ns ++ [n]) := by
  have later : ∀ {ms : List (Link × Nat)}, (∀ m ∈ ms, ¬ m.1.Claims e.name) → ∀ m ∈ ms ++ [n], ¬ m.1.Claims e.name := by
    intro ms hms m hm
    rcases List.mem_append.1 hm with hm | hm
    · exact hms m hm
    · exact List.mem_singleton.1 hm ▸ hn
  rw [Link.fieldsOn_of_not_claims hn]
  cases h with
  | free hnone hidentity hfields =>
    refine .free (later hnone) hidentity ?_
    show e.fields ++ _ = onClass e.name _
    rw [hfields, onClass_snoc]
  | held before after hns hlast hidentity hfields =>
    refine .held before (after ++ [n]) ?_ (later hlast) hidentity ?_
    · rw [hns, List.append_assoc]
      rfl
    · show e.fields ++ _ = onClass e.name _ ++ _ ++ onClass e.name _
      rw [hfields, onClass_snoc, ← List.append_assoc]
      rfl

/-- **A composition that claims a class** holds it from then on. -/
theorem claim (h : e.fields = onClass e.name (placements ns)) (whole : String) (k : Nat) :
    (({ e with identity := some (e.keyUnder (own e.name) whole (suffix k)) } : Entity).addAll
      (fieldsOn e.name ((e.partLink whole).fields k))).Held own (ns ++ [(e.partLink whole, k)]) := by
  refine .held ns [] rfl (fun m hm => absurd hm List.not_mem_nil) rfl ?_
  show e.fields ++ _ = onClass e.name _ ++ _ ++ []
  rw [h, List.append_nil]
  rfl

/-- without the shares of the key the fields are those of the links -/
theorem map_plain_fields (h : e.Held own ns) : e.fields.map RelationField.plain = onClass e.name (placements ns) := by
  cases h with
  | free _ _ hfields => rw [hfields, map_plain_onClass]
  | held _ _ hns _ _ hfields =>
    rw [hfields, hns, placements_append, placements_cons, onClass_append, onClass_append, List.map_append,
      List.map_append, map_plain_onClass, map_plain_onClass, map_plain_fieldsOn, List.append_assoc]

/-- a share of the key is never the empty text -/
theorem given_mapsId (h : e.Held own ns) {f : RelationField} (hf : f ∈ e.fields) :
    f.mapsId = none ∨ (given? f.mapsId).isSome = true := by
  cases h with
  | free _ _ hfields =>
    rw [hfields] at hf
    exact Or.inl (mapsId_of_mem_onClass hf)
  | held _ _ _ _ _ hfields =>
    obtain ⟨others, hothers, hnone⟩ := Link.fieldsOn_part _ e.name _
    rw [hfields, partLink, hothers] at hf
    simp only [List.mem_append, List.mem_singleton] at hf
    rcases hf with (hf | hf | rfl) | hf
    · exact Or.inl (mapsId_of_mem_onClass hf)
    · exact Or.inl (hnone f hf)
    · refine Or.inr ?_
      simp [Relationship.keyReference, given?]
    · exact Or.inl (mapsId_of_mem_onClass hf)

/-- **A release** takes the share of the key back. -/
theorem fields_release (h : e.Held own ns) :
    (Session.releaseIdentity e).fields = onClass e.name (placements ns) := by
  rw [← h.map_plain_fields]
  refine List.map_congr_left fun f hf => ?_
  rcases h.given_mapsId hf with hnone | hsome
  · rw [hnone]
    exact (RelationField.plain_of_mapsId hnone).symm
  · rw [if_pos hsome]
    rfl

end Held

end Entity

/-! ## Calls -/

theorem numbered_snoc (ks earlier : List Link) (k : Link) :
    numbered earlier (ks ++ [k]) = numbered earlier ks ++ [(k, Link.rank (earlier ++ ks) k)] := by
  induction ks generalizing earlier with
  | nil => simp [numbered]
  | cons l rest ih => simp [numbered, ih]

namespace Session

theorem entities_placeAll (s : Session) (ps : List Placed) :
    (s.placeAll ps).entities = s.entities.map fun e => e.addAll (fieldsOn e.name ps) := by
  induction ps generalizing s with
  | nil => simp [placeAll, fieldsOn, Entity.addAll]
  | cons p rest ih =>
    refine (ih (s.place p)).trans ?_
    simp only [place, modify, List.map_map]
    refine List.map_congr_left fun e _ => ?_
    rw [fieldsOn_cons, Function.comp_apply]
    by_cases h : e.name = p.owner
    · rw [if_pos h, if_pos h.symm]
      simp [Entity.addAll, Entity.addField]
    · rw [if_neg h, if_neg (Ne.symm h)]
      rfl

/-- a session that has tied some links; `own` is as its names have it -/
structure Tied (own : String → String) (s : Session) (ks : List Link) : Prop where
  own_eq : s.ownIdType = own
  counts : s.layout.Counts ks
  held : ∀ e ∈ s.entities, e.Held own (numbered [] ks)

theorem numbered_tie {s : Session} {ks : List Link} (h : s.layout.Counts ks) (k : Link) :
    numbered [] (ks ++ [k]) = numbered [] ks ++ [(k, s.layout.number k)] := by
  rw [numbered_snoc, h k]
  rfl

variable {own : String → String} {s : Session} {ks : List Link}

/-- a link that is no composition -/
theorem Tied.tie (h : s.Tied own ks) {k : Link} (hk : k.shape ≠ .composition) :
    ((s.advance k.source k.target).placeAll (k.fields (s.layout.number k))).Tied own (ks ++ [k]) where
  own_eq := (unseen_placeAll _ (g := ownIdType) (fun _ _ _ => rfl) _).trans h.own_eq
  counts := by
    rw [layout_placeAll]
    exact h.counts.tie k
  held := by
    rw [numbered_tie h.counts, entities_placeAll]
    intro e' he'
    obtain ⟨e, he, rfl⟩ := List.mem_map.1 he'
    exact (h.held e he).append (n := (k, s.layout.number k)) fun hclaims => hk hclaims.1

/-- **A whole and its part.** The part has no share of a key yet, or has just lost it. -/
theorem Tied.bind {whole part : String} (hown : s.ownIdType = own) (hcounts : s.layout.Counts ks)
    (hpart : ∀ e ∈ s.entities, e.name = part → e.fields = onClass e.name (placements (numbered [] ks)))
    (hothers : ∀ e ∈ s.entities, e.name ≠ part → e.Held own (numbered [] ks)) :
    (s.bind whole part).Tied own (ks ++ [⟨.composition, whole, part⟩]) where
  own_eq := (unseen_placeAll _ (g := ownIdType) (fun _ _ _ => rfl) _).trans hown
  counts := by
    rw [layout_bind]
    exact hcounts.tie _
  held := by
    rw [numbered_tie hcounts]
    unfold Session.bind
    rw [entities_placeAll]
    intro e' he'
    obtain ⟨e₁, he₁, rfl⟩ := List.mem_map.1 he'
    obtain ⟨e, he, rfl⟩ := List.mem_map.1 he₁
    by_cases hname : e.name = part
    · subst hname
      rw [if_pos rfl]
      have hclaim : Entity.Held own _ _ :=
        Entity.Held.claim (hpart e he rfl) whole (s.layout.number ⟨.composition, whole, e.name⟩)
      rw [← hown] at hclaim ⊢
      exact hclaim
    · rw [if_neg hname]
      exact (hothers e he hname).append (n := (⟨.composition, whole, part⟩, s.layout.number ⟨.composition, whole, part⟩))
        fun hclaims => hname hclaims.2.symm

theorem Tied.compose (hs : s.Regular) (h : s.Tied own ks) {e : Edge} {b : Option Bool}
    (hok : (s.compose e).result = .ok b) :
    (s.compose e).session.Tied own (ks ++ s.names.linksOf (.compose e)) := by
  simp only [NameTable.linksOf]
  cases s.composes e with
  | unresolved hends hr =>
    rw [hr, hends, List.append_nil]
    exact h
  | @first whole part hends hfree hr =>
    rw [hr, hends]
    refine Tied.bind h.own_eq h.counts (fun entity he hname => ?_) fun entity he _ => h.held entity he
    -- a class without an identity was not claimed yet
    subst hname
    rw [hs.entity?_eq he] at hfree
    cases h.held entity he with
    | free _ _ hfields => exact hfields
    | held _ _ _ _ hidentity _ =>
      rw [Option.bind_some, hidentity] at hfree
      cases hfree
  | refused _ _ _ hr =>
    rw [hr] at hok
    cases hok
  | @again whole part held hends _ _ hr =>
    obtain ⟨log, hr⟩ := hr
    rw [hr, hends]
    refine Tied.bind (s := s.modify part releaseIdentity) h.own_eq ?_ (fun e' he' hname => ?_) fun e' he' hname => ?_
    · rw [layout_modify s part outline_releaseIdentity]
      exact h.counts
    · obtain ⟨entity, he, rfl⟩ := List.mem_map.1 he'
      by_cases hpart : entity.name = part
      · rw [if_pos hpart]
        exact hpart ▸ (h.held entity he).fields_release
      · rw [if_neg hpart] at hname
        exact absurd hname hpart
    · obtain ⟨entity, he, rfl⟩ := List.mem_map.1 he'
      by_cases hpart : entity.name = part
      · rw [if_pos hpart] at hname
        exact absurd hpart hname
      · rw [if_neg hpart]
        exact h.held entity he

theorem Tied.relate (h : s.Tied own ks) (e : Edge) :
    (s.relate e).session.Tied own (ks ++ s.names.linksOf (.relate e)) := by
  simp only [NameTable.linksOf]
  cases s.relates e with
  | other hkind hr =>
    rw [hr, if_pos (not_not.1 hkind), List.append_nil]
    exact h
  | unresolved hkind hends hr =>
    rw [hr, if_neg hkind, hends, List.append_nil]
    exact h
  | @direct source target hkind hends hassoc hr =>
    obtain ⟨log, hr⟩ := hr
    rw [hr, if_neg hkind, hends]
    unfold NameTable.plainLinks
    rw [hassoc]
    exact h.tie (k := ⟨.byCardinality _ _, source, target⟩) fun hshape => by cases hshape
  | @through source target assoc hkind hends hassoc hr =>
    rw [hr, if_neg hkind, hends]
    unfold NameTable.plainLinks
    rw [hassoc]
    have hclass : LinkShape.viaClass ≠ .composition := by decide
    have hsource := h.tie (k := ⟨.viaClass, source, assoc⟩) hclass
    have htarget := Tied.tie (k := ⟨.viaClass, target, assoc⟩) hsource hclass
    rw [List.append_assoc] at htarget
    exact htarget

theorem Tied.apply (h : s.Tied own ks) : s.apply.session.Tied own ks where
  own_eq := h.own_eq
  counts := by rw [layout_apply]; exact h.counts
  held := by
    intro e' he'
    obtain ⟨e, he, rfl⟩ := List.mem_map.1 he'
    -- a place in a hierarchy has nothing to do with what a class holds
    split
    · cases h.held e he with
      | free hnone hidentity hfields => exact .free hnone hidentity hfields
      | held before after hns hlast hidentity hfields => exact .held before after hns hlast hidentity hfields
    · exact h.held e he

/-- **One call.** A call that is not refused ties the links it asks for. -/
theorem Tied.step (hs : s.Regular) (h : s.Tied own ks) {c : Call} {b : Option Bool} (hok : (s.step c).result = .ok b) :
    (s.step c).session.Tied own (ks ++ s.names.linksOf c) := by
  cases c with
  | inherit e =>
    have hlinks : s.names.linksOf (.inherit e) = [] := rfl
    rw [hlinks, List.append_nil]
    exact keeps_inherit (P := fun t => t.Tied own ks) h fun _ _ => ⟨h.own_eq, h.counts, h.held⟩
  | compose e => exact h.compose hs hok
  | relate e => exact h.relate e
  | apply =>
    have hlinks : s.names.linksOf .apply = [] := rfl
    rw [hlinks, List.append_nil]
    exact h.apply

theorem tied_start (t : NameTable) (policy : Policy) : (start t policy).Tied (start t policy).ownIdType [] where
  own_eq := rfl
  counts := fun _ => rfl
  held := by
    intro e he
    obtain ⟨c, -, rfl⟩ := List.mem_map.1 he
    exact .free (fun n hn => absurd hn List.not_mem_nil) rfl rfl

end Session

/-! ## Plans -/

namespace Plan

theorem tied_of_takeAll {p q : Progress} {cs : List Call} {own : String → String} {ks : List Link}
    (hs : p.session.Regular) (h : p.session.Tied own ks) (hq : p.takeAll cs = .ok q) :
    q.session.Tied own (ks ++ cs.flatMap p.session.names.linksOf) := by
  induction cs generalizing p ks with
  | nil =>
    cases hq
    rw [List.flatMap_nil, List.append_nil]
    exact h
  | cons c rest ih =>
    obtain ⟨p', b, hsession, hb, hrest⟩ := Progress.step_of_takeAll hq
    have hs' : p'.session.Regular := hsession ▸ hs.step c
    have h' : p'.session.Tied own (ks ++ p.session.names.linksOf c) := hsession ▸ h.step hs hb
    have hnames : p'.session.names = p.session.names := hsession ▸ Session.names_step _ c
    have hrun := ih hs' h' hrest
    rw [hnames, List.append_assoc] at hrun
    exact hrun

/-- **What the classes of a plan hold.** It follows from the links of the diagram. -/
theorem held_of_build {policy : Policy} {d : Diagram} {p : Plan} (h : build policy d = .ok p) :
    ∀ e ∈ p.entities, e.Held (Session.start d.nameTable policy).ownIdType (numbered [] d.links) := by
  obtain ⟨q, hrun, hentities⟩ := run_of_build h
  have hreg := Session.regular_start (NameTable.closed_ofDiagram d) policy
  have hlinks : (calls d.edges).flatMap (begin policy d).session.names.linksOf = d.links := flatMap_linksOf_calls _ _
  have htied := tied_of_takeAll (p := begin policy d) hreg (Session.tied_start d.nameTable policy) hrun
  rw [hlinks] at htied
  rw [hentities]
  exact htied.held

end Plan

end Classwright
