/-
When two diagrams say the same of a class.

What a plan says of a class follows from little: the links at the class, the type of the key it has by itself, the parent
that claimed it last, and whether it was the last parent of any class. Plans of diagrams that agree in this say the same of
the class, whatever else is in the diagrams. And the strict policy looks at the claims of a diagram only.

- `Link.touches`: a link with a class at one of its ends; `Held.touching`: what a class holds follows from these;
- `Held.unique`: it follows from them in one way only;
- `Diagram.AgreesOn`: two diagrams agree on a class; `Plan.alike_of_build`: so do their plans;
- `Plan.entities_eq`: diagrams with the same names that agree on every class have plans with the same classes;
- `Plan.build_fail_eq_error_iff`: diagrams with the same claims are refused with the same conflict.
-/
import Classwright.Proofs.Distinct
import Classwright.Proofs.Parts

namespace Classwright

/-- two ways to cut a list at an element are one, or one of them cuts before the other -/
theorem cut_cases {α : Type} {before after before' after' : List α} {x x' : α}
    (h : before ++ x :: after = before' ++ x' :: after') :
    (before = before' ∧ x = x' ∧ after = after') ∨ (∃ mid, before' = before ++ x :: mid ∧ after = mid ++ x' :: after') ∨
      ∃ mid, before = before' ++ x' :: mid ∧ after' = mid ++ x :: after := by
  rcases List.append_eq_append_iff.1 h with ⟨mid, rfl, hmid⟩ | ⟨mid, rfl, hmid⟩
  · cases mid with
    | nil =>
      obtain ⟨hx, hafter⟩ := List.cons.inj hmid
      exact Or.inl ⟨(List.append_nil _).symm, hx, hafter⟩
    | cons y mid =>
      obtain ⟨rfl, hafter⟩ := List.cons.inj hmid
      exact Or.inr (Or.inl ⟨mid, rfl, hafter⟩)
  · cases mid with
    | nil =>
      obtain ⟨hx, hafter⟩ := List.cons.inj hmid
      exact Or.inl ⟨List.append_nil _, hx.symm, hafter.symm⟩
    | cons y mid =>
      obtain ⟨rfl, hafter⟩ := List.cons.inj hmid
      exact Or.inr (Or.inr ⟨mid, rfl, hafter⟩)

/-- elements that nothing comes of can be left out -/
theorem flatMap_filter_of_idle {α β : Type} {p : α → Bool} {f : α → List β} {xs : List α}
    (h : ∀ x ∈ xs, ¬ p x = true → f x = []) : (xs.filter p).flatMap f = xs.flatMap f := by
  induction xs with
  | nil => rfl
  | cons x rest ih =>
    have hrest := ih fun y hy => h y (List.mem_cons_of_mem x hy)
    by_cases hp : p x = true
    · rw [List.filter_cons_of_pos hp, List.flatMap_cons, List.flatMap_cons, hrest]
    · rw [List.filter_cons_of_neg hp, List.flatMap_cons, h x List.mem_cons_self hp, List.nil_append, hrest]

/-! ## The links at a class -/

namespace Link

/-- a link with a class at one of its ends -/
def touches (name : String) (l : Link) : Bool := l.source == name || l.target == name

theorem touches_iff {name : String} {l : Link} : l.touches name = true ↔ l.source = name ∨ l.target = name := by
  unfold touches
  rw [Bool.or_eq_true, beq_iff_eq, beq_iff_eq]

theorem touches_owner {l : Link} {k : Nat} {p : Placed} (hp : p ∈ l.fields k) : l.touches p.owner = true := by
  rw [touches_iff]
  rcases Link.ends hp with ⟨ho, -⟩ | ⟨ho, -⟩
  · exact Or.inl ho.symm
  · exact Or.inr ho.symm

/-- a link of the same pair touches the same classes -/
theorem touches_of_samePair {k l : Link} (h : k.samePair l = true) {name : String} (hk : k.touches name = true) :
    l.touches name = true := by
  rw [touches_iff] at hk ⊢
  rcases samePair_iff.1 h with ⟨hs, ht⟩ | ⟨hs, ht⟩
  · rwa [hs, ht] at hk
  · rw [hs, ht] at hk
    exact hk.symm

theorem onClass_of_not_touches {l : Link} {name : String} (h : ¬ l.touches name = true) (k : Nat) :
    onClass name (l.fields k) = [] := by
  unfold onClass
  rw [List.map_eq_nil_iff, List.filter_eq_nil_iff]
  intro p hp howner
  exact h (of_decide_eq_true howner ▸ touches_owner hp)

end Link

/-- a class has no fields but those of the links at it -/
theorem onClass_touching (name : String) (ns : List (Link × Nat)) :
    onClass name (placements (ns.filter fun n => n.1.touches name)) = onClass name (placements ns) := by
  induction ns with
  | nil => rfl
  | cons n rest ih =>
    rw [List.filter_cons]
    split_ifs with h
    · rw [placements_cons, placements_cons, onClass_append, onClass_append, ih]
    · rw [placements_cons, onClass_append, Link.onClass_of_not_touches h, List.nil_append, ih]

/-- the links at a class are numbered as if there were no others -/
theorem numbered_touching (name : String) (ks earlier : List Link) :
    (numbered earlier ks).filter (fun n => n.1.touches name) =
      numbered (earlier.filter (Link.touches name)) (ks.filter (Link.touches name)) := by
  induction ks generalizing earlier with
  | nil => rfl
  | cons k rest ih =>
    by_cases h : k.touches name = true
    · have hrank : Link.rank earlier k = Link.rank (earlier.filter (Link.touches name)) k := by
        unfold Link.rank
        rw [List.countP_filter]
        congr 1
        refine List.countP_congr fun l _ => ?_
        rw [Bool.and_eq_true]
        exact ⟨fun hsame => ⟨hsame, Link.touches_of_samePair hsame h⟩, And.left⟩
      rw [numbered, List.filter_cons, if_pos h, ih (earlier ++ [k]), List.filter_append, List.filter_cons_of_pos h,
        List.filter_cons_of_pos h, List.filter_nil, numbered, hrank]
    · rw [numbered, List.filter_cons, if_neg h, ih (earlier ++ [k]), List.filter_append, List.filter_cons_of_neg h,
        List.filter_cons_of_neg h, List.filter_nil, List.append_nil]

namespace Entity

namespace Held

variable {own : String → String} {e : Entity} {ns : List (Link × Nat)}

/-- **Other links do not matter.** What a class holds follows from the links at it. -/
theorem touching (h : e.Held own ns) : e.Held own (ns.filter fun n => n.1.touches e.name) := by
  have hsub : ∀ {ms : List (Link × Nat)}, (∀ n ∈ ms, ¬ n.1.Claims e.name) →
      ∀ n ∈ ms.filter (fun n => n.1.touches e.name), ¬ n.1.Claims e.name :=
    fun hms n hn => hms n (List.mem_filter.1 hn).1
  cases h with
  | free hnone hidentity hfields =>
    refine .free (hsub hnone) hidentity ?_
    rw [onClass_touching]
    exact hfields
  | @held before after whole k hns hlast hidentity hfields =>
    have hpart : (e.partLink whole).touches e.name = true := Link.touches_iff.2 (Or.inr rfl)
    refine .held (before.filter fun n => n.1.touches e.name) (after.filter fun n => n.1.touches e.name) ?_ (hsub hlast)
      hidentity ?_
    · rw [hns, List.filter_append, List.filter_cons, if_pos hpart]
    · rw [onClass_touching, onClass_touching]
      exact hfields

/-- **One way only.** Classes of one name with the same links hold the same. -/
theorem unique {own' : String → String} {e' : Entity} (h : e.Held own ns) (h' : e'.Held own' ns)
    (hname : e.name = e'.name) (hown : own e.name = own' e.name) :
    e.fields = e'.fields ∧ e.identity = e'.identity := by
  have hclaims : ∀ {ms : List (Link × Nat)} {whole : String} {k : Nat}, (∀ n ∈ ms, ¬ n.1.Claims e.name) →
      (e.partLink whole, k) ∉ ms := fun hms hmem => hms _ hmem ⟨rfl, rfl⟩
  have hlink : ∀ whole, e'.partLink whole = e.partLink whole := by
    intro whole
    unfold partLink
    rw [hname]
  cases h with
  | free hnone hidentity hfields =>
    cases h' with
    | free _ hidentity' hfields' => exact ⟨by rw [hfields, hfields', hname], hidentity.trans hidentity'.symm⟩
    | @held before' after' whole' k' hns' _ _ _ =>
      refine absurd ?_ (@hclaims _ whole' k' hnone)
      rw [hns', hlink]
      exact List.mem_append_right _ List.mem_cons_self
  | @held before after whole k hns hlast hidentity hfields =>
    cases h' with
    | free hnone' _ _ =>
      rw [← hname] at hnone'
      refine absurd ?_ (@hclaims _ whole k hnone')
      rw [hns]
      exact List.mem_append_right _ List.mem_cons_self
    | @held before' after' whole' k' hns' hlast' hidentity' hfields' =>
      rw [← hname] at hlast'
      rw [hns, hlink] at hns'
      -- a cut before the other would leave a later claim
      rcases cut_cases hns' with ⟨rfl, hcut, rfl⟩ | ⟨mid, -, rfl⟩ | ⟨mid, -, rfl⟩
      · obtain ⟨hwhole, rfl⟩ := Prod.mk.inj hcut
        obtain rfl : whole = whole' := congrArg Link.source hwhole
        refine ⟨by rw [hfields, hfields', hlink, hname], ?_⟩
        rw [hidentity, hidentity', keyUnder, keyUnder, ← hname, hown]
      · exact absurd (List.mem_append_right _ List.mem_cons_self) (hclaims hlast)
      · exact absurd (List.mem_append_right _ List.mem_cons_self) (hclaims hlast')

end Held

end Entity

/-! ## Places -/

theorem Hierarchy.Consistent.place_eq {t t' : Hierarchy} (ht : t.Consistent) (ht' : t'.Consistent) {name : String}
    (hparent : t.parent? name = t'.parent? name)
    (hchildren : (∃ child, t.parent? child = some name) ↔ ∃ child, t'.parent? child = some name) :
    t.place name = t'.place name := by
  have hisParent : t.isParent name = t'.isParent name := by
    rw [Bool.eq_iff_iff, ht.isParent_iff, ht'.isParent_iff]
    exact hchildren
  have hisChild : t.isChild name = t'.isChild name := by
    unfold Hierarchy.isChild
    rw [hparent]
  unfold Hierarchy.place
  rw [hisParent, hisChild, hparent]

/-! ## Diagrams -/

namespace Diagram

/-- the type of the key that a class has by itself -/
def ownIdType (d : Diagram) (name : String) : String := (Session.start d.nameTable .lastWins).ownIdType name

/-- two diagrams agree in what a plan says of a class -/
structure AgreesOn (d d' : Diagram) (name : String) : Prop where
  ownIdType : d.ownIdType name = d'.ownIdType name
  links : d.links.filter (Link.touches name) = d'.links.filter (Link.touches name)
  parent : d.lastParent? name = d'.lastParent? name
  children : (∃ child, d.lastParent? child = some name) ↔ ∃ child, d'.lastParent? child = some name

/-- diagrams with the same last parents have the same children under each -/
theorem AgreesOn.of_forall {d d' : Diagram} (hown : ∀ name, d.ownIdType name = d'.ownIdType name)
    (hlinks : ∀ name, d.links.filter (Link.touches name) = d'.links.filter (Link.touches name))
    (hparent : ∀ name, d.lastParent? name = d'.lastParent? name) (name : String) : d.AgreesOn d' name where
  ownIdType := hown name
  links := hlinks name
  parent := hparent name
  children := exists_congr fun child => by rw [hparent child]

end Diagram

/-- two classes are alike in all that the edges decide -/
structure Entity.AlikeByEdges (e e' : Entity) : Prop where
  fields : e.fields = e'.fields
  identity : e.identity = e'.identity
  inheritance : e.inheritance = e'.inheritance

/-- lists with the same keys are the same under a function that gives the same for equal keys -/
theorem map_eq_of_keys {α β κ : Type} {key : α → κ} {f : α → β} {xs ys : List α} (hkeys : xs.map key = ys.map key)
    (h : ∀ x ∈ xs, ∀ y ∈ ys, key x = key y → f x = f y) : xs.map f = ys.map f := by
  induction xs generalizing ys with
  | nil =>
    rw [List.map_nil, eq_comm, List.map_eq_nil_iff] at hkeys
    rw [hkeys]
  | cons x rest ih =>
    cases ys with
    | nil => cases hkeys
    | cons y rest' =>
      obtain ⟨hkey, hrest⟩ := List.cons.inj hkeys
      refine congrArg₂ List.cons (h x List.mem_cons_self y List.mem_cons_self hkey) (ih hrest ?_)
      exact fun a ha b hb => h a (List.mem_cons_of_mem x ha) b (List.mem_cons_of_mem y hb)

namespace Plan

variable {policy policy' : Policy} {d d' : Diagram} {p p' : Plan}

/-- **Diagrams that agree on a class** have plans that say the same of it. -/
theorem alike_of_build (h : build policy d = .ok p) (h' : build policy' d' = .ok p') {e e' : Entity}
    (he : e ∈ p.entities) (he' : e' ∈ p'.entities) (hname : e.name = e'.name) (hagree : d.AgreesOn d' e.name) :
    e.AlikeByEdges e' := by
  have hheld := (held_of_build h e he).touching
  have hheld' := (held_of_build h' e' he').touching
  rw [numbered_touching, List.filter_nil] at hheld hheld'
  rw [← hname, ← hagree.links] at hheld'
  obtain ⟨hfields, hidentity⟩ := hheld.unique hheld' hname hagree.ownIdType
  obtain ⟨t, hconsistent, hparent, hplace⟩ := hierarchy_of_build h
  obtain ⟨t', hconsistent', hparent', hplace'⟩ := hierarchy_of_build h'
  refine ⟨hfields, hidentity, ?_⟩
  rw [hplace e he, hplace' e' he', ← hname]
  refine hconsistent.place_eq hconsistent' ?_ ?_
  · rw [hparent, hparent', hagree.parent]
  · simp only [hparent, hparent']
    exact hagree.children

theorem isAssociationClass_of_build (h : build policy d = .ok p) :
    ∀ e ∈ p.entities, e.isAssociationClass = d.nameTable.associationClasses.contains e.name := by
  have hinvariant : EntityInvariant fun e =>
      e.isAssociationClass = d.nameTable.associationClasses.contains e.name :=
    ⟨fun he _ => he, fun he _ => he, fun he _ _ _ => he, fun he => he⟩
  refine hinvariant.of_build (fun e he => ?_) h
  obtain ⟨c, -, rfl⟩ := List.mem_map.1 he
  rfl

/-- **Diagrams with the same names that agree on every class** have plans with the same classes. -/
theorem entities_eq (h : build policy d = .ok p) (h' : build policy' d' = .ok p') (htable : d.nameTable = d'.nameTable)
    (hagree : ∀ name, d.AgreesOn d' name) : p.entities = p'.entities := by
  have hnames : p.entities.map Entity.name = p'.entities.map Entity.name := by
    rw [names_of_build h, names_of_build h', htable]
  rw [← List.map_id p.entities, ← List.map_id p'.entities]
  refine map_eq_of_keys hnames fun e he e' he' hname => ?_
  obtain ⟨hfields, hidentity, hinheritance⟩ := alike_of_build h h' he he' hname (hagree e.name)
  have hattributes : e.attributes = e'.attributes := by
    have hclass := attributes_of_build h e he
    have hclass' := attributes_of_build h' e' he'
    rw [htable, hname] at hclass
    have hclosed := NameTable.closed_ofDiagram d'
    exact (hclosed.attributesOf_eq hclass).symm.trans (hclosed.attributesOf_eq hclass')
  have hassociation : e.isAssociationClass = e'.isAssociationClass := by
    rw [isAssociationClass_of_build h e he, isAssociationClass_of_build h' e' he', htable, hname]
  exact Entity.mk.injEq .. |>.mpr ⟨hname, hattributes, hfields, hinheritance, hidentity, hassociation⟩

end Plan

/-! ## Conflicts -/

theorem ClaimKind.Clash.symm {k : ClaimKind} {a b : String} (h : k.Clash a b) : k.Clash b a := by
  cases k with
  | inheritance => exact Ne.symm h
  | composition => exact trivial

/-- claims that do not clash have one holder for each class -/
theorem Peaceful.holder_unique {k : ClaimKind} {claims : List (String × String)} (h : Peaceful k claims)
    {name a b : String} (ha : (name, a) ∈ claims) (hb : (name, b) ∈ claims) : a = b := by
  have hsymm : Std.Symm fun c c' : String × String => c.1 = c'.1 → ¬ k.Clash c.2 c'.2 :=
    ⟨fun _ _ hc hname hclash => hc hname.symm hclash.symm⟩
  by_contra hne
  have hpair : (name, a) ≠ (name, b) := fun heq => hne (Prod.mk.inj heq).2
  exact hne (ClaimKind.eq_of_not_clash (h.forall ha hb hpair rfl))

namespace Diagram

variable {d : Diagram} {x y : Conflict}

/-- of two claims that clash with an earlier one, the later is not the first that does -/
theorem not_peaceful_of_clash {k : ClaimKind} {name previous current : String} {before after : List (String × String)}
    (hmem : (name, previous) ∈ before) (hclash : k.Clash previous current) :
    ¬ Peaceful k (before ++ (name, current) :: after) := by
  intro hpeace
  have hcross := (List.pairwise_append.1 hpeace).2.2
  exact hcross _ hmem _ List.mem_cons_self rfl hclash

/-- **The first dispute of a kind** is about one conflict. -/
theorem FirstDispute.unique (hx : d.FirstDispute x) (hy : d.FirstDispute y) (hkind : x.kind = y.kind) : x = y := by
  obtain ⟨kind, name, previous, current⟩ := x
  obtain ⟨kind', name', previous', current'⟩ := y
  obtain rfl : kind = kind' := hkind
  obtain ⟨before, after, hclaims, hmem, hclash, hpeace⟩ := hx
  obtain ⟨before', after', hclaims', hmem', hclash', hpeace'⟩ := hy
  dsimp only at hclaims hmem hclash hpeace hclaims' hmem' hclash' hpeace'
  rw [hclaims] at hclaims'
  rcases cut_cases hclaims' with ⟨rfl, hclaim, -⟩ | ⟨mid, rfl, -⟩ | ⟨mid, rfl, -⟩
  · obtain ⟨rfl, rfl⟩ := Prod.mk.inj hclaim
    rw [hpeace.holder_unique hmem hmem']
  · exact absurd hpeace' (not_peaceful_of_clash hmem hclash)
  · exact absurd hpeace (not_peaceful_of_clash hmem' hclash')

end Diagram

namespace Plan

variable {d d' : Diagram}

theorem exists_error_of_disputed {k : ClaimKind} (h : d.Disputed k) : ∃ x, build .fail d = .error x := by
  cases hb : build .fail d with
  | error x => exact ⟨x, rfl⟩
  | ok p => exact absurd h (peaceful_of_build hb k)

theorem build_fail_error_of_claims (hclaims : ∀ k, d.claims k = d'.claims k) {x : Conflict}
    (h : build .fail d = .error x) : build .fail d' = .error x := by
  have hdisputed : ∀ k, d.Disputed k ↔ d'.Disputed k := by
    intro k
    unfold Diagram.Disputed
    rw [hclaims k]
  have hfirst : d'.FirstDispute x := by
    have hx := firstDispute_of_build h
    unfold Diagram.FirstDispute at hx ⊢
    rwa [hclaims] at hx
  obtain ⟨y, hy⟩ := exists_error_of_disputed hfirst.disputed
  have hparents : x.kind = .inheritance ↔ y.kind = .inheritance := by
    constructor
    · intro hkind
      exact kind_of_build hy (hkind ▸ hfirst.disputed)
    · intro hkind
      exact kind_of_build h ((hdisputed _).2 (hkind ▸ (firstDispute_of_build hy).disputed))
  have hkind : x.kind = y.kind := by
    cases hx : x.kind with
    | inheritance => exact (hparents.1 hx).symm
    | composition =>
      cases hyk : y.kind with
      | composition => rfl
      | inheritance =>
        rw [hparents.2 hyk] at hx
        cases hx
  rw [hy, hfirst.unique (firstDispute_of_build hy) hkind]

/-- **The strict policy looks at claims only.** Diagrams with the same claims are refused with the same conflict. -/
theorem build_fail_eq_error_iff (hclaims : ∀ k, d.claims k = d'.claims k) (x : Conflict) :
    build .fail d = .error x ↔ build .fail d' = .error x :=
  ⟨build_fail_error_of_claims hclaims, build_fail_error_of_claims fun k => (hclaims k).symm⟩

/-- diagrams with the same claims are refused alike under either policy -/
theorem build_eq_error_iff (policy : Policy) (hclaims : ∀ k, d.claims k = d'.claims k) (x : Conflict) :
    build policy d = .error x ↔ build policy d' = .error x := by
  cases policy with
  | fail => exact build_fail_eq_error_iff hclaims x
  | lastWins =>
    obtain ⟨p, hp⟩ := exists_build d
    obtain ⟨p', hp'⟩ := exists_build d'
    rw [hp, hp']
    exact iff_of_false nofun nofun

end Plan

end Classwright
