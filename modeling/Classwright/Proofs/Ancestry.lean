/-
Which hierarchies have a root.

The parents of a class lead to a root, and the root alone declares how the hierarchy is stored, exactly as long as the last
claims do not run in a circle. Only a claim of a class on itself is ignored, so two edges can make a circle.

- `ancestor?`: the class a number of parents above another; `exists_top`: without a circle every class has a topmost
  ancestor, by well-founded induction along the parents of finitely many classes;
- `circle_of_ancestor?`: the ancestors of a class in a circle are in a circle themselves, so none of them is topmost;
- `Plan.Rooted`: the parents of a class lead to a root;
- `hierarchies_rooted`: every child of a plan is rooted exactly when the last claims have no circle.
-/
import Mathlib.Data.Fintype.Card
import Mathlib.Data.Fintype.EquivFin
import Mathlib.Data.Fintype.Sets
import Mathlib.Logic.Relation
import Classwright.Java.Entity
import Classwright.Proofs.Hierarchies

namespace Classwright

open Relation (TransGen)

/-! ## Ancestors -/

/-- the class that is `n` parents above a class -/
def ancestor? (up : String → Option String) : Nat → String → Option String
  | 0, c => some c
  | n + 1, c => (up c).bind (ancestor? up n)

/-- no class is among its own ancestors -/
def NoCircle (up : String → Option String) : Prop := ∀ c, ¬ TransGen (fun a b => up a = some b) c c

section

variable {up : String → Option String}

theorem ancestor?_add (m n : Nat) (c : String) :
    ancestor? up (m + n) c = (ancestor? up m c).bind (ancestor? up n) := by
  induction m generalizing c with
  | zero => rw [Nat.zero_add]; rfl
  | succ m ih =>
    rw [Nat.succ_add]
    simp only [ancestor?]
    cases up c with
    | none => rfl
    | some q => exact ih q

theorem exists_child_of_ancestor? {n : Nat} {c r : String} (h : ancestor? up (n + 1) c = some r) :
    ∃ a, up a = some r := by
  rw [ancestor?_add] at h
  obtain ⟨a, -, ha⟩ := Option.bind_eq_some_iff.1 h
  obtain ⟨q, hq, hr⟩ := Option.bind_eq_some_iff.1 ha
  cases hr
  exact ⟨a, hq⟩

/-- above a topmost class there is nothing, so it is reached in one number of steps only -/
theorem ancestor?_unique {c r : String} {n : Nat} (hn : ancestor? up n c = some r) {k : Nat} (hk : k ≤ n) {a : String}
    (ha : ancestor? up k c = some a) (htop : up a = none) : a = r := by
  obtain ⟨j, rfl⟩ := Nat.exists_eq_add_of_le hk
  rw [ancestor?_add, ha, Option.bind_some] at hn
  cases j with
  | zero => exact Option.some.inj hn
  | succ j => simp [ancestor?, htop] at hn

/-- where every parent ranks above its children there is no circle -/
theorem noCircle_of_rank (rank : String → Nat) (h : ∀ {c q}, up c = some q → rank c < rank q) : NoCircle up := by
  have hpath : ∀ {a b}, TransGen (fun a b => up a = some b) a b → rank a < rank b := by
    intro a b hab
    induction hab with
    | single hb => exact h hb
    | tail _ hb ih => exact ih.trans (h hb)
  exact fun c hc => lt_irrefl _ (hpath hc)

theorem exists_top {names : List String} (hup : ∀ {c q}, up c = some q → q ∈ names) (h : NoCircle up) {c : String}
    (hc : c ∈ names) : ∃ n, ∃ r ∈ names, ancestor? up n c = some r ∧ up r = none := by
  -- the strict ancestors of the listed classes, a well-founded relation on a finite type
  let above : {x // x ∈ names} → {x // x ∈ names} → Prop := fun q c => TransGen (fun a b => up a = some b) c.1 q.1
  have htrans : IsTrans _ above := ⟨fun _ _ _ hab hbc => hbc.trans hab⟩
  have hirrefl : Std.Irrefl above := ⟨fun c => h c.1⟩
  have hfinite : Finite {x // x ∈ names} := inferInstance
  have hwf : WellFounded above := Finite.wellFounded_of_trans_of_irrefl above
  suffices H : ∀ x : {x // x ∈ names}, ∃ n, ∃ r ∈ names, ancestor? up n x.1 = some r ∧ up r = none from H ⟨c, hc⟩
  intro x
  induction x using hwf.induction with
  | _ x ih =>
    cases hx : up x.1 with
    | none => exact ⟨0, x.1, x.2, rfl, hx⟩
    | some q =>
      obtain ⟨n, r, hr, hn, htop⟩ := ih ⟨q, hup hx⟩ (TransGen.single hx)
      refine ⟨n + 1, r, hr, ?_, htop⟩
      simp only [ancestor?, hx]
      exact hn

theorem circle_of_ancestor? {c : String} (h : TransGen (fun a b => up a = some b) c c) {n : Nat} {r : String}
    (hn : ancestor? up n c = some r) : TransGen (fun a b => up a = some b) r r := by
  induction n generalizing c with
  | zero => cases hn; exact h
  | succ n ih =>
    obtain ⟨q, hq, hr⟩ := Option.bind_eq_some_iff.1 hn
    -- a class has one parent, so the circle through it goes on through that parent
    obtain ⟨q', hq', hback⟩ := TransGen.head'_iff.1 h
    have hsame : q = q' := Option.some.inj (hq.symm.trans hq')
    subst hsame
    exact ih (TransGen.tail' hback hq) hr

theorem exists_parent_of_circle {c : String} (h : TransGen (fun a b => up a = some b) c c) : ∃ q, up c = some q := by
  obtain ⟨q, hq, -⟩ := TransGen.head'_iff.1 h
  exact ⟨q, hq⟩

end

/-! ## What an entity declares -/

/-- the joined strategy and the discriminator column -/
def Entity.DeclaresStorage (e : Entity) : Prop :=
  Java.Marking.keyed "Inheritance" "strategy" (.constant "InheritanceType" "JOINED") ∈ Java.classMarkings e ∧
    ∃ m ∈ Java.classMarkings e, m.name = "DiscriminatorColumn"

theorem Entity.declaresStorage_iff (e : Entity) : e.DeclaresStorage ↔ e.isRoot = true := by
  constructor
  · rintro ⟨-, m, hm, hname⟩
    by_contra hroot
    have hmem := List.mem_map_of_mem (f := Java.Marking.name) hm
    rw [hname] at hmem
    unfold Java.classMarkings Java.hierarchyMarkings at hmem
    rw [if_neg hroot] at hmem
    cases hc : e.isChild <;> simp [hc, Java.discriminatorMarking, Java.Marking.keyed, Java.Marking.only] at hmem
  · intro hroot
    unfold DeclaresStorage Java.classMarkings Java.hierarchyMarkings
    rw [if_pos hroot]
    exact ⟨List.mem_append_right _ List.mem_cons_self, _,
      List.mem_append_right _ (List.mem_cons_of_mem _ List.mem_cons_self), rfl⟩

/-! ## The place of an entity -/

namespace Hierarchy

variable {t : Hierarchy} {e : Entity}

theorem place_cases (t : Hierarchy) (name : String) :
    (t.isParent name = false ∧ t.isChild name = false ∧ t.place name = none) ∨
      t.place name = some ⟨t.isParent name, t.isChild name, t.parent? name, some (Naming.discriminator name)⟩ := by
  unfold place
  cases hp : t.isParent name <;> cases hc : t.isChild name
  · exact Or.inl ⟨rfl, rfl, rfl⟩
  · exact Or.inr rfl
  · exact Or.inr rfl
  · exact Or.inr rfl

theorem isChild_of_place (h : e.inheritance = t.place e.name) : e.isChild = t.isChild e.name := by
  unfold Entity.isChild
  rw [h]
  rcases t.place_cases e.name with ⟨-, hc, hnone⟩ | hsome
  · rw [hnone, hc]
  · rw [hsome]

theorem isRoot_of_place (h : e.inheritance = t.place e.name) : e.isRoot = (t.isParent e.name && !t.isChild e.name) := by
  unfold Entity.isRoot
  rw [h]
  rcases t.place_cases e.name with ⟨hp, hc, hnone⟩ | hsome
  · rw [hnone, hp, hc]
    rfl
  · rw [hsome]
    rfl

theorem parentName_of_place (h : e.inheritance = t.place e.name) :
    e.inheritance.bind Inheritance.parentName = t.parent? e.name := by
  rw [h]
  rcases t.place_cases e.name with ⟨-, hc, hnone⟩ | hsome
  · rw [hnone]
    exact (Option.not_isSome_iff_eq_none.1 (Bool.eq_false_iff.1 hc)).symm
  · rw [hsome]
    rfl

end Hierarchy

/-! ## Plans -/

namespace Plan

/-- the parent that a class of the plan names -/
def parentName? (p : Plan) (name : String) : Option String :=
  (p.entities.find? fun e => e.name == name).bind fun e => e.inheritance.bind Inheritance.parentName

/-- the parents of a class lead to a root, the only class on the way that declares how the hierarchy is stored -/
def Rooted (p : Plan) (e : Entity) : Prop :=
  ∃ n, ∃ r ∈ p.entities, ancestor? p.parentName? n e.name = some r.name ∧ r.isRoot = true ∧
    ∀ k ≤ n, ∀ a ∈ p.entities, ancestor? p.parentName? k e.name = some a.name → (a.DeclaresStorage ↔ a = r)

/-- what a plan says of the places of its classes, in terms of the last claims -/
structure Follows (p : Plan) (d : Diagram) : Prop where
  nodup : (p.entities.map Entity.name).Nodup
  names : p.entities.map Entity.name = d.nameTable.names
  parentName? : p.parentName? = d.lastParent?
  isChild : ∀ e ∈ p.entities, e.isChild = true ↔ ∃ parent, d.lastParent? e.name = some parent
  isRoot : ∀ e ∈ p.entities, e.isRoot = true ↔
    (∃ child, d.lastParent? child = some e.name) ∧ d.lastParent? e.name = none

theorem follows_of_build {policy : Policy} {d : Diagram} {p : Plan} (h : build policy d = .ok p) : p.Follows d := by
  obtain ⟨t, hconsistent, hparent, hplace⟩ := hierarchy_of_build h
  have hnames := names_of_build h
  refine ⟨hnames ▸ (NameTable.closed_ofDiagram d).names_nodup, hnames, ?_, fun e he => ?_, fun e he => ?_⟩
  · funext name
    unfold Plan.parentName?
    cases hfind : p.entities.find? fun e => e.name == name with
    | none =>
      -- a class that claims a parent is a class of the plan
      cases hlast : d.lastParent? name with
      | none => rfl
      | some parent =>
        have hmem := (Diagram.named_of_lastParent? hlast).1
        rw [← hnames] at hmem
        obtain ⟨e, he, hname⟩ := List.mem_map.1 hmem
        exact absurd (List.find?_eq_none.1 hfind e he) (by simp [hname])
    | some e =>
      have he := List.mem_of_find?_eq_some hfind
      have hname : e.name = name := by simpa using List.find?_some hfind
      rw [Option.bind_some, Hierarchy.parentName_of_place (hplace e he), hparent, hname]
  · rw [Hierarchy.isChild_of_place (hplace e he), t.isChild_iff]
    simp only [hparent]
  · rw [Hierarchy.isRoot_of_place (hplace e he), Bool.and_eq_true, Bool.not_eq_true', hconsistent.isParent_iff]
    simp only [hparent, Hierarchy.isChild, Option.isSome_eq_false_iff, Option.isNone_iff_eq_none]

theorem Follows.entity_of_mem {p : Plan} {d : Diagram} (hf : p.Follows d) {name : String}
    (h : name ∈ d.nameTable.names) : ∃ e ∈ p.entities, e.name = name := by
  rw [← hf.names] at h
  obtain ⟨e, he, hname⟩ := List.mem_map.1 h
  exact ⟨e, he, hname⟩

theorem Follows.rooted {p : Plan} {d : Diagram} (hf : p.Follows d) (hcircle : NoCircle d.lastParent?) {e : Entity}
    (he : e ∈ p.entities) (hchild : e.isChild = true) : p.Rooted e := by
  have hmem : e.name ∈ d.nameTable.names := hf.names ▸ List.mem_map_of_mem he
  obtain ⟨n, top, htop, hn, hnone⟩ := exists_top (fun h => (Diagram.named_of_lastParent? h).2) hcircle hmem
  obtain ⟨r, hr, rfl⟩ := hf.entity_of_mem htop
  obtain ⟨parent, hparent⟩ := (hf.isChild e he).1 hchild
  have hroot : r.isRoot = true := by
    refine (hf.isRoot r hr).2 ⟨?_, hnone⟩
    cases n with
    | zero =>
      rw [Option.some.inj hn, hnone] at hparent
      cases hparent
    | succ n => exact exists_child_of_ancestor? hn
  refine ⟨n, r, hr, ?_, hroot, fun k hk a ha hka => ?_⟩
  · rw [hf.parentName?]
    exact hn
  · rw [hf.parentName?] at hka
    rw [a.declaresStorage_iff]
    refine ⟨fun haroot => ?_, fun h => h ▸ hroot⟩
    have hname := ancestor?_unique hn hk hka ((hf.isRoot a ha).1 haroot).2
    exact List.inj_on_of_nodup_map hf.nodup ha hr hname

theorem Follows.noCircle {p : Plan} {d : Diagram} (hf : p.Follows d)
    (h : ∀ e ∈ p.entities, e.isChild = true → p.Rooted e) : NoCircle d.lastParent? := by
  intro c hcircle
  obtain ⟨parent, hparent⟩ := exists_parent_of_circle hcircle
  obtain ⟨e, he, rfl⟩ := hf.entity_of_mem (Diagram.named_of_lastParent? hparent).1
  obtain ⟨n, r, hr, hn, hroot, -⟩ := h e he ((hf.isChild e he).2 ⟨parent, hparent⟩)
  rw [hf.parentName?] at hn
  -- the root would be in the circle, below a parent
  obtain ⟨q, hq⟩ := exists_parent_of_circle (circle_of_ancestor? hcircle hn)
  rw [((hf.isRoot r hr).1 hroot).2] at hq
  cases hq

end Plan

/-- **When every hierarchy has a root.** The parents of every child of a plan lead to a root, which alone on the way
declares the joined strategy and the discriminator column, exactly when the last claims of the diagram have no circle. -/
theorem hierarchies_rooted (policy : Policy) (d : Diagram) (p : Plan) (h : Plan.build policy d = .ok p) :
    (∀ e ∈ p.entities, e.isChild = true → p.Rooted e) ↔ NoCircle d.lastParent? :=
  ⟨(Plan.follows_of_build h).noCircle, fun hcircle _ he => (Plan.follows_of_build h).rooted hcircle he⟩

/-- a car over a vehicle and a vehicle over a car, until the vehicle moves under an asset -/
def untangled : Diagram where
  nodes := [⟨"v", "Vehicle", [], false⟩, ⟨"c", "Car", [], false⟩, ⟨"a", "Asset", [], false⟩]
  edges := [⟨"", "c", "v", none, none, none, .inheritance⟩, ⟨"", "v", "c", none, none, none, .inheritance⟩,
    ⟨"", "a", "v", none, none, none, .inheritance⟩]
  metadata := .null

theorem noCircle_untangled : NoCircle untangled.lastParent? := by
  have hclaims : untangled.parentClaims.reverse = [("Vehicle", "Asset"), ("Car", "Vehicle"), ("Vehicle", "Car")] := by
    decide
  refine noCircle_of_rank (fun c => if c = "Car" then 0 else if c = "Vehicle" then 1 else 2) fun {c q} h => ?_
  unfold Diagram.lastParent? at h
  rw [hclaims] at h
  simp only [Table.get?] at h
  split_ifs at h with hv hc
  · cases h; subst hv; decide
  · cases h; subst hc; decide

theorem untangled_rooted : ∃ p, Plan.build .lastWins untangled = .ok p ∧ (∃ e ∈ p.entities, e.isChild = true) ∧
    ∀ e ∈ p.entities, e.isChild = true → p.Rooted e :=
  ⟨_, rfl, by decide, (hierarchies_rooted .lastWins untangled _ rfl).2 noCircle_untangled⟩

/-- two classes that each extend the other -/
def entangled : Diagram where
  nodes := [⟨"a", "A", [], false⟩, ⟨"b", "B", [], false⟩]
  edges := [⟨"", "a", "b", none, none, none, .inheritance⟩, ⟨"", "b", "a", none, none, none, .inheritance⟩]
  metadata := .null

/-- **A hierarchy without a root.** Two classes that each extend the other are refused under neither policy; each is its
own ancestor, and no class declares how they are stored. -/
theorem entangled_not_rooted : ∃ p, Plan.build .lastWins entangled = .ok p ∧ Plan.build .fail entangled = .ok p ∧
    ancestor? p.parentName? 2 "A" = some "A" ∧ ∀ e ∈ p.entities, e.isChild = true ∧ ¬ p.Rooted e := by
  refine ⟨_, rfl, rfl, by decide, fun e he => ⟨?_, ?_⟩⟩
  · revert e
    decide
  · rintro ⟨n, r, hr, -, hroot, -⟩
    revert r
    decide

end Classwright
