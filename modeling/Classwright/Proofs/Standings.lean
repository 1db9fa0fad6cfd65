/-
What a plan says of the place of each class.

The edges are read one at a time, and a child may change its parent more than once. What is left in the end depends on the
last claim of each child alone: a class is a child of the parent it claimed last, and a parent of those that claimed it last.

- `Inheritance.Describes`: what a place says of a class, in terms of the parents that count;
- `Entity.StandsBy`: a class has a place exactly when it is a child or a parent, and the place describes it;
- `standings_of_last_claims`: every class of a plan stands by the last claims.
-/
import Classwright.Proofs.Ancestry
import Classwright.Proofs.Policies

namespace Classwright

theorem Text.initialUpper_eq (s : String) :
    Text.initialUpper s = String.ofList ((s.toList.take 1).flatMap Text.upperChar) := by
  unfold Text.initialUpper
  cases hs : s.toList with
  | nil => rfl
  | cons c rest => simp

/-- the place of a class that is in a hierarchy, by the parents that count -/
structure Inheritance.Describes (i : Inheritance) (parent? : String → Option String) (name : String) : Prop where
  isChild : i.isChild = true ↔ ∃ parent, parent? name = some parent
  parentName : i.parentName = parent? name
  isParent : i.isParent = true ↔ ∃ child, parent? child = some name
  discriminator : i.discriminatorValue = some (String.ofList ((name.toList.take 1).flatMap Text.upperChar))

structure Entity.StandsBy (e : Entity) (parent? : String → Option String) : Prop where
  outside : e.inheritance = none ↔ parent? e.name = none ∧ ∀ child, parent? child ≠ some e.name
  inside : ∀ i, e.inheritance = some i → i.Describes parent? e.name

namespace Hierarchy

theorem not_isChild_iff (t : Hierarchy) (name : String) : t.isChild name = false ↔ t.parent? name = none := by
  unfold isChild
  rw [Option.isSome_eq_false_iff, Option.isNone_iff_eq_none]

theorem Consistent.not_isParent_iff {t : Hierarchy} (ht : t.Consistent) (name : String) :
    t.isParent name = false ↔ ∀ child, t.parent? child ≠ some name := by
  rw [← Bool.not_eq_true, ht.isParent_iff, not_exists]

theorem Consistent.describes {t : Hierarchy} (ht : t.Consistent) (name : String) :
    Inheritance.Describes ⟨t.isParent name, t.isChild name, t.parent? name, some (Naming.discriminator name)⟩
      t.parent? name where
  isChild := t.isChild_iff name
  parentName := rfl
  isParent := ht.isParent_iff name
  discriminator := congrArg some (Text.initialUpper_eq name)

/-- **A place written from a hierarchy.** It says what the hierarchy says. -/
theorem Consistent.standsBy {t : Hierarchy} (ht : t.Consistent) {e : Entity} (he : e.inheritance = t.place e.name) :
    e.StandsBy t.parent? := by
  rcases t.place_cases e.name with ⟨hparent, hchild, hnone⟩ | hsome
  · rw [hnone] at he
    refine ⟨⟨fun _ => ⟨(t.not_isChild_iff e.name).1 hchild, (ht.not_isParent_iff e.name).1 hparent⟩, fun _ => he⟩, ?_⟩
    intro i hi
    rw [he] at hi
    cases hi
  · rw [hsome] at he
    refine ⟨⟨fun hi => ?_, fun ⟨hchild, hparent⟩ => ?_⟩, ?_⟩
    · rw [he] at hi
      cases hi
    · -- a class that is neither a child nor a parent gets no place
      rw [← t.not_isChild_iff] at hchild
      rw [← ht.not_isParent_iff] at hparent
      unfold place at hsome
      rw [hchild, hparent] at hsome
      cases hsome
    · intro i hi
      rw [he] at hi
      cases hi
      exact ht.describes e.name

end Hierarchy

namespace Plan

theorem standsBy_of_build {policy : Policy} {d : Diagram} {p : Plan} (h : build policy d = .ok p) :
    ∀ e ∈ p.entities, e.StandsBy d.lastParent? := by
  obtain ⟨t, hconsistent, hparent, hplace⟩ := hierarchy_of_build h
  rw [← funext hparent]
  exact fun e he => hconsistent.standsBy (hplace e he)

end Plan

/-- **The last claims decide.** When the last claim wins, a diagram has a plan with a place for every class that is a child
or a parent by the last claims, and for no other. A class whose children all went to other parents is no parent. -/
theorem standings_of_last_claims (d : Diagram) :
    ∃ p, Plan.build .lastWins d = .ok p ∧ p.entities.map Entity.name = d.nameTable.names ∧
      ∀ e ∈ p.entities, e.StandsBy d.lastParent? ∧
        ((∀ child, (child, e.name) ∈ d.parentClaims → d.lastParent? child ≠ some e.name) →
          ∀ i, e.inheritance = some i → i.isParent = false) := by
  obtain ⟨p, hp⟩ := Plan.exists_build d
  refine ⟨p, hp, Plan.names_of_build hp, fun e he => ⟨Plan.standsBy_of_build hp e he, fun hleft i hi => ?_⟩⟩
  have hstands := Plan.standsBy_of_build hp e he
  rw [← Bool.not_eq_true, (hstands.inside i hi).isParent]
  rintro ⟨child, hchild⟩
  exact hleft child (List.mem_reverse.1 (Table.mem_of_get? hchild)) hchild

theorem untangled_standings : ("Vehicle", "Car") ∈ untangled.parentClaims ∧ ∃ p, Plan.build .lastWins untangled = .ok p ∧
    ∀ e ∈ p.entities, e.name = "Car" → ∀ i, e.inheritance = some i → i.isParent = false := by
  obtain ⟨p, hp, -, hstands⟩ := standings_of_last_claims untangled
  refine ⟨by decide, p, hp, fun e he hname => (hstands e he).2 fun child hchild => ?_⟩
  -- the only class claimed for the car is the vehicle, which moved on
  have hclaims : untangled.parentClaims = [("Vehicle", "Car"), ("Car", "Vehicle"), ("Vehicle", "Asset")] := by decide
  obtain rfl : child = "Vehicle" := by simpa [hclaims, hname] using hchild
  rw [hname]
  decide

end Classwright
