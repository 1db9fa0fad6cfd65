/-
Parents and children are the same relation, told twice.

A hierarchy keeps the parent of every child and, in another table, the children of every parent. Both are changed in steps:
a child that moves is taken out of the list of its earlier parent, then its parent is replaced, then it is put into the list
of the new one. Whatever is adopted, moved and moved back, the tables stay inverse to each other, so a child that moves is
always found in the list that it leaves.

- `Hierarchy.adopt?`: an adoption that fails when the child is not found there;
- `Hierarchy.Joins`: what is true of a parent and its child; `Hierarchy.Mirrored`: the two tables as a whole;
- `Mirrored.adopt`: one adoption; `Session.hierarchy_step`: which adoptions a call makes; `mirrored_after`: all calls;
- `tables_inverse`: what the tables say of each other after any calls, refused ones among them.
-/
import Classwright.Proofs.Hierarchies

namespace Classwright

namespace Hierarchy

/-! ## Removal -/

/-- an element taken out of a list that must have it -/
def remove? (xs : List String) (x : String) : Option (List String) := if x ∈ xs then some (xs.erase x) else none

/-- a child under a parent; this fails when its earlier parent has one that does not list it -/
def adopt? (h : Hierarchy) (parent child : String) : Option Hierarchy :=
  match h.parent? child with
  | none => some (h.attach parent child)
  | some previous =>
    if previous = parent then some h
    else (remove? (h.childrenOf previous) child).map fun left =>
      ({ h with children := Table.set h.children previous left } : Hierarchy).attach parent child

/-- a parent that does not list its child -/
example : adopt? ⟨[("Car", "Vehicle")], [("Vehicle", [])]⟩ "Asset" "Car" = none := rfl

theorem Consistent.adopt?_eq {h : Hierarchy} (hc : h.Consistent) (parent child : String) :
    h.adopt? parent child = some (h.adopt parent child) := by
  unfold Hierarchy.adopt? Hierarchy.adopt
  cases hp : h.parent? child with
  | none => rfl
  | some previous =>
    have hlisted : child ∈ h.childrenOf previous := hc.mem_childrenOf.2 hp
    dsimp only
    split_ifs
    · rfl
    · rw [remove?, if_pos hlisted]
      rfl

/-! ## Both tables -/

/-- a class is entered once in each table -/
structure Keyed (h : Hierarchy) : Prop where
  parents : (Table.keys h.parentOf).Nodup
  children : (Table.keys h.children).Nodup

theorem Keyed.attach {h : Hierarchy} (hk : h.Keyed) (parent child : String) : (h.attach parent child).Keyed :=
  ⟨Table.nodup_set hk.parents _ _, Table.nodup_set hk.children _ _⟩

theorem Keyed.release {h : Hierarchy} (hk : h.Keyed) (parent child : String) : (h.release parent child).Keyed :=
  ⟨hk.parents, Table.nodup_set hk.children _ _⟩

theorem Keyed.adopt {h : Hierarchy} (hk : h.Keyed) (parent child : String) : (h.adopt parent child).Keyed := by
  unfold Hierarchy.adopt
  split
  · exact hk.attach parent child
  · split_ifs
    · exact hk
    · exact (hk.release _ child).attach parent child

/-- a parent and its child are two classes with a name -/
structure Joins (names : List String) (parent child : String) : Prop where
  distinct : parent ≠ child
  parent_ne_empty : parent ≠ ""
  child_ne_empty : child ≠ ""
  parent_mem : parent ∈ names
  child_mem : child ∈ names

/-- the tables are inverse to each other, and join classes that have a name -/
structure Mirrored (names : List String) (h : Hierarchy) : Prop where
  consistent : h.Consistent
  keyed : h.Keyed
  joins : ∀ {parent child}, h.parent? child = some parent → Joins names parent child

theorem mirrored_empty (names : List String) : Mirrored names {} where
  consistent := consistent_empty
  keyed := ⟨List.nodup_nil, List.nodup_nil⟩
  joins := nofun

/-- **One adoption.** -/
theorem Mirrored.adopt {names : List String} {h : Hierarchy} (hm : h.Mirrored names) {parent child : String}
    (hjoins : Joins names parent child) : (h.adopt parent child).Mirrored names where
  consistent := hm.consistent.adopt parent child
  keyed := hm.keyed.adopt parent child
  joins := by
    intro parent' child' hp
    rw [parent?_adopt] at hp
    split_ifs at hp with hchild
    · obtain rfl := Option.some.inj hp
      exact hchild ▸ hjoins
    · exact hm.joins hp

/-- a child is in the list of its parent once, and in no other list -/
theorem Mirrored.listed_once {names : List String} {h : Hierarchy} (hm : h.Mirrored names) {parent child : String}
    (hp : h.parent? child = some parent) :
    (h.childrenOf parent).count child = 1 ∧ ∀ row ∈ h.children, child ∈ row.2 → row.1 = parent := by
  refine ⟨List.count_eq_one_of_mem (hm.consistent.nodup parent) (hm.consistent.mem_childrenOf.2 hp), ?_⟩
  intro row hrow hchild
  have hlist : h.childrenOf row.1 = row.2 := by
    unfold childrenOf
    rw [Table.get?_of_mem hm.keyed.children hrow]
    rfl
  rw [← hlist, hm.consistent.mem_childrenOf, hp] at hchild
  exact (Option.some.inj hchild).symm

end Hierarchy

/-! ## Calls -/

namespace Session

/-- **What a call does to the hierarchy.** It lets one class adopt another, as an inheritance edge claims, or does nothing. -/
theorem hierarchy_step (s : Session) (c : Call) : (s.step c).session.hierarchy = s.hierarchy ∨
    ∃ e parent child, c = .inherit e ∧ s.names.ends? e = some (parent, child) ∧ parent ≠ child ∧
      (s.step c).session.hierarchy = s.hierarchy.adopt parent child := by
  cases c with
  | apply => exact Or.inl rfl
  | compose e => exact Or.inl (unseen_compose s e fun _ _ _ => rfl)
  | relate e => exact Or.inl (unseen_relate s e fun _ _ _ => rfl)
  | inherit e =>
    show (s.inherit e).session.hierarchy = _ ∨ _
    cases s.inherits e with
    | unresolved _ hr => rw [hr]; exact Or.inl rfl
    | self _ hr => obtain ⟨log, hr⟩ := hr; rw [hr]; exact Or.inl rfl
    | known _ _ _ hr => rw [hr]; exact Or.inl rfl
    | refused _ _ _ _ _ hr => rw [hr]; exact Or.inl rfl
    | @adopted parent child hends hne _ hr =>
      obtain ⟨log, hr⟩ := hr
      refine Or.inr ⟨e, parent, child, rfl, hends, hne, ?_⟩
      show (s.inherit e).session.hierarchy = _
      rw [hr]
      rfl

theorem mirrored_step {s : Session} (hclosed : s.names.Closed) (hm : s.hierarchy.Mirrored s.names.names) (c : Call) :
    (s.step c).session.hierarchy.Mirrored s.names.names := by
  rcases s.hierarchy_step c with hsame | ⟨e, parent, child, -, hends, hne, hadopt⟩
  · rw [hsame]
    exact hm
  · obtain ⟨hparent, hchild⟩ := NameTable.named_of_ends? hends
    rw [hadopt]
    exact hm.adopt ⟨hne, (NameTable.named?_eq_some.1 hparent).2, (NameTable.named?_eq_some.1 hchild).2,
      hclosed.named_mem hparent, hclosed.named_mem hchild⟩

/-- the tables stay inverse through any calls, also past conflicts -/
theorem mirrored_after {s : Session} (hclosed : s.names.Closed) (hm : s.hierarchy.Mirrored s.names.names)
    (cs : List Call) : (s.after cs).hierarchy.Mirrored s.names.names := by
  induction cs generalizing s with
  | nil => exact hm
  | cons c rest ih =>
    have hstep := mirrored_step hclosed hm c
    rw [← names_step s c] at hclosed hstep ⊢
    exact ih hclosed hstep

end Session

/-- **The tables of a hierarchy are inverse to each other.** After any calls under either policy, also past edges that were
dropped or refused, a class is the parent of another exactly when it lists it among its children. The child is then in that
list once and in no other, and the two are different classes of the diagram, both with a name. No class is entered twice in
either table. Whatever is adopted next, a child that leaves its parent is found among the children there. -/
theorem tables_inverse (policy : Policy) (d : Diagram) (cs : List Call) :
    let h := ((Session.start d.nameTable policy).after cs).hierarchy
    (∀ parent child, h.parent? child = some parent ↔ child ∈ h.childrenOf parent) ∧
      (∀ parent child, h.parent? child = some parent →
        (h.childrenOf parent).count child = 1 ∧ (∀ row ∈ h.children, child ∈ row.2 → row.1 = parent) ∧
          Hierarchy.Joins d.nameTable.names parent child) ∧
      h.Keyed ∧ ∀ parent child, h.adopt? parent child = some (h.adopt parent child) := by
  intro h
  have hm : h.Mirrored d.nameTable.names :=
    Session.mirrored_after (s := Session.start d.nameTable policy) (NameTable.closed_ofDiagram d)
      (Hierarchy.mirrored_empty _) cs
  refine ⟨fun parent child => hm.consistent.mem_childrenOf.symm, fun parent child hp => ?_, hm.keyed,
    hm.consistent.adopt?_eq⟩
  obtain ⟨honce, honly⟩ := hm.listed_once hp
  exact ⟨honce, honly, hm.joins hp⟩

end Classwright
