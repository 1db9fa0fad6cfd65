/-
Refused calls change nothing.

A session answers a call with a conflict, with whether an edge was taken, or with nothing. Whatever calls came before, also
after conflicts, what a call looks up is there, so a conflict is the only way in which it fails. A call that takes no edge
leaves the session as it was. A call that takes one puts fields behind the fields of a class, and touches an older field
only where a whole claims its part: there the share of the key goes.

- `Session.Furnished`: what a call looks up is there; `furnished_after`: in every session that is reached;
- `RelationField.KeptAs`, `Entity.Grown`, `Session.Grows`: what stays of fields, classes and sessions, with one lemma for
  each change of a session;
- `session_of_declined`, `conflict_of_step`, `grows_step`: the three outcomes of a call;
- `refused_step_changes_nothing`: all of them, for every session that is reached.
-/
import Classwright.Proofs.Hierarchies
import Classwright.Proofs.Policies

namespace Classwright

/-! ## What stays -/

theorem forall₂_trans {α : Type} {R : α → α → Prop} (h : ∀ {a b c}, R a b → R b c → R a c) {l m n : List α}
    (hl : List.Forall₂ R l m) (hm : List.Forall₂ R m n) : List.Forall₂ R l n := by
  induction hl generalizing n with
  | nil => cases hm; exact .nil
  | cons ha _ ih =>
    cases hm with
    | cons hb hrest => exact .cons (h ha hb) (ih hrest)

/-- a field as it was, or, in a class that is claimed, without its share of the key -/
def RelationField.KeptAs (claimed : Prop) (f f' : RelationField) : Prop := f' = f ∨ claimed ∧ f' = f.plain

/-- a class with more fields behind those it had; only a claimed one may get another identity -/
structure Entity.Grown (claimed : Prop) (e e' : Entity) : Prop where
  name : e'.name = e.name
  attributes : e'.attributes = e.attributes
  inheritance : e'.inheritance = e.inheritance
  isAssociationClass : e'.isAssociationClass = e.isAssociationClass
  identity : ¬ claimed → e'.identity = e.identity
  fields : ∃ kept added, e'.fields = kept ++ added ∧ List.Forall₂ (RelationField.KeptAs claimed) e.fields kept

namespace Entity.Grown

variable {claimed : Prop} {e e' e'' : Entity}

theorem keptAs_refl (fs : List RelationField) : List.Forall₂ (RelationField.KeptAs claimed) fs fs :=
  List.forall₂_same.2 fun _ _ => Or.inl rfl

/-- what is kept twice is kept -/
theorem keptAs_trans {f f' f'' : RelationField} (h : f.KeptAs claimed f') (h' : f'.KeptAs claimed f'') :
    f.KeptAs claimed f'' := by
  rcases h with rfl | ⟨hclaimed, rfl⟩
  · exact h'
  · rcases h' with rfl | ⟨-, rfl⟩
    · exact Or.inr ⟨hclaimed, rfl⟩
    · exact Or.inr ⟨hclaimed, rfl⟩

theorem refl (claimed : Prop) (e : Entity) : e.Grown claimed e :=
  ⟨rfl, rfl, rfl, rfl, fun _ => rfl, e.fields, [], (List.append_nil _).symm, keptAs_refl _⟩

theorem trans (h : e.Grown claimed e') (h' : e'.Grown claimed e'') : e.Grown claimed e'' where
  name := h'.name.trans h.name
  attributes := h'.attributes.trans h.attributes
  inheritance := h'.inheritance.trans h.inheritance
  isAssociationClass := h'.isAssociationClass.trans h.isAssociationClass
  identity hfree := (h'.identity hfree).trans (h.identity hfree)
  fields := by
    obtain ⟨kept, added, heq, hkept⟩ := h.fields
    obtain ⟨kept', added', heq', hkept'⟩ := h'.fields
    -- the fields kept by the second change are those kept by the first one and those it added
    rw [heq] at hkept'
    have hfront := (List.forall₂_take_append kept' kept added hkept'.flip).flip
    refine ⟨kept'.take kept.length, kept'.drop kept.length ++ added', ?_, ?_⟩
    · rw [heq', ← List.append_assoc, List.take_append_drop]
    · exact forall₂_trans (R := RelationField.KeptAs claimed) keptAs_trans hkept hfront

theorem addField (claimed : Prop) (f : RelationField) (e : Entity) : e.Grown claimed (e.addField f) :=
  ⟨rfl, rfl, rfl, rfl, fun _ => rfl, e.fields, [f], rfl, keptAs_refl _⟩

theorem identify (hclaimed : claimed) (i : Option CompositeIdentity) (e : Entity) :
    e.Grown claimed { e with identity := i } :=
  ⟨rfl, rfl, rfl, rfl, fun hfree => absurd hclaimed hfree, e.fields, [], (List.append_nil _).symm, keptAs_refl _⟩

theorem releaseIdentity (hclaimed : claimed) (e : Entity) : e.Grown claimed (Session.releaseIdentity e) := by
  refine ⟨rfl, rfl, rfl, rfl, fun hfree => absurd hclaimed hfree, _, [], (List.append_nil _).symm, ?_⟩
  refine List.forall₂_map_right_iff.2 (List.forall₂_same.2 fun f _ => ?_)
  split_ifs
  · exact Or.inr ⟨hclaimed, rfl⟩
  · exact Or.inl rfl

end Entity.Grown

namespace Session

/-- every class as it was or grown, in the same order -/
def Grows (claimed : String → Prop) (s s' : Session) : Prop :=
  List.Forall₂ (fun e e' => Entity.Grown (claimed e.name) e e') s.entities s'.entities

namespace Grows

variable {claimed : String → Prop} {s s' s'' : Session}

theorem refl (claimed : String → Prop) (s : Session) : s.Grows claimed s := List.forall₂_same.2 fun e _ => .refl _ e

theorem trans (h : s.Grows claimed s') (h' : s'.Grows claimed s'') : s.Grows claimed s'' := by
  refine forall₂_trans (fun {e e' e''} he he' => ?_) h h'
  rw [he.name] at he'
  exact he.trans he'

theorem modify {name : String} {f : Entity → Entity} (hf : ∀ e : Entity, e.name = name → e.Grown (claimed name) (f e))
    (s : Session) : s.Grows claimed (s.modify name f) := by
  refine List.forall₂_map_right_iff.2 (List.forall₂_same.2 fun e _ => ?_)
  split_ifs with h
  · rw [h]
    exact hf e h
  · exact .refl _ e

theorem placeAll (claimed : String → Prop) (s : Session) (ps : List Placed) : s.Grows claimed (s.placeAll ps) := by
  induction ps generalizing s with
  | nil => exact refl claimed s
  | cons p rest ih => exact (modify (fun e _ => .addField _ p.field e) s).trans (ih (s.place p))

/-- a part under a whole: the part is claimed -/
theorem bind {part : String} (hclaimed : claimed part) (s : Session) (whole : String) :
    s.Grows claimed (s.bind whole part) := by
  have hpart : ∀ i : Option CompositeIdentity,
      s.Grows claimed ((s.advance whole part).modify part fun e => { e with identity := i }) := fun i =>
    modify (fun e _ => .identify hclaimed i e) (s.advance whole part)
  exact (hpart _).trans (placeAll claimed _ _)

end Grows

end Session

/-! ## What is there -/

/-- the class that a composition edge claims for its whole -/
def Call.Claims (t : NameTable) (c : Call) (part : String) : Prop :=
  ∃ e whole, c = .compose e ∧ t.ends? e = some (whole, part)

/-- the calls that may end in a conflict of a kind -/
def Call.Contests (c : Call) (kind : ClaimKind) : Prop :=
  (∃ e, c = .inherit e ∧ kind = .inheritance) ∨ ∃ e, c = .compose e ∧ kind = .composition

namespace Session

/-- what a call looks up is there: the classes at the ends of an edge, every class that may get a place, and a child
among the children of its parent -/
structure Furnished (s : Session) : Prop where
  named : ∀ id name, s.names.named? id = some name → ∃ e, s.entity? name = some e
  listed : ∀ name ∈ s.names.names, ∃ e, s.entity? name = some e
  children : ∀ child parent, s.hierarchy.parent? child = some parent → child ∈ s.hierarchy.childrenOf parent

theorem Regular.entity?_of_mem {s : Session} (h : s.Regular) {name : String} (hname : name ∈ s.names.names) :
    ∃ e, s.entity? name = some e := by
  rw [← h.keys, keys_layout] at hname
  obtain ⟨e, he, rfl⟩ := List.mem_map.1 hname
  exact ⟨e, h.entity?_eq he⟩

theorem consistent_step {s : Session} (h : s.hierarchy.Consistent) (c : Call) :
    (s.step c).session.hierarchy.Consistent := by
  cases c with
  | apply => exact h
  | inherit e =>
    exact keeps_inherit (P := fun t => t.hierarchy.Consistent) h fun parent child => h.adopt parent child
  | compose e =>
    have heq : (s.compose e).session.hierarchy = s.hierarchy := unseen_compose s e fun _ _ _ => rfl
    exact heq ▸ h
  | relate e =>
    have heq : (s.relate e).session.hierarchy = s.hierarchy := unseen_relate s e fun _ _ _ => rfl
    exact heq ▸ h

theorem consistent_after {s : Session} (h : s.hierarchy.Consistent) (cs : List Call) :
    (s.after cs).hierarchy.Consistent := by
  induction cs generalizing s with
  | nil => exact h
  | cons c rest ih => exact ih (consistent_step h c)

theorem policy_after (s : Session) (cs : List Call) : (s.after cs).policy = s.policy := by
  induction cs generalizing s with
  | nil => rfl
  | cons c rest ih => exact (ih _).trans (policy_step s c)

theorem furnished_after (d : Diagram) (policy : Policy) (cs : List Call) :
    ((start d.nameTable policy).after cs).Furnished := by
  have hclosed := NameTable.closed_ofDiagram d
  have hregular := (regular_start hclosed policy).after cs
  have hconsistent : ((start d.nameTable policy).after cs).hierarchy.Consistent :=
    consistent_after Hierarchy.consistent_empty cs
  exact {
    named := fun id name h => hregular.entity?_of_mem (hregular.closed.named_mem h)
    listed := fun name h => hregular.entity?_of_mem h
    children := fun child parent h => hconsistent.mem_childrenOf.2 h }

/-! ## What a call comes to -/

variable {s : Session} {c : Call}

/-- a call that ends in a conflict, or does not take its edge -/
def Declined (s : Session) (c : Call) : Prop :=
  (s.step c).result = .ok (some false) ∨ ∃ x, (s.step c).result = .error x

/-- **A call that is declined** leaves the session as it was. -/
theorem session_of_declined (h : s.Declined c) : (s.step c).session = s := by
  -- a reply that takes the edge, or writes the hierarchy, is not the reply of a declined call
  have htaken : ∀ {t : Session} {log : Log}, s.step c ≠ t.taken log := by
    intro t log hr
    rcases h with h | ⟨x, h⟩ <;> rw [hr] at h <;> cases h
  cases c with
  | apply => rcases h with h | ⟨x, h⟩ <;> cases h
  | inherit e =>
    show (s.inherit e).session = s
    cases s.inherits e with
    | unresolved _ hr => rw [hr]; rfl
    | self _ hr => obtain ⟨log, hr⟩ := hr; rw [hr]; rfl
    | known _ _ _ hr => rw [hr]; rfl
    | refused _ _ _ _ _ hr => rw [hr]
    | adopted _ _ _ hr => obtain ⟨log, hr⟩ := hr; exact absurd hr htaken
  | compose e =>
    show (s.compose e).session = s
    cases s.composes e with
    | unresolved _ hr => rw [hr]; rfl
    | first _ _ hr => exact absurd hr htaken
    | refused _ _ _ hr => rw [hr]
    | again _ _ _ hr => obtain ⟨log, hr⟩ := hr; exact absurd hr htaken
  | relate e =>
    show (s.relate e).session = s
    cases s.relates e with
    | other _ hr => rw [hr]; rfl
    | unresolved _ _ hr => rw [hr]; rfl
    | direct _ _ _ hr => obtain ⟨log, hr⟩ := hr; exact absurd hr htaken
    | through _ _ _ hr => exact absurd hr htaken

/-- **A conflict** comes from a second parent or a second whole, under the strict policy only. -/
theorem conflict_of_step {x : Conflict} (h : (s.step c).result = .error x) : s.policy = .fail ∧ c.Contests x.kind := by
  cases c with
  | apply => cases h
  | inherit e =>
    obtain ⟨hpolicy, hkind, -⟩ := refused_inherit (s.inherits e) h
    exact ⟨hpolicy, Or.inl ⟨e, rfl, hkind⟩⟩
  | compose e =>
    obtain ⟨hpolicy, hkind, -⟩ := refused_compose (s.composes e) h
    exact ⟨hpolicy, Or.inr ⟨e, rfl, hkind⟩⟩
  | relate e =>
    obtain ⟨b, hb⟩ := (ties_relate s e).1
    cases hb.symm.trans h

/-- **A call that takes its edge** puts fields behind those that are there; only in a part that a whole claims does an older
field change. -/
theorem grows_step (h : (s.step c).result = .ok (some true)) : s.Grows (c.Claims s.names) (s.step c).session := by
  cases c with
  | apply => cases h
  | inherit e =>
    exact keeps_inherit (P := fun t => s.Grows (Call.Claims s.names (.inherit e)) t) (.refl _ s) fun _ _ => .refl _ s
  | compose e =>
    show s.Grows _ (s.compose e).session
    cases s.composes e with
    | unresolved _ hr => rw [hr]; exact .refl _ s
    | @first whole part hends _ hr =>
      rw [hr]
      exact .bind ⟨e, whole, rfl, hends⟩ s whole
    | refused _ _ _ hr => rw [hr]; exact .refl _ s
    | @again whole part _ hends _ _ hr =>
      obtain ⟨log, hr⟩ := hr
      have hclaimed : Call.Claims s.names (.compose e) part := ⟨e, whole, rfl, hends⟩
      rw [hr]
      exact (Grows.modify (fun e _ => .releaseIdentity hclaimed e) s).trans (.bind hclaimed _ whole)
  | relate e =>
    exact keeps_relate (P := fun t => s.Grows (Call.Claims s.names (.relate e)) t) (.refl _ s)
      (fun source target => .placeAll _ (s.advance source target) _)
      fun {t} endpoint assoc ht => ht.trans (.placeAll _ (t.advance endpoint assoc) _)

/-- **A refused call changes nothing.** In every session that is reached, what a call looks up is there; a declined call
leaves the whole session as it was; a conflict arises under the strict policy only, from a second parent or a second whole;
and a call that takes its edge puts fields behind those that are there, where only a claimed part loses shares of its
key. -/
theorem refused_step_changes_nothing (d : Diagram) (policy : Policy) (cs : List Call) (c : Call) :
    let s := (start d.nameTable policy).after cs
    s.Furnished ∧ (s.Declined c → (s.step c).session = s) ∧
      (∀ x, (s.step c).result = .error x → policy = .fail ∧ c.Contests x.kind) ∧
      ((s.step c).result = .ok (some true) → s.Grows (c.Claims d.nameTable) (s.step c).session) := by
  intro s
  have hpolicy : s.policy = policy := policy_after (start d.nameTable policy) cs
  have hnames : s.names = d.nameTable := names_after (start d.nameTable policy) cs
  refine ⟨furnished_after d policy cs, session_of_declined, fun x hx => ?_, fun htaken => ?_⟩
  · rw [← hpolicy]
    exact conflict_of_step hx
  · rw [← hnames]
    exact grows_step htaken

/-- a stove that a kitchen has, and that a hall asks for -/
def canteen : Diagram where
  nodes := [⟨"k", "Kitchen", [], false⟩, ⟨"h", "Hall", [], false⟩, ⟨"s", "Stove", [], false⟩]
  edges := [⟨"has", "k", "s", none, none, none, .composition⟩, ⟨"asks", "h", "s", none, none, none, .composition⟩]
  metadata := .null

/-- the fields of every class with their shares of the key -/
def shares (s : Session) : List (List (String × Option String)) :=
  s.entities.map fun e => e.fields.map fun f => (f.name, f.mapsId)

theorem canteen_asked :
    let has : Call := .compose ⟨"has", "k", "s", none, none, none, .composition⟩
    let asks : Call := .compose ⟨"asks", "h", "s", none, none, none, .composition⟩
    let s := fun policy => (start canteen.nameTable policy).after [has]
    canteen.edges.map Call.compose = [has, asks] ∧
      ((s .fail).step asks).result = .error ⟨.composition, "Stove", "Kitchen", "Hall"⟩ ∧
      ((s .fail).step asks).session = s .fail ∧
      ((s .lastWins).step asks).result = .ok (some true) ∧
      (s .lastWins).Grows (asks.Claims canteen.nameTable) ((s .lastWins).step asks).session ∧
      (s .lastWins).shares = [[("stoves", none)], [], [("kitchen", some "kitchenId")]] ∧
      ((s .lastWins).step asks).session.shares =
        [[("stoves", none)], [("stoves", none)], [("kitchen", none), ("hall", some "hallId")]] := by
  intro has asks s
  have hrefused : ((s .fail).step asks).result = .error ⟨.composition, "Stove", "Kitchen", "Hall"⟩ := rfl
  obtain ⟨-, hsame, -, -⟩ := refused_step_changes_nothing canteen .fail [has] asks
  obtain ⟨-, -, -, hgrows⟩ := refused_step_changes_nothing canteen .lastWins [has] asks
  exact ⟨rfl, hrefused, hsame (Or.inr ⟨_, hrefused⟩), rfl, hgrows rfl, by decide, by decide⟩

end Session

end Classwright
