/-
Edges that come to nothing.

An edge is dropped when one of its ends is no class with a name, or when it would make a class its own parent. Both passes
over the edges, and all three readings of an edge, decide this by the names alone, before they count, claim or place
anything. A diagram without its dropped edges is thus planned in the same way.

- `NameTable.Drops`: the edges that are dropped; `answer_inherit`, `answer_fieldCall`: they are those whose call says so;
- `Plan.dropped_of_build`: a plan counts each of them once;
- `Diagram.sifted`: a diagram without them; `links_sifted`, `claims_sifted`: nothing is lost with them;
- `dropped_edges_idle`: it has the same plan, with no dropped edge, or the same conflict.
-/
import Classwright.Proofs.Agreement

namespace Classwright

namespace NameTable

/-- an end of the edge is no class with a name, or a class would be its own parent -/
def Drops (t : NameTable) (e : Edge) : Prop :=
  t.named? e.source = none ∨ t.named? e.target = none ∨
    (e.kind = .inheritance ∧ t.named? e.source = t.named? e.target)

instance (t : NameTable) (e : Edge) : Decidable (t.Drops e) := by unfold Drops; infer_instance

variable {t : NameTable} {e : Edge}

theorem drops_of_ends?_eq_none (h : t.ends? e = none) : t.Drops e := by
  unfold ends? at h
  cases hs : t.named? e.source with
  | none => exact Or.inl hs
  | some a =>
    cases ht : t.named? e.target with
    | none => exact Or.inr (Or.inl ht)
    | some b => rw [hs, ht] at h; cases h

/-- between two classes with a name, only a claim of a class on itself is dropped -/
theorem drops_iff_of_ends? {a b : String} (h : t.ends? e = some (a, b)) :
    t.Drops e ↔ e.kind = .inheritance ∧ a = b := by
  obtain ⟨hs, ht⟩ := named_of_ends? h
  unfold Drops
  rw [hs, ht]
  simp

end NameTable

/-! ## The answers of calls -/

namespace Session

variable {s : Session} {e : Edge} {b : Option Bool}

theorem answer_inherit (hkind : e.kind = .inheritance) (h : (s.inherit e).result = .ok b) :
    b = some false ↔ s.names.Drops e := by
  cases s.inherits e with
  | unresolved hends hr =>
    rw [hr] at h
    cases h
    exact iff_of_true rfl (NameTable.drops_of_ends?_eq_none hends)
  | self hends hr =>
    obtain ⟨log, hr⟩ := hr
    rw [hr] at h
    cases h
    exact iff_of_true rfl ((NameTable.drops_iff_of_ends? hends).2 ⟨hkind, rfl⟩)
  | known hends hne _ hr =>
    rw [hr] at h
    cases h
    exact iff_of_false nofun fun hd => hne ((NameTable.drops_iff_of_ends? hends).1 hd).2
  | refused _ _ _ _ _ hr =>
    rw [hr] at h
    cases h
  | adopted hends hne _ hr =>
    obtain ⟨log, hr⟩ := hr
    rw [hr] at h
    cases h
    exact iff_of_false nofun fun hd => hne ((NameTable.drops_iff_of_ends? hends).1 hd).2

theorem answer_compose (hkind : e.kind = .composition) (h : (s.compose e).result = .ok b) :
    b = some false ↔ s.names.Drops e := by
  have hother : ¬ e.kind = .inheritance := by rw [hkind]; nofun
  cases s.composes e with
  | unresolved hends hr =>
    rw [hr] at h
    cases h
    exact iff_of_true rfl (NameTable.drops_of_ends?_eq_none hends)
  | first hends _ hr =>
    rw [hr] at h
    cases h
    exact iff_of_false nofun fun hd => hother ((NameTable.drops_iff_of_ends? hends).1 hd).1
  | refused _ _ _ hr =>
    rw [hr] at h
    cases h
  | again hends _ _ hr =>
    obtain ⟨log, hr⟩ := hr
    rw [hr] at h
    cases h
    exact iff_of_false nofun fun hd => hother ((NameTable.drops_iff_of_ends? hends).1 hd).1

theorem answer_relate (hkind : IsPlain e) (h : (s.relate e).result = .ok b) : b = some false ↔ s.names.Drops e := by
  have hother : ¬ e.kind = .inheritance := (not_or.1 hkind).1
  cases s.relates e with
  | other hno _ => exact absurd hkind hno
  | unresolved _ hends hr =>
    rw [hr] at h
    cases h
    exact iff_of_true rfl (NameTable.drops_of_ends?_eq_none hends)
  | direct _ hends _ hr =>
    obtain ⟨log, hr⟩ := hr
    rw [hr] at h
    cases h
    exact iff_of_false nofun fun hd => hother ((NameTable.drops_iff_of_ends? hends).1 hd).1
  | through _ hends _ hr =>
    rw [hr] at h
    cases h
    exact iff_of_false nofun fun hd => hother ((NameTable.drops_iff_of_ends? hends).1 hd).1

theorem answer_fieldCall (hkind : e.kind ≠ .inheritance) (h : (s.step (Plan.fieldCall e)).result = .ok b) :
    b = some false ↔ s.names.Drops e := by
  unfold Plan.fieldCall at h
  split_ifs at h with hcompose
  · exact answer_compose hcompose h
  · exact answer_relate (not_or.2 ⟨hkind, hcompose⟩) h

end Session

/-! ## The count of a plan -/

namespace Plan

theorem isInheritance_iff (e : Edge) : isInheritance e = true ↔ e.kind = .inheritance := beq_iff_eq

/-- one call adds one to the count when it says that its edge was dropped -/
theorem Progress.dropped_of_take {p p' : Progress} {c : Call} (h : p.take c = .ok p') :
    ∃ b, (p.session.step c).result = .ok b ∧ p'.dropped = if b = some false then p.dropped + 1 else p.dropped := by
  obtain ⟨-, b, hb⟩ := Progress.step_of_take h
  rw [Progress.take_of_ok hb] at h
  cases h
  exact ⟨b, hb, rfl⟩

/-- a run over edges counts those that are dropped -/
theorem Progress.dropped_of_takeAll (call : Edge → Call) {es : List Edge}
    (hcall : ∀ e ∈ es, ∀ (s : Session) (b : Option Bool), (s.step (call e)).result = .ok b →
      (b = some false ↔ s.names.Drops e))
    {p q : Progress} (h : p.takeAll (es.map call) = .ok q) :
    q.dropped = p.dropped + es.countP fun e => p.session.names.Drops e := by
  induction es generalizing p with
  | nil => cases h; rfl
  | cons e rest ih =>
    obtain ⟨p', htake, hrest⟩ := Progress.takeAll_cons h
    obtain ⟨b, hb, hcount⟩ := Progress.dropped_of_take htake
    obtain ⟨hsession, -⟩ := Progress.step_of_take htake
    have hnames : p'.session.names = p.session.names := hsession ▸ Session.names_step _ _
    have hdrops := hcall e List.mem_cons_self _ b hb
    rw [ih (fun e he => hcall e (List.mem_cons_of_mem _ he)) hrest, hcount, hnames, List.countP_cons]
    simp only [hdrops, decide_eq_true_eq]
    split_ifs <;> omega

/-- **The count of a plan.** Every edge that is dropped counts once, whichever pass it belongs to. -/
theorem dropped_of_build {policy : Policy} {d : Diagram} {p : Plan} (h : build policy d = .ok p) :
    p.dropped = d.edges.countP fun e => d.nameTable.Drops e := by
  obtain ⟨q, hrun, rfl⟩ := build_eq_ok_iff.1 h
  unfold run calls at hrun
  obtain ⟨m, hm, hfields⟩ := Progress.takeAll_append hrun
  obtain ⟨m', hinherits, happly⟩ := Progress.takeAll_append hm
  have hinherited := Progress.dropped_of_takeAll .inherit (fun e he _ _ hb =>
    Session.answer_inherit ((isInheritance_iff e).1 (List.mem_filter.1 he).2) hb) hinherits
  have happlied : m.dropped = m'.dropped := by
    obtain ⟨m₁, htake, hnil⟩ := Progress.takeAll_cons happly
    cases hnil
    obtain ⟨b, hb, hcount⟩ := Progress.dropped_of_take htake
    cases hb
    exact hcount
  have hfielded := Progress.dropped_of_takeAll fieldCall (fun e he _ _ hb => by
    have hno : isInheritance e = false := by simpa using (List.mem_filter.1 he).2
    refine Session.answer_fieldCall (fun hkind => ?_) hb
    rw [(isInheritance_iff e).2 hkind] at hno
    cases hno) hfields
  have hnames : m.session.names = d.nameTable := by
    rw [session_of_takeAll hm]
    exact Session.names_after _ _
  have hbegin : (begin policy d).session.names = d.nameTable := rfl
  rw [hnames, happlied, hinherited, hbegin] at hfielded
  rw [List.countP_eq_countP_filter_add d.edges _ isInheritance]
  show q.dropped = _
  rw [hfielded, show (begin policy d).dropped = 0 from rfl, Nat.zero_add]

end Plan

/-! ## A diagram without its dropped edges -/

namespace NameTable

variable {t : NameTable} {e : Edge}

/-- a dropped edge claims no parent -/
theorem parentClaim?_of_drops (h : t.Drops e) : t.parentClaim? e = none := by
  unfold parentClaim?
  cases hends : t.ends? e with
  | none => rfl
  | some ends =>
    obtain ⟨a, b⟩ := ends
    have hself : a = b := ((drops_iff_of_ends? hends).1 h).2
    exact if_pos hself

/-- a dropped edge ties no classes -/
theorem linksOf_of_drops (h : t.Drops e) (hkind : e.kind ≠ .inheritance) : t.linksOf (Plan.fieldCall e) = [] := by
  have hends : t.ends? e = none := by
    cases hends : t.ends? e with
    | none => rfl
    | some ends => exact absurd ((drops_iff_of_ends? hends).1 h).1 hkind
  unfold Plan.fieldCall
  split_ifs with hcompose
  · simp only [linksOf, hends]
  · simp only [linksOf, hends, ite_self]

end NameTable

namespace Diagram

/-- a diagram without the edges that are dropped -/
def sifted (d : Diagram) : Diagram := { d with edges := d.edges.filter fun e => ¬ d.nameTable.Drops e }

variable (d : Diagram)

theorem nameTable_sifted : d.sifted.nameTable = d.nameTable := rfl

theorem countP_sifted : (d.edges.countP fun e => d.nameTable.Drops e) + d.sifted.edges.length = d.edges.length := by
  show _ + (d.edges.filter fun e => ¬ d.nameTable.Drops e).length = _
  rw [← List.countP_eq_length_filter, List.length_eq_countP_add_countP fun e => decide (d.nameTable.Drops e)]
  simp only [decide_eq_true_eq]

/-- edges that nothing comes of can be left out -/
theorem flatMap_sifted {β : Type} {q : Edge → Bool} {f : Edge → List β}
    (h : ∀ e, q e = true → d.nameTable.Drops e → f e = []) :
    (d.sifted.edges.filter q).flatMap f = (d.edges.filter q).flatMap f := by
  show ((d.edges.filter fun e => ¬ d.nameTable.Drops e).filter q).flatMap f = _
  rw [List.filter_comm]
  refine flatMap_filter_of_idle fun e he hkept => h e (List.mem_filter.1 he).2 ?_
  simpa using hkept

theorem links_sifted : d.sifted.links = d.links :=
  d.flatMap_sifted fun e hq hdrops => NameTable.linksOf_of_drops hdrops fun hkind => by
    rw [(Plan.isInheritance_iff e).2 hkind] at hq
    cases hq

theorem parentClaims_sifted : d.sifted.parentClaims = d.parentClaims := by
  unfold parentClaims
  rw [List.filterMap_eq_flatMap_toList, List.filterMap_eq_flatMap_toList, nameTable_sifted]
  refine d.flatMap_sifted fun e _ hdrops => ?_
  rw [NameTable.parentClaim?_of_drops hdrops]
  rfl

theorem claims_sifted (k : ClaimKind) : d.sifted.claims k = d.claims k := by
  cases k with
  | inheritance => exact d.parentClaims_sifted
  | composition =>
    show d.sifted.wholeClaims = d.wholeClaims
    rw [wholeClaims_eq, wholeClaims_eq, links_sifted]

theorem agreesOn_sifted (name : String) : d.sifted.AgreesOn d name := by
  have hparent : ∀ child, d.sifted.lastParent? child = d.lastParent? child := by
    intro child
    unfold lastParent?
    rw [parentClaims_sifted]
  refine .of_forall (fun _ => ?_) (fun _ => ?_) hparent name
  · rfl
  · rw [links_sifted]

end Diagram

/-- **Dropped edges come to nothing.** Without the edges that are dropped, a diagram has the same classes in its plan and
no dropped edge, and the plan had counted every edge that is gone; or the same conflict refuses both. -/
theorem dropped_edges_idle (policy : Policy) (d : Diagram) :
    (∃ p q, Plan.build policy d = .ok p ∧ Plan.build policy d.sifted = .ok q ∧ q.entities = p.entities ∧
        q.dropped = 0 ∧ p.dropped + d.sifted.edges.length = d.edges.length) ∨
      ∃ x, Plan.build policy d = .error x ∧ Plan.build policy d.sifted = .error x := by
  have herror : ∀ x, Plan.build policy d.sifted = .error x ↔ Plan.build policy d = .error x :=
    Plan.build_eq_error_iff policy d.claims_sifted
  cases hp : Plan.build policy d with
  | error x => exact Or.inr ⟨x, rfl, (herror x).2 hp⟩
  | ok p =>
    cases hq : Plan.build policy d.sifted with
    | error x => rw [(herror x).1 hq] at hp; cases hp
    | ok q =>
      refine Or.inl ⟨p, q, rfl, rfl, Plan.entities_eq hq hp d.nameTable_sifted d.agreesOn_sifted, ?_, ?_⟩
      · rw [Plan.dropped_of_build hq, List.countP_eq_zero, Diagram.nameTable_sifted]
        intro e he
        simpa using (List.mem_filter.1 he).2
      · rw [Plan.dropped_of_build hp]
        exact d.countP_sifted

end Classwright
