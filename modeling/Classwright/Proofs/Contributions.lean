/-
What each edge brings to a plan.

The plan of a diagram is compared with those of its edges up to a point. An edge that comes next is dropped and counted, or
its fields are added to the classes at its ends, and nothing that follows takes them away. A class whose name is the empty
text is planned like any other; only its edges are dropped.

- `Diagram.Loose`, `Diagram.Blank`: edges that lead nowhere, and edges of a class without a name; `drops_iff`: these are the
  edges that are dropped;
- `onClass_placements_append`: edges that follow add to the fields of the edges before them;
- `Diagram.Contributes`: an edge adds fields to a class; `Diagram.contributes`: to the classes at both of its ends;
- `Plan.Keeps`: a plan drops loose edges only and has something of every other one;
- `relationships_kept`: it does so exactly when no edge that is not loose has an end without a name.
-/
import Classwright.Proofs.Drops
import Classwright.Proofs.Identities
import Classwright.Proofs.Labels
import Classwright.Proofs.NameTables
import Classwright.Proofs.Pairing

namespace Classwright

/-! ## Edges that are dropped -/

namespace Diagram

/-- nodes with these ids, and of one class -/
def SameClass (d : Diagram) (a b : String) : Prop :=
  ∃ n ∈ d.nodes, ∃ m ∈ d.nodes, n.id = a ∧ m.id = b ∧ Naming.identifier n.label = Naming.identifier m.label

/-- an end of the edge is the id of no node, or a class would be its own parent -/
def Loose (d : Diagram) (e : Edge) : Prop :=
  (∀ n ∈ d.nodes, n.id ≠ e.source) ∨ (∀ n ∈ d.nodes, n.id ≠ e.target) ∨
    (e.kind = .inheritance ∧ d.SameClass e.source e.target)

/-- an end of the edge is a node without a label -/
def Blank (d : Diagram) (e : Edge) : Prop := ∃ n ∈ d.nodes, (n.id = e.source ∨ n.id = e.target) ∧ n.label = ""

instance (d : Diagram) (e : Edge) : Decidable (d.Loose e) := by unfold Loose SameClass; infer_instance

instance (d : Diagram) (e : Edge) : Decidable (d.Blank e) := by unfold Blank; infer_instance

/-- a diagram with other edges -/
def withEdges (d : Diagram) (es : List Edge) : Diagram := { d with edges := es }

end Diagram

namespace Naming

theorem identifier_eq_empty_iff {label : String} : identifier label = "" ↔ label = "" := by
  by_cases h : className label = ""
  · rw [identifier_of_eq h]
  · rw [identifier_of_ne h]
    refine iff_of_false h fun hempty => h ?_
    rw [hempty]
    rfl

end Naming

namespace NameTable

variable {d : Diagram} {e : Edge} {id : String}

/-- an id leads to no class with a name when no node has it, or when that node has no label -/
theorem named?_eq_none_iff (h : (d.nodes.map Node.id).Nodup) :
    d.nameTable.named? id = none ↔ (∀ n ∈ d.nodes, n.id ≠ id) ∨ ∃ n ∈ d.nodes, n.id = id ∧ n.label = "" := by
  have hclass := (describes_ofDiagram h).classOf id
  rw [Option.eq_none_iff_forall_ne_some]
  constructor
  · intro hnone
    by_contra hno
    obtain ⟨hsome, hlabel⟩ := not_or.1 hno
    push Not at hsome hlabel
    obtain ⟨n, hn, hid⟩ := hsome
    refine hnone (Naming.identifier n.label) (named?_eq_some.2 ⟨(hclass _).2 ⟨n, hn, hid, rfl⟩, ?_⟩)
    exact mt Naming.identifier_eq_empty_iff.1 (hlabel n hn hid)
  · rintro hno name hname
    obtain ⟨hresolve, hne⟩ := named?_eq_some.1 hname
    obtain ⟨n, hn, hid, rfl⟩ := (hclass _).1 hresolve
    rcases hno with hnone | ⟨m, hm, hmid, hlabel⟩
    · exact hnone n hn hid
    · rw [List.inj_on_of_nodup_map h hn hm (hid.trans hmid.symm), hlabel] at hne
      exact hne rfl

/-- **The edges that are dropped** are the loose ones and those of a class without a name. -/
theorem drops_iff (h : (d.nodes.map Node.id).Nodup) : d.nameTable.Drops e ↔ d.Loose e ∨ d.Blank e := by
  have hnamed : ∀ {id a}, d.nameTable.named? id = some a →
      ∃ n ∈ d.nodes, n.id = id ∧ Naming.identifier n.label = a := fun ha =>
    ((describes_ofDiagram h).classOf _ _).1 (named?_eq_some.1 ha).1
  unfold Drops
  rw [named?_eq_none_iff h, named?_eq_none_iff h]
  constructor
  · rintro ((hsource | ⟨n, hn, hid, hlabel⟩) | (htarget | ⟨n, hn, hid, hlabel⟩) | ⟨hkind, hsame⟩)
    · exact Or.inl (Or.inl hsource)
    · exact Or.inr ⟨n, hn, Or.inl hid, hlabel⟩
    · exact Or.inl (Or.inr (Or.inl htarget))
    · exact Or.inr ⟨n, hn, Or.inr hid, hlabel⟩
    · cases hs : d.nameTable.named? e.source with
      | none =>
        rcases (named?_eq_none_iff h).1 hs with hsource | ⟨n, hn, hid, hlabel⟩
        · exact Or.inl (Or.inl hsource)
        · exact Or.inr ⟨n, hn, Or.inl hid, hlabel⟩
      | some a =>
        obtain ⟨n, hn, hnid, rfl⟩ := hnamed hs
        obtain ⟨m, hm, hmid, heq⟩ := hnamed (hsame ▸ hs)
        exact Or.inl (Or.inr (Or.inr ⟨hkind, n, hn, m, hm, hnid, hmid, heq.symm⟩))
  · rintro ((hsource | htarget | ⟨hkind, n, hn, m, hm, hnid, hmid, heq⟩) | ⟨n, hn, hid | hid, hlabel⟩)
    · exact Or.inl (Or.inl hsource)
    · exact Or.inr (Or.inl (Or.inl htarget))
    · refine Or.inr (Or.inr ⟨hkind, ?_⟩)
      have hclass : d.nameTable.resolve e.source = d.nameTable.resolve e.target := by
        rw [((describes_ofDiagram h).classOf _ _).2 ⟨n, hn, hnid, rfl⟩,
          ((describes_ofDiagram h).classOf _ _).2 ⟨m, hm, hmid, heq.symm⟩]
      rw [named?, named?, hclass]
    · exact Or.inl (Or.inr ⟨n, hn, hid, hlabel⟩)
    · exact Or.inr (Or.inl (Or.inr ⟨n, hn, hid, hlabel⟩))

end NameTable

/-! ## The fields of links that follow -/

theorem numbered_append (earlier ks ms : List Link) :
    numbered earlier (ks ++ ms) = numbered earlier ks ++ numbered (earlier ++ ks) ms := by
  induction ks generalizing earlier with
  | nil => simp [numbered]
  | cons k rest ih => simp [numbered, ih]

/-- a link adds a field to the classes at both of its ends -/
theorem Link.exists_owner {l : Link} {name : String} (h : l.touches name = true) (k : Nat) :
    ∃ p ∈ l.fields k, p.owner = name := by
  rw [touches_iff] at h
  rcases l.partners k with ⟨f, g, hfields, -⟩ | ⟨f, g, hfields, -⟩
  · rcases h with h | h
    · exact ⟨⟨l.source, f⟩, by simp [hfields], h⟩
    · exact ⟨⟨l.target, g⟩, by simp [hfields], h⟩
  · rcases h with h | h
    · exact ⟨⟨l.source, g⟩, by simp [hfields], h⟩
    · exact ⟨⟨l.target, f⟩, by simp [hfields], h⟩

/-- links of which one touches a class add a field to it -/
theorem onClass_ne_nil {ks earlier : List Link} {name : String} (h : ∃ l ∈ ks, l.touches name = true) :
    onClass name (placements (numbered earlier ks)) ≠ [] := by
  induction ks generalizing earlier with
  | nil => obtain ⟨l, hl, -⟩ := h; cases hl
  | cons k rest ih =>
    rw [numbered, placements_cons, onClass_append]
    obtain ⟨l, hl, htouches⟩ := h
    rcases List.mem_cons.1 hl with rfl | hl
    · obtain ⟨p, hp, howner⟩ := Link.exists_owner htouches (Link.rank earlier l)
      refine List.append_ne_nil_of_left_ne_nil (List.ne_nil_of_mem (a := p.field.plain) ?_) _
      exact List.mem_map_of_mem (List.mem_filter.2 ⟨hp, decide_eq_true howner⟩)
    · exact List.append_ne_nil_of_right_ne_nil _ (ih ⟨l, hl, htouches⟩)

/-- an edge outside hierarchies that is not dropped links the classes at both of its ends -/
theorem NameTable.exists_link {t : NameTable} {e : Edge} {a b name : String} (hends : t.ends? e = some (a, b))
    (hkind : e.kind ≠ .inheritance) (hname : a = name ∨ b = name) :
    ∃ l ∈ t.linksOf (Plan.fieldCall e), l.touches name = true := by
  unfold Plan.fieldCall
  split_ifs with hcompose
  · simp only [linksOf, hends]
    exact ⟨_, List.mem_singleton_self _, Link.touches_iff.2 hname⟩
  · simp only [linksOf, hends, if_neg (not_or.2 ⟨hkind, hcompose⟩), plainLinks]
    cases t.assoc? e with
    | none => exact ⟨_, List.mem_singleton_self _, Link.touches_iff.2 hname⟩
    | some j =>
      rcases hname with ha | hb
      · exact ⟨_, List.mem_cons_self, Link.touches_iff.2 (Or.inl ha)⟩
      · exact ⟨_, List.mem_cons_of_mem _ List.mem_cons_self, Link.touches_iff.2 (Or.inl hb)⟩

/-! ## What an edge contributes -/

/-- the fields of a class in a plan, their share of the key aside -/
def Plan.fieldsOf (p : Plan) (name : String) : List RelationField :=
  ((p.entities.find? fun e => e.name == name).map fun e => e.fields.map RelationField.plain).getD []

/-- an edge that comes behind others adds fields to a class, and the class has them in a plan -/
def Diagram.Contributes (d : Diagram) (before : List Edge) (e : Edge) (p : Plan) (name : String) : Prop :=
  ∃ p₀ p₁ given, Plan.build .lastWins (d.withEdges before) = .ok p₀ ∧
    Plan.build .lastWins (d.withEdges (before ++ [e])) = .ok p₁ ∧ given ≠ [] ∧
    p₁.fieldsOf name = p₀.fieldsOf name ++ given ∧ p₁.fieldsOf name <+: p.fieldsOf name

namespace Plan

variable {d : Diagram} {p : Plan}

theorem fieldsOf_eq (h : build .lastWins d = .ok p) {name : String} (hname : name ∈ d.nameTable.names) :
    p.fieldsOf name = onClass name d.placements := by
  rw [← names_of_build h] at hname
  obtain ⟨e, he, rfl⟩ := List.mem_map.1 hname
  unfold fieldsOf
  rw [Entity.find?_eq ?_ he]
  · exact fields_of_build h he
  · rw [names_of_build h]
    exact (NameTable.closed_ofDiagram d).names_nodup

end Plan

namespace Diagram

variable {d : Diagram} {p : Plan} {e : Edge} {before after : List Edge}

theorem links_append (d : Diagram) (es fs : List Edge) :
    (d.withEdges (es ++ fs)).links = (d.withEdges es).links ++ (d.withEdges fs).links := by
  show ((es ++ fs).filter _).flatMap _ = _
  rw [List.filter_append, List.flatMap_append]
  rfl

/-- what edges that follow add to a class -/
theorem onClass_placements_append (d : Diagram) (es fs : List Edge) (name : String) :
    onClass name (d.withEdges (es ++ fs)).placements = onClass name (d.withEdges es).placements ++
      onClass name (Classwright.placements (numbered (d.withEdges es).links (d.withEdges fs).links)) := by
  unfold placements
  rw [links_append, numbered_append, placements_append, onClass_append, List.nil_append]

/-- **A contribution.** An edge outside hierarchies that is not dropped adds fields to the classes at both of its ends. -/
theorem contributes (hp : Plan.build .lastWins d = .ok p) (hsplit : d.edges = before ++ e :: after)
    (hkind : e.kind ≠ .inheritance) (hdrops : ¬ d.nameTable.Drops e) {id name : String}
    (hid : id = e.source ∨ id = e.target) (hname : d.nameTable.resolve id = some name) :
    d.Contributes before e p name := by
  have hmem : name ∈ d.nameTable.names := (NameTable.closed_ofDiagram d).class_mem hname
  obtain ⟨p₀, hp₀⟩ := Plan.exists_build (d.withEdges before)
  obtain ⟨p₁, hp₁⟩ := Plan.exists_build (d.withEdges (before ++ [e]))
  have hwhole : d = d.withEdges ((before ++ [e]) ++ after) := by
    unfold withEdges
    rw [List.append_assoc, List.singleton_append, ← hsplit]
  have hlast := d.onClass_placements_append (before ++ [e]) after name
  rw [← hwhole] at hlast
  refine ⟨p₀, p₁, onClass name (Classwright.placements (numbered (d.withEdges before).links (d.withEdges [e]).links)),
    hp₀, hp₁, onClass_ne_nil ?_, ?_, ?_⟩
  · show ∃ l ∈ (([e] : List Edge).filter fun e => !Plan.isInheritance e).flatMap _, _
    have hfield : Plan.isInheritance e = false := by
      rw [Bool.eq_false_iff, Ne, Plan.isInheritance_iff]
      exact hkind
    rw [List.filter_cons_of_pos (by rw [hfield]; rfl), List.filter_nil, List.flatMap_singleton]
    cases hends : d.nameTable.ends? e with
    | none => exact absurd (NameTable.drops_of_ends?_eq_none hends) hdrops
    | some ends =>
      obtain ⟨a, b⟩ := ends
      obtain ⟨ha, hb⟩ := NameTable.named_of_ends? hends
      refine NameTable.exists_link hends hkind ?_
      rcases hid with rfl | rfl
      · exact Or.inl (Option.some.inj ((NameTable.named?_eq_some.1 ha).1.symm.trans hname))
      · exact Or.inr (Option.some.inj ((NameTable.named?_eq_some.1 hb).1.symm.trans hname))
  · rw [Plan.fieldsOf_eq hp₁ hmem, Plan.fieldsOf_eq hp₀ hmem]
    exact d.onClass_placements_append before [e] name
  · rw [Plan.fieldsOf_eq hp₁ hmem, Plan.fieldsOf_eq hp hmem, hlast]
    exact List.prefix_append _ _

end Diagram

/-! ## Plans that lose nothing -/

/-- **No relationship is lost.** A plan counts a loose edge as dropped and no other one, and every other edge outside
hierarchies contributes fields to the classes at both of its ends. -/
structure Plan.Keeps (p : Plan) (d : Diagram) : Prop where
  dropped : p.dropped = d.edges.countP fun e => d.Loose e
  counted : ∀ before e after, d.edges = before ++ e :: after →
    ∀ p₀ p₁, Plan.build .lastWins (d.withEdges before) = .ok p₀ →
      Plan.build .lastWins (d.withEdges (before ++ [e])) = .ok p₁ →
      p₁.dropped = p₀.dropped + if d.Loose e then 1 else 0
  contributes : ∀ before e after, d.edges = before ++ e :: after → e.kind ≠ .inheritance → ¬ d.Loose e →
    ∀ n ∈ d.nodes, n.id = e.source ∨ n.id = e.target → d.Contributes before e p (Naming.identifier n.label)

/-- one more edge is one more that is dropped, or none -/
theorem Plan.dropped_snoc {d : Diagram} (h : (d.nodes.map Node.id).Nodup) {before : List Edge} {e : Edge} {p₀ p₁ : Plan}
    (hp₀ : build .lastWins (d.withEdges before) = .ok p₀) (hp₁ : build .lastWins (d.withEdges (before ++ [e])) = .ok p₁) :
    p₁.dropped = p₀.dropped + if d.Loose e ∨ d.Blank e then 1 else 0 := by
  rw [dropped_of_build hp₁, dropped_of_build hp₀]
  show (before ++ [e]).countP (fun e => d.nameTable.Drops e) = before.countP (fun e => d.nameTable.Drops e) + _
  rw [List.countP_append, List.countP_singleton]
  simp only [NameTable.drops_iff h, decide_eq_true_eq]

/-- **Which relationships are kept.** In the plan of a diagram with distinct ids under the policy that lets the last claim
win, the edges that are dropped are the loose ones and those with an end that has no label; every other edge outside
hierarchies contributes fields to the classes at both of its ends. So nothing is lost exactly when every edge with an end
that has no label is loose. -/
theorem relationships_kept (d : Diagram) (h : (d.nodes.map Node.id).Nodup) :
    ∃ p, Plan.build .lastWins d = .ok p ∧
      (p.Keeps d ↔ ∀ e ∈ d.edges, d.Blank e → d.Loose e) ∧
      p.dropped = (d.edges.countP fun e => d.Loose e ∨ d.Blank e) ∧
      ∀ before e after, d.edges = before ++ e :: after → e.kind ≠ .inheritance → ¬ d.Loose e → ¬ d.Blank e →
        ∀ n ∈ d.nodes, n.id = e.source ∨ n.id = e.target → d.Contributes before e p (Naming.identifier n.label) := by
  obtain ⟨p, hp⟩ := Plan.exists_build d
  have hdropped : p.dropped = d.edges.countP fun e => d.Loose e ∨ d.Blank e := by
    rw [Plan.dropped_of_build hp]
    simp only [NameTable.drops_iff h]
  have hcontributes : ∀ before e after, d.edges = before ++ e :: after → e.kind ≠ .inheritance → ¬ d.Loose e →
      ¬ d.Blank e → ∀ n ∈ d.nodes, n.id = e.source ∨ n.id = e.target →
        d.Contributes before e p (Naming.identifier n.label) := by
    intro before e after hsplit hkind hloose hblank n hn hid
    refine Diagram.contributes hp hsplit hkind (mt (NameTable.drops_iff h).1 (not_or.2 ⟨hloose, hblank⟩)) hid ?_
    exact ((NameTable.describes_ofDiagram h).classOf _ _).2 ⟨n, hn, rfl, rfl⟩
  refine ⟨p, hp, ⟨fun hkeeps e he hblank => ?_, fun hloose => ⟨?_, ?_, ?_⟩⟩, hdropped, hcontributes⟩
  · -- the count goes up at an edge of a class without a name
    obtain ⟨before, after, hsplit⟩ := List.append_of_mem he
    obtain ⟨p₀, hp₀⟩ := Plan.exists_build (d.withEdges before)
    obtain ⟨p₁, hp₁⟩ := Plan.exists_build (d.withEdges (before ++ [e]))
    have hcounted := hkeeps.counted before e after hsplit p₀ p₁ hp₀ hp₁
    rw [Plan.dropped_snoc h hp₀ hp₁, if_pos (Or.inr hblank)] at hcounted
    by_contra hno
    rw [if_neg hno] at hcounted
    omega
  · rw [hdropped]
    exact List.countP_congr fun e he => by simpa using hloose e he
  · intro before e after hsplit p₀ p₁ hp₀ hp₁
    have he : e ∈ d.edges := by rw [hsplit]; exact List.mem_append_right _ List.mem_cons_self
    rw [Plan.dropped_snoc h hp₀ hp₁]
    congr 2
    exact propext (or_iff_left_of_imp (hloose e he))
  · intro before e after hsplit hkind hno
    have he : e ∈ d.edges := by rw [hsplit]; exact List.mem_append_right _ List.mem_cons_self
    exact hcontributes before e after hsplit hkind hno (mt (hloose e he) hno)

/-- two orders of an account, an edge to nowhere, and two hierarchies of one class, of which one has no name -/
def orders : Diagram where
  nodes := [⟨"a", "Account", [], false⟩, ⟨"o", "Order", [], false⟩, ⟨"n", "", [], false⟩]
  edges := [⟨"", "a", "o", none, some "1", some "*", .association none⟩, ⟨"", "a", "x", none, none, none, .association none⟩,
    ⟨"", "a", "o", none, some "1", some "1", .composition⟩, ⟨"", "o", "o", none, none, none, .inheritance⟩,
    ⟨"", "n", "n", none, none, none, .inheritance⟩]
  metadata := .null

theorem orders_kept : (orders.nodes.map Node.id).Nodup ∧ ∃ p, Plan.build .lastWins orders = .ok p ∧ p.Keeps orders ∧
    p.dropped = 3 ∧ (p.fieldsOf "Account").length = 2 := by
  have hnodup : (orders.nodes.map Node.id).Nodup := by decide
  obtain ⟨p, hp, hkeeps, hdropped, -⟩ := relationships_kept orders hnodup
  refine ⟨hnodup, p, hp, hkeeps.2 (by decide), hdropped.trans (by decide), ?_⟩
  rw [Plan.fieldsOf_eq hp (by decide)]
  decide

/-- a class without a name and one that is associated with it -/
def nameless : Diagram where
  nodes := [⟨"a", "", [], false⟩, ⟨"b", "B", [], false⟩]
  edges := [⟨"", "a", "b", none, none, none, .association none⟩]
  metadata := .null

/-- **A class without a name has no relationships.** Both ends of the edge are nodes, and both nodes are classes of the
plan; the edge is dropped all the same, and neither class gets a field. -/
theorem nameless_loses : ∃ p, Plan.build .lastWins nameless = .ok p ∧ (∀ e ∈ nameless.edges, ¬ nameless.Loose e) ∧
    p.entities.map (fun e => (e.name, e.fields)) = [("", []), ("B", [])] ∧ p.dropped = 1 ∧ ¬ p.Keeps nameless := by
  refine ⟨_, rfl, by decide, by decide, by decide, fun hkeeps => ?_⟩
  exact absurd hkeeps.dropped (by decide)

end Classwright
