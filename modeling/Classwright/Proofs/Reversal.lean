/-
Edges read from their other end.

An edge between one and many says the same from either end: the pair of its classes is counted without a direction, and the
many side is found by the cardinalities. Read from its other end it comes to the same reply in every session. An edge that
leads through an association class ties each end to that class in turn. Read from its other end it ties them in the other
order, under the same numbers, so the classes get the same fields in another order.

- `Edge.reversed`: the edge read from its other end;
- `NameTable.OneToMany`, `Session.relate_reversed`: an edge between one and many;
- `Entity.Shuffled`, `Session.Shuffled`: alike up to the order of fields; `Shuffled.step`: every call keeps this;
- `NameTable.ThroughClass`, `Shuffled.relate_reversed`: an edge that leads through an association class;
- `build_reversed`: what becomes of a plan when any of these edges are read from their other ends.
-/
import Classwright.Proofs.Conflicts
import Classwright.Proofs.Identities

namespace Classwright

/-- the edge read from its other end -/
def Edge.reversed (e : Edge) : Edge :=
  { e with
    source := e.target
    target := e.source
    sourceCardinality := e.targetCardinality
    targetCardinality := e.sourceCardinality }

namespace NameTable

variable {t : NameTable} {e : Edge}

theorem ends?_reversed (t : NameTable) (e : Edge) : t.ends? e.reversed = (t.ends? e).map Prod.swap := by
  unfold ends? Edge.reversed
  dsimp only
  cases t.named? e.source <;> cases t.named? e.target <;> rfl

/-- an edge with one and many at its ends and no association class -/
structure OneToMany (t : NameTable) (e : Edge) : Prop where
  plain : Session.IsPlain e
  direct : t.assoc? e = none
  one_many : Naming.isMany e.sourceCardinality ≠ Naming.isMany e.targetCardinality

/-- an edge that leads through an association class -/
def ThroughClass (t : NameTable) (e : Edge) : Prop := (t.assoc? e).isSome

theorem ThroughClass.plain (h : t.ThroughClass e) : Session.IsPlain e := by
  unfold ThroughClass assoc? at h
  rintro (hkind | hkind) <;> rw [hkind] at h <;> cases h

end NameTable

namespace Numbering

theorem key_comm (a b : String) : key a b = key b a := (key_eq_iff a b b a).2 (Or.inr ⟨rfl, rfl⟩)

theorem count_comm (n : Numbering) (a b : String) : n.count a b = n.count b a := by
  unfold count
  rw [key_comm]

theorem advance_comm (n : Numbering) (a b : String) : n.advance a b = n.advance b a := by
  unfold advance
  rw [key_comm, count_comm]

theorem nextSuffix_comm (n : Numbering) (a b : String) : n.nextSuffix a b = n.nextSuffix b a := by
  unfold nextSuffix
  rw [count_comm]

/-- a relationship of one pair leaves the suffixes of the others alone -/
theorem nextSuffix_advance_of_not {n : Numbering} {a b c d : String} (h : ¬ SamePair a b c d) :
    (n.advance a b).nextSuffix c d = n.nextSuffix c d := by
  unfold nextSuffix
  rw [count_advance, if_neg h]

end Numbering

theorem Relationship.byCardinality_swap {sourceMany targetMany : Bool} (h : sourceMany ≠ targetMany)
    (source target suffix : String) :
    byCardinality target source suffix targetMany sourceMany = byCardinality source target suffix sourceMany targetMany := by
  cases sourceMany <;> cases targetMany
  · exact absurd rfl h
  · rfl
  · rfl
  · exact absurd rfl h

/-! ## One and many -/

namespace Session

theorem joinEdge_reversed (s : Session) {e : Edge} (h : Naming.isMany e.sourceCardinality ≠ Naming.isMany e.targetCardinality)
    (source target : String) : s.joinEdge e.reversed target source = s.joinEdge e source target := by
  unfold joinEdge join advance Edge.reversed
  dsimp only
  rw [Numbering.nextSuffix_comm, Numbering.advance_comm, Relationship.byCardinality_swap h]

/-- **An edge between one and many** comes to the same from either end. -/
theorem relate_reversed {s : Session} {e : Edge} (h : s.names.OneToMany e) : s.relate e.reversed = s.relate e := by
  have hkind : e.reversed.kind = e.kind := rfl
  have hends : s.ends? e.reversed = (s.ends? e).map Prod.swap := s.names.ends?_reversed e
  unfold relate
  rw [hkind, hends]
  split
  · next hinherit => exact absurd (Or.inl hinherit) h.plain
  · next hcompose => exact absurd (Or.inr hcompose) h.plain
  · cases s.ends? e with
    | none => rfl
    | some ends =>
      obtain ⟨source, target⟩ := ends
      have hjoin := s.joinEdge_reversed h.one_many source target
      have hdirect := h.direct
      simp only [Option.map_some, Prod.swap_prod_mk]
      unfold NameTable.assoc? at hdirect
      cases hid : given? e.kind.associationClassId with
      | none => dsimp only; rw [hjoin]
      | some id =>
        rw [hid] at hdirect
        have hnamed : s.names.named? id = none := hdirect
        simp only [hnamed]
        rw [hjoin]
        rfl

end Session

namespace Plan

theorem isInheritance_of_isPlain {e : Edge} (h : Session.IsPlain e) : isInheritance e = false :=
  beq_eq_false_iff_ne.2 fun hkind => h (Or.inl hkind)

theorem fieldCall_of_isPlain {e : Edge} (h : Session.IsPlain e) : fieldCall e = .relate e :=
  if_neg fun hkind => h (Or.inr hkind)

/-- calls that come to the same under some names come to the same one after the other -/
theorem Progress.takeAll_congr {t : NameTable} {p : Progress} {cs cs' : List Call} (hp : p.session.names = t)
    (h : List.Forall₂ (fun c c' => ∀ s : Session, s.names = t → s.step c' = s.step c) cs cs') :
    p.takeAll cs' = p.takeAll cs := by
  induction h generalizing p with
  | nil => rfl
  | @cons c c' rest rest' hc _ ih =>
    have htake : p.take c' = p.take c := by
      unfold Progress.take
      rw [hc p.session hp]
    cases hone : p.take c with
    | error x => rw [Progress.takeAll_cons_of_error (htake.trans hone), Progress.takeAll_cons_of_error hone]
    | ok q =>
      have hq : q.session.names = t := by
        rw [(Progress.step_of_take hone).1, Session.names_step, hp]
      rw [Progress.takeAll_cons_of_ok (htake.trans hone), Progress.takeAll_cons_of_ok hone, ih hq]

/-- edges that pass a test are left alone, so the lists of them are equal -/
theorem filter_eq_of_forall₂ {α : Type} {p : α → Bool} {xs ys : List α}
    (h : List.Forall₂ (fun x y => y = x ∨ p x = false ∧ p y = false) xs ys) : ys.filter p = xs.filter p := by
  induction h with
  | nil => rfl
  | @cons x y xs ys hxy _ ih =>
    rcases hxy with rfl | ⟨hx, hy⟩
    · rw [List.filter_cons, List.filter_cons, ih]
    · rw [List.filter_cons_of_neg (by simp [hy]), List.filter_cons_of_neg (by simp [hx]), ih]

/-- the calls for two lists of edges are alike when those for two edges are -/
theorem calls_forall₂ {R : Call → Call → Prop} {edges edges' : List Edge} (hrefl : ∀ c, R c c)
    (h : List.Forall₂ (fun e e' => e' = e ∨
      (isInheritance e = false ∧ isInheritance e' = false ∧ R (fieldCall e) (fieldCall e'))) edges edges') :
    List.Forall₂ R (calls edges) (calls edges') := by
  have hinherit : edges'.filter isInheritance = edges.filter isInheritance :=
    filter_eq_of_forall₂ (h.imp fun e e' hee => hee.imp_right fun ⟨he, he', _⟩ => ⟨he, he'⟩)
  have hothers : List.Forall₂ R ((edges.filter fun e => !isInheritance e).map fieldCall)
      ((edges'.filter fun e => !isInheritance e).map fieldCall) := by
    clear hinherit
    induction h with
    | nil => exact .nil
    | @cons e e' rest rest' hee _ ih =>
      rcases hee with rfl | ⟨he, he', hcall⟩
      · rw [List.filter_cons, List.filter_cons]
        split
        · exact .cons (hrefl _) ih
        · exact ih
      · rw [List.filter_cons_of_pos (by simp [he]), List.filter_cons_of_pos (by simp [he'])]
        exact .cons hcall ih
  have hsame : ∀ cs : List Call, List.Forall₂ R cs cs := fun cs => List.forall₂_same.2 fun c _ => hrefl c
  unfold calls
  rw [hinherit]
  exact List.rel_append (hsame _) hothers

end Plan

/-! ## Alike up to the order of fields -/

/-- the same entity with its fields in another order -/
structure Entity.Shuffled (e e' : Entity) : Prop where
  fields : e.fields.Perm e'.fields
  rest : e' = { e with fields := e'.fields }

namespace Entity.Shuffled

variable {e e' : Entity}

theorem refl (e : Entity) : e.Shuffled e := ⟨.refl _, rfl⟩

theorem name (h : e.Shuffled e') : e'.name = e.name := by rw [h.rest]

theorem identity (h : e.Shuffled e') : e'.identity = e.identity := by rw [h.rest]

theorem addAll (h : e.Shuffled e') {fs fs' : List RelationField} (hfs : fs.Perm fs') :
    (e.addAll fs).Shuffled (e'.addAll fs') where
  fields := h.fields.append hfs
  rest := by
    show ({ e' with fields := e'.fields ++ fs' } : Entity) = _
    rw [h.rest]
    rfl

theorem releaseIdentity (h : e.Shuffled e') : (Session.releaseIdentity e).Shuffled (Session.releaseIdentity e') where
  fields := h.fields.map _
  rest := by
    rw [h.rest]
    rfl

theorem withIdentity (h : e.Shuffled e') (i : Option CompositeIdentity) :
    ({ e with identity := i } : Entity).Shuffled { e' with identity := i } where
  fields := h.fields
  rest := by rw [h.rest]

theorem withInheritance (h : e.Shuffled e') (i : Option Inheritance) :
    ({ e with inheritance := i } : Entity).Shuffled { e' with inheritance := i } where
  fields := h.fields
  rest := by rw [h.rest]

/-- the identity of a class is the same -/
theorem identity_of_find? {es es' : List Entity} (h : List.Forall₂ Entity.Shuffled es es') (name : String) :
    (es'.find? fun e => e.name == name).bind Entity.identity = (es.find? fun e => e.name == name).bind Entity.identity := by
  induction h with
  | nil => rfl
  | @cons e e' es es' he _ ih =>
    rw [List.find?_cons, List.find?_cons, he.name]
    split
    · exact he.identity
    · exact ih

end Entity.Shuffled

/-- sessions alike up to the order of fields, with the same numbers counted -/
structure Session.Shuffled (s s' : Session) : Prop where
  names : s'.names = s.names
  policy : s'.policy = s.policy
  hierarchy : s'.hierarchy = s.hierarchy
  count : ∀ a b, s'.numbering.count a b = s.numbering.count a b
  entities : List.Forall₂ Entity.Shuffled s.entities s'.entities

/-- replies with the same result, and sessions alike up to the order of fields -/
structure Reply.Shuffled (r r' : Reply) : Prop where
  result : r'.result = r.result
  session : r.session.Shuffled r'.session

theorem Session.placeAll_append (s : Session) (ps qs : List Placed) :
    s.placeAll (ps ++ qs) = (s.placeAll ps).placeAll qs := List.foldl_append

theorem Session.placeAll_eq (s : Session) (ps : List Placed) :
    s.placeAll ps = { s with entities := s.entities.map fun e => e.addAll (fieldsOn e.name ps) } := by
  have hentities : s.placeAll ps = { s with entities := (s.placeAll ps).entities } := by
    induction ps generalizing s with
    | nil => rfl
    | cons p rest ih => exact ih (s.place p)
  rw [hentities, entities_placeAll]

theorem Session.advance_placeAll (s : Session) (a b : String) (ps : List Placed) :
    (s.placeAll ps).advance a b = (s.advance a b).placeAll ps := by
  rw [placeAll_eq, placeAll_eq]
  rfl

/-- ties of two ends to one class, with the fields of both at the end -/
theorem Session.joinClass_joinClass (s : Session) (a b assoc : String) :
    (s.joinClass a assoc).joinClass b assoc = ((s.advance a assoc).advance b assoc).placeAll
      (Relationship.viaClass a assoc (s.numbering.nextSuffix a assoc) ++
        Relationship.viaClass b assoc ((s.numbering.advance a assoc).nextSuffix b assoc)) := by
  have hnumbering : (s.joinClass a assoc).numbering = s.numbering.advance a assoc := by
    unfold joinClass
    rw [placeAll_eq]
    rfl
  rw [placeAll_append, joinClass, hnumbering, joinClass, advance_placeAll]

namespace Session.Shuffled

variable {s s' : Session}

theorem refl (s : Session) : s.Shuffled s :=
  ⟨rfl, rfl, rfl, fun _ _ => rfl, List.forall₂_same.2 fun e _ => .refl e⟩

theorem ends? (h : s.Shuffled s') (e : Edge) : s'.ends? e = s.ends? e := by
  rw [ends?_eq, ends?_eq, h.names]

theorem nextSuffix (h : s.Shuffled s') (a b : String) : s'.numbering.nextSuffix a b = s.numbering.nextSuffix a b := by
  unfold Numbering.nextSuffix
  rw [h.count]

theorem identity? (h : s.Shuffled s') (name : String) :
    (s'.entity? name).bind Entity.identity = (s.entity? name).bind Entity.identity :=
  Entity.Shuffled.identity_of_find? h.entities name

theorem map (h : s.Shuffled s') {f : Entity → Entity} (hf : ∀ {e e' : Entity}, e.Shuffled e' → (f e).Shuffled (f e')) :
    ({ s with entities := s.entities.map f } : Session).Shuffled { s' with entities := s'.entities.map f } where
  names := h.names
  policy := h.policy
  hierarchy := h.hierarchy
  count := h.count
  entities := List.forall₂_map_left_iff.2 (List.forall₂_map_right_iff.2 (h.entities.imp fun _ _ => hf))

theorem modify (h : s.Shuffled s') (name : String) {f : Entity → Entity}
    (hf : ∀ {e e' : Entity}, e.Shuffled e' → (f e).Shuffled (f e')) : (s.modify name f).Shuffled (s'.modify name f) :=
  h.map fun {e e'} he => by
    rw [he.name]
    split
    · exact hf he
    · exact he

theorem advance (h : s.Shuffled s') (a b : String) : (s.advance a b).Shuffled (s'.advance a b) where
  names := h.names
  policy := h.policy
  hierarchy := h.hierarchy
  count := fun c d => by
    show (s'.numbering.advance a b).count c d = (s.numbering.advance a b).count c d
    rw [Numbering.count_advance, Numbering.count_advance, h.count]
  entities := h.entities

/-- fields placed in another order -/
theorem placeAll (h : s.Shuffled s') {ps qs : List Placed} (hps : ps.Perm qs) :
    (s.placeAll ps).Shuffled (s'.placeAll qs) := by
  rw [placeAll_eq, placeAll_eq]
  have hfields : ∀ name, (fieldsOn name ps).Perm (fieldsOn name qs) := fun name => (hps.filter _).map _
  exact {
    names := h.names
    policy := h.policy
    hierarchy := h.hierarchy
    count := h.count
    entities := List.forall₂_map_left_iff.2 (List.forall₂_map_right_iff.2 (h.entities.imp fun e e' he => by
      rw [he.name]
      exact he.addAll (hfields e.name))) }

theorem bind (h : s.Shuffled s') (whole part : String) : (s.bind whole part).Shuffled (s'.bind whole part) := by
  have hown : s'.ownIdType part = s.ownIdType part := by
    unfold ownIdType
    rw [h.names]
  unfold Session.bind
  dsimp only
  rw [h.nextSuffix]
  have hidentity : (s'.advance whole part).identityOf whole part (s.numbering.nextSuffix whole part) =
      (s.advance whole part).identityOf whole part (s.numbering.nextSuffix whole part) := by
    unfold identityOf
    rw [show (s'.advance whole part).ownIdType part = (s.advance whole part).ownIdType part from hown]
  rw [hidentity]
  exact ((h.advance whole part).modify part fun he => he.withIdentity _).placeAll (.refl _)

theorem joinClass (h : s.Shuffled s') (endpoint assoc : String) :
    (s.joinClass endpoint assoc).Shuffled (s'.joinClass endpoint assoc) := by
  unfold Session.joinClass
  dsimp only
  rw [h.nextSuffix]
  exact (h.advance endpoint assoc).placeAll (.refl _)

theorem joinEdge (h : s.Shuffled s') (e : Edge) (source target : String) :
    (s.joinEdge e source target).Shuffled (s'.joinEdge e source target) := by
  unfold Session.joinEdge Session.join
  dsimp only
  rw [h.nextSuffix]
  exact (h.advance source target).placeAll (.refl _)

/-! ### Calls -/

theorem taken (h : s.Shuffled s') (log log' : Log) : (s.taken log).Shuffled (s'.taken log') := ⟨rfl, h⟩

theorem dropped (h : s.Shuffled s') (log log' : Log) : (s.dropped log).Shuffled (s'.dropped log') := ⟨rfl, h⟩

theorem inherit (h : s.Shuffled s') (e : Edge) : (s.inherit e).Shuffled (s'.inherit e) := by
  unfold Session.inherit
  rw [h.ends?, h.hierarchy]
  cases s.ends? e with
  | none => exact h.dropped _ _
  | some ends =>
    obtain ⟨parent, child⟩ := ends
    have hnext : ({ s with hierarchy := s.hierarchy.adopt parent child } : Session).Shuffled
        { s' with hierarchy := s.hierarchy.adopt parent child } := ⟨h.names, h.policy, rfl, h.count, h.entities⟩
    dsimp only
    generalize ({ s with hierarchy := s.hierarchy.adopt parent child } : Session) = next at hnext ⊢
    generalize ({ s' with hierarchy := s.hierarchy.adopt parent child } : Session) = next' at hnext ⊢
    rw [h.policy]
    split
    · exact h.dropped _ _
    · cases s.hierarchy.parent? child with
      | none => exact hnext.taken _ _
      | some previous =>
        dsimp only
        split
        · exact h.taken _ _
        · cases s.policy with
          | fail => exact ⟨rfl, h⟩
          | lastWins => exact hnext.taken _ _

theorem compose (h : s.Shuffled s') (e : Edge) : (s.compose e).Shuffled (s'.compose e) := by
  unfold Session.compose
  rw [h.ends?, h.policy]
  cases s.ends? e with
  | none => exact h.dropped _ _
  | some ends =>
    obtain ⟨whole, part⟩ := ends
    dsimp only
    rw [h.identity?]
    cases (s.entity? part).bind Entity.identity with
    | none => exact (h.bind whole part).taken _ _
    | some held =>
      dsimp only
      cases s.policy with
      | fail => exact ⟨rfl, h⟩
      | lastWins => exact ((h.modify part fun he => he.releaseIdentity).bind whole part).taken _ _

theorem relate (h : s.Shuffled s') (e : Edge) : (s.relate e).Shuffled (s'.relate e) := by
  unfold Session.relate
  rw [h.ends?, h.names]
  split
  · exact h.dropped _ _
  · exact h.dropped _ _
  · cases s.ends? e with
    | none => exact h.dropped _ _
    | some ends =>
      obtain ⟨source, target⟩ := ends
      dsimp only
      split
      · exact (h.joinEdge e source target).taken _ _
      · split
        · next assoc _ => exact ((h.joinClass source assoc).joinClass target assoc).taken _ _
        · exact (h.joinEdge e source target).taken _ _

theorem apply (h : s.Shuffled s') : s.apply.Shuffled s'.apply where
  result := rfl
  session := by
    have hplace : s'.hierarchy.place = s.hierarchy.place := by rw [h.hierarchy]
    unfold Session.apply
    dsimp only
    rw [hplace]
    refine h.map fun {e e'} he => ?_
    have hname : s.hierarchy.place e'.name = s.hierarchy.place e.name := by rw [he.name]
    rw [hname]
    cases s.hierarchy.place e.name with
    | none => exact he
    | some i => exact he.withInheritance (some i)

/-- **Every call keeps sessions alike.** -/
theorem step (h : s.Shuffled s') (c : Call) : (s.step c).Shuffled (s'.step c) := by
  cases c with
  | inherit e => exact h.inherit e
  | compose e => exact h.compose e
  | relate e => exact h.relate e
  | apply => exact h.apply

/-! ### An association class -/

/-- ties of two ends to one class, in either order -/
theorem joinClasses (h : s.Shuffled s') (a b assoc : String) :
    ((s.joinClass a assoc).joinClass b assoc).Shuffled ((s'.joinClass b assoc).joinClass a assoc) := by
  by_cases hab : a = b
  · subst hab
    exact (h.joinClass a assoc).joinClass a assoc
  · -- the two ends have numbers of their own, so the first tie leaves the suffix of the second alone
    have hother : ¬ Numbering.SamePair a assoc b assoc := by
      rintro (⟨heq, -⟩ | ⟨ha, hb⟩)
      · exact hab heq
      · exact hab (ha.trans hb)
    have hother' : ¬ Numbering.SamePair b assoc a assoc := by
      rintro (⟨heq, -⟩ | ⟨hb, ha⟩)
      · exact hab heq.symm
      · exact hab (ha.symm.trans hb.symm)
    rw [joinClass_joinClass, joinClass_joinClass, Numbering.nextSuffix_advance_of_not hother,
      Numbering.nextSuffix_advance_of_not hother', h.nextSuffix, h.nextSuffix]
    have hadvanced : ((s.advance a assoc).advance b assoc).Shuffled ((s'.advance b assoc).advance a assoc) := {
      names := h.names
      policy := h.policy
      hierarchy := h.hierarchy
      count := fun c d => by
        show ((s'.numbering.advance b assoc).advance a assoc).count c d =
          ((s.numbering.advance a assoc).advance b assoc).count c d
        simp only [Numbering.count_advance, h.count]
        split_ifs <;> rfl
      entities := h.entities }
    exact hadvanced.placeAll List.perm_append_comm

/-- **An edge through an association class** only changes the order of fields when it is read from its other end. -/
theorem relate_reversed (h : s.Shuffled s') {e : Edge} (he : s.names.ThroughClass e) :
    (s.relate e).Shuffled (s'.relate e.reversed) := by
  have hkind : e.reversed.kind = e.kind := rfl
  have hends : s'.ends? e.reversed = (s.ends? e).map Prod.swap := by
    rw [← h.ends? e]
    exact s'.names.ends?_reversed e
  unfold Session.relate
  rw [hends, hkind, h.names]
  split
  · next hinherit => exact absurd (Or.inl hinherit) he.plain
  · next hcompose => exact absurd (Or.inr hcompose) he.plain
  · cases s.ends? e with
    | none => exact h.dropped _ _
    | some ends =>
      obtain ⟨source, target⟩ := ends
      unfold NameTable.ThroughClass NameTable.assoc? at he
      simp only [Option.map_some, Prod.swap_prod_mk]
      cases hid : given? e.kind.associationClassId with
      | none => rw [hid] at he; cases he
      | some id =>
        rw [hid] at he
        obtain ⟨assoc, hassoc⟩ := Option.isSome_iff_exists.1 he
        have hnamed : s.names.named? id = some assoc := hassoc
        simp only [hnamed]
        exact (h.joinClasses source target assoc).taken _ _

end Session.Shuffled

/-! ## Plans -/

/-- edges of which some of a kind are read from their other ends -/
def Edge.Turned (S : Edge → Prop) (e e' : Edge) : Prop := e' = e ∨ S e ∧ e' = e.reversed

namespace Plan

/-- plans alike up to the order of fields -/
structure Shuffled (p p' : Plan) : Prop where
  dropped : p'.dropped = p.dropped
  entities : List.Forall₂ Entity.Shuffled p.entities p'.entities

/-- work that has gone as far, alike up to the order of fields -/
structure Progress.Shuffled (p p' : Progress) : Prop where
  dropped : p'.dropped = p.dropped
  session : p.session.Shuffled p'.session

/-- calls that keep sessions alike keep the work alike, one after the other -/
theorem Progress.Shuffled.takeAll {t : NameTable} {p p' : Progress} (h : p.Shuffled p') {cs cs' : List Call}
    (hp : p.session.names = t)
    (hcs : List.Forall₂ (fun c c' => ∀ s s' : Session, s.names = t → s.Shuffled s' → (s.step c).Shuffled (s'.step c'))
      cs cs') :
    (∀ x, p'.takeAll cs' = .error x ↔ p.takeAll cs = .error x) ∧
      ∀ q q', p.takeAll cs = .ok q → p'.takeAll cs' = .ok q' → q.Shuffled q' := by
  induction hcs generalizing p p' with
  | nil =>
    refine ⟨fun x => iff_of_false nofun nofun, fun q q' hq hq' => ?_⟩
    cases hq
    cases hq'
    exact h
  | @cons c c' rest rest' hc _ ih =>
    have hstep := hc p.session p'.session hp h.session
    cases hresult : (p.session.step c).result with
    | error x =>
      have hone := take_of_error hresult
      have hone' := take_of_error (hstep.result.trans hresult)
      rw [takeAll_cons_of_error hone, takeAll_cons_of_error hone']
      exact ⟨fun y => Iff.rfl, nofun⟩
    | ok b =>
      have hone := take_of_ok hresult
      have hone' := take_of_ok (hstep.result.trans hresult)
      rw [takeAll_cons_of_ok hone, takeAll_cons_of_ok hone']
      refine ih ⟨?_, hstep.session⟩ ((Session.names_step _ c).trans hp)
      dsimp only
      rw [h.dropped]

section

variable {d : Diagram} {edges : List Edge}

/-- **Edges between one and many** may be read from either end. -/
theorem build_of_oneToMany (policy : Policy) (h : List.Forall₂ (Edge.Turned d.nameTable.OneToMany) d.edges edges) :
    build policy { d with edges := edges } = build policy d := by
  have hcalls : List.Forall₂ (fun c c' => ∀ s : Session, s.names = d.nameTable → s.step c' = s.step c)
      (calls d.edges) (calls edges) := by
    refine calls_forall₂ (fun c s _ => rfl) (h.imp fun e e' hee => hee.imp_right ?_)
    rintro ⟨he, rfl⟩
    refine ⟨isInheritance_of_isPlain he.plain, isInheritance_of_isPlain he.plain, fun s hs => ?_⟩
    rw [fieldCall_of_isPlain he.plain, fieldCall_of_isPlain (e := e.reversed) he.plain]
    exact Session.relate_reversed (hs ▸ he)
  have hrun : run policy { d with edges := edges } = run policy d := Progress.takeAll_congr rfl hcalls
  unfold build
  rw [hrun]

/-- **Edges through an association class** change the order of fields only when they are read from their other ends. -/
theorem shuffled_of_throughClass (policy : Policy)
    (h : List.Forall₂ (Edge.Turned fun e => d.nameTable.OneToMany e ∨ d.nameTable.ThroughClass e) d.edges edges) :
    (∀ x, build policy { d with edges := edges } = .error x ↔ build policy d = .error x) ∧
      ∀ p p', build policy d = .ok p → build policy { d with edges := edges } = .ok p' → p.Shuffled p' := by
  have hcalls : List.Forall₂ (fun c c' => ∀ s s' : Session, s.names = d.nameTable → s.Shuffled s' →
      (s.step c).Shuffled (s'.step c')) (calls d.edges) (calls edges) := by
    refine calls_forall₂ (fun c s s' _ hss => hss.step c) (h.imp fun e e' hee => hee.imp_right ?_)
    rintro ⟨he, rfl⟩
    have hplain : Session.IsPlain e := he.elim (fun hone => hone.plain) fun hthrough => hthrough.plain
    refine ⟨isInheritance_of_isPlain hplain, isInheritance_of_isPlain hplain, fun s s' hs hss => ?_⟩
    rw [fieldCall_of_isPlain hplain, fieldCall_of_isPlain (e := e.reversed) hplain]
    rcases he with hone | hthrough
    · have hnames : s'.names.OneToMany e := by rw [hss.names, hs]; exact hone
      show (s.relate e).Shuffled (s'.relate e.reversed)
      rw [Session.relate_reversed hnames]
      exact hss.relate e
    · exact hss.relate_reversed (hs ▸ hthrough)
  have hstart : (begin policy d).Shuffled (begin policy { d with edges := edges }) := ⟨rfl, .refl _⟩
  obtain ⟨herror, hok⟩ := hstart.takeAll rfl hcalls
  refine ⟨fun x => ?_, fun p p' hp hp' => ?_⟩
  · rw [build_eq_error, build_eq_error]
    exact herror x
  · obtain ⟨q, hq, rfl⟩ := build_eq_ok_iff.1 hp
    obtain ⟨q', hq', rfl⟩ := build_eq_ok_iff.1 hp'
    obtain ⟨hdropped, hsession⟩ := hok q q' hq hq'
    exact ⟨hdropped, hsession.entities⟩

end

end Plan

/-- **Reading edges from their other ends.** Under either policy any edges with one and many at their ends, outside
hierarchies and compositions and without an association class, may be read from their other ends: the plan or the conflict is
the same. When edges through an association class are read from their other ends too, the conflict is the same, or the plans
have the same classes with the same fields in another order. -/
theorem build_reversed (policy : Policy) (d : Diagram) (edges : List Edge) :
    (List.Forall₂ (Edge.Turned d.nameTable.OneToMany) d.edges edges →
      Plan.build policy { d with edges := edges } = Plan.build policy d) ∧
    (List.Forall₂ (Edge.Turned fun e => d.nameTable.OneToMany e ∨ d.nameTable.ThroughClass e) d.edges edges →
      (∀ x, Plan.build policy { d with edges := edges } = .error x ↔ Plan.build policy d = .error x) ∧
        ∀ p p', Plan.build policy d = .ok p → Plan.build policy { d with edges := edges } = .ok p' → p.Shuffled p') :=
  ⟨Plan.build_of_oneToMany policy, Plan.shuffled_of_throughClass policy⟩

/-- users with two kinds of products, one by way of a purchase -/
def shop : Diagram where
  nodes := [⟨"u", "User", [], false⟩, ⟨"p", "Product", [], false⟩, ⟨"b", "Purchase", [], true⟩]
  edges := [⟨"owns", "u", "p", none, some "1", some "*", .association none⟩,
    ⟨"buys", "u", "p", none, some "*", some "*", .association (some "b")⟩]
  metadata := .null

theorem shop_reversed :
    List.Forall₂ (Edge.Turned shop.nameTable.OneToMany) shop.edges
      [⟨"owns", "p", "u", none, some "*", some "1", .association none⟩,
        ⟨"buys", "u", "p", none, some "*", some "*", .association (some "b")⟩] ∧
    Plan.build .fail { shop with edges := [⟨"owns", "p", "u", none, some "*", some "1", .association none⟩,
      ⟨"buys", "u", "p", none, some "*", some "*", .association (some "b")⟩] } = Plan.build .fail shop ∧
    ∃ p p', Plan.build .fail shop = .ok p ∧ Plan.build .fail { shop with edges := shop.edges.map Edge.reversed } = .ok p' ∧
      p.Shuffled p' ∧
      p.entities.map (fun e => e.fields.map RelationField.name) =
        [["products", "purchases"], ["user", "purchases"], ["user", "product"]] ∧
      p'.entities.map (fun e => e.fields.map RelationField.name) =
        [["products", "purchases"], ["user", "purchases"], ["product", "user"]] := by
  have howns : shop.nameTable.OneToMany ⟨"owns", "u", "p", none, some "1", some "*", .association none⟩ :=
    ⟨by unfold Session.IsPlain; decide, by decide, by decide⟩
  have hbuys : shop.nameTable.ThroughClass ⟨"buys", "u", "p", none, some "*", some "*", .association (some "b")⟩ := by
    unfold NameTable.ThroughClass
    decide
  have hone : List.Forall₂ (Edge.Turned shop.nameTable.OneToMany) shop.edges
      [⟨"owns", "p", "u", none, some "*", some "1", .association none⟩,
        ⟨"buys", "u", "p", none, some "*", some "*", .association (some "b")⟩] :=
    .cons (Or.inr ⟨howns, rfl⟩) (.cons (Or.inl rfl) .nil)
  have hboth := (build_reversed .fail shop (shop.edges.map Edge.reversed)).2
    (.cons (Or.inr ⟨Or.inl howns, rfl⟩) (.cons (Or.inr ⟨Or.inr hbuys, rfl⟩) .nil))
  exact ⟨hone, (build_reversed .fail shop _).1 hone, _, _, rfl, rfl, hboth.2 _ _ rfl rfl, by decide, by decide⟩

end Classwright
