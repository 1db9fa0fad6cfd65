/-
What the strict policy refuses.

An inheritance edge claims a child for a parent, a composition edge claims a part for a whole. Two claims on one class clash
when they are of one kind and cannot both stand: two different parents, or two wholes of any kind. Under the strict policy
a session refuses the first claim that clashes with an earlier one, all parents being settled before any whole, and does
otherwise what it does when the last claim wins.

- `Diagram.claims`: the claims of a kind, in the order of the edges;
- `Diagram.Disputed`: two claims of a kind clash; `Diagram.FirstDispute`: a conflict describes the first one that does;
- `Session.holder?`: who holds a class; `admits_step`, `refuses_step`: an accepted call enters its claim and takes none
  back, a refused one clashes with the holder;
- `Progress.peaceful_of_takeAll`: the claims of a run that comes to its end do not clash;
- `conflicts_exact`: when the strict policy refuses a diagram, with which conflict, and what it does otherwise.
-/
import Classwright.Proofs.Hierarchies
import Classwright.Proofs.Policies

namespace Classwright

/-! ## Claims -/

/-- a claim cannot stand beside an earlier one: a repeated parent can, a repeated whole cannot -/
def ClaimKind.Clash : ClaimKind → String → String → Prop
  | .inheritance, previous, current => previous ≠ current
  | .composition, _, _ => True

theorem ClaimKind.eq_of_not_clash {k : ClaimKind} {previous current : String} (h : ¬ k.Clash previous current) :
    previous = current := by
  cases k with
  | inheritance => exact not_not.1 h
  | composition => exact absurd trivial h

namespace NameTable

/-- the part and the whole of an edge, when they are classes with a name -/
def wholeClaim? (t : NameTable) (e : Edge) : Option (String × String) := (t.ends? e).map Prod.swap

/-- the claim of a kind that a call makes -/
def claimOf? (t : NameTable) : ClaimKind → Call → Option (String × String)
  | .inheritance, .inherit e => t.parentClaim? e
  | .composition, .compose e => t.wholeClaim? e
  | _, _ => none

end NameTable

namespace Diagram

/-- the parts and their wholes by the composition edges, in the order of the edges -/
def wholeClaims (d : Diagram) : List (String × String) :=
  (d.edges.filter fun e => e.kind = .composition).filterMap d.nameTable.wholeClaim?

/-- the claims of a kind: each names a class and the one it is claimed for -/
def claims (d : Diagram) : ClaimKind → List (String × String)
  | .inheritance => d.parentClaims
  | .composition => d.wholeClaims

/-- two claims of a kind on one class cannot both stand -/
def Disputed (d : Diagram) (k : ClaimKind) : Prop :=
  ∃ name previous current, [(name, previous), (name, current)].Sublist (d.claims k) ∧ k.Clash previous current

end Diagram

/-- no two of the claims clash -/
def Peaceful (k : ClaimKind) (claims : List (String × String)) : Prop :=
  claims.Pairwise fun c c' => c.1 = c'.1 → ¬ k.Clash c.2 c'.2

/-- a conflict is about the first claim of its kind that clashes with an earlier one -/
def Diagram.FirstDispute (d : Diagram) (x : Conflict) : Prop :=
  ∃ before after, d.claims x.kind = before ++ (x.className, x.current) :: after ∧
    (x.className, x.previous) ∈ before ∧ x.kind.Clash x.previous x.current ∧ Peaceful x.kind before

theorem Diagram.not_disputed_iff (d : Diagram) (k : ClaimKind) : ¬ d.Disputed k ↔ Peaceful k (d.claims k) := by
  unfold Peaceful
  rw [List.pairwise_iff_forall_sublist]
  constructor
  · rintro h ⟨n, v⟩ ⟨m, w⟩ hsub hname hclash
    change n = m at hname
    subst hname
    exact h ⟨n, v, w, hsub, hclash⟩
  · rintro h ⟨n, v, w, hsub, hclash⟩
    exact h hsub rfl hclash

theorem Diagram.FirstDispute.disputed {d : Diagram} {x : Conflict} (h : d.FirstDispute x) : d.Disputed x.kind := by
  obtain ⟨before, after, hclaims, hmem, hclash, -⟩ := h
  refine ⟨x.className, x.previous, x.current, ?_, hclash⟩
  rw [hclaims]
  exact (List.singleton_sublist.2 hmem).append (List.Sublist.cons_cons _ (List.nil_sublist after))

/-! ## Who holds a class -/

namespace Session

/-- the identity of a class -/
def identity? (s : Session) (name : String) : Option CompositeIdentity := (s.entity? name).bind Entity.identity

/-- the parent of a class, or its whole -/
def holder? (s : Session) : ClaimKind → String → Option String
  | .inheritance, name => s.hierarchy.parent? name
  | .composition, name => (s.identity? name).map CompositeIdentity.wholeClass

section

variable (s : Session)

theorem identity?_map {f : Entity → Entity} (hname : ∀ e, (f e).name = e.name) (name : String) :
    ({ s with entities := s.entities.map f } : Session).identity? name =
      (s.entity? name).bind fun e => (f e).identity := by
  have hkey : (fun e : Entity => e.name == name) ∘ f = fun e => e.name == name := by
    funext e
    simp [hname]
  unfold identity? entity?
  rw [List.find?_map, hkey, Option.bind_map]
  rfl

theorem identity?_modify (owner : String) {f : Entity → Entity} (hname : ∀ e, (f e).name = e.name) (name : String) :
    (s.modify owner f).identity? name =
      if name = owner then (s.entity? name).bind fun e => (f e).identity else s.identity? name := by
  refine (s.identity?_map (fun e => ?_) name).trans ?_
  · split_ifs
    · exact hname e
    · rfl
  · unfold identity?
    cases he : s.entity? name with
    | none => simp
    | some e =>
      have hen : e.name = name := by simpa using List.find?_some he
      simp only [Option.bind_some, hen]
      split_ifs <;> rfl

theorem identity?_placeAll (ps : List Placed) (name : String) : (s.placeAll ps).identity? name = s.identity? name := by
  induction ps generalizing s with
  | nil => rfl
  | cons p rest ih =>
    rw [placeAll, List.foldl_cons]
    refine (ih (s.place p)).trans ?_
    unfold place
    rw [identity?_modify]
    · split_ifs <;> rfl
    · exact fun _ => rfl

theorem identity?_bind (whole part name : String) :
    (s.bind whole part).identity? name =
      if name = part then
        (s.entity? name).map fun _ => s.identityOf whole part (s.numbering.nextSuffix whole part)
      else s.identity? name := by
  unfold bind
  rw [identity?_placeAll, identity?_modify]
  · show (if name = part then (s.entity? name).bind _ else s.identity? name) = _
    cases s.entity? name <;> rfl
  · exact fun _ => rfl

theorem identity?_apply (name : String) : s.apply.session.identity? name = s.identity? name := by
  refine (s.identity?_map (fun e => ?_) name).trans ?_
  · split <;> rfl
  · unfold identity?
    congr 1
    funext e
    split <;> rfl

theorem Regular.exists_entity {s : Session} (h : s.Regular) {id name : String} (hn : s.names.named? id = some name) :
    ∃ e, s.entity? name = some e := by
  have hmem := h.closed.named_mem hn
  rw [← h.keys, keys_layout] at hmem
  obtain ⟨e, he, rfl⟩ := List.mem_map.1 hmem
  exact ⟨e, h.entity?_eq he⟩

end

/-! ## Calls under the strict policy -/

/-- the classes of a session are in order, and no class is claimed twice -/
structure Strict (s : Session) : Prop where
  regular : s.Regular
  policy : s.policy = .fail

theorem Strict.step {s : Session} (h : s.Strict) (c : Call) : (s.step c).session.Strict :=
  ⟨h.regular.step c, (policy_step s c).trans h.policy⟩

/-- a claim is entered beside those that stand -/
structure Admits (s : Session) (k : ClaimKind) (claim : Option (String × String)) (s' : Session) : Prop where
  admitted : ∀ {name current held}, claim = some (name, current) → s.holder? k name = some held →
    ¬ k.Clash held current
  keeps : ∀ {name held}, s.holder? k name = some held → s'.holder? k name = some held
  enters : ∀ {name current}, claim = some (name, current) → s'.holder? k name = some current
  only : ∀ {name held}, s'.holder? k name = some held → s.holder? k name = some held ∨ claim = some (name, held)

variable {s s' : Session} {k : ClaimKind}

theorem Admits.idle (h : ∀ name, s'.holder? k name = s.holder? k name) : s.Admits k none s' where
  admitted := nofun
  keeps := fun hh => (h _).trans hh
  enters := nofun
  only := fun hh => Or.inl ((h _).symm.trans hh)

theorem Admits.entered {name current : String} (hfree : ∀ held, s.holder? k name = some held → ¬ k.Clash held current)
    (h : ∀ other, s'.holder? k other = if name = other then some current else s.holder? k other) :
    s.Admits k (some (name, current)) s' where
  admitted := by
    rintro _ _ held ⟨⟩ hh
    exact hfree held hh
  keeps := by
    intro other held hh
    rw [h]
    split_ifs with hname
    · subst hname
      rw [ClaimKind.eq_of_not_clash (hfree held hh)]
    · exact hh
  enters := by
    rintro _ _ ⟨⟩
    rw [h, if_pos rfl]
  only := by
    intro other held hh
    rw [h] at hh
    split_ifs at hh with hname
    · cases hh
      subst hname
      exact Or.inr rfl
    · exact Or.inl hh

theorem admits_inherit (hs : s.Strict) {e : Edge} {b : Option Bool} (h : (s.inherit e).result = .ok b) :
    s.Admits .inheritance (s.names.parentClaim? e) (s.inherit e).session := by
  have hparent : ∀ name, (s.inherit e).session.holder? .inheritance name =
      (Table.get? (s.names.parentClaim? e).toList.reverse name).or (s.hierarchy.parent? name) := by
    intro name
    rw [session_inherit h]
    exact Hierarchy.parent?_adoptAll _ _ _
  cases hclaim : s.names.parentClaim? e with
  | none =>
    rw [hclaim] at hparent
    exact Admits.idle hparent
  | some claim =>
    obtain ⟨child, parent⟩ := claim
    rw [hclaim] at hparent
    refine Admits.entered (fun held hheld hclash => ?_) fun other => ?_
    · unfold NameTable.parentClaim? at hclaim
      change s.hierarchy.parent? child = some held at hheld
      cases s.inherits e with
      | unresolved hends _ => rw [hends] at hclaim; cases hclaim
      | self hends _ => simp [hends] at hclaim
      | known hends hne hp _ =>
        simp only [hends, if_neg hne] at hclaim
        cases hclaim
        exact hclash (Option.some.inj (hheld.symm.trans hp))
      | refused _ _ _ _ _ hr => rw [hr] at h; cases h
      | adopted hends hne hp _ =>
        simp only [hends, if_neg hne] at hclaim
        cases hclaim
        have hpolicy := (hp held hheld).2
        rw [hs.policy] at hpolicy
        cases hpolicy
    · rw [hparent other]
      simp only [Option.toList_some, List.reverse_singleton, Table.get?]
      split_ifs <;> rfl

theorem admits_compose (hs : s.Strict) {e : Edge} {b : Option Bool} (h : (s.compose e).result = .ok b) :
    s.Admits .composition (s.names.wholeClaim? e) (s.compose e).session := by
  unfold NameTable.wholeClaim?
  cases s.composes e with
  | unresolved hends hr =>
    rw [hr, hends]
    exact Admits.idle fun _ => rfl
  | @first whole part hends hfree hr =>
    rw [hr, hends]
    refine Admits.entered (fun held hheld => ?_) fun other => ?_
    · change Option.map _ ((s.entity? part).bind Entity.identity) = _ at hheld
      rw [hfree] at hheld
      cases hheld
    · obtain ⟨entity, hentity⟩ := hs.regular.exists_entity (NameTable.named_of_ends? hends).2
      show Option.map _ ((s.bind whole part).identity? other) = _
      rw [identity?_bind]
      by_cases hother : part = other
      · rw [if_pos hother.symm, if_pos hother, ← hother, hentity]
        rfl
      · rw [if_neg (Ne.symm hother), if_neg hother]
        rfl
  | refused _ _ _ hr => rw [hr] at h; cases h
  | again _ _ hpolicy _ => rw [hs.policy] at hpolicy; cases hpolicy

theorem holder_relate (s : Session) (e : Edge) (k : ClaimKind) (name : String) :
    (s.relate e).session.holder? k name = s.holder? k name := by
  cases k with
  | inheritance =>
    exact unseen_relate s e (g := fun t => t.hierarchy.parent? name) fun _ _ _ => rfl
  | composition =>
    refine congrArg (Option.map CompositeIdentity.wholeClass) ?_
    exact keeps_relate (P := fun t => t.identity? name = s.identity? name) rfl
      (fun _ _ => identity?_placeAll _ _ name) fun _ _ h => (identity?_placeAll _ _ name).trans h

/-- **An accepted call.** Its claim is entered beside those that stand. -/
theorem admits_step (hs : s.Strict) {c : Call} {b : Option Bool} (h : (s.step c).result = .ok b) (k : ClaimKind) :
    s.Admits k (s.names.claimOf? k c) (s.step c).session := by
  cases c with
  | inherit e =>
    cases k with
    | inheritance => exact admits_inherit hs h
    | composition =>
      refine Admits.idle fun name => ?_
      show (s.inherit e).session.holder? .composition name = _
      rw [session_inherit h]
      rfl
  | compose e =>
    cases k with
    | inheritance =>
      exact Admits.idle fun name => unseen_compose s e (g := fun t => t.hierarchy.parent? name) fun _ _ _ => rfl
    | composition => exact admits_compose hs h
  | relate e => cases k <;> exact Admits.idle fun name => holder_relate s e _ name
  | apply =>
    cases k with
    | inheritance => exact Admits.idle fun name => rfl
    | composition =>
      exact Admits.idle fun name => congrArg (Option.map CompositeIdentity.wholeClass) (identity?_apply s name)

/-- **A refused call.** Its claim clashes with the holder of the class. -/
theorem refuses_step {c : Call} {x : Conflict} (h : (s.step c).result = .error x) :
    s.names.claimOf? x.kind c = some (x.className, x.current) ∧ s.holder? x.kind x.className = some x.previous ∧
      x.kind.Clash x.previous x.current := by
  cases c with
  | inherit e =>
    simp only [step] at h
    cases s.inherits e with
    | unresolved _ hr => rw [hr] at h; cases h
    | self _ hr => obtain ⟨log, hr⟩ := hr; rw [hr] at h; cases h
    | known _ _ _ hr => rw [hr] at h; cases h
    | adopted _ _ _ hr => obtain ⟨log, hr⟩ := hr; rw [hr] at h; cases h
    | refused hends hne hparent hother _ hr =>
      rw [hr] at h
      cases h
      refine ⟨?_, hparent, hother⟩
      simp only [NameTable.claimOf?, NameTable.parentClaim?, hends, if_neg hne]
  | compose e =>
    simp only [step] at h
    cases s.composes e with
    | unresolved _ hr => rw [hr] at h; cases h
    | first _ _ hr => rw [hr] at h; cases h
    | again _ _ _ hr => obtain ⟨log, hr⟩ := hr; rw [hr] at h; cases h
    | refused hends hheld _ hr =>
      rw [hr] at h
      cases h
      refine ⟨?_, congrArg (Option.map CompositeIdentity.wholeClass) hheld, trivial⟩
      simp only [NameTable.claimOf?, NameTable.wholeClaim?, hends, Option.map_some, Prod.swap_prod_mk]
  | relate e =>
    obtain ⟨⟨b, hb⟩, -⟩ := ties_relate s e
    simp only [step] at h
    rw [hb] at h
    cases h
  | apply => cases h

end Session

/-! ## Runs under the strict policy -/

namespace Plan

section

variable {p q : Progress} {cs : List Call} {k : ClaimKind}

theorem Progress.admits_cons {c : Call} (hs : p.session.Strict) (h : p.takeAll (c :: cs) = .ok q) :
    ∃ p' : Progress, p'.takeAll cs = .ok q ∧ p'.session.Strict ∧ p'.session.names = p.session.names ∧
      ∀ k, p.session.Admits k (p.session.names.claimOf? k c) p'.session := by
  obtain ⟨p', b, hsession, hb, hrest⟩ := Progress.step_of_takeAll h
  refine ⟨p', hrest, ?_, ?_, fun k => ?_⟩ <;> rw [hsession]
  · exact hs.step c
  · exact Session.names_step _ c
  · exact Session.admits_step hs hb k

/-- who holds a class after a run held it before, or claimed it on the way -/
theorem Progress.holder_of_takeAll (hs : p.session.Strict) (h : p.takeAll cs = .ok q) {name held : String}
    (hh : q.session.holder? k name = some held) :
    p.session.holder? k name = some held ∨ (name, held) ∈ cs.filterMap (p.session.names.claimOf? k) := by
  induction cs generalizing p with
  | nil => cases h; exact Or.inl hh
  | cons c rest ih =>
    obtain ⟨p', hrest, hs', hnames, hadmits⟩ := Progress.admits_cons hs h
    rw [List.mem_filterMap]
    rcases ih hs' hrest with hheld | hmem
    · rcases (hadmits k).only hheld with hbefore | hclaim
      · exact Or.inl hbefore
      · exact Or.inr ⟨c, List.mem_cons_self, hclaim⟩
    · rw [hnames] at hmem
      obtain ⟨c', hc', hclaim⟩ := List.mem_filterMap.1 hmem
      exact Or.inr ⟨c', List.mem_cons_of_mem c hc', hclaim⟩

/-- no claim of the run clashes with one that stood before -/
theorem Progress.apart_of_takeAll (hs : p.session.Strict) (h : p.takeAll cs = .ok q) {name held : String}
    (hh : p.session.holder? k name = some held) :
    ∀ c ∈ cs, ∀ current, p.session.names.claimOf? k c = some (name, current) → ¬ k.Clash held current := by
  induction cs generalizing p with
  | nil => exact fun c hc => absurd hc List.not_mem_nil
  | cons c rest ih =>
    obtain ⟨p', hrest, hs', hnames, hadmits⟩ := Progress.admits_cons hs h
    intro c' hc' current hclaim
    rcases List.mem_cons.1 hc' with rfl | hc'
    · exact (hadmits k).admitted hclaim hh
    · exact ih hs' hrest ((hadmits k).keeps hh) c' hc' current (hnames ▸ hclaim)

/-- **The claims of a run that comes to its end do not clash.** -/
theorem Progress.peaceful_of_takeAll (hs : p.session.Strict) (h : p.takeAll cs = .ok q) (k : ClaimKind) :
    Peaceful k (cs.filterMap (p.session.names.claimOf? k)) := by
  unfold Peaceful
  rw [List.pairwise_filterMap]
  induction cs generalizing p with
  | nil => exact List.Pairwise.nil
  | cons c rest ih =>
    obtain ⟨p', hrest, hs', hnames, hadmits⟩ := Progress.admits_cons hs h
    refine List.Pairwise.cons (fun c' hc' => ?_) (hnames ▸ ih hs' hrest)
    rintro ⟨name, current⟩ hclaim ⟨name', current'⟩ hclaim' hsame
    change name = name' at hsame
    subst hsame
    exact Progress.apart_of_takeAll hs' hrest ((hadmits k).enters hclaim) c' hc' current' (hnames ▸ hclaim')

/-- a run that fails refuses the first claim that clashes with an earlier one of its kind -/
theorem Progress.dispute_of_takeAll {x : Conflict} (hs : p.session.Strict)
    (hfree : ∀ k name, p.session.holder? k name = none) (h : p.takeAll cs = .error x) :
    ∃ before c after, cs = before ++ c :: after ∧
      p.session.names.claimOf? x.kind c = some (x.className, x.current) ∧
      (x.className, x.previous) ∈ before.filterMap (p.session.names.claimOf? x.kind) ∧
      x.kind.Clash x.previous x.current ∧ Peaceful x.kind (before.filterMap (p.session.names.claimOf? x.kind)) := by
  obtain ⟨before, c, after, q, rfl, hq, herror⟩ := Progress.takeAll_error h
  have hnames : q.session.names = p.session.names := by
    rw [session_of_takeAll hq]
    exact Session.names_after _ _
  obtain ⟨hclaim, hholder, hclash⟩ := Session.refuses_step herror
  rw [hnames] at hclaim
  refine ⟨before, c, after, rfl, hclaim, ?_, hclash, Progress.peaceful_of_takeAll hs hq x.kind⟩
  rcases Progress.holder_of_takeAll hs hq hholder with hbefore | hmem
  · rw [hfree] at hbefore
    cases hbefore
  · exact hmem

end

/-! ## Diagrams -/

theorem strict_begin (d : Diagram) : (begin .fail d).session.Strict :=
  ⟨Session.regular_start (NameTable.closed_ofDiagram d) .fail, rfl⟩

theorem holder_begin (policy : Policy) (d : Diagram) (k : ClaimKind) (name : String) :
    (begin policy d).session.holder? k name = none := by
  cases k with
  | inheritance => rfl
  | composition =>
    show Option.map _ (Option.bind (List.find? _ _) _) = none
    rw [Option.map_eq_none_iff, Option.bind_eq_none_iff]
    intro e he
    obtain ⟨c, -, rfl⟩ := List.mem_map.1 (List.mem_of_find?_eq_some he)
    rfl

/-- the inheritance edges make the claims on children -/
theorem filterMap_inherits (d : Diagram) (k : ClaimKind) :
    ((d.edges.filter isInheritance).map Call.inherit).filterMap (d.nameTable.claimOf? k) =
      match k with
      | .inheritance => d.parentClaims
      | .composition => [] := by
  rw [List.filterMap_map]
  cases k with
  | inheritance => rfl
  | composition => exact List.filterMap_eq_nil_iff.2 fun e _ => rfl

/-- the calls for the edges of a diagram make its claims -/
theorem filterMap_calls (d : Diagram) (k : ClaimKind) :
    (calls d.edges).filterMap (d.nameTable.claimOf? k) = d.claims k := by
  unfold calls
  rw [List.filterMap_append, List.filterMap_append, filterMap_inherits, List.filterMap_map]
  cases k with
  | inheritance =>
    have hnone : (d.edges.filter fun e => !isInheritance e).filterMap
        (d.nameTable.claimOf? .inheritance ∘ fieldCall) = [] := by
      refine List.filterMap_eq_nil_iff.2 fun e _ => ?_
      simp only [Function.comp_apply, fieldCall]
      split_ifs <;> rfl
    rw [hnone]
    simp [NameTable.claimOf?, Diagram.claims]
  | composition =>
    show [] ++ [] ++ _ = d.wholeClaims
    unfold Diagram.wholeClaims
    rw [List.nil_append, List.nil_append, List.filterMap_filter, List.filterMap_filter]
    refine List.filterMap_congr fun e _ => ?_
    by_cases hkind : e.kind = .composition
    · simp [isInheritance, fieldCall, NameTable.claimOf?, hkind]
    · simp [fieldCall, NameTable.claimOf?, hkind]

theorem build_eq_error {policy : Policy} {d : Diagram} {x : Conflict} :
    build policy d = .error x ↔ run policy d = .error x := by
  unfold build
  cases run policy d <;> simp

/-- a refused diagram has a conflict about its first dispute -/
theorem firstDispute_of_build {d : Diagram} {x : Conflict} (h : build .fail d = .error x) : d.FirstDispute x := by
  obtain ⟨before, c, after, hcalls, hclaim, hmem, hclash, hpeace⟩ :=
    Progress.dispute_of_takeAll (strict_begin d) (holder_begin .fail d) (build_eq_error.1 h)
  refine ⟨_, after.filterMap (d.nameTable.claimOf? x.kind), ?_, hmem, hclash, hpeace⟩
  rw [← filterMap_calls, hcalls, List.filterMap_append]
  exact congrArg _ (List.filterMap_cons_some hclaim)

/-- the children are settled before the parts -/
theorem kind_of_build {d : Diagram} {x : Conflict} (h : build .fail d = .error x) (hd : d.Disputed .inheritance) :
    x.kind = .inheritance := by
  have hrun := build_eq_error.1 h
  unfold run calls at hrun
  cases hinherits : (begin .fail d).takeAll ((d.edges.filter isInheritance).map Call.inherit) with
  | ok m =>
    have hpeace := Progress.peaceful_of_takeAll (strict_begin d) hinherits .inheritance
    rw [show (begin .fail d).session.names = d.nameTable from rfl, filterMap_inherits] at hpeace
    exact absurd hd ((d.not_disputed_iff .inheritance).2 hpeace)
  | error y =>
    -- the rest of the calls is never reached
    rw [List.append_assoc, Progress.takeAll, List.foldlM_append] at hrun
    rw [Progress.takeAll] at hinherits
    rw [hinherits] at hrun
    cases hrun
    obtain ⟨before, c, after, hcalls, hclaim, -⟩ :=
      Progress.dispute_of_takeAll (strict_begin d) (holder_begin .fail d) hinherits
    have hc : c ∈ (d.edges.filter isInheritance).map Call.inherit := by
      rw [hcalls]
      exact List.mem_append_right _ List.mem_cons_self
    obtain ⟨e, -, rfl⟩ := List.mem_map.1 hc
    cases hkind : x.kind with
    | inheritance => rfl
    | composition => rw [hkind] at hclaim; cases hclaim

theorem peaceful_of_build {d : Diagram} {p : Plan} (h : build .fail d = .ok p) (k : ClaimKind) : ¬ d.Disputed k := by
  obtain ⟨q, hrun, -⟩ := run_of_build h
  rw [Diagram.not_disputed_iff, ← filterMap_calls]
  exact Progress.peaceful_of_takeAll (strict_begin d) hrun k

end Plan

/-- **What the strict policy refuses.** Every diagram has a plan when the last claim wins. Under the strict policy it is
refused exactly when two claims of a kind clash, with a conflict about the first claim that does; parents come before
wholes. Otherwise it has the same plan. -/
theorem conflicts_exact (d : Diagram) :
    (∃ p, Plan.build .lastWins d = .ok p) ∧
      ((∃ x, Plan.build .fail d = .error x) ↔ d.Disputed .inheritance ∨ d.Disputed .composition) ∧
      (¬ (d.Disputed .inheritance ∨ d.Disputed .composition) → Plan.build .fail d = Plan.build .lastWins d) ∧
      ∀ x, Plan.build .fail d = .error x → d.FirstDispute x ∧ (x.kind = .inheritance ↔ d.Disputed .inheritance) := by
  have hrefused : (∃ x, Plan.build .fail d = .error x) ↔ d.Disputed .inheritance ∨ d.Disputed .composition := by
    constructor
    · rintro ⟨x, hx⟩
      have hd := (Plan.firstDispute_of_build hx).disputed
      cases hkind : x.kind with
      | inheritance => exact Or.inl (hkind ▸ hd)
      | composition => exact Or.inr (hkind ▸ hd)
    · intro hd
      cases hb : Plan.build .fail d with
      | error x => exact ⟨x, rfl⟩
      | ok p => exact absurd hd (not_or.2 ⟨Plan.peaceful_of_build hb _, Plan.peaceful_of_build hb _⟩)
  refine ⟨Plan.exists_build d, hrefused, fun hd => ?_, fun x hx => ⟨Plan.firstDispute_of_build hx, fun hkind => ?_, ?_⟩⟩
  · cases hb : Plan.build .fail d with
    | error x => exact absurd (hrefused.1 ⟨x, hb⟩) hd
    | ok p => exact (Plan.build_lastWins_of_build hb).symm
  · exact hkind ▸ (Plan.firstDispute_of_build hx).disputed
  · exact Plan.kind_of_build hx

/-- a wheel claimed by two cars, then a car claimed twice by a vehicle and once by an asset -/
def contested : Diagram where
  nodes := [⟨"c", "Car", [], false⟩, ⟨"w", "Wheel", [], false⟩, ⟨"v", "Vehicle", [], false⟩, ⟨"a", "Asset", [], false⟩]
  edges := [⟨"", "c", "w", none, none, none, .composition⟩, ⟨"", "c", "w", none, none, none, .composition⟩,
    ⟨"", "v", "c", none, none, none, .inheritance⟩, ⟨"", "c", "c", none, none, none, .inheritance⟩,
    ⟨"", "v", "c", none, none, none, .inheritance⟩, ⟨"", "a", "c", none, none, none, .inheritance⟩]
  metadata := .null

theorem contested_refused : contested.Disputed .composition ∧ contested.Disputed .inheritance ∧
    Plan.build .fail contested = .error ⟨.inheritance, "Car", "Vehicle", "Asset"⟩ ∧
    contested.FirstDispute ⟨.inheritance, "Car", "Vehicle", "Asset"⟩ := by
  have hwholes : contested.claims .composition = [("Wheel", "Car"), ("Wheel", "Car")] := by decide
  have hrefused : Plan.build .fail contested = .error ⟨.inheritance, "Car", "Vehicle", "Asset"⟩ := rfl
  obtain ⟨hfirst, hkind⟩ := (conflicts_exact contested).2.2.2 _ hrefused
  exact ⟨⟨"Wheel", "Car", "Car", hwholes ▸ List.Sublist.refl _, trivial⟩, hkind.1 rfl, hrefused, hfirst⟩

end Classwright
