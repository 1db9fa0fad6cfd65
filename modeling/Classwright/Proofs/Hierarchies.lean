/-
The places of the classes of a plan in their hierarchies.

An inheritance edge between two different classes with a name is a claim: the child says who its parent is. The last claim
of a child counts. The hierarchy that is built edge by edge says the same from both ends, and the entities of a plan say
what it says.

- `Diagram.lastParent?`: the parent by the last claim, from the edges alone;
- `Hierarchy.Consistent`: the children of a class are those it is the parent of, each of them once; `adopt` keeps it;
- `Session.session_inherit`: an inheritance edge that is not refused lets the child be adopted as it claims;
- `Session.standings_fieldCall`: no other edge changes the place of a class;
- `Plan.hierarchy_of_build`: the places in a plan are those of a consistent hierarchy of last claims.
-/
import Classwright.Proofs.Layout

namespace Classwright

namespace Hierarchy

/-- parents and children record the same relation -/
structure Consistent (h : Hierarchy) : Prop where
  mem_childrenOf : ∀ {parent child}, child ∈ h.childrenOf parent ↔ h.parent? child = some parent
  nodup : ∀ parent, (h.childrenOf parent).Nodup

/-- the same but for one child, which stands under nobody -/
structure Vacated (h : Hierarchy) (child : String) : Prop where
  mem_childrenOf : ∀ {parent c}, c ∈ h.childrenOf parent ↔ c ≠ child ∧ h.parent? c = some parent
  nodup : ∀ parent, (h.childrenOf parent).Nodup

theorem consistent_empty : ({} : Hierarchy).Consistent :=
  ⟨fun {_ _} => ⟨fun h => absurd h List.not_mem_nil, nofun⟩, fun _ => List.nodup_nil⟩

theorem childrenOf_attach (h : Hierarchy) (parent child other : String) :
    (h.attach parent child).childrenOf other =
      if parent = other then h.childrenOf parent ++ [child] else h.childrenOf other := by
  unfold childrenOf attach
  rw [Table.get?_set]
  split_ifs <;> rfl

theorem childrenOf_release (h : Hierarchy) (parent child other : String) :
    (h.release parent child).childrenOf other =
      if parent = other then (h.childrenOf parent).erase child else h.childrenOf other := by
  unfold childrenOf release
  rw [Table.get?_set]
  split_ifs <;> rfl

theorem parent?_attach (h : Hierarchy) (parent child other : String) :
    (h.attach parent child).parent? other = if child = other then some parent else h.parent? other :=
  Table.get?_set _ _ _ _

theorem adopt_of_parent {h : Hierarchy} {parent child : String} (hp : h.parent? child = some parent) :
    h.adopt parent child = h := by
  unfold adopt
  rw [hp]
  exact if_pos rfl

/-- **The last parent counts.** -/
theorem parent?_adopt (h : Hierarchy) (parent child other : String) :
    (h.adopt parent child).parent? other = if child = other then some parent else h.parent? other := by
  cases hp : h.parent? child with
  | none =>
    unfold adopt
    rw [hp]
    exact parent?_attach h parent child other
  | some previous =>
    by_cases hsame : previous = parent
    · subst hsame
      rw [adopt_of_parent hp]
      split_ifs with hc
      · rw [← hc, hp]
      · rfl
    · unfold adopt
      simp only [hp, if_neg hsame]
      exact parent?_attach _ parent child other

theorem Vacated.attach {h : Hierarchy} {child : String} (hv : h.Vacated child) (parent : String) :
    (h.attach parent child).Consistent := by
  refine ⟨fun {q c} => ?_, fun q => ?_⟩
  · rw [childrenOf_attach, parent?_attach]
    by_cases hq : parent = q <;> by_cases hc : child = c
    · simp [hq, hc]
    · rw [if_pos hq, if_neg hc, ← hq, List.mem_append, hv.mem_childrenOf, List.mem_singleton]
      constructor
      · rintro (⟨-, hp⟩ | rfl)
        · exact hp
        · exact absurd rfl hc
      · intro hp
        exact Or.inl ⟨Ne.symm hc, hp⟩
    · rw [if_neg hq, if_pos hc, hv.mem_childrenOf]
      constructor
      · rintro ⟨hne, -⟩
        exact absurd hc.symm hne
      · intro e
        exact absurd (Option.some.inj e) hq
    · rw [if_neg hq, if_neg hc, hv.mem_childrenOf]
      constructor
      · exact And.right
      · intro hp
        exact ⟨Ne.symm hc, hp⟩
  · rw [childrenOf_attach]
    split_ifs
    · refine List.nodup_append.2 ⟨hv.nodup parent, List.nodup_singleton child, ?_⟩
      rintro c hc c' hc' rfl
      exact (hv.mem_childrenOf.1 hc).1 (List.mem_singleton.1 hc')
    · exact hv.nodup q

theorem Consistent.vacated_of_none {h : Hierarchy} (hc : h.Consistent) {child : String} (hp : h.parent? child = none) :
    h.Vacated child where
  mem_childrenOf := by
    intro parent c
    rw [hc.mem_childrenOf]
    refine ⟨fun hq => ⟨?_, hq⟩, And.right⟩
    rintro rfl
    rw [hp] at hq
    cases hq
  nodup := hc.nodup

theorem Consistent.vacated_release {h : Hierarchy} (hc : h.Consistent) {child previous : String}
    (hp : h.parent? child = some previous) : (h.release previous child).Vacated child where
  mem_childrenOf := by
    intro parent c
    rw [childrenOf_release]
    show _ ↔ c ≠ child ∧ h.parent? c = some parent
    split_ifs with hq
    · rw [(hc.nodup previous).mem_erase_iff, hc.mem_childrenOf, hq]
    · rw [hc.mem_childrenOf]
      refine ⟨fun hparent => ⟨?_, hparent⟩, And.right⟩
      rintro rfl
      exact hq (Option.some.inj (hp.symm.trans hparent))
  nodup := by
    intro parent
    rw [childrenOf_release]
    split_ifs
    · exact (hc.nodup previous).erase child
    · exact hc.nodup parent

/-- **A child that changes its parent leaves the children of the earlier one.** -/
theorem Consistent.adopt {h : Hierarchy} (hc : h.Consistent) (parent child : String) :
    (h.adopt parent child).Consistent := by
  cases hp : h.parent? child with
  | none =>
    unfold Hierarchy.adopt
    rw [hp]
    exact (hc.vacated_of_none hp).attach parent
  | some previous =>
    by_cases hsame : previous = parent
    · subst hsame
      rw [adopt_of_parent hp]
      exact hc
    · unfold Hierarchy.adopt
      simp only [hp, if_neg hsame]
      exact (hc.vacated_release hp).attach parent

/-- children adopted one after the other; each comes with its parent -/
def adoptAll (h : Hierarchy) (claims : List (String × String)) : Hierarchy :=
  claims.foldl (fun h c => h.adopt c.2 c.1) h

theorem Consistent.adoptAll {h : Hierarchy} (hc : h.Consistent) (claims : List (String × String)) :
    (h.adoptAll claims).Consistent := by
  induction claims generalizing h with
  | nil => exact hc
  | cons c rest ih => exact ih (hc.adopt c.2 c.1)

theorem parent?_adoptAll (h : Hierarchy) (claims : List (String × String)) (child : String) :
    (h.adoptAll claims).parent? child = (Table.get? claims.reverse child).or (h.parent? child) := by
  induction claims generalizing h with
  | nil => rfl
  | cons c rest ih =>
    refine (ih (h.adopt c.2 c.1)).trans ?_
    rw [List.reverse_cons, Table.get?_append, Option.or_assoc, parent?_adopt]
    congr 1
    simp only [Table.get?]
    split_ifs <;> rfl

theorem Consistent.isParent_iff {h : Hierarchy} (hc : h.Consistent) (name : String) :
    h.isParent name = true ↔ ∃ child, h.parent? child = some name := by
  unfold isParent
  rw [Bool.not_eq_true', List.isEmpty_eq_false_iff_exists_mem]
  simp only [hc.mem_childrenOf]

theorem isChild_iff (h : Hierarchy) (name : String) : h.isChild name = true ↔ ∃ parent, h.parent? name = some parent :=
  Option.isSome_iff_exists

end Hierarchy

/-! ## Claims -/

/-- the child and the parent of an edge, when they are two classes with a name -/
def NameTable.parentClaim? (t : NameTable) (e : Edge) : Option (String × String) :=
  match t.ends? e with
  | some (parent, child) => if parent = child then none else some (child, parent)
  | none => none

namespace Diagram

/-- the children and their parents by the inheritance edges, in the order of the edges -/
def parentClaims (d : Diagram) : List (String × String) :=
  (d.edges.filter Plan.isInheritance).filterMap d.nameTable.parentClaim?

/-- the parent of a class by its last claim -/
def lastParent? (d : Diagram) (child : String) : Option String := Table.get? d.parentClaims.reverse child

theorem named_of_lastParent? {d : Diagram} {child parent : String} (h : d.lastParent? child = some parent) :
    child ∈ d.nameTable.names ∧ parent ∈ d.nameTable.names := by
  have hmem := List.mem_reverse.1 (Table.mem_of_get? h)
  obtain ⟨e, -, he⟩ := List.mem_filterMap.1 hmem
  unfold NameTable.parentClaim? at he
  split at he
  · next p c hends =>
    split_ifs at he
    cases he
    obtain ⟨hp, hc⟩ := NameTable.named_of_ends? hends
    have hclosed := NameTable.closed_ofDiagram d
    exact ⟨hclosed.named_mem hc, hclosed.named_mem hp⟩
  · cases he

end Diagram

/-! ## What the calls do -/

/-- a class and its place -/
def Entity.standing (e : Entity) : String × Option Inheritance := (e.name, e.inheritance)

namespace Session

/-- **An inheritance edge.** When it is not refused, the child is adopted as it claims, and nothing else changes. -/
theorem session_inherit {s : Session} {e : Edge} {b : Option Bool} (h : (s.inherit e).result = .ok b) :
    (s.inherit e).session = { s with hierarchy := s.hierarchy.adoptAll (s.names.parentClaim? e).toList } := by
  unfold NameTable.parentClaim?
  cases s.inherits e with
  | unresolved hends hr =>
    rw [hr, hends]
    rfl
  | @self c hends hr =>
    obtain ⟨log, hr⟩ := hr
    simp only [hr, hends, if_pos]
    rfl
  | @known parent child hends hne hparent hr =>
    simp only [hr, hends, if_neg hne]
    show s = { s with hierarchy := s.hierarchy.adopt parent child }
    rw [Hierarchy.adopt_of_parent hparent]
  | refused _ _ _ _ _ hr =>
    rw [hr] at h
    cases h
  | adopted hends hne _ hr =>
    obtain ⟨log, hr⟩ := hr
    simp only [hr, hends, if_neg hne]
    rfl

def standings (s : Session) : List (String × Option Inheritance) := s.entities.map Entity.standing

theorem standings_apply {s : Session} (h : ∀ e ∈ s.entities, e.inheritance = none) :
    s.apply.session.standings = s.entities.map fun e => (e.name, s.hierarchy.place e.name) := by
  unfold standings apply
  dsimp only
  rw [List.map_map]
  refine List.map_congr_left fun e he => ?_
  simp only [Function.comp_apply, Entity.standing]
  cases hp : s.hierarchy.place e.name with
  | none => exact congrArg (Prod.mk e.name) (h e he)
  | some i => rfl

theorem standings_modify (s : Session) (name : String) {f : Entity → Entity} (h : ∀ e, (f e).standing = e.standing) :
    (s.modify name f).standings = s.standings :=
  s.map_modify name h

theorem standings_placeAll (s : Session) (ps : List Placed) : (s.placeAll ps).standings = s.standings := by
  induction ps generalizing s with
  | nil => rfl
  | cons p rest ih => exact (ih (s.place p)).trans (standings_modify s p.owner fun e => rfl)

theorem standings_bind (s : Session) (whole part : String) : (s.bind whole part).standings = s.standings := by
  unfold bind
  exact (standings_placeAll _ _).trans (standings_modify _ _ fun e => rfl)

/-- **No other edge changes a place.** -/
theorem standings_fieldCall (s : Session) (e : Edge) :
    (s.step (Plan.fieldCall e)).session.standings = s.standings := by
  unfold Plan.fieldCall
  split_ifs
  · exact keeps_compose (P := fun t => t.standings = s.standings) rfl
      (fun part => standings_modify s part fun e => rfl) fun whole part h => (standings_bind _ whole part).trans h
  · exact keeps_relate (P := fun t => t.standings = s.standings) rfl
      (fun source target => standings_placeAll _ _) fun endpoint assoc h => (standings_placeAll _ _).trans h

end Session

/-! ## Plans -/

namespace Plan

theorem session_of_inherits {p q : Progress} {es : List Edge} (h : p.takeAll (es.map .inherit) = .ok q) :
    q.session = { p.session with
      hierarchy := p.session.hierarchy.adoptAll (es.filterMap p.session.names.parentClaim?) } := by
  induction es generalizing p with
  | nil => cases h; rfl
  | cons e rest ih =>
    obtain ⟨p', b, hsession, hb, hrest⟩ := Progress.step_of_takeAll h
    have hstep : p'.session = _ := hsession.trans (Session.session_inherit hb)
    rw [ih hrest, hstep]
    have hsplit : (e :: rest).filterMap p.session.names.parentClaim? =
        (p.session.names.parentClaim? e).toList ++ rest.filterMap p.session.names.parentClaim? := by
      rw [List.filterMap_cons]
      cases p.session.names.parentClaim? e <;> rfl
    rw [hsplit, Hierarchy.adoptAll, Hierarchy.adoptAll, Hierarchy.adoptAll, List.foldl_append]

theorem standings_of_fieldCalls {p q : Progress} {es : List Edge} (h : p.takeAll (es.map fieldCall) = .ok q) :
    q.session.standings = p.session.standings := by
  induction es generalizing p with
  | nil => cases h; rfl
  | cons e rest ih =>
    obtain ⟨p', -, hsession, -, hrest⟩ := Progress.step_of_takeAll h
    rw [ih hrest, hsession]
    exact Session.standings_fieldCall _ e

/-- **The places in a plan.** Every class has its place in one consistent hierarchy, in which parents are those of the
last claims. -/
theorem hierarchy_of_build {policy : Policy} {d : Diagram} {p : Plan} (h : build policy d = .ok p) :
    ∃ t : Hierarchy, t.Consistent ∧ (∀ c, t.parent? c = d.lastParent? c) ∧
      ∀ e ∈ p.entities, e.inheritance = t.place e.name := by
  obtain ⟨q, hrun, hentities⟩ := run_of_build h
  unfold run calls at hrun
  obtain ⟨m, hm, hfields⟩ := Progress.takeAll_append hrun
  obtain ⟨m', hinherits, happly⟩ := Progress.takeAll_append hm
  have hinherited := session_of_inherits hinherits
  have happlied : m.session = m'.session.apply.session := session_of_takeAll happly
  set t := Hierarchy.adoptAll {} d.parentClaims with ht
  have hsession : m'.session = { Session.start d.nameTable policy with hierarchy := t } := hinherited
  refine ⟨t, Hierarchy.consistent_empty.adoptAll _, fun c => ?_, ?_⟩
  · rw [ht, Hierarchy.parent?_adoptAll]
    exact Option.or_none
  · have hstandings : q.session.standings = d.nameTable.names.map fun n => (n, t.place n) := by
      rw [standings_of_fieldCalls hfields, happlied, hsession, Session.standings_apply]
      · simp only [Session.start, List.map_map, NameTable.names]
        rfl
      · intro e he
        obtain ⟨c, -, rfl⟩ := List.mem_map.1 he
        rfl
    intro e he
    have hmem : e.standing ∈ q.session.standings := List.mem_map_of_mem (hentities ▸ he)
    rw [hstandings] at hmem
    obtain ⟨n, -, hn⟩ := List.mem_map.1 hmem
    obtain ⟨hname, hplace⟩ := Prod.mk.inj hn
    rw [← hplace, hname]

end Plan

end Classwright
