/-
Edges in another order.

Two edges depend on each other when they belong to one pass over the edges and have a class in common. What a plan says of
a class comes from the edges at this class, and of these any two in one pass depend on each other. The edges of a diagram
can thus be put in any order in which those that depend on each other keep theirs: the plan stays the same, and with it
every file.

- `Rearranged`: the same elements in another order, kept where one depends on the other; `Rearranged.filter_eq`: elements
  that all depend on each other stand in the same order in both lists;
- `NameTable.classesOf`, `NameTable.Dependent`: the classes of an edge, and when two edges depend on each other;
- `mem_classesOf_of_touches`, `mem_classesOf_of_parentClaim?`: an edge ties its own classes and claims one of them;
- `Diagram.agreesOn_rearranged`: the diagrams agree on every class;
- `render_rearranged`: they have the same plan and the same files.
-/
import Mathlib.Data.List.FinRange
import Mathlib.Data.List.Sort
import Mathlib.Data.Fin.VecNotation
import Classwright.Java.Artifact
import Classwright.Proofs.Drops

namespace Classwright

/-! ## Lists in another order -/

/-- the same elements in another order, in which an element stays before those behind it that depend on it -/
def Rearranged {α : Type} (dep : α → α → Prop) (xs ys : List α) : Prop :=
  ∃ σ : Fin xs.length ≃ Fin ys.length, (∀ i, ys.get (σ i) = xs.get i) ∧
    ∀ i j, i < j → dep (xs.get i) (xs.get j) → σ i < σ j

namespace Rearranged

variable {α : Type} {dep : α → α → Prop} {xs ys : List α}

theorem map_get (xs : List α) : (List.finRange xs.length).map xs.get = xs := by
  rw [← List.ofFn_eq_map]
  exact List.ofFn_get xs

/-- the positions that satisfy a condition lead to those elements -/
theorem map_get_filter (xs : List α) (p : α → Bool) :
    ((List.finRange xs.length).filter (p ∘ xs.get)).map xs.get = xs.filter p := by
  rw [← List.filter_map, map_get]

theorem perm (h : Rearranged dep xs ys) : xs.Perm ys := by
  obtain ⟨σ, hget, -⟩ := h
  have hpositions : ((List.finRange xs.length).map σ).Perm (List.finRange ys.length) := by
    rw [List.perm_ext_iff_of_nodup ((List.nodup_finRange _).map σ.injective) (List.nodup_finRange _)]
    intro j
    exact iff_of_true (List.mem_map.2 ⟨σ.symm j, List.mem_finRange _, σ.apply_symm_apply j⟩) (List.mem_finRange j)
  have helements : ys.get ∘ σ = xs.get := funext hget
  have hmap := hpositions.map ys.get
  rwa [List.map_map, helements, map_get, map_get] at hmap

/-- **Elements that all depend on each other** stand in the same order in both lists. -/
theorem filter_eq (h : Rearranged dep xs ys) {p : α → Bool}
    (hdep : ∀ x ∈ xs, ∀ y ∈ xs, p x = true → p y = true → dep x y) : xs.filter p = ys.filter p := by
  obtain ⟨σ, hget, hkeep⟩ := h
  have helements : ys.get ∘ σ = xs.get := funext hget
  have hascend : (((List.finRange xs.length).filter (p ∘ xs.get)).map σ).Pairwise (· < ·) := by
    rw [List.pairwise_map]
    refine ((List.sortedLT_finRange _).pairwise.filter _).imp_of_mem fun {i j} hi hj hlt => ?_
    have hpi := (List.mem_filter.1 hi).2
    have hpj := (List.mem_filter.1 hj).2
    exact hkeep i j hlt (hdep _ (List.get_mem xs i) _ (List.get_mem xs j) hpi hpj)
  have hascend' : ((List.finRange ys.length).filter (p ∘ ys.get)).Pairwise (· < ·) :=
    (List.sortedLT_finRange _).pairwise.filter _
  -- ascending lists with the same elements are one
  have hpositions : ((List.finRange xs.length).filter (p ∘ xs.get)).map σ =
      (List.finRange ys.length).filter (p ∘ ys.get) := by
    refine List.Perm.eq_of_pairwise' hascend hascend' ?_
    rw [List.perm_ext_iff_of_nodup hascend.nodup hascend'.nodup]
    intro j
    simp only [List.mem_map, List.mem_filter, List.mem_finRange, true_and, Function.comp_apply]
    constructor
    · rintro ⟨i, hi, rfl⟩
      rwa [hget i]
    · intro hj
      refine ⟨σ.symm j, ?_, σ.apply_symm_apply j⟩
      rwa [← hget, σ.apply_symm_apply]
  calc xs.filter p
      = ((List.finRange xs.length).filter (p ∘ xs.get)).map xs.get := (map_get_filter xs p).symm
    _ = (((List.finRange xs.length).filter (p ∘ xs.get)).map σ).map ys.get := by rw [List.map_map, helements]
    _ = ((List.finRange ys.length).filter (p ∘ ys.get)).map ys.get := by rw [hpositions]
    _ = ys.filter p := map_get_filter ys p

end Rearranged

/-! ## Edges that depend on each other -/

namespace NameTable

variable (t : NameTable)

/-- the classes of an edge whose ends are classes with a name: those at its ends, and its association class -/
def classesOf (e : Edge) : List String :=
  match t.ends? e with
  | some (source, target) => source :: target :: (t.assoc? e).toList
  | none => []

/-- two edges of one pass with a class in common -/
def Dependent (e e' : Edge) : Prop :=
  Plan.isInheritance e = Plan.isInheritance e' ∧ ∃ name ∈ t.classesOf e, name ∈ t.classesOf e'

instance (e e' : Edge) : Decidable (t.Dependent e e') := by unfold Dependent; infer_instance

variable {t} {e : Edge} {name : String}

theorem mem_classesOf {source target : String} (hends : t.ends? e = some (source, target)) :
    name ∈ t.classesOf e ↔ name = source ∨ name = target ∨ t.assoc? e = some name := by
  unfold classesOf
  rw [hends, List.mem_cons, List.mem_cons, Option.mem_toList]

/-- a link of an edge begins at one of its ends, and leads to the other or to its association class -/
theorem ends_of_mem_linksOf {l : Link} (h : l ∈ t.linksOf (Plan.fieldCall e)) :
    ∃ source target, t.ends? e = some (source, target) ∧ (l.source = source ∨ l.source = target) ∧
      (l.target = target ∨ t.assoc? e = some l.target) := by
  unfold Plan.fieldCall at h
  split_ifs at h with hcompose
  · simp only [linksOf] at h
    split at h
    · next whole part hends =>
      obtain rfl := List.mem_singleton.1 h
      exact ⟨whole, part, hends, Or.inl rfl, Or.inl rfl⟩
    · cases h
  · simp only [linksOf] at h
    split_ifs at h
    · cases h
    · split at h
      · next source target hends =>
        refine ⟨source, target, hends, ?_⟩
        unfold plainLinks at h
        split at h
        · next j hassoc =>
          rcases List.mem_cons.1 h with rfl | h
          · exact ⟨Or.inl rfl, Or.inr hassoc⟩
          · obtain rfl := List.mem_singleton.1 h
            exact ⟨Or.inr rfl, Or.inr hassoc⟩
        · obtain rfl := List.mem_singleton.1 h
          exact ⟨Or.inl rfl, Or.inl rfl⟩
      · cases h

/-- an edge ties its own classes -/
theorem mem_classesOf_of_touches {l : Link} (hl : l ∈ t.linksOf (Plan.fieldCall e)) (h : l.touches name = true) :
    name ∈ t.classesOf e := by
  obtain ⟨source, target, hends, hsource, htarget⟩ := ends_of_mem_linksOf hl
  rw [mem_classesOf hends]
  rcases Link.touches_iff.1 h with rfl | rfl
  · exact hsource.imp id Or.inl
  · exact Or.inr htarget

/-- an edge claims a parent for one of its own classes -/
theorem mem_classesOf_of_parentClaim? {parent : String} (h : t.parentClaim? e = some (name, parent)) :
    name ∈ t.classesOf e := by
  unfold parentClaim? at h
  split at h
  · next hends =>
    split_ifs at h
    cases h
    exact (mem_classesOf hends).2 (Or.inr (Or.inl rfl))
  · cases h

end NameTable

/-! ## What the edges at a class say -/

/-- what edges of one pass say of a class is the same in both orders, when only the edges at the class speak of it -/
theorem Rearranged.filter_flatMap_eq {t : NameTable} {es es' : List Edge} (h : Rearranged t.Dependent es es')
    {β : Type} (name : String) {q : Edge → Bool} {f : Edge → List β} {g : β → Bool}
    (hpass : ∀ e e', q e = true → q e' = true → Plan.isInheritance e = Plan.isInheritance e')
    (hf : ∀ e, ∀ b ∈ f e, g b = true → name ∈ t.classesOf e) :
    ((es.filter q).flatMap f).filter g = ((es'.filter q).flatMap f).filter g := by
  have hlocal : ∀ es : List Edge, ((es.filter q).flatMap f).filter g =
      (es.filter fun e => decide (name ∈ t.classesOf e) && q e).flatMap fun e => (f e).filter g := by
    intro es
    rw [List.filter_flatMap, ← List.filter_filter]
    refine (flatMap_filter_of_idle fun e _ hother => ?_).symm
    rw [List.filter_eq_nil_iff]
    exact fun b hb hg => hother (decide_eq_true (hf e b hb hg))
  rw [hlocal, hlocal, h.filter_eq]
  intro e _ e' _ he he'
  rw [Bool.and_eq_true, decide_eq_true_eq] at he he'
  exact ⟨hpass e e' he.2 he'.2, name, he.1, he'.1⟩

namespace Diagram

variable {d : Diagram} {edges : List Edge}

theorem lastParent?_eq_filter (d : Diagram) (name : String) :
    d.lastParent? name = Table.get? (d.parentClaims.filter fun c => c.1 = name).reverse name := by
  unfold lastParent?
  rw [← List.filter_reverse, Table.get?_filter _ (fun n => decide (n = name)), if_pos (decide_eq_true rfl)]

/-- a diagram with its edges in another order agrees with it on every class -/
theorem agreesOn_rearranged (h : Rearranged d.nameTable.Dependent d.edges edges) (name : String) :
    d.AgreesOn { d with edges := edges } name := by
  refine .of_forall (fun _ => ?_) (fun name => ?_) (fun name => ?_) name
  · rfl
  · refine h.filter_flatMap_eq name (fun e e' he he' => ?_) fun e l hl htouches => ?_
    · rw [Bool.not_eq_true'] at he he'
      rw [he, he']
    · exact NameTable.mem_classesOf_of_touches hl htouches
  · have hclaims : d.parentClaims.filter (fun c => c.1 = name) =
        ({ d with edges := edges } : Diagram).parentClaims.filter fun c => c.1 = name := by
      unfold parentClaims
      rw [List.filterMap_eq_flatMap_toList, List.filterMap_eq_flatMap_toList]
      refine h.filter_flatMap_eq name (fun e e' he he' => he.trans he'.symm) fun e c hc hname => ?_
      obtain ⟨child, parent⟩ := c
      obtain rfl : child = name := of_decide_eq_true hname
      exact NameTable.mem_classesOf_of_parentClaim? (Option.mem_toList.1 hc)
    rw [lastParent?_eq_filter, lastParent?_eq_filter, hclaims]

end Diagram

/-- **Only the order of edges that depend on each other counts.** When the last claim wins, a diagram has the same plan and
the same files with its edges in any order in which those that depend on each other keep theirs. -/
theorem render_rearranged {d : Diagram} {edges : List Edge} (h : Rearranged d.nameTable.Dependent d.edges edges) :
    ∃ p, Plan.build .lastWins d = .ok p ∧ Plan.build .lastWins { d with edges := edges } = .ok p ∧
      ∃ as, render .lastWins d = .ok as ∧ render .lastWins { d with edges := edges } = .ok as := by
  obtain ⟨p, hp⟩ := Plan.exists_build d
  obtain ⟨q, hq⟩ := Plan.exists_build { d with edges := edges }
  have hentities : p.entities = q.entities := Plan.entities_eq hp hq rfl (Diagram.agreesOn_rearranged h)
  have hdropped : p.dropped = q.dropped := by
    rw [Plan.dropped_of_build hp, Plan.dropped_of_build hq]
    exact h.perm.countP_eq _
  obtain rfl : p = q := Plan.mk.injEq .. |>.mpr ⟨hentities, hdropped⟩
  exact ⟨p, hp, hq, _, render_of_build hp, render_of_build hq⟩

/-- a part, a parent, and two associations of one pair, one of them through a class -/
def fleet : Diagram where
  nodes := [⟨"f", "Fleet", [], false⟩, ⟨"c", "Car", [], false⟩, ⟨"v", "Vehicle", [], false⟩, ⟨"d", "Driver", [], false⟩,
    ⟨"t", "Truck", [], false⟩, ⟨"s", "Shift", [], true⟩]
  edges := [⟨"", "f", "c", none, none, none, .composition⟩, ⟨"", "v", "c", none, none, none, .inheritance⟩,
    ⟨"", "d", "t", none, none, some "*", .association (some "s")⟩, ⟨"", "d", "t", none, none, some "*", .aggregation⟩]
  metadata := .null

/-- the edges between driver and truck ahead of the part, and the part ahead of the parent -/
def fleetEdges : List Edge :=
  [⟨"", "d", "t", none, none, some "*", .association (some "s")⟩, ⟨"", "f", "c", none, none, none, .composition⟩,
    ⟨"", "d", "t", none, none, some "*", .aggregation⟩, ⟨"", "v", "c", none, none, none, .inheritance⟩]

/-- where each edge goes -/
def fleetOrder : Fin 4 ≃ Fin 4 where
  toFun := ![1, 3, 0, 2]
  invFun := ![2, 0, 3, 1]
  left_inv := fun i => by revert i; decide
  right_inv := fun i => by revert i; decide

theorem fleet_rearranged : Rearranged fleet.nameTable.Dependent fleet.edges fleetEdges ∧
    ∃ p, Plan.build .lastWins fleet = .ok p ∧ Plan.build .lastWins { fleet with edges := fleetEdges } = .ok p ∧
      ∃ as, render .lastWins fleet = .ok as ∧ render .lastWins { fleet with edges := fleetEdges } = .ok as := by
  have h : Rearranged fleet.nameTable.Dependent fleet.edges fleetEdges :=
    ⟨fleetOrder, by decide, by decide⟩
  exact ⟨h, render_rearranged h⟩

end Classwright
