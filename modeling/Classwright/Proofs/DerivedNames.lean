/-
The names that a relationship gives to its two fields.

The relationships of two classes are counted together, whatever their shape and whichever way round. All names of a
relationship are made of the names of the two classes, carry its number, and are told apart by it.

- `Link.Derives`: the texts of the two fields of a link, in one table for the five shapes; `derives`: they are these;
- `Diagram.between`: the links between two classes, in order; `filter_numbered`: they are numbered one after the other;
- `fields_about`: the fields of a class about another come from the links between the two;
- `relationships_numbered`: the fields of a plan, with their names.
-/
import Classwright.Proofs.Distinct

namespace Classwright

open Classwright.Numbering (SamePair key key_eq_iff suffix)

/-! ## The texts of a link -/

/-- a field of this kind holds a collection -/
def RelationKind.holdsMany : RelationKind → Bool
  | .oneToMany | .manyToMany => true
  | .manyToOne | .oneToOne => false

namespace Link

open Naming Relationship

/-- the class that declares the relationship: a class that has many of the other when the other has one of it -/
def declaring (l : Link) : String := if l.shape = .byCardinality true false then l.target else l.source

def declared (l : Link) : String := if l.shape = .byCardinality true false then l.source else l.target

/-- the kind of the declaring field -/
def kind (l : Link) : RelationKind :=
  match l.shape with
  | .byCardinality true true => .manyToMany
  | .byCardinality false false => .oneToOne
  | .byCardinality _ _ | .viaClass | .composition => .oneToMany

/-- both fields are on one class and would have the same name -/
def mirrored (l : Link) : Bool := l.kind != .oneToMany && l.source == l.target

def reference (l : Link) (k : Nat) : String :=
  match l.shape with
  | .byCardinality true true | .byCardinality false false | .viaClass =>
    lowerFirst l.source ++ "_" ++ lowerFirst l.target ++ suffix k
  | .byCardinality _ _ => lowerFirst l.declaring ++ suffix k
  | .composition => lowerFirst l.source ++ suffix k ++ "_composition"

/-- `f` on the declaring class and `g` on the other carry the names of the `k`-th relationship of their pair -/
structure Derives (l : Link) (k : Nat) (f g : RelationField) : Prop where
  related : f.related = l.declared ∧ g.related = l.declaring
  owning : f.owning = true ∧ g.owning = false
  kind : f.kind = l.kind ∧ g.kind = l.kind.dual
  collection : f.collection = f.kind.holdsMany ∧ g.collection = g.kind.holdsMany
  name : f.name = lowerFirst l.declared ++ ending f.collection k
  partnerName : g.name = if l.mirrored then "inverse" ++ Text.upperFirst (lowerFirst l.declaring ++ ending g.collection k)
    else lowerFirst l.declaring ++ ending g.collection k
  mappedBy : f.mappedBy = (if l.kind = .oneToMany then some g.name else none) ∧
    g.mappedBy = if l.kind = .oneToMany then none else some f.name
  column : f.joinColumn = (if l.kind = .oneToOne then some (lowerFirst l.declared ++ suffix k ++ "_id") else none) ∧
    g.joinColumn = if l.kind = .oneToMany then some (lowerFirst l.declaring ++ suffix k ++ "_id") else none
  table : f.joinTable.map JoinTable.name = (if l.kind = .manyToMany then
      some (lowerFirst l.source ++ "_" ++ lowerFirst l.target ++ suffix k) else none) ∧ g.joinTable = none
  reference : f.jsonReference = some (l.reference k) ∧ g.jsonReference = some (l.reference k)

theorem derives (l : Link) (k : Nat) :
    ∃ f g, l.fields k = [⟨l.declaring, f⟩, ⟨l.declared, g⟩] ∧ l.Derives k f g := by
  obtain ⟨shape, source, target⟩ := l
  cases shape with
  | viaClass =>
    exact ⟨_, _, rfl, ⟨rfl, rfl⟩, ⟨rfl, rfl⟩, ⟨rfl, rfl⟩, ⟨rfl, rfl⟩, plural_ending _ k, single_ending _ k,
      ⟨rfl, rfl⟩, ⟨rfl, rfl⟩, ⟨rfl, rfl⟩, ⟨rfl, rfl⟩⟩
  | composition =>
    exact ⟨_, _, rfl, ⟨rfl, rfl⟩, ⟨rfl, rfl⟩, ⟨rfl, rfl⟩, ⟨rfl, rfl⟩, plural_ending _ k, single_ending _ k,
      ⟨rfl, rfl⟩, ⟨rfl, rfl⟩, ⟨rfl, rfl⟩, ⟨rfl, rfl⟩⟩
  | byCardinality sourceMany targetMany =>
    cases sourceMany <;> cases targetMany
    · refine ⟨_, _, rfl, ⟨rfl, rfl⟩, ⟨rfl, rfl⟩, ⟨rfl, rfl⟩, ⟨rfl, rfl⟩, single_ending _ k, ?_,
        ⟨rfl, rfl⟩, ⟨rfl, rfl⟩, ⟨rfl, rfl⟩, ⟨rfl, rfl⟩⟩
      rw [single_ending]
      rfl
    · exact ⟨_, _, rfl, ⟨rfl, rfl⟩, ⟨rfl, rfl⟩, ⟨rfl, rfl⟩, ⟨rfl, rfl⟩, plural_ending _ k, single_ending _ k,
        ⟨rfl, rfl⟩, ⟨rfl, rfl⟩, ⟨rfl, rfl⟩, ⟨rfl, rfl⟩⟩
    · exact ⟨_, _, rfl, ⟨rfl, rfl⟩, ⟨rfl, rfl⟩, ⟨rfl, rfl⟩, ⟨rfl, rfl⟩, plural_ending _ k, single_ending _ k,
        ⟨rfl, rfl⟩, ⟨rfl, rfl⟩, ⟨rfl, rfl⟩, ⟨rfl, rfl⟩⟩
    · refine ⟨_, _, rfl, ⟨rfl, rfl⟩, ⟨rfl, rfl⟩, ⟨rfl, rfl⟩, ⟨rfl, rfl⟩, plural_ending _ k, ?_,
        ⟨rfl, rfl⟩, ⟨rfl, rfl⟩, ⟨rfl, rfl⟩, ⟨rfl, rfl⟩⟩
      rw [plural_ending]
      rfl

end Link

/-! ## The relationships of two classes -/

/-- a link between two classes, whichever way round -/
def Link.joins (l : Link) (a b : String) : Bool := decide (SamePair l.source l.target a b)

theorem Link.joins_iff {l : Link} {a b : String} :
    l.joins a b = true ↔ (l.source = a ∧ l.target = b) ∨ (l.source = b ∧ l.target = a) :=
  decide_eq_true_iff

theorem Link.samePair_of_joins {l : Link} {a b : String} (h : l.joins a b = true) :
    l.samePair = fun m => m.joins a b := by
  have hkey : key l.source l.target = key a b := (key_eq_iff ..).2 (of_decide_eq_true h)
  funext m
  unfold samePair joins
  rw [decide_eq_decide, ← key_eq_iff, ← key_eq_iff, hkey, eq_comm]

/-- **Numbers of one pair.** The links between two classes are numbered one after the other. -/
theorem filter_numbered (ks earlier : List Link) (a b : String) :
    (numbered earlier ks).filter (fun n => n.1.joins a b) =
      (ks.filter fun l => l.joins a b).zipIdx ((earlier.countP fun l => l.joins a b) + 1) := by
  induction ks generalizing earlier with
  | nil => rfl
  | cons k rest ih =>
    rw [numbered, List.filter_cons, List.filter_cons, ih (earlier ++ [k]), List.countP_append, List.countP_singleton]
    split_ifs with hk
    · rw [List.zipIdx_cons, Link.rank, Link.samePair_of_joins hk]
    · rfl

namespace Diagram

/-- the relationships of two classes, in the order of the edges -/
def between (d : Diagram) (a b : String) : List Link := d.links.filter fun l => l.joins a b

end Diagram

namespace Link

theorem joins_of_mem_fields {l : Link} {k : Nat} {p : Placed} (h : p ∈ l.fields k) :
    l.joins p.owner p.field.related = true := by
  have hkey := (key_eq_iff ..).2 (Link.ends h)
  exact decide_eq_true ((key_eq_iff ..).1 hkey.symm)

/-- a link leads from a class to one class only -/
theorem joins_inj {l : Link} {a b c : String} (hb : l.joins a b = true) (hc : l.joins a c = true) : b = c := by
  rw [joins_iff] at hb hc
  rcases hb with ⟨rfl, rfl⟩ | ⟨rfl, rfl⟩ <;> rcases hc with ⟨h, h'⟩ | ⟨h, h'⟩
  · exact h'
  · exact h'.trans h
  · exact h.trans h'
  · exact h

end Link

/-- the fields of a class about another are those of the links between the two -/
theorem onClass_about (name other : String) (ns : List (Link × Nat)) :
    (onClass name (placements ns)).filter (fun f => f.related == other) =
      onClass name (placements (ns.filter fun n => n.1.joins name other)) := by
  induction ns with
  | nil => rfl
  | cons n rest ih =>
    have hjoins : ∀ f ∈ onClass name (n.1.fields n.2), n.1.joins name f.related = true := by
      intro f hf
      obtain ⟨p, hp, rfl⟩ := List.mem_map.1 hf
      obtain ⟨hp, howner⟩ := List.mem_filter.1 hp
      rw [← of_decide_eq_true howner]
      exact Link.joins_of_mem_fields hp
    rw [placements, List.flatMap_cons, onClass_append, List.filter_append, List.filter_cons]
    split_ifs with h
    · rw [placements, List.flatMap_cons, onClass_append]
      congr 1
      exact List.filter_eq_self.2 fun f hf => beq_iff_eq.2 (Link.joins_inj (hjoins f hf) h)
    · have hnone : (onClass name (n.1.fields n.2)).filter (fun f => f.related == other) = [] := by
        refine List.filter_eq_nil_iff.2 fun f hf hr => h ?_
        rw [← beq_iff_eq.1 hr]
        exact hjoins f hf
      rw [hnone]
      exact ih

namespace Diagram

theorem zipIdx_between (d : Diagram) (a b : String) :
    (d.between a b).zipIdx 1 = (numbered [] d.links).filter fun n => n.1.joins a b :=
  (filter_numbered d.links [] a b).symm

end Diagram

namespace Plan

variable {policy : Policy} {d : Diagram} {p : Plan}

/-- **The fields of a class about another.** They are those of the relationships of the two, numbered from one. -/
theorem fields_about (h : build policy d = .ok p) {e : Entity} (he : e ∈ p.entities) (other : String) :
    (e.findFields (some other) none).map RelationField.plain =
      onClass e.name (placements ((d.between e.name other).zipIdx 1)) := by
  have hplain : ∀ fs : List RelationField, (fs.filter fun f => f.related == other && true).map RelationField.plain =
      (fs.map RelationField.plain).filter fun f => f.related == other := by
    intro fs
    rw [List.filter_map]
    simp only [Bool.and_true]
    rfl
  refine (hplain e.fields).trans ?_
  rw [fields_of_build h he, Diagram.placements, onClass_about, d.zipIdx_between]

/-- **No mark of a relationship of two classes is that of another.** -/
theorem marks_about_nodup (h : build policy d = .ok p) {e : Entity} (he : e ∈ p.entities) (other : String) (m : Mark) :
    ((e.findFields (some other) none).filterMap m.of?).Nodup := by
  let text : RelationField → Option String := fun f => if f.related = other then m.of? f else none
  have htext : ∀ f, text f.plain = text f := by
    intro f
    simp only [text]
    cases m <;> rfl
  have hfields : (e.findFields (some other) none).filterMap m.of? = e.fields.filterMap text := by
    unfold Entity.findFields
    rw [List.filterMap_filter]
    refine List.filterMap_congr fun f _ => ?_
    simp [text]
  rw [hfields, filterMap_fields h he htext, nodup_filterMap_iff, List.pairwise_filter]
  refine (d.pairwise_marks m).imp fun {q r} hapart hq hr t ht hu => ?_
  simp only [text] at ht hu
  split_ifs at ht hu with hqother hrother
  exact hapart (hqother.trans hrother.symm) ((of_decide_eq_true hq).trans (of_decide_eq_true hr).symm) t ht hu

/-- **No two relationships of two classes share a join table.** -/
theorem tables_between_nodup (d : Diagram) (a b : String) :
    ((placements ((d.between a b).zipIdx 1)).filterMap fun q => q.field.tableName?).Nodup := by
  have hkey : ∀ q ∈ placements ((numbered [] d.links).filter fun n => n.1.joins a b),
      key q.owner q.field.related = key a b := by
    intro q hq
    obtain ⟨n, hn, hq⟩ := List.mem_flatMap.1 hq
    obtain ⟨-, hjoins⟩ := List.mem_filter.1 hn
    exact ((key_eq_iff ..).2 (Link.ends hq)).trans ((key_eq_iff ..).2 (of_decide_eq_true hjoins))
  have hsub : (placements ((numbered [] d.links).filter fun n => n.1.joins a b)).Sublist d.placements :=
    List.filter_sublist.flatMap _
  rw [d.zipIdx_between, nodup_filterMap_iff]
  refine (d.pairwise_tables.sublist hsub).imp_of_mem fun {q r} hq hr hapart => ?_
  exact hapart ((key_eq_iff ..).1 ((hkey q hq).trans (hkey r hr).symm)) trivial

end Plan

/-- **Relationships are numbered.** The fields of a class of a plan about another, their share of the key aside, are those
of the relationships of the two in their order; each of these gives one field to either end, whose names are the plain
ones of its shape with its number. No two fields of a class about another share a name, a column or a reference, and no
two relationships of two classes a join table. -/
theorem relationships_numbered (policy : Policy) (d : Diagram) (p : Plan) (h : Plan.build policy d = .ok p) :
    (∀ e ∈ p.entities, ∀ other, (e.findFields (some other) none).map RelationField.plain =
        onClass e.name (placements ((d.between e.name other).zipIdx 1))) ∧
      (suffix 1 = "" ∧ ∀ k, 2 ≤ k → suffix k = Nat.repr k) ∧
      (∀ (l : Link) (k : Nat), ∃ f g, l.fields k = [⟨l.declaring, f⟩, ⟨l.declared, g⟩] ∧ l.Derives k f g) ∧
      (∀ e ∈ p.entities, ∀ (other : String) (m : Mark), ((e.findFields (some other) none).filterMap m.of?).Nodup) ∧
      ∀ a b, ((placements ((d.between a b).zipIdx 1)).filterMap fun q => q.field.tableName?).Nodup :=
  ⟨fun _ he other => Plan.fields_about h he other, ⟨rfl, fun _ hk => if_neg (by omega)⟩, Link.derives,
    fun _ he other m => Plan.marks_about_nodup h he other m, Plan.tables_between_nodup d⟩

/-- users related to themselves three times and to groups twice, once through the users themselves -/
def repeated : Diagram where
  nodes := [⟨"u", "User", [], false⟩, ⟨"g", "Group", [], false⟩]
  edges := [⟨"", "u", "u", none, some "*", some "*", .dependency⟩, ⟨"", "u", "u", none, none, none, .aggregation⟩,
    ⟨"", "g", "u", none, none, some "*", .association none⟩, ⟨"", "u", "g", none, none, none, .composition⟩,
    ⟨"", "u", "g", none, none, none, .association (some "u")⟩]
  metadata := .null

theorem repeated_numbered : ∃ p, Plan.build .lastWins repeated = .ok p ∧
    p.entities.map (fun e => e.fields.map RelationField.name) =
      [["users", "inverseUsers", "user2", "inverseUser2", "group", "groups2", "users3", "user3", "group3"],
        ["users", "user2", "users3"]] ∧
    ∀ e ∈ p.entities, ∀ other, (e.findFields (some other) none).map RelationField.plain =
        onClass e.name (placements ((repeated.between e.name other).zipIdx 1)) :=
  ⟨_, rfl, by decide, (relationships_numbered .lastWins repeated _ rfl).1⟩

end Classwright
