/-
When the names of a plan are distinct.

On each class the names of the fields, their foreign keys and the JSON references of the fields that do not own one are to
be distinct, and so are the names of all join tables. The number of a relationship only counts the relationships of one
pair of classes, so fields that lead to the same class always differ; fields that lead to different classes may not.

- `Mark`: the three texts that tell a field from the others of its class; `DistinctNames`: what is to hold of a plan;
- `Placed.Spelled`: the texts of a field, from its class, the class at the other end and the number of its link;
- `pairwise_marks`, `pairwise_tables`: the fields of one pair of classes never share a text;
- `names_distinct`: a plan has distinct names exactly when no two of its fields to different classes share one, and then
  a field that is mapped names exactly one field of the class it leads to.
-/
import Mathlib.Data.List.Pairwise
import Classwright.Proofs.Numbered
import Classwright.Proofs.Pairing
import Classwright.Proofs.Spelling

namespace Classwright

open Classwright.Numbering (SamePair suffix)

/-- the texts that tell a field from the other fields of its class -/
inductive Mark where
  | name
  | column
  | backReference
  deriving DecidableEq, Repr

def Mark.of? : Mark → RelationField → Option String
  | .name, f => some f.name
  | .column, f => f.joinColumn
  | .backReference, f => if f.owning then none else f.jsonReference

/-- the join table that a field declares -/
def RelationField.tableName? (f : RelationField) : Option String :=
  if f.kind = .manyToMany ∧ f.owning = true then f.joinTable.map JoinTable.name else none

structure DistinctNames (es : List Entity) : Prop where
  marks : ∀ e ∈ es, ∀ m : Mark, (e.fields.filterMap m.of?).Nodup
  tables : (es.flatMap fun e => e.fields.filterMap RelationField.tableName?).Nodup

/-- two fields of one class that lead to different classes share a mark, or two pairs of classes a join table -/
def Diagram.Clashes (d : Diagram) : Prop :=
  (∃ m : Mark, ∃ p ∈ d.placements, ∃ q ∈ d.placements, p.owner = q.owner ∧ p.field.related ≠ q.field.related ∧
      ∃ t, m.of? p.field = some t ∧ m.of? q.field = some t) ∨
    ∃ p ∈ d.placements, ∃ q ∈ d.placements, ¬ SamePair p.owner p.field.related q.owner q.field.related ∧
      ∃ t, p.field.tableName? = some t ∧ q.field.tableName? = some t

/-! ## The texts of a field -/

/-- the texts of a field of the `k`-th link of its pair -/
structure Placed.Spelled (k : Nat) (p : Placed) : Prop where
  name : ∃ many, p.field.name = Naming.lowerFirst p.field.related ++ Relationship.ending many k ∨
    p.field.name = "inverse" ++ Text.upperFirst (Naming.lowerFirst p.field.related ++ Relationship.ending many k)
  column : ∀ t, p.field.joinColumn = some t → t = Naming.lowerFirst p.field.related ++ suffix k ++ "_id"
  backReference : p.field.owning = false → ∃ tail, Relationship.BackTail (Naming.lowerFirst p.owner) k tail ∧
    p.field.jsonReference = some (Naming.lowerFirst p.field.related ++ tail)
  table : ∀ t, p.field.tableName? = some t →
    t = Naming.lowerFirst p.owner ++ "_" ++ Naming.lowerFirst p.field.related ++ suffix k

namespace Relationship

open Naming

theorem plural_ending (b : String) (k : Nat) : plural b ++ suffix k = b ++ ending true k := String.append_assoc

theorem single_ending (b : String) (k : Nat) : b ++ suffix k = b ++ ending false k := by
  simp [ending]

theorem inverse_spelled (b : String) (many selfRelated : Bool) (k : Nat) :
    ∃ many', inverseName (b ++ ending many k) selfRelated = b ++ ending many' k ∨
      inverseName (b ++ ending many k) selfRelated = "inverse" ++ Text.upperFirst (b ++ ending many' k) := by
  refine ⟨many, ?_⟩
  cases selfRelated
  · exact Or.inl rfl
  · exact Or.inr rfl

/-- the JSON reference that joins both names, seen from the second class -/
theorem between_spelled (a b : String) (k : Nat) :
    ∃ tail, BackTail b k tail ∧ some (a ++ "_" ++ b ++ suffix k) = some (a ++ tail) :=
  ⟨_, .between, by simp only [String.append_assoc]⟩

theorem manyToMany_spelled (source target : String) (k : Nat) :
    ∀ p ∈ manyToMany source target (suffix k), p.Spelled k := by
  intro p hp
  simp only [manyToMany, List.mem_cons, List.not_mem_nil, or_false] at hp
  rcases hp with rfl | rfl
  · exact ⟨⟨true, Or.inl (plural_ending _ k)⟩, nofun, nofun, fun t ht => (Option.some.inj ht).symm⟩
  · refine ⟨?_, nofun, fun _ => between_spelled _ _ k, nofun⟩
    rw [plural_ending]
    exact inverse_spelled _ true _ k

theorem oneToMany_spelled (one many : String) (k : Nat) : ∀ p ∈ oneToMany one many (suffix k), p.Spelled k := by
  intro p hp
  simp only [oneToMany, List.mem_cons, List.not_mem_nil, or_false] at hp
  rcases hp with rfl | rfl
  · exact ⟨⟨true, Or.inl (plural_ending _ k)⟩, nofun, nofun, nofun⟩
  · exact ⟨⟨false, Or.inl (single_ending _ k)⟩, fun t ht => (Option.some.inj ht).symm,
      fun _ => ⟨_, .plain, rfl⟩, nofun⟩

theorem oneToOne_spelled (source target : String) (k : Nat) :
    ∀ p ∈ oneToOne source target (suffix k), p.Spelled k := by
  intro p hp
  simp only [oneToOne, List.mem_cons, List.not_mem_nil, or_false] at hp
  rcases hp with rfl | rfl
  · exact ⟨⟨false, Or.inl (single_ending _ k)⟩, fun t ht => (Option.some.inj ht).symm, nofun, nofun⟩
  · refine ⟨?_, nofun, fun _ => between_spelled _ _ k, nofun⟩
    rw [single_ending]
    exact inverse_spelled _ false _ k

theorem viaClass_spelled (endpoint assoc : String) (k : Nat) :
    ∀ p ∈ viaClass endpoint assoc (suffix k), p.Spelled k := by
  intro p hp
  simp only [viaClass, List.mem_cons, List.not_mem_nil, or_false] at hp
  rcases hp with rfl | rfl
  · exact ⟨⟨true, Or.inl (plural_ending _ k)⟩, nofun, nofun, nofun⟩
  · exact ⟨⟨false, Or.inl (single_ending _ k)⟩, fun t ht => (Option.some.inj ht).symm,
      fun _ => between_spelled _ _ k, nofun⟩

theorem composition_spelled (whole part : String) (k : Nat) :
    ∀ p ∈ composition whole part (suffix k), p.Spelled k := by
  intro p hp
  simp only [composition, wholeField, List.mem_cons, List.not_mem_nil, or_false] at hp
  rcases hp with rfl | rfl
  · exact ⟨⟨true, Or.inl (plural_ending _ k)⟩, nofun, nofun, nofun⟩
  · exact ⟨⟨false, Or.inl (single_ending _ k)⟩, fun t ht => (Option.some.inj ht).symm,
      fun _ => ⟨_, .composition, by rw [← String.append_assoc]⟩, nofun⟩

theorem plural_ne_single {k : Nat} (hk : 1 ≤ k) (b : String) : plural b ++ suffix k ≠ b ++ suffix k := by
  rw [plural_ending, single_ending]
  intro h
  cases (ending_inj hk hk ((String.append_right_inj b).1 h)).1

theorem ending_ne_inverse (b : String) (many : Bool) (k : Nat) :
    b ++ ending many k ≠ inverseName (b ++ ending many k) true :=
  inverse_ne (not_mem_ending (by decide) (by decide)) (not_mem_ending (by decide) (by decide))

end Relationship

namespace Placed.Spelled

open Relationship

/-- fields of one class that lead to the same class and share a mark have the same number -/
theorem number_of_mark {p q : Placed} {i j : Nat} (hp : p.Spelled i) (hq : q.Spelled j) (hi : 1 ≤ i) (hj : 1 ≤ j)
    (hne : p.field.related ≠ "") (howner : p.owner = q.owner) (hrelated : p.field.related = q.field.related)
    {m : Mark} {t : String} (ht : m.of? p.field = some t) (hu : m.of? q.field = some t) : i = j := by
  cases m with
  | name =>
    have hname : p.field.name = q.field.name := (Option.some.inj ht).trans (Option.some.inj hu).symm
    have hcapital : ∀ {many k}, 'I' ∉ (ending many k).toList := not_mem_ending (by decide) (by decide)
    have hletter : ∀ {many k}, 'i' ∉ (ending many k).toList := not_mem_ending (by decide) (by decide)
    obtain ⟨b, hb⟩ := hp.name
    obtain ⟨c, hc⟩ := hq.name
    rw [← hrelated] at hc
    rcases hb with hb | hb <;> rcases hc with hc | hc <;> rw [hb, hc] at hname
    · exact (ending_inj hi hj ((String.append_right_inj _).1 hname)).2
    · exact absurd hname (inverse_ne hletter hcapital)
    · exact absurd hname.symm (inverse_ne hletter hcapital)
    · have hupper := (String.append_right_inj _).1 hname
      exact (ending_inj hi hj (upperFirst_append_inj (lowerFirst_ne_empty hne) hupper)).2
  | column =>
    have h := (hp.column t ht).symm.trans (hq.column t hu)
    rw [hrelated, String.append_left_inj, String.append_right_inj] at h
    exact Numbering.suffix_inj hi hj h
  | backReference =>
    simp only [Mark.of?] at ht hu
    split_ifs at ht hu with howningp howningq
    obtain ⟨x, hx, hpx⟩ := hp.backReference (by simpa using howningp)
    obtain ⟨y, hy, hqy⟩ := hq.backReference (by simpa using howningq)
    have htail := Option.some.inj ((hpx.symm.trans ht).trans (hu.symm.trans hqy))
    rw [hrelated, String.append_right_inj] at htail
    subst htail
    rw [howner] at hx
    exact backTail_inj hi hj hx hy

/-- join tables of one pair of classes that share a name have the same number -/
theorem number_of_table {p q : Placed} {i j : Nat} (hp : p.Spelled i) (hq : q.Spelled j) (hi : 1 ≤ i) (hj : 1 ≤ j)
    (hsame : SamePair p.owner p.field.related q.owner q.field.related) {t : String}
    (ht : p.field.tableName? = some t) (hu : q.field.tableName? = some t) : i = j := by
  have h := (hp.table t ht).symm.trans (hq.table t hu)
  rcases hsame with ⟨howner, hrelated⟩ | ⟨howner, hrelated⟩
  · rw [howner, hrelated] at h
    exact tableName_inj hi hj h
  · rw [howner, hrelated] at h
    exact tableName_swap_inj hi hj h

end Placed.Spelled

/-! ## The fields of one link -/

/-- two fields without a common text -/
def Apart (text : RelationField → Option String) (p q : Placed) : Prop :=
  ∀ t, text p.field = some t → text q.field ≠ some t

theorem Apart.of_left {text : RelationField → Option String} {p q : Placed} (h : text p.field = none) :
    Apart text p q := fun t ht => by rw [h] at ht; cases ht

theorem Apart.of_right {text : RelationField → Option String} {p q : Placed} (h : text q.field = none) :
    Apart text p q := fun t _ => by rw [h]; nofun

namespace Partners

variable {a b : String} {f g : RelationField}

/-- one of two partners is mapped by the other and has no foreign key of its own -/
theorem apart_column (h : Partners a f b g) : Apart (Mark.of? .column) ⟨a, f⟩ ⟨b, g⟩ := by
  rcases h.mapped with hm | hm
  · exact Apart.of_left hm.noColumn
  · exact Apart.of_right hm.noColumn

/-- one of two partners owns the reference -/
theorem apart_backReference (h : Partners a f b g) : Apart (Mark.of? .backReference) ⟨a, f⟩ ⟨b, g⟩ := by
  have howning := h.owning
  cases hg : g.owning with
  | true => exact Apart.of_right (if_pos hg)
  | false =>
    rw [hg, Bool.not_false] at howning
    exact Apart.of_left (if_pos howning)

/-- one of two partners is mapped by the other and has no join table -/
theorem apart_table (h : Partners a f b g) : Apart RelationField.tableName? ⟨a, f⟩ ⟨b, g⟩ := by
  have none_of : ∀ {f g : RelationField}, f.MappedTo g → f.tableName? = none := by
    intro f g hm
    unfold RelationField.tableName?
    rw [hm.noTable]
    split_ifs <;> rfl
  rcases h.mapped with hm | hm
  · exact Apart.of_left (none_of hm)
  · exact Apart.of_right (none_of hm)

end Partners

namespace Link

open Relationship

theorem spelled (l : Link) (k : Nat) : ∀ p ∈ l.fields k, p.Spelled k := by
  obtain ⟨shape, source, target⟩ := l
  cases shape with
  | viaClass => exact viaClass_spelled source target k
  | composition => exact composition_spelled source target k
  | byCardinality sourceMany targetMany =>
    cases sourceMany <;> cases targetMany
    · exact oneToOne_spelled source target k
    · exact oneToMany_spelled source target k
    · exact oneToMany_spelled target source k
    · exact manyToMany_spelled source target k

theorem ends {l : Link} {k : Nat} {p : Placed} (hp : p ∈ l.fields k) :
    SamePair p.owner p.field.related l.source l.target := by
  rcases l.partners k with ⟨f, g, hfields, h⟩ | ⟨f, g, hfields, h⟩
  · rw [hfields] at hp
    simp only [List.mem_cons, List.not_mem_nil, or_false] at hp
    rcases hp with rfl | rfl
    · exact Or.inl ⟨rfl, h.toRight⟩
    · exact Or.inr ⟨rfl, h.toLeft⟩
  · rw [hfields] at hp
    simp only [List.mem_cons, List.not_mem_nil, or_false] at hp
    rcases hp with rfl | rfl
    · exact Or.inr ⟨rfl, h.toRight⟩
    · exact Or.inl ⟨rfl, h.toLeft⟩

/-- the two fields of a class with itself do not have the same name -/
theorem pairwise_names (l : Link) {k : Nat} (hk : 1 ≤ k) :
    (l.fields k).Pairwise fun p q => p.owner = q.owner → p.field.name ≠ q.field.name := by
  obtain ⟨shape, source, target⟩ := l
  cases shape with
  | viaClass => exact List.pairwise_pair.2 fun (h : source = target) => h ▸ plural_ne_single hk _
  | composition => exact List.pairwise_pair.2 fun (h : source = target) => h ▸ plural_ne_single hk _
  | byCardinality sourceMany targetMany =>
    cases sourceMany <;> cases targetMany
    · refine List.pairwise_pair.2 fun (h : source = target) => ?_
      subst h
      simp only [single_ending, beq_self_eq_true]
      exact ending_ne_inverse _ _ _
    · exact List.pairwise_pair.2 fun (h : source = target) => h ▸ plural_ne_single hk _
    · exact List.pairwise_pair.2 fun (h : target = source) => h ▸ plural_ne_single hk _
    · refine List.pairwise_pair.2 fun (h : source = target) => ?_
      subst h
      simp only [plural_ending, beq_self_eq_true]
      exact ending_ne_inverse _ _ _

theorem pairwise_of_partners (l : Link) (k : Nat) {R : Placed → Placed → Prop}
    (h : ∀ {a b f g}, Partners a f b g → R ⟨a, f⟩ ⟨b, g⟩) : (l.fields k).Pairwise R := by
  rcases l.partners k with ⟨f, g, hfields, hp⟩ | ⟨f, g, hfields, hp⟩
  · rw [hfields, List.pairwise_pair]
    exact h hp
  · rw [hfields, List.pairwise_pair]
    exact h hp

theorem pairwise_marks (l : Link) {k : Nat} (hk : 1 ≤ k) (m : Mark) :
    (l.fields k).Pairwise fun p q => p.field.related = q.field.related → p.owner = q.owner → Apart m.of? p q := by
  cases m with
  | name =>
    refine (l.pairwise_names hk).imp ?_
    intro p q hne _ howner t ht hu
    exact hne howner ((Option.some.inj ht).trans (Option.some.inj hu).symm)
  | column => exact l.pairwise_of_partners k fun hp _ _ => hp.apart_column
  | backReference => exact l.pairwise_of_partners k fun hp _ _ => hp.apart_backReference

theorem pairwise_tables (l : Link) (k : Nat) :
    (l.fields k).Pairwise fun p q => Apart RelationField.tableName? p q :=
  l.pairwise_of_partners k Partners.apart_table

end Link

/-! ## The fields of a diagram -/

/-- where fields that count as the same never share a text, the fields that must not share one do so exactly when there
is no clash -/
theorem pairwise_iff_of_same {ps : List Placed} {text : RelationField → Option String} {Meet Same : Placed → Placed → Prop}
    (h : ps.Pairwise fun p q => Same p q → Meet p q → Apart text p q) (hmeet : ∀ {p q}, Meet p q → Meet q p)
    (hself : ∀ p, Same p p) :
    (ps.Pairwise fun p q => Meet p q → Apart text p q) ↔
      ¬ ∃ p ∈ ps, ∃ q ∈ ps, Meet p q ∧ ¬ Same p q ∧ ∃ t, text p.field = some t ∧ text q.field = some t := by
  constructor
  · rintro hps ⟨p, hp, q, hq, hpq, hother, t, ht, hu⟩
    have hsymm : Std.Symm fun p q => Meet p q → Apart text p q :=
      ⟨fun _ _ hab hba t ht hu => hab (hmeet hba) t hu ht⟩
    exact hps.forall hp hq (fun e => hother (e ▸ hself p)) hpq t ht hu
  · intro hnone
    refine h.imp_of_mem fun {p q} hp hq hsame hpq t ht hu => ?_
    by_cases hs : Same p q
    · exact hsame hs hpq t ht hu
    · exact hnone ⟨p, hp, q, hq, hpq, hs, t, ht, hu⟩

namespace Diagram

open Classwright.Numbering (key_eq_iff)

theorem related_ne_empty {d : Diagram} {l : Link} (hl : l ∈ d.links) {k : Nat} {p : Placed} (hp : p ∈ l.fields k) :
    p.field.related ≠ "" := by
  obtain ⟨⟨_, hs⟩, ⟨_, ht⟩⟩ := named_of_mem_links hl
  rcases Link.ends hp with ⟨-, hr⟩ | ⟨-, hr⟩ <;> rw [hr]
  · exact (NameTable.named?_eq_some.1 ht).2
  · exact (NameTable.named?_eq_some.1 hs).2

theorem owner_mem_names {d : Diagram} {p : Placed} (h : p ∈ d.placements) : p.owner ∈ d.nameTable.names := by
  obtain ⟨l, hl, k, -, hp⟩ := mem_placements h
  obtain ⟨⟨_, hs⟩, ⟨_, ht⟩⟩ := named_of_mem_links hl
  have hclosed := NameTable.closed_ofDiagram d
  rcases Link.ends hp with ⟨ho, -⟩ | ⟨ho, -⟩ <;> rw [ho]
  · exact hclosed.named_mem hs
  · exact hclosed.named_mem ht

/-- links whose fields join the same two classes are links of one pair -/
theorem samePair_of_fields {l m : Link} {i j : Nat} {p q : Placed} (hp : p ∈ l.fields i) (hq : q ∈ m.fields j)
    (h : SamePair p.owner p.field.related q.owner q.field.related) : l.samePair m := by
  have hkey : Numbering.key l.source l.target = Numbering.key m.source m.target := calc
    Numbering.key l.source l.target = Numbering.key p.owner p.field.related :=
      ((key_eq_iff ..).2 (Link.ends hp)).symm
    _ = Numbering.key q.owner q.field.related := (key_eq_iff ..).2 h
    _ = Numbering.key m.source m.target := (key_eq_iff ..).2 (Link.ends hq)
  exact decide_eq_true ((key_eq_iff ..).1 hkey)

/-- **Fields that lead to the same class differ.** -/
theorem pairwise_marks (d : Diagram) (m : Mark) : d.placements.Pairwise fun p q =>
    p.field.related = q.field.related → p.owner = q.owner → Apart m.of? p q := by
  refine pairwise_placements (fun l _ k hk => l.pairwise_marks hk m) ?_
  intro l hl l' _ i j hi hj hlt p hp q hq hrelated howner t ht hu
  have hnumber := (l.spelled i p hp).number_of_mark (l'.spelled j q hq) hi hj (related_ne_empty hl hp) howner hrelated
    ht hu
  have := hlt (samePair_of_fields hp hq (Or.inl ⟨howner, hrelated⟩))
  omega

/-- **Join tables of the same two classes differ.** -/
theorem pairwise_tables (d : Diagram) : d.placements.Pairwise fun p q =>
    SamePair p.owner p.field.related q.owner q.field.related → True → Apart RelationField.tableName? p q := by
  refine pairwise_placements (fun l _ k _ => (l.pairwise_tables k).imp fun h _ _ => h) ?_
  intro l _ l' _ i j hi hj hlt p hp q hq hsame _ t ht hu
  have hnumber := (l.spelled i p hp).number_of_table (l'.spelled j q hq) hi hj hsame ht hu
  have := hlt (samePair_of_fields hp hq hsame)
  omega

end Diagram

/-! ## Plans -/

theorem nodup_filterMap_iff {text : RelationField → Option String} (ps : List Placed) :
    (ps.filterMap fun p => text p.field).Nodup ↔ ps.Pairwise (Apart text) := by
  rw [List.nodup_iff_pairwise_ne, List.pairwise_filterMap]
  constructor
  · intro h
    refine h.imp ?_
    intro q r hne t ht hu
    exact hne t ht t hu rfl
  · intro h
    refine h.imp ?_
    rintro q r hapart t ht u hu rfl
    exact hapart t ht hu

theorem perm_flatMap_filter {names : List String} (hnodup : names.Nodup) {ps : List Placed}
    (hps : ∀ p ∈ ps, p.owner ∈ names) : (names.flatMap fun n => ps.filter fun p => p.owner = n).Perm ps := by
  induction names generalizing ps with
  | nil =>
    cases ps with
    | nil => exact List.Perm.refl _
    | cons p rest => exact absurd (hps p List.mem_cons_self) (List.not_mem_nil)
  | cons n rest ih =>
    obtain ⟨hn, hrest⟩ := List.nodup_cons.1 hnodup
    -- the other names only see the fields of other classes
    have hothers : (rest.flatMap fun m => ps.filter fun p => p.owner = m) =
        rest.flatMap fun m => (ps.filter fun p => !decide (p.owner = n)).filter fun p => p.owner = m := by
      refine List.flatMap_congr fun m hm => ?_
      rw [List.filter_filter]
      refine List.filter_congr fun p _ => ?_
      have hne : m ≠ n := fun e => hn (e ▸ hm)
      by_cases h : p.owner = m <;> simp [h, hne]
    have hmem : ∀ p ∈ ps.filter fun p => !decide (p.owner = n), p.owner ∈ rest := by
      intro p hp
      obtain ⟨hp, hne⟩ := List.mem_filter.1 hp
      exact (List.mem_cons.1 (hps p hp)).resolve_left (by simpa using hne)
    rw [List.flatMap_cons, hothers]
    exact ((ih hrest hmem).append_left _).trans (List.filter_append_perm _ ps)

namespace Plan

variable {policy : Policy} {d : Diagram} {p : Plan}

/-- what is read off the fields of a class, without their share of the key -/
theorem filterMap_fields (h : build policy d = .ok p) {e : Entity} (he : e ∈ p.entities)
    {text : RelationField → Option String} (htext : ∀ f, text f.plain = text f) :
    e.fields.filterMap text = (d.placements.filter fun q => q.owner = e.name).filterMap fun q => text q.field := by
  have hplain : ∀ fs : List RelationField, fs.filterMap text = (fs.map RelationField.plain).filterMap text := by
    intro fs
    rw [List.filterMap_map]
    exact List.filterMap_congr fun f _ => (htext f).symm
  rw [hplain, fields_of_build h he, onClass, List.filterMap_map]
  exact List.filterMap_congr fun q _ => htext q.field

theorem marks_nodup_iff (h : build policy d = .ok p) (m : Mark) :
    (∀ e ∈ p.entities, (e.fields.filterMap m.of?).Nodup) ↔
      d.placements.Pairwise fun q r => q.owner = r.owner → Apart m.of? q r := by
  have hplain : ∀ f : RelationField, m.of? f.plain = m.of? f := fun f => by cases m <;> rfl
  have hiff : ∀ e ∈ p.entities, (e.fields.filterMap m.of?).Nodup ↔
      d.placements.Pairwise fun q r => q.owner = e.name → r.owner = e.name → Apart m.of? q r := by
    intro e he
    rw [filterMap_fields h he hplain, nodup_filterMap_iff, List.pairwise_filter]
    simp only [decide_eq_true_eq]
  constructor
  · intro hall
    rw [List.pairwise_iff_forall_sublist]
    intro q r hqr howner
    have hmem := Diagram.owner_mem_names (hqr.subset List.mem_cons_self)
    rw [← names_of_build h] at hmem
    obtain ⟨e, he, hname⟩ := List.mem_map.1 hmem
    exact ((hiff e he).1 (hall e he)).forall_sublist hqr hname.symm (howner ▸ hname.symm)
  · intro hpairs e he
    exact (hiff e he).2 (hpairs.imp fun hapart hq hr => hapart (hq.trans hr.symm))

theorem tables_nodup_iff (h : build policy d = .ok p) :
    (p.entities.flatMap fun e => e.fields.filterMap RelationField.tableName?).Nodup ↔
      d.placements.Pairwise fun q r => True → Apart RelationField.tableName? q r := by
  have hfields : (p.entities.flatMap fun e => e.fields.filterMap RelationField.tableName?) =
      (d.nameTable.names.flatMap fun n => d.placements.filter fun q => q.owner = n).filterMap
        fun q => q.field.tableName? := by
    rw [List.filterMap_flatMap, ← names_of_build h, List.flatMap_map]
    exact List.flatMap_congr fun e he => filterMap_fields h he fun f => rfl
  have hperm := perm_flatMap_filter (NameTable.closed_ofDiagram d).names_nodup fun q => Diagram.owner_mem_names
  rw [hfields, (hperm.filterMap _).nodup_iff, nodup_filterMap_iff]
  simp only [true_implies]

theorem distinct_iff (h : build policy d = .ok p) : DistinctNames p.entities ↔ ¬ d.Clashes := by
  have hmarks : (∀ e ∈ p.entities, ∀ m : Mark, (e.fields.filterMap m.of?).Nodup) ↔
      ¬ ∃ m : Mark, ∃ q ∈ d.placements, ∃ r ∈ d.placements, q.owner = r.owner ∧ q.field.related ≠ r.field.related ∧
        ∃ t, m.of? q.field = some t ∧ m.of? r.field = some t := by
    have hmark : ∀ m : Mark, (∀ e ∈ p.entities, (e.fields.filterMap m.of?).Nodup) ↔ _ := fun m =>
      (marks_nodup_iff h m).trans (pairwise_iff_of_same (d.pairwise_marks m) Eq.symm fun _ => rfl)
    rw [not_exists]
    exact ⟨fun hall m => (hmark m).1 fun e he => hall e he m, fun hnone e he m => (hmark m).2 (hnone m) e he⟩
  have htables : (p.entities.flatMap fun e => e.fields.filterMap RelationField.tableName?).Nodup ↔
      ¬ ∃ q ∈ d.placements, ∃ r ∈ d.placements, ¬ SamePair q.owner q.field.related r.owner r.field.related ∧
        ∃ t, q.field.tableName? = some t ∧ r.field.tableName? = some t := by
    rw [tables_nodup_iff h, pairwise_iff_of_same d.pairwise_tables id fun _ => Or.inl ⟨rfl, rfl⟩]
    simp only [true_and]
  unfold Diagram.Clashes
  rw [not_or, ← hmarks, ← htables]
  exact ⟨fun hd => ⟨hd.marks, hd.tables⟩, fun hd => ⟨hd.1, hd.2⟩⟩

/-- a field that is mapped names one field, when the names of its class are distinct -/
theorem mapped_once (h : build policy d = .ok p) (hd : DistinctNames p.entities) {e : Entity} (he : e ∈ p.entities)
    {f : RelationField} (hf : f ∈ e.fields) {n : String} (hn : f.mappedBy = some n) :
    ∃ r ∈ p.entities, r.name = f.related ∧ (r.fields.map RelationField.name).count n = 1 := by
  obtain ⟨r, hr, hname, g, hg, hp⟩ := (paired_of_build h).partner_of_mem he hf
  refine ⟨r, hr, hname, List.count_eq_one_of_mem ?_ ?_⟩
  · have hnodup := hd.marks r hr .name
    rwa [show Mark.of? .name = fun f => some f.name from rfl, List.filterMap_eq_map'] at hnodup
  · rcases hp.mapped with hm | hm
    · rw [← Option.some.inj (hm.names.symm.trans hn)]
      exact List.mem_map_of_mem hg
    · rw [hm.unmapped] at hn
      cases hn

end Plan

/-- **When names are distinct.** The names of a plan are distinct exactly when no two fields that lead to different
classes share a text; a field that is mapped then names exactly one field of the class it leads to. -/
theorem names_distinct (policy : Policy) (d : Diagram) (p : Plan) (h : Plan.build policy d = .ok p) :
    (DistinctNames p.entities ↔ ¬ d.Clashes) ∧ (DistinctNames p.entities →
      ∀ e ∈ p.entities, ∀ f ∈ e.fields, ∀ n, f.mappedBy = some n →
        ∃ r ∈ p.entities, r.name = f.related ∧ (r.fields.map RelationField.name).count n = 1) :=
  ⟨Plan.distinct_iff h, fun hd _ he _ hf _ hn => Plan.mapped_once h hd he hf hn⟩

theorem crossed_names_distinct : ∃ p, Plan.build .lastWins crossed = .ok p ∧ DistinctNames p.entities ∧
    ¬ crossed.Clashes := by
  refine ⟨_, rfl, ?_, (names_distinct .lastWins crossed _ rfl).1.1 ?_⟩ <;>
    exact ⟨fun e he m => by cases m <;> revert e <;> decide, by decide⟩

/-- two users of an account and a second kind of user; two lists of tags and a second kind of tag -/
def renumbered : Diagram where
  nodes := [⟨"a", "Account", [], false⟩, ⟨"u", "User", [], false⟩, ⟨"u2", "User2", [], false⟩,
    ⟨"t", "Tag", [], false⟩, ⟨"t2", "Tag2", [], false⟩]
  edges := [⟨"", "u", "a", none, some "1", some "*", .association none⟩,
    ⟨"", "u", "a", none, some "1", some "*", .association none⟩,
    ⟨"", "u2", "a", none, some "1", some "*", .association none⟩,
    ⟨"", "a", "t", none, some "*", some "*", .association none⟩,
    ⟨"", "a", "t", none, some "*", some "*", .association none⟩,
    ⟨"", "a", "t2", none, some "*", some "*", .association none⟩]
  metadata := .null

/-- **A number may end the name of a class.** The second `User` of an account and its first `User2` have the name, the
foreign key and the reference of one field, and the second list of `Tag` has the table of the first list of `Tag2`. -/
theorem renumbered_names_clash : ∃ p, Plan.build .lastWins renumbered = .ok p ∧
    (∀ m : Mark, ∃ e ∈ p.entities, ¬ (e.fields.filterMap m.of?).Nodup) ∧
    ¬ (p.entities.flatMap fun e => e.fields.filterMap RelationField.tableName?).Nodup := by
  refine ⟨_, rfl, fun m => ?_, by decide⟩
  cases m <;> decide

end Classwright
