/-
Diagrams that are written and read again.

A payload can give one diagram in many shapes: under two spellings of a key, nested or flat, with numbers for ids and any
word for a type. What is written has one shape, and every rule that brings the others into it leaves it as it is. So a diagram
that was read once is read again from what is written of it, and nothing made of it changes.

- `Checked.map_eq_ok`, `Checked.apply_eq_ok`, `Checked.listFrom_eq_ok_iff`: what a check that succeeds was made of;
- `Rereads`: what a reader accepts it accepts again when it is written; `Rereads.list`: so do the lists of such values;
- `AttributeType.ofText_tag`, `EdgeKind.normalTag_tag`: a tag stands for itself;
- `Attribute.rereads`, `Node.rereads`, `Edge.rereads`, `Diagram.rereads`: attributes, nodes, edges and diagrams;
- `dump_loads_again`: the payload that is written loads as the same diagram, with the same project and the same collection.
-/
import Mathlib.Data.List.Forall2
import Classwright.Console.Run
import Classwright.Diagram.Printer
import Classwright.Diagram.Reader
import Classwright.Proofs.Tables

namespace Classwright

/-! ## Checks that succeed -/

namespace Checked

variable {α β : Type}

theorem map_eq_ok {f : α → β} {a : Checked α} {b : β} (h : map f a = .ok b) : ∃ x, a = .ok x ∧ f x = b := by
  cases a with
  | error ps => cases h
  | ok x => exact ⟨x, rfl, Except.ok.inj h⟩

theorem pair_eq_ok {a : Checked α} {b : Checked β} {p : α × β} (h : pair a b = .ok p) : a = .ok p.1 ∧ b = .ok p.2 := by
  cases a <;> cases b <;> cases h
  exact ⟨rfl, rfl⟩

theorem apply_eq_ok {f : Checked (α → β)} {a : Checked α} {b : β} (h : apply f a = .ok b) :
    ∃ g x, f = .ok g ∧ a = .ok x ∧ g x = b := by
  obtain ⟨⟨g, x⟩, hpair, hb⟩ := map_eq_ok h
  obtain ⟨hf, ha⟩ := pair_eq_ok hpair
  exact ⟨g, x, hf, ha, hb⟩

theorem under_eq_ok_iff {step : String} {a : Checked α} {x : α} : under step a = .ok x ↔ a = .ok x := by
  cases a with
  | ok y => rfl
  | error ps => exact iff_of_false nofun nofun

/-- the items of a list are read one by one -/
theorem listFrom_eq_ok_iff {check : Json → Checked α} {start : Nat} {items : List Json} {xs : List α} :
    listFrom check start items = .ok xs ↔ List.Forall₂ (fun j x => check j = .ok x) items xs := by
  induction items generalizing start xs with
  | nil =>
    rw [listFrom, List.forall₂_nil_left_iff, Except.ok.injEq, eq_comm]
  | cons j rest ih =>
    constructor
    · intro h
      obtain ⟨⟨x, ys⟩, hpair, rfl⟩ := map_eq_ok h
      obtain ⟨hx, hys⟩ := pair_eq_ok hpair
      exact .cons (under_eq_ok_iff.1 hx) (ih.1 hys)
    · intro h
      cases h with
      | @cons _ x _ ys hx hys => rw [listFrom, under_eq_ok_iff.2 hx, ih.2 hys]; rfl

end Checked

/-! ## Members -/

namespace Members

variable {ms : Members} {key : String} {value : Json}

/-! Members are a table under their names. -/

theorem get?_eq_table (ms : Members) (key : String) : ms.get? key = Table.get? ms key := by
  induction ms with
  | nil => rfl
  | cons m rest ih => rw [get?, Table.get?, ih]

theorem set_eq_table (ms : Members) (key : String) (value : Json) : ms.set key value = Table.set ms key value := by
  induction ms with
  | nil => rfl
  | cons m rest ih =>
    rw [set, Table.set, ih]
    split_ifs with hk
    · rw [hk]
    · rfl

theorem set_eq_self (h : ms.get? key = some value) : ms.set key value = ms := by
  rw [get?_eq_table] at h
  rw [set_eq_table, Table.set_eq_self h]

theorem set_of_not_mem (h : key ∉ ms.map Prod.fst) : ms.set key value = ms ++ [(key, value)] := by
  rw [set_eq_table, Table.set_of_not_mem h]

/-- members with different names are set behind those that are there -/
theorem update_eq_append (more : Members) (h : ((ms ++ more).map Prod.fst).Nodup) : update ms more = ms ++ more := by
  induction more generalizing ms with
  | nil => rw [List.append_nil]; rfl
  | cons m rest ih =>
    have hmem : m.1 ∉ ms.map Prod.fst := by
      rw [List.map_append, List.map_cons] at h
      exact fun hm => (List.nodup_append.1 h).2.2 _ hm _ List.mem_cons_self rfl
    have hsplit : ms ++ m :: rest = ms ++ [m] ++ rest := by rw [List.append_assoc, List.singleton_append]
    rw [hsplit] at h ⊢
    show update (ms.set m.1 m.2) rest = _
    rw [set_of_not_mem hmem]
    exact ih h

theorem update_nil (h : (ms.map Prod.fst).Nodup) : update [] ms = ms := update_eq_append ms h

theorem get?_eq_none_iff : ms.get? key = none ↔ key ∉ ms.map Prod.fst := by
  rw [get?_eq_table, ← Option.not_isSome_iff_eq_none, Table.isSome_get?_iff, Table.keys]

end Members

theorem innerData_of_none {ms : Members} (h : ms.get? "data" = none) : innerData ms = [] := by
  unfold innerData
  rw [h]

theorem pick_nil (keys : List String) : pick [] keys = [] := by
  unfold pick
  rw [List.filterMap_eq_nil_iff]
  exact fun k _ => rfl

theorem without_eq_self {ms : Members} {keys : List String} (h : ∀ k ∈ keys, ms.get? k = none) : without ms keys = ms := by
  refine List.filter_eq_self.2 fun m hm => ?_
  rw [Bool.not_eq_true', ← Bool.not_eq_true, List.contains_iff_mem]
  exact fun hk => Members.get?_eq_none_iff.1 (h m.1 hk) (List.mem_map_of_mem hm)

theorem orElseMember_eq_self {ms : Members} {key : String} {value other : Json} (h : ms.get? key = some value)
    (hnull : value ≠ .null) : orElseMember ms key other = ms := by
  unfold orElseMember
  rw [h]
  split
  · next heq => exact absurd (Option.some.inj heq) hnull
  · next heq => cases heq
  · rfl

/-! ## Readers -/

/-- what a reader accepts it accepts again when it is written -/
def Rereads {α : Type} (read : Json → Checked α) (write : α → Json) : Prop :=
  ∀ {j x}, read j = .ok x → read (write x) = .ok x

theorem Rereads.list {α : Type} {read : Json → Checked α} {write : α → Json} (h : Rereads read write) :
    Rereads (Checked.list read) fun xs => .arr (xs.map write) := by
  intro j xs hread
  cases j with
  | arr items =>
    have hitems := Checked.listFrom_eq_ok_iff.1 hread
    refine Checked.listFrom_eq_ok_iff.2 ?_
    induction hitems with
    | nil => exact .nil
    | cons hx _ ih => exact .cons (h hx) (ih (Checked.listFrom_eq_ok_iff.2 ‹_›))
  | _ => cases hread

theorem defaultField_eq_ok {α : Type} {ms : Members} {spellings : List String} {default x : α} {read : Json → Checked α}
    (h : defaultField ms spellings default read = .ok x) : x = default ∨ ∃ j, read j = .ok x := by
  unfold defaultField at h
  split at h
  · exact Or.inr ⟨_, Checked.under_eq_ok_iff.1 h⟩
  · exact Or.inl (Except.ok.inj h).symm

theorem defaultField_of_get? {α : Type} {ms : Members} {key : String} {others : List String} {default : α} {j : Json}
    {read : Json → Checked α} (h : ms.get? key = some j) :
    defaultField ms (key :: others) default read = (read j).under key := by
  unfold defaultField findField
  rw [List.findSome?_cons, h]
  rfl

theorem requiredField_of_get? {α : Type} {ms : Members} {key : String} {j : Json} {read : Json → Checked α}
    (h : ms.get? key = some j) : requiredField ms key read = (read j).under key := by
  unfold requiredField
  rw [h]

theorem requiredField_eq_ok {α : Type} {ms : Members} {key : String} {x : α} {read : Json → Checked α}
    (h : requiredField ms key read = .ok x) : ∃ j, read j = .ok x := by
  unfold requiredField at h
  split at h
  · exact ⟨_, Checked.under_eq_ok_iff.1 h⟩
  · cases h

theorem ne_empty_of_readNonempty {j : Json} {s : String} (h : readNonempty j = .ok s) : s ≠ "" := by
  cases j with
  | str t =>
    rw [readNonempty] at h
    split_ifs at h with ht
    · cases h
    · obtain rfl := Except.ok.inj h
      exact fun heq => ht (String.isEmpty_iff.2 heq)
  | _ => cases h

theorem readNonempty_str {s : String} (h : s ≠ "") : readNonempty (.str s) = .ok s := by
  rw [readNonempty, if_neg fun ht => h (String.isEmpty_iff.1 ht)]

theorem numberText_str (s : String) : numberText (.str s) = .str s := rfl

theorem numberText_optionalText (s : Option String) : numberText (optionalText s) = optionalText s := by cases s <;> rfl

theorem readOptional_optionalText (s : Option String) : readOptional readText (optionalText s) = .ok s := by
  cases s <;> rfl

/-! ## Attributes -/

theorem AttributeType.ofText_tag (t : AttributeType) : ofText t.tag = t := by cases t <;> decide +kernel

theorem AttributeType.ofTag?_tag (t : AttributeType) : ofTag? t.tag = some t := by cases t <;> decide

theorem presentText_str (s : String) : presentText (.str s) = s := by
  unfold presentText Json.truthy
  split_ifs with h
  · rfl
  · exact (String.isEmpty_iff.1 (by simpa using h)).symm

namespace Attribute

theorem name_ne_empty {j : Json} {a : Attribute} (h : read j = .ok a) : a.name ≠ "" := by
  cases j with
  | obj ms =>
    obtain ⟨f, visibility, hf, -, hread⟩ := Checked.apply_eq_ok h
    obtain ⟨g, rawType, hg, -, rfl⟩ := Checked.apply_eq_ok hf
    obtain ⟨k, name, hk, hname, rfl⟩ := Checked.apply_eq_ok hg
    obtain ⟨id, -, rfl⟩ := Checked.map_eq_ok hk
    obtain ⟨v, hv⟩ := requiredField_eq_ok hname
    exact hread ▸ ne_empty_of_readNonempty hv
  | _ => cases h

/-- members that give an attribute as it is -/
structure WrittenAs (a : Attribute) (ms : Members) : Prop where
  id : ms.get? "id" = some (.str a.id)
  name : ms.get? "name" = some (.str a.name)
  type : ms.get? "type" = some (.str a.type.tag)
  rawType : ms.get? "rawType" = some (.str a.rawType)
  visibility : ms.get? "visibility" = some (optionalText a.visibility)

variable {a : Attribute} {ms : Members}

/-- the type is a tag already and the written type is there, so nothing is left to bring into shape -/
theorem WrittenAs.flatten_eq (h : a.WrittenAs ms) : flatten ms = ms := by
  have hraw : ms.has "rawType" = true := by rw [Members.has, h.rawType]; rfl
  unfold flatten
  simp only [h.type, Option.getD_some, hraw, if_true, presentText_str, AttributeType.ofText_tag,
    Members.set_eq_self h.type, h.id, numberText, Members.set_eq_self h.id]

theorem WrittenAs.read_eq (h : a.WrittenAs ms) (hname : a.name ≠ "") : read (.obj ms) = .ok a := by
  have htype : readType (.str a.type.tag) = a.type := congrArg (Option.getD · AttributeType.other) a.type.ofTag?_tag
  unfold read
  dsimp only
  rw [h.flatten_eq, readFields, defaultField_of_get? h.id, requiredField_of_get? h.name, defaultField_of_get? h.rawType,
    defaultField_of_get? h.visibility, readNonempty_str hname, readOptional_optionalText, h.type, Option.getD_some, htype]
  rfl

theorem rereads : Rereads read toJson := by
  intro j a h
  refine WrittenAs.read_eq ⟨?_, ?_, ?_, ?_, ?_⟩ (name_ne_empty h)
  all_goals simp [Members.get?]

end Attribute

/-! ## Nodes -/

namespace Node

/-- members that give a node as it is -/
structure WrittenAs (n : Node) (ms : Members) : Prop where
  nodup : (ms.map Prod.fst).Nodup
  flat : ms.get? "data" = none
  id : ms.get? "id" = some (.str n.id)
  label : ms.get? "label" = some (.str n.label)
  attributes : ms.get? "attributes" = some (.arr (n.attributes.map Attribute.toJson))
  isAssociationClass : ms.get? "isAssociationClass" = some (.bool n.isAssociationClass)

/-- what the reader sees to in a node -/
structure Readable (n : Node) : Prop where
  id : n.id ≠ ""
  attributes : Checked.list Attribute.read (.arr (n.attributes.map Attribute.toJson)) = .ok n.attributes

variable {n : Node} {ms : Members}

theorem WrittenAs.flatten_eq (h : n.WrittenAs ms) : flatten ms = ms := by
  unfold flatten
  rw [innerData_of_none h.flat, pick_nil, without_eq_self (List.forall_mem_singleton.2 h.flat), Members.update_nil h.nodup]
  simp only [h.id, Option.getD_some, numberText, Members.set_eq_self h.id, orElseMember_eq_self h.label nofun,
    orElseMember_eq_self h.attributes nofun]

theorem WrittenAs.read_eq (h : n.WrittenAs ms) (hn : n.Readable) : read (.obj ms) = .ok n := by
  unfold read
  dsimp only
  rw [h.flatten_eq, readFields, requiredField_of_get? h.id, defaultField_of_get? h.label,
    defaultField_of_get? h.attributes, defaultField_of_get? h.isAssociationClass, readNonempty_str hn.id, hn.attributes]
  rfl

theorem readable_of_read {j : Json} (h : read j = .ok n) : n.Readable := by
  cases j with
  | obj ms =>
    obtain ⟨f, flag, hf, -, hread⟩ := Checked.apply_eq_ok h
    obtain ⟨g, attributes, hg, hattributes, rfl⟩ := Checked.apply_eq_ok hf
    obtain ⟨k, label, hk, -, rfl⟩ := Checked.apply_eq_ok hg
    obtain ⟨id, hid, rfl⟩ := Checked.map_eq_ok hk
    obtain ⟨v, hv⟩ := requiredField_eq_ok hid
    refine hread ▸ ⟨ne_empty_of_readNonempty hv, ?_⟩
    rcases defaultField_eq_ok hattributes with rfl | ⟨items, hitems⟩
    · rfl
    · exact Attribute.rereads.list hitems
  | _ => cases h

theorem rereads : Rereads read toJson := by
  intro j n h
  refine WrittenAs.read_eq ⟨?_, ?_, ?_, ?_, ?_, ?_⟩ (readable_of_read h)
  all_goals simp [Members.get?]

end Node

/-! ## Edges -/

namespace EdgeKind

theorem tag_mem (k : EdgeKind) : k.tag ∈ all.map tag := by cases k <;> simp [all, tag]

theorem normalTag_tag (k : EdgeKind) : normalTag k.tag = k.tag := by
  have htags : ∀ t ∈ all.map tag, normalTag t = t := by decide +kernel
  exact htags _ k.tag_mem

theorem tag_ne_empty (k : EdgeKind) : k.tag ≠ "" := by
  have htags : ∀ t ∈ all.map tag, t ≠ "" := by decide
  exact htags _ k.tag_mem

end EdgeKind

namespace Edge

theorem kindTag_eq {ms : Members} {k : EdgeKind} (hkind : ms.get? "kind" = some (.str k.tag)) : kindTag ms = k.tag := by
  have hthere : (Json.str k.tag).truthy = true := by simp [Json.truthy, k.tag_ne_empty]
  unfold kindTag
  simp only [hkind, Option.getD_some, hthere, if_true]
  exact k.normalTag_tag

/-- members that give an edge as it is -/
structure WrittenAs (e : Edge) (ms : Members) : Prop where
  nodup : (ms.map Prod.fst).Nodup
  flat : ms.get? "data" = none
  undrawn : ms.get? "type" = none
  kind : ms.get? "kind" = some (.str e.kind.tag)
  id : ms.get? "id" = some (.str e.id)
  source : ms.get? "source" = some (.str e.source)
  target : ms.get? "target" = some (.str e.target)
  label : ms.get? "label" = some (optionalText e.label)
  sourceCardinality : ms.get? "sourceCardinality" = some (optionalText e.sourceCardinality)
  targetCardinality : ms.get? "targetCardinality" = some (optionalText e.targetCardinality)
  classId : ∀ c, e.kind = .association c → ms.get? "associationClassId" = some (optionalText c)

/-- what the reader sees to in an edge -/
structure Readable (e : Edge) : Prop where
  source : e.source ≠ ""
  target : e.target ≠ ""
  classId : e.kind.associationClassId ≠ some ""

variable {e : Edge} {ms : Members}

theorem WrittenAs.flatten_eq (h : e.WrittenAs ms) : flatten ms = ms := by
  have hwithout : without ms ["data", "type"] = ms :=
    without_eq_self (List.forall_mem_cons.2 ⟨h.flat, List.forall_mem_singleton.2 h.undrawn⟩)
  unfold flatten
  rw [innerData_of_none h.flat, kindTag_eq h.kind]
  simp only [pick_nil, hwithout, Members.update_nil h.nodup, Members.set_eq_self h.kind, orElseMember_eq_self h.id nofun]
  exact if_neg (by simp [Members.get?, Json.truthy])

/-- an id that is read for an association class is not empty -/
theorem ne_of_readClassId {j : Json} {c : Option String} (h : readClassId j = .ok c) : c ≠ some "" := by
  unfold readClassId at h
  dsimp only at h
  split_ifs at h with hthere
  · obtain ⟨s, hs, rfl⟩ := Checked.map_eq_ok h
    rintro heq
    obtain rfl := Option.some.inj heq
    generalize numberText j = k at hthere hs
    cases k with
    | str t => cases hs; cases hthere
    | _ => cases hs
  · obtain rfl := Except.ok.inj h
    exact nofun

theorem readClassId_optionalText {c : Option String} (h : c ≠ some "") : readClassId (optionalText c) = .ok c := by
  cases c with
  | none => rfl
  | some s =>
    have hs : (Json.str s).truthy = true := by
      simp only [Json.truthy, Bool.not_eq_true', ← Bool.not_eq_true, String.isEmpty_iff]
      exact fun heq => h (congrArg some heq)
    exact if_pos hs

theorem classId_ne_of_readKind {ms : Members} {kind kind' : EdgeKind} (h : readKind ms kind = .ok kind') :
    kind'.associationClassId ≠ some "" := by
  unfold readKind at h
  split at h
  · obtain ⟨c, hc, rfl⟩ := Checked.map_eq_ok h
    rcases defaultField_eq_ok hc with rfl | ⟨j, hj⟩
    · exact nofun
    · exact ne_of_readClassId hj
  · next hother =>
    obtain rfl := Except.ok.inj h
    cases kind with
    | association c => exact absurd rfl (hother c)
    | _ => exact nofun

/-- the kind that a tag stands for gets its association class back -/
theorem readKind_eq_ok {ms : Members} {k : EdgeKind}
    (hclass : ∀ c, k = .association c → ms.get? "associationClassId" = some (optionalText c))
    (hne : k.associationClassId ≠ some "") : ∃ kind, EdgeKind.ofTag? k.tag = some kind ∧ readKind ms kind = .ok k := by
  cases k with
  | association c =>
    refine ⟨.association none, rfl, ?_⟩
    unfold readKind
    dsimp only
    rw [defaultField_of_get? (hclass c rfl), @readClassId_optionalText c hne]
    rfl
  | _ => exact ⟨_, rfl, rfl⟩

theorem WrittenAs.read_eq (h : e.WrittenAs ms) (he : e.Readable) : read (.obj ms) = .ok e := by
  obtain ⟨kind, htag, hkind⟩ := readKind_eq_ok h.classId he.classId
  unfold read
  dsimp only
  rw [kindTag_eq h.kind, htag]
  dsimp only
  rw [h.flatten_eq, Checked.under_eq_ok_iff, readFields]
  simp only [defaultField_of_get? h.id, requiredField_of_get? h.source, requiredField_of_get? h.target,
    defaultField_of_get? h.label, defaultField_of_get? h.sourceCardinality, defaultField_of_get? h.targetCardinality, hkind,
    numberText_str, numberText_optionalText, readOptional_optionalText, readNonempty_str he.source, readNonempty_str he.target]
  rfl

theorem readable_of_read {j : Json} (h : read j = .ok e) : e.Readable := by
  cases j with
  | obj ms =>
    unfold read at h
    dsimp only at h
    split at h
    · next kind hkind =>
      obtain ⟨f₁, kind', hf₁, hkind', hread⟩ := Checked.apply_eq_ok (Checked.under_eq_ok_iff.1 h)
      obtain ⟨f₂, targetCardinality, hf₂, -, rfl⟩ := Checked.apply_eq_ok hf₁
      obtain ⟨f₃, sourceCardinality, hf₃, -, rfl⟩ := Checked.apply_eq_ok hf₂
      obtain ⟨f₄, label, hf₄, -, rfl⟩ := Checked.apply_eq_ok hf₃
      obtain ⟨f₅, target, hf₅, htarget, rfl⟩ := Checked.apply_eq_ok hf₄
      obtain ⟨f₆, source, hf₆, hsource, rfl⟩ := Checked.apply_eq_ok hf₅
      obtain ⟨id, -, rfl⟩ := Checked.map_eq_ok hf₆
      obtain ⟨v, hv⟩ := requiredField_eq_ok hsource
      obtain ⟨w, hw⟩ := requiredField_eq_ok htarget
      exact hread ▸ ⟨ne_empty_of_readNonempty hv, ne_empty_of_readNonempty hw, classId_ne_of_readKind hkind'⟩
    · cases h
  | _ => cases h

theorem rereads : Rereads read toJson := by
  intro j e h
  exact WrittenAs.read_eq {
    nodup := by cases e.kind <;> simp [EdgeKind.members]
    flat := by cases e.kind <;> simp [EdgeKind.members, Members.get?]
    undrawn := by cases e.kind <;> simp [EdgeKind.members, Members.get?]
    kind := by simp [Members.get?]
    id := by simp [Members.get?]
    source := by simp [Members.get?]
    target := by simp [Members.get?]
    label := by simp [Members.get?]
    sourceCardinality := by simp [Members.get?]
    targetCardinality := by simp [Members.get?]
    classId := fun c hc => by simp [hc, EdgeKind.members, Members.get?] } (readable_of_read h)

end Edge

/-! ## Diagrams -/

namespace Diagram

theorem listField_eq_ok {α : Type} {ms : Members} {key : String} {read : Json → Checked α} {write : α → Json} {xs : List α}
    (hread : Rereads read write) (h : listField ms key read = .ok xs) :
    Checked.list read (.arr (xs.map write)) = .ok xs := by
  unfold listField at h
  split at h
  · obtain rfl := Except.ok.inj h
    rfl
  · exact hread.list (Checked.under_eq_ok_iff.1 h)

theorem listField_of_get? {α : Type} {ms : Members} {key : String} {read : Json → Checked α} {items : List Json}
    (h : ms.get? key = some (.arr items)) : listField ms key read = (Checked.list read (.arr items)).under key := by
  unfold listField
  rw [h]
  rfl

/-- what the reader sees to in a diagram -/
structure Readable (d : Diagram) : Prop where
  nodes : Checked.list Node.read (.arr (d.nodes.map Node.toJson)) = .ok d.nodes
  edges : Checked.list Edge.read (.arr (d.edges.map Edge.toJson)) = .ok d.edges
  ids : repeatedId? [] d.nodes = none

theorem readable_of_read {j : Json} {d : Diagram} (h : read j = .ok d) : d.Readable := by
  cases j with
  | null =>
    obtain rfl := Except.ok.inj h
    exact ⟨rfl, rfl, rfl⟩
  | obj ms =>
    unfold read at h
    dsimp only at h
    split at h
    · cases h
    · next d' hfields =>
      obtain ⟨f, edges, hf, hedges, hread⟩ := Checked.apply_eq_ok hfields
      obtain ⟨nodes, hnodes, rfl⟩ := Checked.map_eq_ok hf
      split at h
      · next hids =>
        obtain rfl := Except.ok.inj h
        rw [← hread] at hids ⊢
        exact ⟨listField_eq_ok Node.rereads hnodes, listField_eq_ok Edge.rereads hedges, hids⟩
      · cases h
  | _ => cases h

theorem rereads : Rereads read toJson := by
  intro j d h
  obtain ⟨hnodes, hedges, hids⟩ := readable_of_read h
  unfold toJson read
  dsimp only
  rw [readFields, @listField_of_get? _ _ "nodes" _ (d.nodes.map Node.toJson) (by simp [Members.get?]),
    @listField_of_get? _ _ "edges" _ (d.edges.map Edge.toJson) (by simp [Members.get?]), hnodes, hedges]
  simp [Checked.under, Checked.map, Checked.apply, Checked.pair, Members.get?, hids]

end Diagram

/-- **What is written loads again.** A payload that loads as a diagram and what is written of this diagram are one to all
that is made of them: the second loads as the same diagram, gives the same project and the same request collection. -/
theorem dump_loads_again (j : Json) (d : Diagram) (h : loadDiagram j = .ok d) :
    loadDiagram d.toJson = .ok d ∧ Diagram.unwrap d.toJson = d.toJson ∧
      (∀ policy, (loadDiagram d.toJson).map (render policy) = (loadDiagram j).map (render policy)) ∧
      (∀ template policy, Project.generate template policy d.toJson = Project.generate template policy j) ∧
      ∀ s o, Console.CollectionOrder.build s o d.toJson = Console.CollectionOrder.build s o j := by
  have hread : Diagram.read j = .ok d := by
    unfold loadDiagram at h
    split at h
    · next heq =>
      obtain rfl := Except.ok.inj h
      exact heq
    · cases h
  have hload : loadDiagram d.toJson = .ok d := by
    unfold loadDiagram
    rw [Diagram.rereads hread]
  refine ⟨hload, rfl, fun policy => by rw [hload, h], fun template policy => ?_, fun s o => ?_⟩
  · unfold Project.generate Project.plan
    rw [hload, h]
  · unfold Console.CollectionOrder.build
    rw [hload, h]

/-- a payload in the shape of an editor, with numbers for ids, free words for types and a kind in the data of an edge -/
def sketch : Json := .obj [
  ("nodes", .arr [
    .obj [("id", .int 7), ("data", .obj [("label", .str "Order"), ("attributes", .arr [
      .obj [("name", .str "id"), ("type", .str " Integer ")],
      .obj [("id", .int 3), ("name", .str "due"), ("type", .str "LocalDate"), ("visibility", .str "-")]])])],
    .obj [("id", .str "b"), ("label", .str "Rush"), ("attributes", .null), ("is_association_class", .str "yes")]]),
  ("edges", .arr [
    .obj [("source", .int 7), ("target", .str "b"), ("type", .str "smoothstep"), ("data", .obj [
      ("type", .str "Generalization"), ("sourceCardinality", .int 1)])],
    .obj [("id", .int 9), ("source", .int 7), ("target", .int 7), ("data", .obj [("associationClass", .str "b")])]]),
  ("metadata", .obj [("zoom", .int 2)])]

theorem sketch_loads_again : ∃ d, loadDiagram sketch = .ok d ∧ d.nodes.map Node.id = ["7", "b"] ∧
    d.edges.map Edge.kind = [.inheritance, .association (some "b")] ∧ loadDiagram d.toJson = .ok d :=
  ⟨_, rfl, rfl, rfl, (dump_loads_again sketch _ rfl).1⟩

end Classwright
