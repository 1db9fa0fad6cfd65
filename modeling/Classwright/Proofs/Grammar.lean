/-
What may stand in a payload.

Attributes, nodes and edges are checked field by field. A check of several parts accepts when each part is accepted, and its
problems are those of the parts, one after the other. So what each kind of element may look like can be read off its fields:
these are the shapes below. They say nothing about the order of the checks or their messages, and an element is accepted
exactly when it has its shape.

- `Checked.Accepts`, `Checked.Explained`: a check that succeeds, and one that names a problem whenever it does not;
- `Json.isText`, `Json.isFilled`, `Json.isTruth`: the values of single fields;
- `Attribute.Shape`, `Node.Shape`, `Edge.Shape`: the fields of elements; `Attribute.Acceptable`, `Node.Acceptable`,
  `Edge.Acceptable`: objects with these fields; `accepts_iff`: they are accepted, and nothing else is;
- `Checked.problems_listFrom`: the problems of the items of a list;
- `Attribute.explained`, `Node.explained`, `Edge.explained`: what is refused has a problem.
-/
import Classwright.Proofs.EdgeShapes

namespace Classwright

/-! ## Checks of several parts -/

namespace Checked

variable {α β : Type}

/-- the value is there -/
def Accepts (a : Checked α) : Prop := ∃ x, a = .ok x

theorem accepts_ok (x : α) : Accepts (.ok x : Checked α) := ⟨x, rfl⟩

theorem not_accepts_error (ps : List Problem) : ¬ Accepts (.error ps : Checked α) := nofun

theorem not_accepts_fail (c : Cause) : ¬ Accepts (fail c : Checked α) := nofun

theorem eq_error_of_not_accepts {a : Checked α} (h : ¬ a.Accepts) : a = .error a.problems := by
  cases a with
  | ok x => exact absurd (accepts_ok x) h
  | error ps => rfl

@[simp] theorem accepts_map_iff {f : α → β} {a : Checked α} : (map f a).Accepts ↔ a.Accepts := by
  cases a with
  | ok x => exact iff_of_true (accepts_ok _) (accepts_ok _)
  | error ps => exact iff_of_false (not_accepts_error _) (not_accepts_error _)

@[simp] theorem accepts_under_iff {step : String} {a : Checked α} : (under step a).Accepts ↔ a.Accepts := by
  unfold Accepts
  simp only [under_eq_ok_iff]

@[simp] theorem accepts_apply_iff {f : Checked (α → β)} {a : Checked α} : (apply f a).Accepts ↔ f.Accepts ∧ a.Accepts := by
  constructor
  · rintro ⟨y, hy⟩
    obtain ⟨g, x, hf, ha, -⟩ := apply_eq_ok hy
    exact ⟨⟨g, hf⟩, x, ha⟩
  · rintro ⟨⟨g, rfl⟩, x, rfl⟩
    exact accepts_ok (g x)

/-- a list is accepted when its items are -/
theorem accepts_listFrom_iff {check : Json → Checked α} {start : Nat} {items : List Json} :
    (listFrom check start items).Accepts ↔ ∀ j ∈ items, (check j).Accepts := by
  induction items generalizing start with
  | nil => exact iff_of_true (accepts_ok []) nofun
  | cons j rest ih =>
    have hpair : ∀ (a : Checked α) (b : Checked (List α)), (pair a b).Accepts ↔ a.Accepts ∧ b.Accepts := by
      intro a b
      constructor
      · rintro ⟨p, hp⟩
        obtain ⟨ha, hb⟩ := pair_eq_ok hp
        exact ⟨⟨_, ha⟩, _, hb⟩
      · rintro ⟨⟨x, rfl⟩, y, rfl⟩
        exact accepts_ok (x, y)
    rw [listFrom, accepts_map_iff, hpair, accepts_under_iff, ih, List.forall_mem_cons]

@[simp] theorem problems_under (step : String) (a : Checked α) :
    problems (under step a) = (problems a).map (Problem.under step) := by
  cases a <;> rfl

@[simp] theorem problems_apply (f : Checked (α → β)) (a : Checked α) : problems (apply f a) = problems f ++ problems a := by
  unfold apply
  rw [problems_map, problems_pair]

/-- the problems of a list are those of its items, each located by its index -/
theorem problems_listFrom (check : Json → Checked α) (start : Nat) (items : List Json) :
    problems (listFrom check start items) =
      (items.zipIdx start).flatMap fun x => (problems (check x.1)).map (Problem.under (Nat.repr x.2)) := by
  induction items generalizing start with
  | nil => rfl
  | cons j rest ih =>
    rw [listFrom, problems_map, problems_pair, problems_under, ih, List.zipIdx_cons, List.flatMap_cons]

theorem map_problems_list (check : Json → Checked α) (step : String) (items : List Json) :
    (problems (list check (.arr items))).map (Problem.under step) =
      items.zipIdx.flatMap fun x => (problems (check x.1)).map fun p => (p.under (Nat.repr x.2)).under step := by
  rw [list, problems_listFrom, List.map_flatMap]
  simp only [List.map_map]
  rfl

/-- without a problem the value is there -/
def Explained (a : Checked α) : Prop := a.problems = [] → a.Accepts

theorem problems_of_accepts {a : Checked α} (h : a.Accepts) : a.problems = [] := by
  obtain ⟨x, rfl⟩ := h
  rfl

theorem Explained.problems_eq_nil_iff {a : Checked α} (h : a.Explained) : a.problems = [] ↔ a.Accepts :=
  ⟨h, problems_of_accepts⟩

theorem explained_ok (x : α) : Explained (.ok x : Checked α) := fun _ => accepts_ok x

theorem explained_fail (c : Cause) : Explained (fail c : Checked α) := nofun

theorem Explained.map {a : Checked α} (h : a.Explained) (f : α → β) : (map f a).Explained := by
  intro hnone
  rw [problems_map] at hnone
  exact accepts_map_iff.2 (h hnone)

theorem Explained.under {a : Checked α} (h : a.Explained) (step : String) : (under step a).Explained := by
  intro hnone
  rw [problems_under, List.map_eq_nil_iff] at hnone
  exact accepts_under_iff.2 (h hnone)

theorem Explained.apply {f : Checked (α → β)} {a : Checked α} (hf : f.Explained) (ha : a.Explained) : (apply f a).Explained := by
  intro hnone
  rw [problems_apply, List.append_eq_nil_iff] at hnone
  exact accepts_apply_iff.2 ⟨hf hnone.1, ha hnone.2⟩

theorem explained_list {check : Json → Checked α} (h : ∀ j, (check j).Explained) (j : Json) : (list check j).Explained := by
  cases j with
  | arr items =>
    intro hnone
    have hitems : problems (listFrom check 0 items) = [] := hnone
    rw [problems_listFrom, List.flatMap_eq_nil_iff] at hitems
    refine accepts_listFrom_iff.2 fun x hx => h x ?_
    obtain ⟨i, hi⟩ := List.mem_iff_getElem?.1 hx
    exact List.map_eq_nil_iff.1 (hitems (x, i) (List.mk_mem_zipIdx_iff_getElem?.2 hi))
  | _ => exact explained_fail _

end Checked

open Checked (Accepts Explained)

/-! ## Values of fields -/

namespace Json

def isText : Json → Bool
  | .str _ => true
  | _ => false

/-- a text that is not empty -/
def isFilled : Json → Bool
  | .str s => !s.isEmpty
  | _ => false

/-- what may stand for a truth value -/
def isTruth : Json → Bool
  | .bool _ => true
  | .int n => n == 0 || n == 1
  | .real x => x.toInt? == some 0 || x.toInt? == some 1
  | .str s => (trueWords ++ falseWords).contains (Text.lower s)
  | _ => false

end Json

theorem accepts_readText {j : Json} : (readText j).Accepts ↔ j.isText = true := by
  cases j <;> simp [readText, Json.isText, Checked.accepts_ok, Checked.not_accepts_fail]

theorem accepts_readNonempty {j : Json} : (readNonempty j).Accepts ↔ j.isFilled = true := by
  cases j with
  | str s =>
    simp only [readNonempty, Json.isFilled]
    cases s.isEmpty <;> simp [Checked.accepts_ok, Checked.not_accepts_fail]
  | _ => simp [readNonempty, Json.isFilled, Checked.not_accepts_fail]

theorem numberText_of_isNumber {j : Json} (h : j.isNumber = true) : numberText j = .str j.display := by
  cases j <;> first | rfl | cases h

theorem numberText_of_not_isNumber {j : Json} (h : j.isNumber = false) : numberText j = j := by
  cases j <;> first | rfl | cases h

/-! Where a text may be given as a number: -/

theorem isText_numberText (j : Json) : (numberText j).isText = (j.isText || j.isNumber) := by
  cases j <;> rfl

theorem isFilled_numberText (j : Json) : (numberText j).isFilled = (j.isFilled || j.isNumber) := by
  cases h : j.isNumber with
  | true => simp [numberText_of_isNumber h, Json.isFilled, Json.display_ne_empty h]
  | false => simp [numberText_of_not_isNumber h]

theorem numberText_eq_null_iff {j : Json} : numberText j = .null ↔ j = .null := by
  cases j <;> simp [numberText]

theorem accepts_readOptional {α : Type} {read : Json → Checked α} {j : Json} :
    (readOptional read j).Accepts ↔ j = .null ∨ (read j).Accepts := by
  cases j <;> simp [readOptional, Checked.accepts_ok]

theorem accepts_boolOfInt {n : Int} : (boolOfInt n).Accepts ↔ n = 0 ∨ n = 1 := by
  unfold boolOfInt
  split_ifs <;> simp [Checked.accepts_ok, Checked.not_accepts_fail, *]

theorem accepts_readBool {j : Json} : (readBool j).Accepts ↔ j.isTruth = true := by
  cases j with
  | int n => simp [readBool, Json.isTruth, accepts_boolOfInt]
  | real x =>
    simp only [readBool, Json.isTruth]
    cases x.toInt? with
    | none => simp [Checked.not_accepts_fail]
    | some n => simp [accepts_boolOfInt]
  | str s =>
    simp only [readBool, Json.isTruth, List.contains_eq_mem, List.mem_append, decide_eq_true_eq]
    split_ifs <;> simp [Checked.accepts_ok, Checked.not_accepts_fail, *]
  | _ => simp [readBool, Json.isTruth, Checked.accepts_ok, Checked.not_accepts_fail]

theorem Edge.accepts_readClassId {j : Json} :
    (Edge.readClassId j).Accepts ↔ j.isText = true ∨ j.isNumber = true ∨ j.truthy = false := by
  cases h : j.isNumber with
  | true => simp [Edge.readClassId_of_isNumber h, Checked.accepts_ok]
  | false =>
    unfold Edge.readClassId
    rw [numberText_of_not_isNumber h]
    dsimp only
    cases j.truthy <;> simp [Checked.accepts_ok, accepts_readText]

/-! Every value that is refused has a problem. -/

theorem explained_readText (j : Json) : (readText j).Explained := by
  cases j <;> first | exact Checked.explained_ok _ | exact Checked.explained_fail _

theorem explained_readNonempty (j : Json) : (readNonempty j).Explained := by
  cases j with
  | str s =>
    unfold readNonempty
    dsimp only
    split_ifs
    · exact Checked.explained_fail _
    · exact Checked.explained_ok _
  | _ => exact Checked.explained_fail _

theorem explained_readOptional {read : Json → Checked String} (h : ∀ j, (read j).Explained) (j : Json) :
    (readOptional read j).Explained := by
  cases j with
  | null => exact Checked.explained_ok _
  | _ => exact (h _).map some

theorem explained_boolOfInt (n : Int) : (boolOfInt n).Explained := by
  unfold boolOfInt
  split_ifs <;> first | exact Checked.explained_ok _ | exact Checked.explained_fail _

theorem explained_readBool (j : Json) : (readBool j).Explained := by
  unfold readBool
  split
  · exact Checked.explained_ok _
  · dsimp only
    split_ifs <;> first | exact Checked.explained_ok _ | exact Checked.explained_fail _
  · exact explained_boolOfInt _
  · split
    · exact explained_boolOfInt _
    · exact Checked.explained_fail _
  · exact Checked.explained_fail _

theorem Edge.explained_readClassId (j : Json) : (Edge.readClassId j).Explained := by
  unfold Edge.readClassId
  dsimp only
  split_ifs
  · exact (explained_readText _).map some
  · exact Checked.explained_ok _

/-! ## Fields -/

section

variable {α : Type} {ms : Members} {read : Json → Checked α}

/-- the value of a field under its first spelling that is there -/
def Members.given? (ms : Members) (spellings : List String) : Option Json := (findField ms spellings).map Prod.snd

theorem accepts_requiredField {key : String} :
    (requiredField ms key read).Accepts ↔ ∃ v, ms.get? key = some v ∧ (read v).Accepts := by
  unfold requiredField
  cases ms.get? key with
  | none => simp [Checked.not_accepts_fail]
  | some v => simp

theorem accepts_defaultField {spellings : List String} {default : α} :
    (defaultField ms spellings default read).Accepts ↔ ∀ v ∈ ms.given? spellings, (read v).Accepts := by
  unfold defaultField Members.given?
  cases findField ms spellings with
  | none => simp [Checked.accepts_ok]
  | some m => simp

theorem explained_requiredField (h : ∀ j, (read j).Explained) (key : String) : (requiredField ms key read).Explained := by
  unfold requiredField
  split
  · exact (h _).under key
  · exact (Checked.explained_fail _).under key

theorem explained_defaultField (h : ∀ j, (read j).Explained) (spellings : List String) (default : α) :
    (defaultField ms spellings default read).Explained := by
  unfold defaultField
  split
  · exact (h _).under _
  · exact Checked.explained_ok _

end

/-! ## Attributes -/

namespace Attribute

/-- the fields of an attribute, brought into one shape -/
structure Shape (ms : Members) : Prop where
  id : ∀ v ∈ ms.given? ["id"], v.isText
  name : ∃ v, ms.get? "name" = some v ∧ v.isFilled
  rawType : ∀ v ∈ ms.given? ["rawType", "raw_type"], v.isText
  visibility : ∀ v ∈ ms.given? ["visibility"], v = .null ∨ v.isText

theorem accepts_readFields {ms : Members} : (readFields ms).Accepts ↔ Shape ms := by
  unfold readFields
  simp only [Checked.accepts_apply_iff, Checked.accepts_map_iff, accepts_defaultField, accepts_requiredField,
    accepts_readText, accepts_readNonempty, accepts_readOptional]
  exact ⟨fun ⟨⟨⟨hid, hname⟩, hraw⟩, hvisibility⟩ => ⟨hid, hname, hraw, hvisibility⟩,
    fun ⟨hid, hname, hraw, hvisibility⟩ => ⟨⟨⟨hid, hname⟩, hraw⟩, hvisibility⟩⟩

/-- what an attribute may be -/
def Acceptable (j : Json) : Prop := ∃ ms, j = .obj ms ∧ Shape (flatten ms)

theorem accepts_iff {j : Json} : (read j).Accepts ↔ Acceptable j := by
  unfold Acceptable
  cases j with
  | obj ms => simp [read, accepts_readFields]
  | _ => simp [read, Checked.not_accepts_fail]

theorem explained (j : Json) : (read j).Explained := by
  cases j with
  | obj ms =>
    exact ((((explained_defaultField explained_readText _ _).map _).apply
      (explained_requiredField explained_readNonempty _)).apply (explained_defaultField explained_readText _ _)).apply
      (explained_defaultField (explained_readOptional explained_readText) _ _)
  | _ => exact Checked.explained_fail _

end Attribute

/-! ## Nodes -/

namespace Node

/-- the fields of a node, brought into one shape -/
structure Shape (ms : Members) : Prop where
  id : ∃ v, ms.get? "id" = some v ∧ v.isFilled
  label : ∀ v ∈ ms.given? ["label"], v.isText
  attributes : ∀ v ∈ ms.given? ["attributes"], ∃ items, v = .arr items ∧ ∀ a ∈ items, Attribute.Acceptable a
  isAssociationClass : ∀ v ∈ ms.given? ["isAssociationClass", "is_association_class"], v.isTruth

theorem accepts_list {α : Type} {check : Json → Checked α} {j : Json} :
    (Checked.list check j).Accepts ↔ ∃ items, j = .arr items ∧ ∀ x ∈ items, (check x).Accepts := by
  cases j with
  | arr items => simp [Checked.list, Checked.accepts_listFrom_iff]
  | _ => simp [Checked.list, Checked.not_accepts_fail]

theorem accepts_readFields {ms : Members} : (readFields ms).Accepts ↔ Shape ms := by
  unfold readFields
  simp only [Checked.accepts_apply_iff, Checked.accepts_map_iff, accepts_defaultField, accepts_requiredField,
    accepts_readText, accepts_readNonempty, accepts_readBool, accepts_list, Attribute.accepts_iff]
  exact ⟨fun ⟨⟨⟨hid, hlabel⟩, hattributes⟩, hflag⟩ => ⟨hid, hlabel, hattributes, hflag⟩,
    fun ⟨hid, hlabel, hattributes, hflag⟩ => ⟨⟨⟨hid, hlabel⟩, hattributes⟩, hflag⟩⟩

/-- what a node may be -/
def Acceptable (j : Json) : Prop := ∃ ms, j = .obj ms ∧ Shape (flatten ms)

theorem accepts_iff {j : Json} : (read j).Accepts ↔ Acceptable j := by
  unfold Acceptable
  cases j with
  | obj ms => simp [read, accepts_readFields]
  | _ => simp [read, Checked.not_accepts_fail]

theorem explained (j : Json) : (read j).Explained := by
  cases j with
  | obj ms =>
    exact ((((explained_requiredField explained_readNonempty _).map _).apply
      (explained_defaultField explained_readText _ _)).apply
      (explained_defaultField (Checked.explained_list Attribute.explained) _ _)).apply
      (explained_defaultField explained_readBool _ _)
  | _ => exact Checked.explained_fail _

end Node

/-! ## Edges -/

namespace Edge

/-- the fields of an edge of a kind, brought into one shape -/
structure Shape (ms : Members) (kind : EdgeKind) : Prop where
  id : ∀ v ∈ ms.given? ["id"], v.isText ∨ v.isNumber
  source : ∃ v, ms.get? "source" = some v ∧ (v.isFilled ∨ v.isNumber)
  target : ∃ v, ms.get? "target" = some v ∧ (v.isFilled ∨ v.isNumber)
  label : ∀ v ∈ ms.given? ["label"], v = .null ∨ v.isText
  sourceCardinality : ∀ v ∈ ms.given? ["sourceCardinality", "source_cardinality"], v = .null ∨ v.isText ∨ v.isNumber
  targetCardinality : ∀ v ∈ ms.given? ["targetCardinality", "target_cardinality"], v = .null ∨ v.isText ∨ v.isNumber
  classId : kind.tag = (EdgeKind.association none).tag →
    ∀ v ∈ ms.given? ["associationClassId", "association_class_id"], v.isText ∨ v.isNumber ∨ v.truthy = false

theorem accepts_readKind {ms : Members} {kind : EdgeKind} : (readKind ms kind).Accepts ↔
    (kind.tag = (EdgeKind.association none).tag → ∀ v ∈ ms.given? ["associationClassId", "association_class_id"],
      v.isText = true ∨ v.isNumber = true ∨ v.truthy = false) := by
  cases kind with
  | association c =>
    simp only [readKind, Checked.accepts_map_iff, accepts_defaultField, accepts_readClassId, EdgeKind.tag, true_imp_iff]
  | _ => simp [readKind, Checked.accepts_ok, EdgeKind.tag]

theorem accepts_readFields {ms : Members} {kind : EdgeKind} : (readFields ms kind).Accepts ↔ Shape ms kind := by
  unfold readFields
  simp only [Checked.accepts_apply_iff, Checked.accepts_map_iff, accepts_defaultField, accepts_requiredField,
    accepts_readOptional, accepts_readText, accepts_readNonempty, accepts_readKind, isText_numberText, isFilled_numberText,
    numberText_eq_null_iff, Bool.or_eq_true]
  exact ⟨fun ⟨⟨⟨⟨⟨⟨hid, hsource⟩, htarget⟩, hlabel⟩, hs⟩, ht⟩, hclass⟩ => ⟨hid, hsource, htarget, hlabel, hs, ht, hclass⟩,
    fun ⟨hid, hsource, htarget, hlabel, hs, ht, hclass⟩ => ⟨⟨⟨⟨⟨⟨hid, hsource⟩, htarget⟩, hlabel⟩, hs⟩, ht⟩, hclass⟩⟩

/-- what an edge may be -/
def Acceptable (j : Json) : Prop :=
  ∃ ms, j = .obj ms ∧ ∃ kind, EdgeKind.ofTag? (kindTag ms) = some kind ∧ Shape (flatten ms) kind

theorem accepts_iff {j : Json} : (read j).Accepts ↔ Acceptable j := by
  unfold Acceptable
  cases j with
  | obj ms =>
    simp only [read, Json.obj.injEq, exists_eq_left']
    cases EdgeKind.ofTag? (kindTag ms) with
    | none => simp [Checked.not_accepts_fail]
    | some kind => simp [accepts_readFields]
  | _ => simp [read, Checked.not_accepts_fail]

theorem explained_readKind (ms : Members) (kind : EdgeKind) : (readKind ms kind).Explained := by
  unfold readKind
  split
  · exact (explained_defaultField explained_readClassId _ _).map _
  · exact Checked.explained_ok _

theorem explained (j : Json) : (read j).Explained := by
  have hcardinality : ∀ v, (readOptional readText (numberText v)).Explained :=
    fun v => explained_readOptional explained_readText _
  cases j with
  | obj ms =>
    unfold read
    dsimp only
    split
    · refine Explained.under ?_ _
      exact (((((((explained_defaultField (fun _ => explained_readText _) _ _).map _).apply
        (explained_requiredField (fun _ => explained_readNonempty _) _)).apply
        (explained_requiredField (fun _ => explained_readNonempty _) _)).apply
        (explained_defaultField (explained_readOptional explained_readText) _ _)).apply
        (explained_defaultField hcardinality _ _)).apply
        (explained_defaultField hcardinality _ _)).apply (explained_readKind _ _)
    · exact Checked.explained_fail _
  | _ => exact Checked.explained_fail _

end Edge

end Classwright
