/-
When the spelling of keys does not matter.

Four of the five fields with two names are read alike under either. But the type of an attribute is kept as its written type
before the fields are looked at, and it is kept under the first name; so a written type that is given under the second is
never read, and it may be anything.

- `Tolerates`: how a reader takes a change of what it reads; `Tolerates.objects`, `Tolerates.listField`: a change within
  objects and of the items of a list;
- `Attribute.writtenType`: what is read as the written type; `Attribute.Repeats`: a written type that only repeats the type;
- `Attribute.Respelled`, `Node.Respelled`, `Edge.Respelled`, `Diagram.Respelled`: keys respelled in any part of a payload,
  in each by a choice of its own;
- `Attribute.tolerates`, `Node.tolerates`, `Edge.tolerates`, `Diagram.tolerates`: what this does to each part;
- `spellings_interchangeable`: when a respelled payload loads as the same diagram; `renamed_type_lost`: one that does not.
-/
import Classwright.Proofs.Respelling

namespace Classwright

/-! ## Changes that a reader tolerates -/

/-- how a reader takes a change of what it reads: what it accepted it accepts still, as the same but for something it may
forget, and it reads the same as before exactly when the change is harmless -/
structure Tolerates {σ α : Type} (read : σ → Checked α) (Changed : σ → σ → Prop) (forget : α → α)
    (Harmless : σ → σ → Prop) : Prop where
  still : ∀ {a b x}, Changed a b → read a = .ok x → ∃ y, read b = .ok y ∧ forget y = forget x
  same_iff : ∀ {a b y}, Changed a b → read b = .ok y → (read a = .ok y ↔ Harmless a b)

/-- the items of a list in an object; none where there is no such list -/
def Json.itemsAt (j : Json) (key : String) : List Json :=
  match j with
  | .obj ms => (Members.items? ms key).getD []
  | _ => []

theorem Json.forall₂_itemsAt {E : Json → Json → Prop} {ms ms' : Members} {key : String}
    (h : Option.Rel (List.Forall₂ E) (ms.items? key) (ms'.items? key)) :
    List.Forall₂ E ((Json.obj ms).itemsAt key) ((Json.obj ms').itemsAt key) := by
  unfold itemsAt
  dsimp only
  generalize ms.items? key = found, ms'.items? key = found' at h
  cases h with
  | none => exact .nil
  | some hitems => exact hitems

namespace Tolerates

variable {α : Type} {read : Json → Checked α} {Changed Harmless : Json → Json → Prop} {forget : α → α}

/-- a change within objects -/
theorem objects {S : Members → Members → Prop} (hrefl : ∀ j, Harmless j j)
    (h : Tolerates (fun ms => read (.obj ms)) S forget fun ms ms' => Harmless (.obj ms) (.obj ms')) :
    Tolerates read (Json.ObjectsBy S) forget Harmless where
  still := by
    intro j j' x hchanged hread
    cases hchanged with
    | objects hS => exact h.still hS hread
    | same => exact ⟨x, hread, rfl⟩
  same_iff := by
    intro j j' y hchanged hread
    cases hchanged with
    | objects hS => exact h.same_iff hS hread
    | same => exact iff_of_true hread (hrefl j)

theorem still_all (h : Tolerates read Changed forget Harmless) {items items' : List Json} {xs : List α}
    (hchanged : List.Forall₂ Changed items items') (hread : List.Forall₂ (fun j x => read j = .ok x) items xs) :
    ∃ ys, List.Forall₂ (fun j y => read j = .ok y) items' ys ∧ ys.map forget = xs.map forget := by
  induction hchanged generalizing xs with
  | nil =>
    cases hread
    exact ⟨[], .nil, rfl⟩
  | cons hj _ ih =>
    cases hread with
    | cons hx hxs =>
      obtain ⟨y, hy, hforget⟩ := h.still hj hx
      obtain ⟨ys, hys, hforgets⟩ := ih hxs
      exact ⟨y :: ys, .cons hy hys, by rw [List.map_cons, List.map_cons, hforget, hforgets]⟩

theorem same_all_iff (h : Tolerates read Changed forget Harmless) {items items' : List Json} {ys : List α}
    (hchanged : List.Forall₂ Changed items items') (hread : List.Forall₂ (fun j y => read j = .ok y) items' ys) :
    List.Forall₂ (fun j y => read j = .ok y) items ys ↔ List.Forall₂ Harmless items items' := by
  induction hchanged generalizing ys with
  | nil =>
    cases hread
    exact iff_of_true .nil .nil
  | cons hj _ ih =>
    cases hread with
    | cons hy hys => rw [List.forall₂_cons, List.forall₂_cons, h.same_iff hj hy, ih hys]

/-- a change of the items of a list -/
theorem listField (h : Tolerates read Changed forget Harmless) (key : String) :
    Tolerates (fun ms => Diagram.listField ms key read)
      (fun ms ms' => Option.Rel (List.Forall₂ Changed) (Members.items? ms key) (Members.items? ms' key)) (List.map forget)
      fun ms ms' => List.Forall₂ Harmless ((Json.obj ms).itemsAt key) ((Json.obj ms').itemsAt key) where
  still := by
    intro ms ms' xs hchanged hread
    obtain ⟨items, hitems, hxs⟩ := Diagram.listField_eq_ok_iff.1 hread
    rw [hitems] at hchanged
    generalize hitems' : Members.items? ms' key = found at hchanged
    cases hchanged with
    | @some _ items' hall =>
      obtain ⟨ys, hys, hforget⟩ := h.still_all hall hxs
      exact ⟨ys, Diagram.listField_eq_ok_iff.2 ⟨items', hitems', hys⟩, hforget⟩
  same_iff := by
    intro ms ms' ys hchanged hread
    obtain ⟨items', hitems', hys⟩ := Diagram.listField_eq_ok_iff.1 hread
    rw [hitems'] at hchanged
    generalize hitems : Members.items? ms key = found at hchanged
    cases hchanged with
    | @some items _ hall =>
      rw [Diagram.listField_eq_ok_iff, Json.itemsAt, Json.itemsAt, hitems, hitems', Option.getD_some, Option.getD_some,
        ← h.same_all_iff hall hys]
      simp

end Tolerates

/-! ## Attributes -/

namespace Attribute

/-- the type as a text, an absent one being empty -/
def typeText (j : Json) : String := if (j.field "type").isNull then "" else (j.field "type").display

/-- what is read as the written type: the one that is given under its first name, else the type -/
def writtenType (j : Json) : Json := (j.get? "rawType").getD (.str (typeText j))

/-- the attribute without its written type -/
def untyped (a : Attribute) : Attribute := { a with rawType := "" }

/-- an attribute with keys respelled -/
def Respelled : Json → Json → Prop := Json.ObjectsBy (Members.Respelled [])

/-- a written type that is no longer under its first name only repeats the type -/
def Repeats (j j' : Json) : Prop :=
  ∀ v, j.get? "rawType" = some v → j'.get? "rawType" = none → v = .str (typeText j)

theorem Repeats.refl (j : Json) : Repeats j j := by
  intro v hv hnone
  rw [hv] at hnone
  cases hnone

/-- the keys of an attribute that have one spelling -/
def singleKeys : List String := ["id", "name", "type", "visibility"]

/-- all that is read of an attribute beside its written type, from members in one shape -/
structure ReadsBeside (ms : Members) (a : Attribute) : Prop where
  id : defaultField ms ["id"] "" readText = .ok a.id
  name : requiredField ms "name" readNonempty = .ok a.name
  type : readType ((ms.get? "type").getD .null) = a.type
  visibility : defaultField ms ["visibility"] none (readOptional readText) = .ok a.visibility

variable {ms ms' : Members} {a : Attribute}

theorem readFields_eq_ok_iff :
    readFields ms = .ok a ↔ ReadsBeside ms a ∧ defaultField ms ["rawType", "raw_type"] "" readText = .ok a.rawType := by
  unfold readFields
  constructor
  · intro h
    obtain ⟨f₁, visibility, hf₁, hvisibility, rfl⟩ := Checked.apply_eq_ok h
    obtain ⟨f₂, rawType, hf₂, hraw, rfl⟩ := Checked.apply_eq_ok hf₁
    obtain ⟨f₃, name, hf₃, hname, rfl⟩ := Checked.apply_eq_ok hf₂
    obtain ⟨id, hid, rfl⟩ := Checked.map_eq_ok hf₃
    exact ⟨⟨hid, hname, rfl, hvisibility⟩, hraw⟩
  · rintro ⟨⟨hid, hname, htype, hvisibility⟩, hraw⟩
    rw [hid, hname, hraw, hvisibility, htype]
    rfl

/-- it is read alike from members that agree on the keys it is given under -/
theorem ReadsBeside.congr (hread : ReadsBeside ms a)
    (h : ∀ key ∈ singleKeys, ms.get? key = ms'.get? key) : ReadsBeside ms' a where
  id := by
    rw [← Edge.defaultField_congr (List.forall_mem_singleton.2 (h "id" (by decide))) "" readText]
    exact hread.id
  name := by
    rw [← Edge.requiredField_congr (h "name" (by decide)) readNonempty]
    exact hread.name
  type := by
    rw [← h "type" (by decide)]
    exact hread.type
  visibility := by
    rw [← Edge.defaultField_congr (List.forall_mem_singleton.2 (h "visibility" (by decide))) none (readOptional readText)]
    exact hread.visibility

theorem get?_flatten_rawType (ms : Members) : (flatten ms).get? "rawType" = some (writtenType (.obj ms)) := by
  unfold flatten
  rw [Members.get?_set_of_ne _ _ (by decide), Members.get?_set_of_ne _ _ (by decide)]
  unfold writtenType Json.get? Members.has
  dsimp only
  cases hraw : ms.get? "rawType" with
  | none => exact Members.get?_set_self ms "rawType" _
  | some v => exact hraw

/-- the rest depends on what it is made of -/
theorem get?_flatten_congr {key : String} (hkey : key ≠ "rawType") (htype : ms.get? "type" = ms'.get? "type")
    (h : ms.get? key = ms'.get? key) : (flatten ms).get? key = (flatten ms').get? key := by
  have hkept : ∀ {other : String} (n : Members) (v : Json), other ≠ "rawType" →
      Members.get? (if n.has "rawType" then n else n.set "rawType" v) other = n.get? other := by
    intro other n v hother
    split_ifs
    · rfl
    · exact Members.get?_set_of_ne n v hother.symm
  unfold flatten
  refine Members.get?_set_congr (Members.get?_set_congr ?_ fun _ => by rw [htype]) ?_
  · rw [hkept _ _ hkey, hkept _ _ hkey, h]
  · rintro rfl
    rw [Members.get?_set_of_ne _ _ (by decide), Members.get?_set_of_ne _ _ (by decide), hkept _ _ hkey, hkept _ _ hkey, h]

theorem read_eq_ok_iff :
    read (.obj ms) = .ok a ↔ ReadsBeside (flatten ms) a ∧ writtenType (.obj ms) = .str a.rawType := by
  have htext : ∀ {j : Json} {s : String}, readText j = .ok s ↔ j = .str s := by
    intro j s
    cases j <;> simp [readText, Checked.fail]
  show readFields (flatten ms) = .ok a ↔ _
  rw [readFields_eq_ok_iff, defaultField_of_get? (get?_flatten_rawType ms), Checked.under_eq_ok_iff, htext]

/-- beside its written type nothing changes -/
theorem ReadsBeside.respelled (h : ms.Respelled [] ms') :
    ReadsBeside (flatten ms) a ↔ ReadsBeside (flatten ms') a := by
  have hsingle : ∀ key ∈ singleKeys, OneSpelling key ∧ key ≠ "rawType" := by decide
  have hlooks : ∀ key ∈ singleKeys, (flatten ms).get? key = (flatten ms').get? key :=
    fun key hkey => get?_flatten_congr (hsingle key hkey).2 (h.get?_eq (by decide) rfl) (h.get?_eq (hsingle key hkey).1 rfl)
  exact ⟨fun hread => hread.congr hlooks, fun hread => hread.congr fun key hkey => (hlooks key hkey).symm⟩

/-- the written type is the one that was given, or it is the type again -/
theorem writtenType_cases (h : ms.Respelled [] ms') :
    ms'.get? "rawType" = ms.get? "rawType" ∧ writtenType (.obj ms') = writtenType (.obj ms) ∨
      ms'.get? "rawType" = none ∧ writtenType (.obj ms') = .str (typeText (.obj ms)) := by
  have htype : typeText (.obj ms') = typeText (.obj ms) := by
    have hfield : (Json.obj ms').field "type" = (Json.obj ms).field "type" :=
      congrArg (Option.getD · Json.null) (h.get?_eq (show OneSpelling "type" by decide) rfl).symm
    unfold typeText
    rw [hfield]
  unfold writtenType Json.get?
  rw [htype]
  rcases h.get?_cases (p := ("rawType", "raw_type")) (by decide) rfl rfl with ⟨hkept, -⟩ | ⟨-, hnone, -⟩
  · exact Or.inl ⟨hkept, by simp only [hkept]⟩
  · exact Or.inr ⟨hnone, by simp only [hnone, Option.getD_none]⟩

theorem repeats_iff (h : ms.Respelled [] ms') :
    Repeats (.obj ms) (.obj ms') ↔ writtenType (.obj ms) = writtenType (.obj ms') := by
  unfold Repeats
  rcases writtenType_cases h with ⟨hkept, hsame⟩ | ⟨hnone, hagain⟩
  · refine iff_of_true (fun v hv hnone => ?_) hsame.symm
    have hthere : ms'.get? "rawType" = some v := hkept.trans hv
    rw [show ms'.get? "rawType" = none from hnone] at hthere
    cases hthere
  · rw [hagain, writtenType]
    cases hgiven : (Json.obj ms).get? "rawType" with
    | none => simp
    | some v => simp [Json.get?, hnone]

/-- **Respelling changes the written type of an attribute at most.** -/
theorem tolerates : Tolerates read Respelled untyped Repeats := by
  refine Tolerates.objects Repeats.refl ⟨?_, ?_⟩
  · intro ms ms' a h hread
    obtain ⟨hbeside, htext⟩ := read_eq_ok_iff.1 hread
    obtain ⟨s, hs⟩ : ∃ s, writtenType (.obj ms') = .str s := by
      rcases writtenType_cases h with ⟨-, hsame⟩ | ⟨-, hagain⟩
      · exact ⟨_, hsame.trans htext⟩
      · exact ⟨_, hagain⟩
    have hbeside' := (ReadsBeside.respelled h).1 hbeside
    exact ⟨{ a with rawType := s }, read_eq_ok_iff.2 ⟨⟨hbeside'.id, hbeside'.name, hbeside'.type, hbeside'.visibility⟩, hs⟩,
      rfl⟩
  · intro ms ms' a h hread
    obtain ⟨hbeside, htext⟩ := read_eq_ok_iff.1 hread
    rw [repeats_iff h, read_eq_ok_iff, and_iff_right ((ReadsBeside.respelled h).2 hbeside), htext]

end Attribute

/-! ## Nodes -/

namespace Node

/-- the node without the written types of its attributes -/
def untyped (n : Node) : Node := { n with attributes := n.attributes.map Attribute.untyped }

/-- a flat node, with keys respelled in it and in its attributes -/
def Respelled : Json → Json → Prop :=
  Json.ObjectsBy fun ms ms' => ms.Flat ∧ ms.Respelled [("attributes", Attribute.Respelled)] ms'

def Repeats (j j' : Json) : Prop := List.Forall₂ Attribute.Repeats (j.itemsAt "attributes") (j'.itemsAt "attributes")

theorem Repeats.refl (j : Json) : Repeats j j := List.forall₂_same.2 fun a _ => Attribute.Repeats.refl a

/-- all that is read of a node beside its attributes, from members in one shape -/
structure ReadsBeside (ms : Members) (n : Node) : Prop where
  id : requiredField ms "id" readNonempty = .ok n.id
  label : defaultField ms ["label"] "" readText = .ok n.label
  isAssociationClass :
    defaultField ms ["isAssociationClass", "is_association_class"] false readBool = .ok n.isAssociationClass

variable {ms ms' : Members} {n : Node}

theorem readFields_eq_ok_iff : readFields ms = .ok n ↔
    ReadsBeside ms n ∧ defaultField ms ["attributes"] [] (Checked.list Attribute.read) = .ok n.attributes := by
  unfold readFields
  constructor
  · intro h
    obtain ⟨f₁, flag, hf₁, hflag, rfl⟩ := Checked.apply_eq_ok h
    obtain ⟨f₂, attributes, hf₂, hattributes, rfl⟩ := Checked.apply_eq_ok hf₁
    obtain ⟨f₃, label, hf₃, hlabel, rfl⟩ := Checked.apply_eq_ok hf₂
    obtain ⟨id, hid, rfl⟩ := Checked.map_eq_ok hf₃
    exact ⟨⟨hid, hlabel, hflag⟩, hattributes⟩
  · rintro ⟨⟨hid, hlabel, hflag⟩, hattributes⟩
    rw [hid, hlabel, hattributes, hflag]
    rfl

theorem ReadsBeside.congr (hread : ReadsBeside ms n) (hid : ms.get? "id" = ms'.get? "id")
    (hlabel : ms.get? "label" = ms'.get? "label")
    (hflag : ms.given? ["isAssociationClass", "is_association_class"] =
      ms'.given? ["isAssociationClass", "is_association_class"]) : ReadsBeside ms' n where
  id := by
    rw [← Edge.requiredField_congr hid readNonempty]
    exact hread.id
  label := by
    rw [← Edge.defaultField_congr (List.forall_mem_singleton.2 hlabel) "" readText]
    exact hread.label
  isAssociationClass := (defaultField_eq_ok_congr hflag).1 hread.isAssociationClass

/-- flat members are brought into shape key by key -/
theorem get?_flatten_congr (hflat : ms.Flat) (hdistinct : (ms.map Prod.fst).Nodup) (hflat' : ms'.Flat)
    (hdistinct' : (ms'.map Prod.fst).Nodup) {key : String} (h : ms.get? key = ms'.get? key) :
    (flatten ms).get? key = (flatten ms').get? key := by
  have htop : ∀ wanted, Members.get? (Members.update (pick (innerData ms) wanted) (without ms ["data"])) key =
      Members.get? (Members.update (pick (innerData ms') wanted) (without ms' ["data"])) key := by
    intro wanted
    rw [Members.get?_top hflat hdistinct, Members.get?_top hflat' hdistinct', h]
  unfold flatten
  refine Members.get?_orElseMember_congr (Members.get?_orElseMember_congr (Members.get?_set_congr (htop _) ?_) _ _) _ _
  rintro rfl
  rw [htop]

/-- the attributes of a flat node are a list in it -/
theorem defaultField_attributes (hflat : ms.Flat) (hdistinct : (ms.map Prod.fst).Nodup) :
    (defaultField (flatten ms) ["attributes"] [] (Checked.list Attribute.read)) =
      Diagram.listField ms "attributes" Attribute.read := by
  have hget : Members.get? (flatten ms) "attributes" =
      some (if ((ms.get? "attributes").getD .null).isNull then .arr [] else (ms.get? "attributes").getD .null) := by
    unfold flatten
    dsimp only
    rw [Members.get?_orElseMember_self, Members.get?_orElseMember_of_ne (by decide), Members.get?_set_of_ne _ _ (by decide),
      Members.get?_top hflat hdistinct, if_neg (show "attributes" ∉ ["data"] by decide)]
  rw [defaultField_of_get? hget]
  unfold Diagram.listField
  cases (ms.get? "attributes").getD .null <;> rfl

theorem read_eq_ok_iff (hflat : ms.Flat) (hdistinct : (ms.map Prod.fst).Nodup) : read (.obj ms) = .ok n ↔
    ReadsBeside (flatten ms) n ∧ Diagram.listField ms "attributes" Attribute.read = .ok n.attributes := by
  show readFields (flatten ms) = .ok n ↔ _
  rw [readFields_eq_ok_iff, defaultField_attributes hflat hdistinct]

/-- keys that no rule is about stay as they are -/
theorem get?_flatten_of_not_mem (hflat : ms.Flat) (hdistinct : (ms.map Prod.fst).Nodup) {key : String}
    (hkey : key ∉ ["data", "id", "label", "attributes"]) : (flatten ms).get? key = ms.get? key := by
  simp only [List.mem_cons, List.not_mem_nil, or_false, not_or] at hkey
  obtain ⟨hdata, hid, hlabel, hattributes⟩ := hkey
  unfold flatten
  dsimp only
  rw [Members.get?_orElseMember_of_ne (Ne.symm hattributes), Members.get?_orElseMember_of_ne (Ne.symm hlabel),
    Members.get?_set_of_ne _ _ (Ne.symm hid), Members.get?_top hflat hdistinct, if_neg (by simpa using hdata)]

theorem ReadsBeside.respelled (hflat : ms.Flat) (h : ms.Respelled [("attributes", Attribute.Respelled)] ms') :
    ReadsBeside (flatten ms) n ↔ ReadsBeside (flatten ms') n := by
  have hflat' : ms'.Flat := h.flat rfl hflat
  have hlooks : ∀ {key}, OneSpelling key → Table.get? [("attributes", Attribute.Respelled)] key = none →
      (flatten ms).get? key = (flatten ms').get? key :=
    fun hsingle hheld => get?_flatten_congr hflat h.distinct hflat' h.distinct' (h.get?_eq hsingle hheld)
  have hid := hlooks (show OneSpelling "id" by decide) rfl
  have hlabel := hlooks (show OneSpelling "label" by decide) rfl
  have hflag : (flatten ms).given? ["isAssociationClass", "is_association_class"] =
      (flatten ms').given? ["isAssociationClass", "is_association_class"] := by
    have hkeys : ∀ key ∈ ["isAssociationClass", "is_association_class"], key ∉ ["data", "id", "label", "attributes"] := by
      decide
    rw [Members.given?_congr fun key hkey => get?_flatten_of_not_mem hflat h.distinct (hkeys key hkey),
      Members.given?_congr fun key hkey => get?_flatten_of_not_mem hflat' h.distinct' (hkeys key hkey)]
    exact h.given?_eq (p := ("isAssociationClass", "is_association_class")) (by decide) rfl rfl
  exact ⟨fun hread => hread.congr hid hlabel hflag, fun hread => hread.congr hid.symm hlabel.symm hflag.symm⟩

/-- **Respelling changes the written types of the attributes of a node at most.** -/
theorem tolerates : Tolerates read Respelled untyped Repeats := by
  have hlist := Attribute.tolerates.listField "attributes"
  refine Tolerates.objects Repeats.refl ⟨?_, ?_⟩
  · rintro ms ms' n ⟨hflat, h⟩ hread
    obtain ⟨hbeside, hattributes⟩ := (read_eq_ok_iff hflat h.distinct).1 hread
    obtain ⟨attributes, hattributes', huntyped⟩ := hlist.still (h.rel_items? (by decide) rfl) hattributes
    have hbeside' := (ReadsBeside.respelled hflat h).1 hbeside
    refine ⟨{ n with attributes := attributes }, (read_eq_ok_iff (h.flat rfl hflat) h.distinct').2
      ⟨⟨hbeside'.id, hbeside'.label, hbeside'.isAssociationClass⟩, hattributes'⟩, ?_⟩
    unfold untyped
    rw [huntyped]
  · rintro ms ms' n ⟨hflat, h⟩ hread
    obtain ⟨hbeside, hattributes⟩ := (read_eq_ok_iff (h.flat rfl hflat) h.distinct').1 hread
    have hiff := hlist.same_iff (h.rel_items? (by decide) rfl) hattributes
    rw [read_eq_ok_iff hflat h.distinct, and_iff_right ((ReadsBeside.respelled hflat h).2 hbeside)]
    exact hiff

end Node

/-! ## Edges -/

namespace Edge

/-- a flat edge with keys respelled -/
def Respelled : Json → Json → Prop := Json.ObjectsBy fun ms ms' => ms.Flat ∧ ms.Respelled [] ms'

/-- the keys of an edge that have one spelling -/
def singleKeys : List String := ["id", "source", "target", "label"]

/-- what is read of an edge of a kind, from members in one shape -/
structure Reads (ms : Members) (kind : EdgeKind) (e : Edge) : Prop where
  id : (defaultField ms ["id"] "" fun j => readText (numberText j)) = .ok e.id
  source : (requiredField ms "source" fun j => readNonempty (numberText j)) = .ok e.source
  target : (requiredField ms "target" fun j => readNonempty (numberText j)) = .ok e.target
  label : defaultField ms ["label"] none (readOptional readText) = .ok e.label
  sourceCardinality : (defaultField ms ["sourceCardinality", "source_cardinality"] none fun j =>
    readOptional readText (numberText j)) = .ok e.sourceCardinality
  targetCardinality : (defaultField ms ["targetCardinality", "target_cardinality"] none fun j =>
    readOptional readText (numberText j)) = .ok e.targetCardinality
  kind : readKind ms kind = .ok e.kind

variable {ms ms' : Members} {kind : EdgeKind} {e : Edge}

theorem readFields_eq_ok_iff : readFields ms kind = .ok e ↔ Reads ms kind e := by
  unfold readFields
  constructor
  · intro h
    obtain ⟨f₁, kind', hf₁, hkind, rfl⟩ := Checked.apply_eq_ok h
    obtain ⟨f₂, targetCardinality, hf₂, htargetCardinality, rfl⟩ := Checked.apply_eq_ok hf₁
    obtain ⟨f₃, sourceCardinality, hf₃, hsourceCardinality, rfl⟩ := Checked.apply_eq_ok hf₂
    obtain ⟨f₄, label, hf₄, hlabel, rfl⟩ := Checked.apply_eq_ok hf₃
    obtain ⟨f₅, target, hf₅, htarget, rfl⟩ := Checked.apply_eq_ok hf₄
    obtain ⟨f₆, source, hf₆, hsource, rfl⟩ := Checked.apply_eq_ok hf₅
    obtain ⟨id, hid, rfl⟩ := Checked.map_eq_ok hf₆
    exact ⟨hid, hsource, htarget, hlabel, hsourceCardinality, htargetCardinality, hkind⟩
  · intro h
    dsimp only
    rw [h.id, h.source, h.target, h.label, h.sourceCardinality, h.targetCardinality, h.kind]
    rfl

/-- an edge is read alike from members that give the same for each field -/
theorem Reads.congr (hread : Reads ms kind e) (hsingle : ∀ key ∈ singleKeys, ms.get? key = ms'.get? key)
    (hpair : ∀ p ∈ spellings, ms.given? [p.1, p.2] = ms'.given? [p.1, p.2]) : Reads ms' kind e := by
  have hone : ∀ {α : Type} {key : String} (default : α) (read : Json → Checked α), key ∈ singleKeys →
      defaultField ms [key] default read = defaultField ms' [key] default read :=
    fun default read hkey => defaultField_congr (List.forall_mem_singleton.2 (hsingle _ hkey)) default read
  have hpairs : ∀ {α : Type} {p : String × String} {default x : α} {read : Json → Checked α}, p ∈ spellings →
      defaultField ms [p.1, p.2] default read = .ok x → defaultField ms' [p.1, p.2] default read = .ok x :=
    fun hp hx => (defaultField_eq_ok_congr (hpair _ hp)).1 hx
  refine {
    id := ?_
    source := ?_
    target := ?_
    label := ?_
    sourceCardinality := hpairs (p := ("sourceCardinality", "source_cardinality")) (by decide) hread.sourceCardinality
    targetCardinality := hpairs (p := ("targetCardinality", "target_cardinality")) (by decide) hread.targetCardinality
    kind := ?_ }
  · rw [← hone _ _ (by decide)]
    exact hread.id
  · rw [← requiredField_congr (hsingle _ (by decide))]
    exact hread.source
  · rw [← requiredField_congr (hsingle _ (by decide))]
    exact hread.target
  · rw [← hone _ _ (by decide)]
    exact hread.label
  · have hkind := hread.kind
    cases kind with
    | association c =>
      obtain ⟨classId, hclass, hmade⟩ := Checked.map_eq_ok hkind
      have hclass' := hpairs (p := ("associationClassId", "association_class_id")) (by decide) hclass
      dsimp only at hclass'
      rw [readKind, hclass', ← hmade]
      rfl
    | _ => exact hkind

theorem kindTag_congr (hflat : ms.Flat) (hflat' : ms'.Flat) (hkind : ms.get? "kind" = ms'.get? "kind")
    (htype : ms.get? "type" = ms'.get? "type") : kindTag ms = kindTag ms' := by
  unfold kindTag
  rw [hflat.innerData_eq, hflat'.innerData_eq, hkind, htype]

/-- of flat members only the kind and the id are brought into shape -/
theorem get?_flatten (hflat : ms.Flat) (hdistinct : (ms.map Prod.fst).Nodup) {key : String}
    (hkey : key ∉ ["data", "type", "kind"]) : (flatten ms).get? key = Members.get? (orElseMember ms "id" (.str "")) key := by
  simp only [List.mem_cons, List.not_mem_nil, or_false, not_or] at hkey
  obtain ⟨hdata, htype, hkind⟩ := hkey
  have hinner : (Members.get? (innerData ms) "associationClass").getD .null = .null := by rw [hflat.innerData_eq]; rfl
  unfold flatten
  dsimp only
  rw [hinner, show Json.null.truthy = false from rfl, Bool.and_false, if_neg Bool.false_ne_true]
  refine Members.get?_orElseMember_congr ?_ _ _
  rw [Members.get?_set_of_ne _ _ (Ne.symm hkind), Members.get?_top hflat hdistinct, if_neg (by simp [hdata, htype])]

theorem read_eq_ok_iff :
    read (.obj ms) = .ok e ↔ ∃ kind, EdgeKind.ofTag? (kindTag ms) = some kind ∧ Reads (flatten ms) kind e := by
  unfold read
  dsimp only
  cases EdgeKind.ofTag? (kindTag ms) with
  | none => exact iff_of_false nofun nofun
  | some kind =>
    dsimp only
    rw [Checked.under_eq_ok_iff, readFields_eq_ok_iff]
    simp

/-- the fields of a flat edge are given alike with keys respelled -/
theorem flatten_respelled (hflat : ms.Flat) (h : ms.Respelled [] ms') :
    (∀ key ∈ singleKeys, (flatten ms).get? key = (flatten ms').get? key) ∧
      ∀ p ∈ spellings, (flatten ms).given? [p.1, p.2] = (flatten ms').given? [p.1, p.2] := by
  have hflat' : ms'.Flat := h.flat rfl hflat
  have hshape : (∀ key ∈ singleKeys, OneSpelling key ∧ key ∉ ["data", "type", "kind"]) ∧
      ∀ p ∈ spellings, ∀ key ∈ [p.1, p.2], key ∉ ["data", "type", "kind"] ∧ "id" ≠ key := by decide
  have hpair : ∀ {n : Members}, n.Flat → (n.map Prod.fst).Nodup → ∀ p ∈ spellings,
      (flatten n).given? [p.1, p.2] = n.given? [p.1, p.2] := by
    intro n hn hdistinct p hp
    refine Members.given?_congr fun key hkey => ?_
    obtain ⟨hmem, hid⟩ := hshape.2 p hp key hkey
    rw [get?_flatten hn hdistinct hmem, Members.get?_orElseMember_of_ne hid]
  refine ⟨fun key hkey => ?_, fun p hp => ?_⟩
  · obtain ⟨hsingle, hmem⟩ := hshape.1 key hkey
    rw [get?_flatten hflat h.distinct hmem, get?_flatten hflat' h.distinct' hmem]
    exact Members.get?_orElseMember_congr (h.get?_eq hsingle rfl) _ _
  · rw [hpair hflat h.distinct p hp, hpair hflat' h.distinct' p hp, h.given?_eq hp rfl rfl]

theorem read_respelled_iff (hflat : ms.Flat) (h : ms.Respelled [] ms') :
    read (.obj ms) = .ok e ↔ read (.obj ms') = .ok e := by
  have htag : kindTag ms = kindTag ms' :=
    kindTag_congr hflat (h.flat rfl hflat) (h.get?_eq (by decide) rfl) (h.get?_eq (by decide) rfl)
  obtain ⟨hsingle, hpair⟩ := flatten_respelled hflat h
  rw [read_eq_ok_iff, read_eq_ok_iff, htag]
  exact exists_congr fun kind => and_congr_right fun _ => ⟨fun hread => hread.congr hsingle hpair,
    fun hread => hread.congr (fun key hkey => (hsingle key hkey).symm) fun p hp => (hpair p hp).symm⟩

/-- **Respelling changes nothing about an edge.** -/
theorem tolerates : Tolerates read Respelled (fun e => e) Respelled := by
  refine Tolerates.objects .same ⟨?_, ?_⟩
  · rintro ms ms' e ⟨hflat, h⟩ hread
    exact ⟨e, (read_respelled_iff hflat h).1 hread, rfl⟩
  · rintro ms ms' e ⟨hflat, h⟩ hread
    exact iff_of_true ((read_respelled_iff hflat h).2 hread) (.objects ⟨hflat, h⟩)

end Edge

/-! ## Diagrams -/

namespace Diagram

/-- the diagram without the written types of attributes -/
def untyped (d : Diagram) : Diagram := { d with nodes := d.nodes.map Node.untyped }

/-- a payload with keys respelled in any of its nodes, attributes and edges -/
def Respelled : Json → Json → Prop :=
  Json.ObjectsBy (Members.Respelled [("nodes", Node.Respelled), ("edges", Edge.Respelled)])

/-- every written type that is no longer under its first name only repeats the type -/
def Repeats (j j' : Json) : Prop := List.Forall₂ Node.Repeats (j.itemsAt "nodes") (j'.itemsAt "nodes")

variable {ms ms' : Members} {d : Diagram}

theorem readFields_eq_ok_iff_lists : readFields ms = .ok d ↔ listField ms "nodes" Node.read = .ok d.nodes ∧
    listField ms "edges" Edge.read = .ok d.edges ∧ d.metadata = (ms.get? "metadata").getD .null := by
  rw [readFields_eq_ok_iff, listField_eq_ok_iff, listField_eq_ok_iff]

/-- an object loads as a diagram whose nodes have distinct ids -/
theorem read_eq_ok_iff_nodup : read (.obj ms) = .ok d ↔ readFields ms = .ok d ∧ (d.nodes.map Node.id).Nodup := by
  rw [read_eq_ok_iff]
  exact and_congr_right fun hfields => (nodup_ids_iff hfields).symm

theorem ids_of_untyped {nodes nodes' : List Node} (h : nodes.map Node.untyped = nodes'.map Node.untyped) :
    nodes.map Node.id = nodes'.map Node.id := by
  have hid : ∀ ns : List Node, ns.map Node.id = (ns.map Node.untyped).map Node.id := by
    intro ns
    rw [List.map_map]
    rfl
  rw [hid nodes, hid nodes', h]

/-- **Respelling changes the written types of a diagram at most.** -/
theorem tolerates : Tolerates read Respelled untyped Repeats := by
  have hnodeList := Node.tolerates.listField "nodes"
  have hedgeList := Edge.tolerates.listField "edges"
  refine Tolerates.objects (fun j => List.forall₂_same.2 fun n _ => Node.Repeats.refl n) ⟨?_, ?_⟩
  · intro ms ms' d h hread
    obtain ⟨hfields, hids⟩ := read_eq_ok_iff_nodup.1 hread
    obtain ⟨hnodes, hedges, hmetadata⟩ := readFields_eq_ok_iff_lists.1 hfields
    obtain ⟨nodes, hnodes', huntyped⟩ := hnodeList.still (h.rel_items? (by decide) rfl) hnodes
    obtain ⟨edges, hedges', hsame⟩ := hedgeList.still (h.rel_items? (by decide) rfl) hedges
    rw [List.map_id', List.map_id'] at hsame
    subst hsame
    rw [h.get?_eq (show OneSpelling "metadata" by decide) rfl] at hmetadata
    refine ⟨⟨nodes, d.edges, d.metadata⟩,
      read_eq_ok_iff_nodup.2 ⟨readFields_eq_ok_iff_lists.2 ⟨hnodes', hedges', hmetadata⟩, ?_⟩, ?_⟩
    · rwa [ids_of_untyped huntyped]
    · unfold untyped
      rw [huntyped]
  · intro ms ms' d h hread
    obtain ⟨hfields, hids⟩ := read_eq_ok_iff_nodup.1 hread
    obtain ⟨hnodes, hedges, hmetadata⟩ := readFields_eq_ok_iff_lists.1 hfields
    have hnodesIff := hnodeList.same_iff (h.rel_items? (by decide) rfl) hnodes
    have hrelated := h.rel_items? (show OneSpelling "edges" by decide) rfl
    have hedges' := (hedgeList.same_iff hrelated hedges).2 (Json.forall₂_itemsAt hrelated)
    rw [← h.get?_eq (show OneSpelling "metadata" by decide) rfl] at hmetadata
    rw [read_eq_ok_iff_nodup, and_iff_left hids, readFields_eq_ok_iff_lists, and_iff_left ⟨hedges', hmetadata⟩]
    exact hnodesIff

end Diagram

/-- **When keys are interchangeable.** A flat payload that loads still loads with any of its keys in their other spelling,
and as the same diagram but for the written types of attributes. The two payloads load as the same diagrams, or not at all,
exactly when the respelled one does not load or every written type that was respelled only repeats the type beside it. -/
theorem spellings_interchangeable (j j' : Json) (h : Diagram.Respelled j j') :
    (∀ d, loadDiagram j = .ok d → ∃ d', loadDiagram j' = .ok d' ∧ d'.untyped = d.untyped) ∧
    ((∀ d, loadDiagram j' = .ok d ↔ loadDiagram j = .ok d) ↔
      ((∃ d, loadDiagram j' = .ok d) → Diagram.Repeats j j')) := by
  simp only [loadDiagram_eq_ok_iff]
  refine ⟨fun d => Diagram.tolerates.still h, fun hsame => ?_, fun hrepeats d => ?_⟩
  · rintro ⟨d, hd⟩
    exact (Diagram.tolerates.same_iff h hd).1 ((hsame d).1 hd)
  · constructor
    · intro hd
      exact (Diagram.tolerates.same_iff h hd).2 (hrepeats ⟨d, hd⟩)
    · intro hd
      obtain ⟨d', hd', -⟩ := Diagram.tolerates.still h hd
      have hsame := (Diagram.tolerates.same_iff h hd').2 (hrepeats ⟨d', hd'⟩)
      rw [hd] at hsame
      rwa [Except.ok.inj hsame]

/-- a product with a price of the type `double`, and what is given as its written type -/
def product (key : String) (v : Json) : Json :=
  .obj [("id", .str "p"), ("label", .str "Product"),
    ("attributes", .arr [.obj [("name", .str "price"), ("type", .str "double"), (key, v)]])]

def line (key : String) : Json := .obj [("id", .str "l"), ("label", .str "Line"), (key, .bool true)]

/-- the product on many lines of one order -/
def buys (spell : String → String) : Json :=
  .obj [("source", .str "o"), ("target", .str "p"), (spell "sourceCardinality", .str "1"),
    (spell "targetCardinality", .str "*"), (spell "associationClassId", .str "l")]

/-- orders for products, with each key spelled in one way or the other -/
def catalog (spell : String → String) : Json :=
  .obj [("nodes", .arr [.obj [("id", .str "o"), ("label", .str "Order")], product (spell "rawType") (.str "double"),
    line (spell "isAssociationClass")]), ("edges", .arr [buys spell])]

theorem respelled_product (chosen : String → Bool) (v : Json) :
    Node.Respelled (product "rawType" v) (product (respelledKey chosen "rawType") v) := by
  have hattribute : Attribute.Respelled (.obj [("name", .str "price"), ("type", .str "double"), ("rawType", v)])
      (.obj [("name", .str "price"), ("type", .str "double"), (respelledKey chosen "rawType", v)]) :=
    .objects ⟨by simp, by simp [Members.SpelledOnce, spellings, Members.get?], chosen,
      .cons ⟨rfl, rfl⟩ (.cons ⟨rfl, rfl⟩ (.cons ⟨rfl, rfl⟩ .nil))⟩
  have hattributes := Json.ListsBy.lists (.cons hattribute .nil)
  exact .objects ⟨.of_none rfl, by simp, by simp [Members.SpelledOnce, spellings, Members.get?], chosen,
    .cons ⟨rfl, rfl⟩ (.cons ⟨rfl, rfl⟩ (.cons ⟨rfl, hattributes⟩ .nil))⟩

/-- each key of it may be spelled in either way -/
theorem respelled_catalog (chosen : String → Bool) :
    Diagram.Respelled (catalog fun key => key) (catalog (respelledKey chosen)) := by
  have hline : Node.Respelled (line "isAssociationClass") (line (respelledKey chosen "isAssociationClass")) :=
    .objects ⟨.of_none rfl, by decide, by decide, chosen, .cons ⟨rfl, rfl⟩ (.cons ⟨rfl, rfl⟩ (.cons ⟨rfl, rfl⟩ .nil))⟩
  have hbuys : Edge.Respelled (buys fun key => key) (buys (respelledKey chosen)) :=
    .objects ⟨.of_none rfl, by decide, by decide, chosen, .cons ⟨rfl, rfl⟩ (.cons ⟨rfl, rfl⟩ (.cons ⟨rfl, rfl⟩
      (.cons ⟨rfl, rfl⟩ (.cons ⟨rfl, rfl⟩ .nil))))⟩
  have horder : Node.Respelled (.obj [("id", .str "o"), ("label", .str "Order")]) _ := .same _
  have hnodes := Json.ListsBy.lists (.cons horder (.cons (respelled_product chosen (.str "double")) (.cons hline .nil)))
  have hedges := Json.ListsBy.lists (.cons hbuys .nil)
  exact .objects ⟨by decide, by decide, chosen, .cons ⟨rfl, hnodes⟩ (.cons ⟨rfl, hedges⟩ .nil)⟩

/-- with all five keys respelled, the same diagram is loaded -/
theorem catalog_loads_alike : Diagram.Respelled (catalog fun key => key) (catalog (respelledKey fun _ => true)) ∧
    ∃ d, loadDiagram (catalog fun key => key) = .ok d ∧ loadDiagram (catalog (respelledKey fun _ => true)) = .ok d := by
  have hrespelled := respelled_catalog fun _ => true
  obtain ⟨-, hsame⟩ := spellings_interchangeable _ _ hrespelled
  have hrepeats : Diagram.Repeats (catalog fun key => key) (catalog (respelledKey fun _ => true)) := by
    refine .cons .nil (.cons (.cons ?_ .nil) (.cons .nil .nil))
    rintro v ⟨⟩ -
    rfl
  exact ⟨hrespelled, _, rfl, (hsame.2 (fun _ => hrepeats) _).2 rfl⟩

def stored (key : String) (v : Json) : Json := .obj [("nodes", .arr [product key v])]

def Diagram.rawTypes (d : Diagram) : List String := d.nodes.flatMap fun n => n.attributes.map Attribute.rawType

/-- **A written type that is lost.** Under the first name the written type is `BigDecimal`, under the second it is `double`;
and a number there is refused under the first name, and not looked at under the second. -/
theorem renamed_type_lost : (∀ v, Diagram.Respelled (stored "rawType" v) (stored "raw_type" v)) ∧
    (∃ d, loadDiagram (stored "rawType" (.str "BigDecimal")) = .ok d ∧ d.rawTypes = ["BigDecimal"]) ∧
    (∃ d, loadDiagram (stored "raw_type" (.str "BigDecimal")) = .ok d ∧ d.rawTypes = ["double"]) ∧
    (∃ f, loadDiagram (stored "rawType" (.int 5)) = .error f) ∧
    ∃ d, loadDiagram (stored "raw_type" (.int 5)) = .ok d ∧ d.rawTypes = ["double"] := by
  refine ⟨fun v => ?_, ⟨_, rfl, rfl⟩, ⟨_, rfl, rfl⟩, ⟨_, rfl⟩, _, rfl, rfl⟩
  have hnodes := Json.ListsBy.lists (.cons (respelled_product (fun _ => true) v) .nil)
  exact .objects ⟨by simp, by simp [Members.SpelledOnce, spellings, Members.get?], fun _ => true, .cons ⟨rfl, hnodes⟩ .nil⟩

end Classwright
