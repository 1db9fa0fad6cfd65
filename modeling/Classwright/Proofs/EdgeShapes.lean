/-
One edge in two shapes.

An edge can be written flat, with all its fields at the top, or as an editor keeps it, with kind, label, cardinalities and
association class in its data. Either shape is brought into the same fields before these are checked, so both are refused
with the same problems or give the same edge. One value is taken differently: an association class given by the number
zero counts as absent in the data, and as the id it is at the top.

- `Drawing`: the values of an edge; `Drawing.flat`, `Drawing.nested`: the edge in either shape;
- `flatten_flat`, `flatten_nested`: what both come to;
- `Edge.readOthers_congr`: the check of an edge looks at a fixed set of members;
- `Drawing.LosesClass`: an association whose class is the number zero; `read_eq`, `read_of_losesClass`: what becomes of it;
- `Diagram.read_congr_edges`: a diagram depends on its edges only through what each is read as;
- `shapes_read_alike`: the shapes are read alike exactly when nothing is lost, in any diagram; `zero_class_lost`: a zero.
-/
import Classwright.Proofs.Rereading

namespace Classwright

/-! ## The members of an edge that are looked at -/

namespace Edge

/-- the members that the check of an edge looks at, its association class aside -/
def lookedAt : List String :=
  ["id", "source", "target", "label", "sourceCardinality", "source_cardinality", "targetCardinality", "target_cardinality"]

theorem findField_congr {ms ms' : Members} {spellings : List String} (h : ∀ key ∈ spellings, ms.get? key = ms'.get? key) :
    findField ms spellings = findField ms' spellings := by
  unfold findField
  induction spellings with
  | nil => rfl
  | cons key rest ih =>
    rw [List.findSome?_cons, List.findSome?_cons, h key List.mem_cons_self,
      ih fun k hk => h k (List.mem_cons_of_mem key hk)]

theorem defaultField_congr {α : Type} {ms ms' : Members} {spellings : List String}
    (h : ∀ key ∈ spellings, ms.get? key = ms'.get? key) (default : α) (read : Json → Checked α) :
    defaultField ms spellings default read = defaultField ms' spellings default read := by
  unfold defaultField
  rw [findField_congr h]

theorem requiredField_congr {α : Type} {ms ms' : Members} {key : String} (h : ms.get? key = ms'.get? key)
    (read : Json → Checked α) : requiredField ms key read = requiredField ms' key read := by
  unfold requiredField
  rw [h]

/-- all fields but the kind -/
def readOthers (ms : Members) : Checked (EdgeKind → Edge) :=
  let make := fun id source target label sourceCardinality targetCardinality kind =>
    (⟨id, source, target, label, sourceCardinality, targetCardinality, kind⟩ : Edge)
  let cardinality := fun (j : Json) => readOptional readText (numberText j)
  (((((Checked.map make (defaultField ms ["id"] "" fun j => readText (numberText j))).apply
    (requiredField ms "source" fun j => readNonempty (numberText j))).apply
    (requiredField ms "target" fun j => readNonempty (numberText j))).apply
    (defaultField ms ["label"] none (readOptional readText))).apply
    (defaultField ms ["sourceCardinality", "source_cardinality"] none cardinality)).apply
    (defaultField ms ["targetCardinality", "target_cardinality"] none cardinality)

theorem readFields_eq (ms : Members) (kind : EdgeKind) : readFields ms kind = (readOthers ms).apply (readKind ms kind) := rfl

/-- members that agree where the check looks are checked alike -/
theorem readOthers_congr {ms ms' : Members} (h : ∀ key ∈ lookedAt, ms.get? key = ms'.get? key) :
    readOthers ms = readOthers ms' := by
  have hdefault : ∀ {α : Type} (spellings : List String) (default : α) (read : Json → Checked α),
      spellings ⊆ lookedAt → defaultField ms spellings default read = defaultField ms' spellings default read :=
    fun spellings default read hsub => defaultField_congr (fun key hkey => h key (hsub hkey)) default read
  have hrequired : ∀ {α : Type} (key : String) (read : Json → Checked α),
      key ∈ lookedAt → requiredField ms key read = requiredField ms' key read :=
    fun key read hkey => requiredField_congr (h key hkey) read
  unfold readOthers
  dsimp only
  rw [hdefault ["id"] _ _ (by decide), hrequired "source" _ (by decide), hrequired "target" _ (by decide),
    hdefault ["label"] _ _ (by decide), hdefault ["sourceCardinality", "source_cardinality"] _ _ (by decide),
    hdefault ["targetCardinality", "target_cardinality"] _ _ (by decide)]

/-- the kind of an edge is the one that was read for it -/
theorem kind_of_readOthers {ms : Members} {make : EdgeKind → Edge} (h : readOthers ms = .ok make) (kind : EdgeKind) :
    (make kind).kind = kind := by
  obtain ⟨f₁, targetCardinality, hf₁, -, rfl⟩ := Checked.apply_eq_ok h
  obtain ⟨f₂, sourceCardinality, hf₂, -, rfl⟩ := Checked.apply_eq_ok hf₁
  obtain ⟨f₃, label, hf₃, -, rfl⟩ := Checked.apply_eq_ok hf₂
  obtain ⟨f₄, target, hf₄, -, rfl⟩ := Checked.apply_eq_ok hf₃
  obtain ⟨f₅, source, hf₅, -, rfl⟩ := Checked.apply_eq_ok hf₄
  obtain ⟨id, -, rfl⟩ := Checked.map_eq_ok hf₅
  rfl

theorem kind_of_readFields {ms : Members} {kind : EdgeKind} {e : Edge} (h : readFields ms kind = .ok e) :
    readKind ms kind = .ok e.kind := by
  obtain ⟨make, k, hmake, hk, rfl⟩ := Checked.apply_eq_ok h
  rw [hk, kind_of_readOthers hmake]

end Edge

theorem orElseMember_append {before after : Members} {key : String} {j other : Json} (h : before.get? key = none) :
    orElseMember (before ++ (key, j) :: after) key other =
      before ++ (key, if j.isNull then other else j) :: after := by
  have hget : Members.get? (before ++ (key, j) :: after) key = some j := by
    rw [Members.get?_eq_table] at h ⊢
    simp [Table.get?_append, h, Table.get?]
  have hset : Members.set (before ++ (key, j) :: after) key other = before ++ (key, other) :: after := by
    rw [Members.set_eq_table, Table.set_append_of_not_mem (Members.get?_eq_none_iff.1 h)]
    simp [Table.set]
  unfold orElseMember
  rw [hget]
  cases j <;> simp [Json.isNull, hset]

def Json.isNumber : Json → Bool
  | .int _ | .real _ => true
  | _ => false

/-! ## The two shapes -/

/-- the values of an edge, which may be anything -/
structure Drawing where
  id : Json
  source : Json
  target : Json
  kind : Json
  label : Json
  sourceCardinality : Json
  targetCardinality : Json
  classId : Json

namespace Drawing

variable (w : Drawing)

/-- all fields at the top -/
def flatMembers : Members :=
  [("id", w.id), ("source", w.source), ("target", w.target), ("kind", w.kind), ("label", w.label),
    ("sourceCardinality", w.sourceCardinality), ("targetCardinality", w.targetCardinality), ("associationClassId", w.classId)]

def inner : Members :=
  [("type", w.kind), ("label", w.label), ("sourceCardinality", w.sourceCardinality),
    ("targetCardinality", w.targetCardinality), ("associationClass", w.classId)]

/-- all that an editor keeps in the data there -/
def nestedMembers : Members := [("id", w.id), ("source", w.source), ("target", w.target), ("data", .obj w.inner)]

def flat : Json := .obj w.flatMembers

def nested : Json := .obj w.nestedMembers

/-- the tag that the kind stands for, an absent kind being an association -/
def tag : String := if w.kind.truthy then EdgeKind.normalTag w.kind.display else (EdgeKind.association none).tag

theorem kindTag_flat : Edge.kindTag w.flatMembers = w.tag := by
  have hunknown : Text.lower (Text.strip (presentText .null)) ∉ Edge.knownTags := by decide
  unfold Edge.kindTag tag
  simp [flatMembers, Members.get?, innerData, hunknown, show Json.null.truthy = false from rfl]

theorem kindTag_nested : Edge.kindTag w.nestedMembers = w.tag := by
  have hunknown : Text.lower (Text.strip (presentText .null)) ∉ Edge.knownTags := by decide
  unfold Edge.kindTag tag
  simp [nestedMembers, inner, Members.get?, innerData, hunknown, show Json.null.truthy = false from rfl]

/-- the id, an absent one being empty -/
def givenId : Json := if w.id.isNull then .str "" else w.id

/-- the members behind the id in the flat shape -/
def flatRest : Members :=
  [("source", w.source), ("target", w.target), ("kind", .str w.tag), ("label", w.label),
    ("sourceCardinality", w.sourceCardinality), ("targetCardinality", w.targetCardinality), ("associationClassId", w.classId)]

theorem flatten_flat : Edge.flatten w.flatMembers = ("id", w.givenId) :: w.flatRest := by
  have hid : orElseMember (("id", w.id) :: w.flatRest) "id" (.str "") = ("id", w.givenId) :: w.flatRest :=
    @orElseMember_append [] w.flatRest "id" w.id (.str "") rfl
  unfold flatRest at hid ⊢
  simp only [Edge.flatten, kindTag_flat]
  simp [flatMembers, innerData, Members.get?, pick_nil, without, Members.update, Members.set, hid, Members.has]

/-- the members in the data of the nested shape that the reader takes out, with those at the top -/
def nestedRest : Members :=
  [("label", w.label), ("sourceCardinality", w.sourceCardinality), ("targetCardinality", w.targetCardinality)]

theorem flatten_nested : Edge.flatten w.nestedMembers =
    w.nestedRest ++ ("id", w.givenId) :: ("source", w.source) :: ("target", w.target) :: ("kind", .str w.tag) ::
      if w.classId.truthy then [("associationClassId", w.classId)] else [] := by
  have hinner : innerData w.nestedMembers = w.inner := by simp [innerData, nestedMembers, Members.get?]
  have hpick : pick w.inner ["label", "sourceCardinality", "targetCardinality"] = w.nestedRest := by
    rfl
  have hwithout : without w.nestedMembers ["data", "type"] =
      [("id", w.id), ("source", w.source), ("target", w.target)] := by
    simp [without, nestedMembers]
  have hupdate : Members.update w.nestedRest [("id", w.id), ("source", w.source), ("target", w.target)] =
      w.nestedRest ++ [("id", w.id), ("source", w.source), ("target", w.target)] :=
    Members.update_eq_append _ (by simp [nestedRest])
  have hkind : Members.set (w.nestedRest ++ [("id", w.id), ("source", w.source), ("target", w.target)]) "kind" (.str w.tag) =
      w.nestedRest ++ ("id", w.id) :: [("source", w.source), ("target", w.target), ("kind", .str w.tag)] := by
    rw [Members.set_of_not_mem (by simp [nestedRest]), List.append_assoc]
    rfl
  have hclass : w.inner.get? "associationClass" = some w.classId := by simp [inner, Members.get?]
  have hid : orElseMember (w.nestedRest ++ ("id", w.id) :: [("source", w.source), ("target", w.target), ("kind", .str w.tag)])
      "id" (.str "") = w.nestedRest ++ ("id", w.givenId) :: [("source", w.source), ("target", w.target), ("kind", .str w.tag)] :=
    orElseMember_append rfl
  unfold Edge.flatten
  simp only [hinner, hpick, hwithout, hupdate, kindTag_nested, hkind, hclass, Option.getD_some, hid]
  cases w.classId.truthy
  · simp
  · simp [nestedRest, Members.has, Members.get?, Members.set]

/-- both shapes have the same fields, but for the association class -/
theorem get?_flatten {key : String} (h : key ∈ Edge.lookedAt) :
    (Edge.flatten w.flatMembers).get? key = (Edge.flatten w.nestedMembers).get? key := by
  rw [flatten_flat, flatten_nested]
  simp only [Edge.lookedAt, List.mem_cons, List.not_mem_nil, or_false] at h
  rcases h with rfl | rfl | rfl | rfl | rfl | rfl | rfl | rfl <;> cases w.classId.truthy <;> rfl

theorem readOthers_eq :
    Edge.readOthers (Edge.flatten w.flatMembers) = Edge.readOthers (Edge.flatten w.nestedMembers) :=
  Edge.readOthers_congr fun _ => w.get?_flatten

end Drawing

/-! ## The association class -/

theorem Binary64.shortestText_ne_empty (x : Binary64) : x.shortestText ≠ "" := by
  have hlayout : ∀ digits exponent, layout digits exponent ≠ "" := by
    intro digits exponent
    simp only [layout]
    split_ifs
    · split <;> simp
    all_goals simp
  unfold shortestText
  split <;> simp [hlayout]

theorem Json.display_ne_empty {j : Json} (h : j.isNumber = true) : j.display ≠ "" := by
  cases j with
  | int n =>
    simp only [display, literal]
    cases n with
    | ofNat m => exact Nat.repr_ne_empty
    | negSucc m => simp [Int.repr]
  | real x =>
    simp only [display, literal]
    exact x.shortestText_ne_empty
  | _ => cases h

namespace Edge

/-- a number is an id, whatever its value -/
theorem readClassId_of_isNumber {j : Json} (h : j.isNumber = true) : readClassId j = .ok (some j.display) := by
  have hthere : (Json.str j.display).truthy = true := by simp [Json.truthy, Json.display_ne_empty h]
  have htext : numberText j = .str j.display := by
    cases j with
    | int n => rfl
    | real x => rfl
    | _ => cases h
  unfold readClassId
  rw [htext]
  exact if_pos hthere

theorem readClassId_of_absent {j : Json} (hnumber : j.isNumber = false) (h : j.truthy = false) :
    readClassId j = .ok none := by
  have hsame : numberText j = j := by
    cases j with
    | int n => cases hnumber
    | real x => cases hnumber
    | _ => rfl
  unfold readClassId
  rw [hsame]
  simp [h]

end Edge

namespace Drawing

variable (w : Drawing)

theorem readKind_flat (c : Option String) : Edge.readKind (Edge.flatten w.flatMembers) (.association c) =
    Checked.map .association ((Edge.readClassId w.classId).under "associationClassId") := by
  rw [flatten_flat]
  rfl

theorem readKind_nested (c : Option String) : Edge.readKind (Edge.flatten w.nestedMembers) (.association c) =
    if w.classId.truthy then Checked.map .association ((Edge.readClassId w.classId).under "associationClassId")
    else .ok (.association none) := by
  rw [flatten_nested]
  cases w.classId.truthy <;> rfl

/-- a class id that is no zero is read alike in both shapes, whatever the kind of the edge -/
theorem readKind_eq (h : w.classId.isNumber = true → w.classId.truthy = true) (kind : EdgeKind) :
    Edge.readKind (Edge.flatten w.flatMembers) kind = Edge.readKind (Edge.flatten w.nestedMembers) kind := by
  cases kind with
  | association c =>
    rw [readKind_flat, readKind_nested]
    cases hthere : w.classId.truthy with
    | true => rfl
    | false =>
      have hnumber : w.classId.isNumber = false := by
        rw [← Bool.not_eq_true]
        intro hnumber
        rw [h hnumber] at hthere
        cases hthere
      rw [Edge.readClassId_of_absent hnumber hthere]
      rfl
  | _ => simp only [Edge.readKind]

/-- an association that is read from the nested shape and whose class is given by the number zero -/
def LosesClass : Prop :=
  w.classId.isNumber = true ∧ w.classId.truthy = false ∧ ∃ e, Edge.read w.nested = .ok e ∧ e.kind = .association none

theorem read_flat : Edge.read w.flat = match EdgeKind.ofTag? w.tag with
    | some kind => Checked.under kind.tag (Edge.readFields (Edge.flatten w.flatMembers) kind)
    | none => .fail (.unknownTag w.tag) := by
  rw [← w.kindTag_flat]
  rfl

theorem read_nested : Edge.read w.nested = match EdgeKind.ofTag? w.tag with
    | some kind => Checked.under kind.tag (Edge.readFields (Edge.flatten w.nestedMembers) kind)
    | none => .fail (.unknownTag w.tag) := by
  rw [← w.kindTag_nested]
  rfl

/-- the association class of the flat shape is the number that was given -/
theorem classId_of_flat (h : w.classId.isNumber = true) {e : Edge} (he : Edge.read w.flat = .ok e) {c : Option String}
    (hkind : e.kind = .association c) : c = some w.classId.display := by
  rw [read_flat] at he
  split at he
  · next kind _ =>
    have hread := Edge.kind_of_readFields (Checked.under_eq_ok_iff.1 he)
    rw [hkind] at hread
    cases kind with
    | association c' =>
      rw [readKind_flat, Edge.readClassId_of_isNumber h] at hread
      cases hread
      rfl
    | _ => cases hread
  · cases he

/-- without a loss both shapes are read alike -/
theorem read_eq (h : ¬ w.LosesClass) : Edge.read w.flat = Edge.read w.nested := by
  rw [read_flat, read_nested]
  cases htag : EdgeKind.ofTag? w.tag with
  | none => rfl
  | some kind =>
    dsimp only
    rw [Edge.readFields_eq, Edge.readFields_eq, readOthers_eq]
    by_cases hzero : w.classId.isNumber = true ∧ w.classId.truthy = false
    · obtain ⟨hnumber, hthere⟩ := hzero
      cases kind with
      | association c =>
        have hflat : Edge.readKind (Edge.flatten w.flatMembers) (.association c) =
            .ok (.association (some w.classId.display)) := by
          rw [readKind_flat, Edge.readClassId_of_isNumber hnumber]
          rfl
        have hnested : Edge.readKind (Edge.flatten w.nestedMembers) (.association c) = .ok (.association none) := by
          rw [readKind_nested, hthere]
          rfl
        rw [hflat, hnested]
        -- both have a class id that can be read, so an edge without a loss is refused for its other fields
        cases hothers : Edge.readOthers (Edge.flatten w.nestedMembers) with
        | error ps => rfl
        | ok make =>
          refine absurd ⟨hnumber, hthere, make (.association none), ?_, Edge.kind_of_readOthers hothers _⟩ h
          rw [read_nested, htag]
          dsimp only
          rw [Edge.readFields_eq, hothers, hnested]
          rfl
      | _ => simp only [Edge.readKind]
    · rw [readKind_eq w fun hnumber => by simpa [hnumber] using hzero]

/-- a class that the nested shape loses is there in the flat one; nothing else differs -/
theorem read_of_losesClass (h : w.LosesClass) : ∃ make : EdgeKind → Edge,
    Edge.read w.flat = .ok (make (.association (some w.classId.display))) ∧
      Edge.read w.nested = .ok (make (.association none)) ∧ ∀ kind, (make kind).kind = kind := by
  obtain ⟨hnumber, hthere, e, hread, hkind⟩ := h
  rw [read_nested] at hread
  rw [read_flat, read_nested]
  cases htag : EdgeKind.ofTag? w.tag with
  | none =>
    rw [htag] at hread
    cases hread
  | some kind =>
    rw [htag] at hread
    have hfields := Checked.under_eq_ok_iff.1 hread
    rw [Edge.readFields_eq] at hfields
    obtain ⟨make, k, hmake, hk, hmade⟩ := Checked.apply_eq_ok hfields
    have hkind_k : k = .association none := by rw [← hkind, ← hmade, Edge.kind_of_readOthers hmake]
    have hmake_flat : Edge.readOthers (Edge.flatten w.flatMembers) = .ok make := w.readOthers_eq.trans hmake
    refine ⟨make, ?_, ?_, Edge.kind_of_readOthers hmake⟩
    · cases kind with
      | association c =>
        dsimp only
        rw [Edge.readFields_eq, hmake_flat, readKind_flat, Edge.readClassId_of_isNumber hnumber]
        rfl
      | _ =>
        simp only [Edge.readKind] at hk
        obtain rfl := Except.ok.inj hk
        cases hkind_k
    · dsimp only
      rw [Edge.readFields_eq, hmake, hk, hkind_k]
      rfl

/-- the class that a number gives is kept in the nested shape, a zero aside -/
theorem classId_of_nested (h : w.classId.isNumber = true) (hthere : w.classId.truthy = true) {e : Edge}
    (he : Edge.read w.nested = .ok e) {c : Option String} (hkind : e.kind = .association c) :
    c = some w.classId.display := by
  have hkept : ¬ w.LosesClass := fun hlost => by
    rw [hlost.2.1] at hthere
    cases hthere
  exact w.classId_of_flat h ((w.read_eq hkept).trans he) hkind

end Drawing

/-! ## Diagrams -/

/-- a list of items depends on what each is read as only -/
theorem Checked.listFrom_congr {α : Type} {check : Json → Checked α} {items items' : List Json}
    (h : items.map check = items'.map check) (start : Nat) : listFrom check start items = listFrom check start items' := by
  induction items generalizing items' start with
  | nil => rw [List.map_eq_nil_iff.1 (h.symm.trans List.map_nil)]
  | cons j rest ih =>
    obtain ⟨j', rest', rfl, hj, hrest⟩ := List.map_eq_cons_iff.1 (h.symm.trans List.map_cons)
    rw [listFrom, listFrom, hj, ih hrest.symm]

namespace Diagram

theorem listField_set_of_ne {α : Type} {ms : Members} {key other : String} (value : Json) (h : key ≠ other)
    (read : Json → Checked α) : listField (ms.set key value) other read = listField ms other read := by
  unfold listField
  rw [Members.get?_set_of_ne ms value h]

/-- edges that are read alike give the same diagram, or the same problems -/
theorem read_congr_edges {items items' : List Json} (h : items.map Edge.read = items'.map Edge.read) (ms : Members) :
    read (.obj (ms.set "edges" (.arr items))) = read (.obj (ms.set "edges" (.arr items'))) := by
  have hedges : ∀ items, listField (ms.set "edges" (.arr items)) "edges" Edge.read =
      (Checked.listFrom Edge.read 0 items).under "edges" :=
    fun items => listField_of_get? (Members.get?_set_self ms "edges" _)
  have hnodes : ∀ items, listField (ms.set "edges" (.arr items)) "nodes" Node.read = listField ms "nodes" Node.read :=
    fun items => listField_set_of_ne _ (by decide) _
  have hmetadata : ∀ items, Members.get? (ms.set "edges" (.arr items)) "metadata" = ms.get? "metadata" :=
    fun items => Members.get?_set_of_ne ms _ (by decide)
  have hfields : readFields (ms.set "edges" (.arr items)) = readFields (ms.set "edges" (.arr items')) := by
    unfold readFields
    rw [hedges, hedges, hnodes, hnodes, hmetadata, hmetadata, Checked.listFrom_congr h]
  unfold read
  dsimp only
  rw [hfields]

end Diagram

/-- **Both shapes are one edge.** An edge is read alike in the flat and in the editor's shape, and any payload with it loads
alike, unless it is an association whose class is given by the number zero. Such an edge is the same in both shapes but for
this class, which only the flat shape has. Any other number is kept in both shapes. -/
theorem shapes_read_alike (w : Drawing) :
    (Edge.read w.flat = Edge.read w.nested ↔ ¬ w.LosesClass) ∧
      (¬ w.LosesClass → ∀ (ms : Members) (before after : List Json),
        loadDiagram (.obj (ms.set "edges" (.arr (before ++ w.flat :: after)))) =
          loadDiagram (.obj (ms.set "edges" (.arr (before ++ w.nested :: after))))) ∧
      (w.LosesClass → ∃ make : EdgeKind → Edge,
        Edge.read w.flat = .ok (make (.association (some w.classId.display))) ∧
          Edge.read w.nested = .ok (make (.association none)) ∧ ∀ kind, (make kind).kind = kind) ∧
      (w.classId.isNumber = true → ∀ e c, e.kind = .association c →
        (Edge.read w.flat = .ok e → c = some w.classId.display) ∧
          (w.classId.truthy = true → Edge.read w.nested = .ok e → c = some w.classId.display)) := by
  refine ⟨⟨fun heq hlost => ?_, w.read_eq⟩, fun hkept ms before after => ?_, w.read_of_losesClass,
    fun hnumber e c hkind => ⟨fun he => w.classId_of_flat hnumber he hkind,
      fun hthere he => w.classId_of_nested hnumber hthere he hkind⟩⟩
  · obtain ⟨hnumber, -, e, hread, hkind⟩ := hlost
    have hclass : none = some w.classId.display := w.classId_of_flat hnumber (heq.trans hread) hkind
    cases hclass
  · have hitems : (before ++ w.flat :: after).map Edge.read = (before ++ w.nested :: after).map Edge.read := by
      rw [List.map_append, List.map_append, List.map_cons, List.map_cons, w.read_eq hkept]
    unfold loadDiagram
    rw [Diagram.read_congr_edges hitems]

/-- a purchase, with the class that a number names -/
def purchase (classId : Int) : Drawing where
  id := .str "e"
  source := .int 1
  target := .int 2
  kind := .str " Association"
  label := .str "buys"
  sourceCardinality := .int 1
  targetCardinality := .str "*"
  classId := .int classId

theorem purchase_seven_alike : ¬ (purchase 7).LosesClass ∧
    Edge.read (purchase 7).flat = Edge.read (purchase 7).nested ∧
    (∃ e, Edge.read (purchase 7).nested = .ok e ∧ e.kind = .association (some "7")) := by
  have hkept : ¬ (purchase 7).LosesClass := fun h => by cases h.2.1
  have heq := (shapes_read_alike (purchase 7)).1.2 hkept
  exact ⟨hkept, heq, _, rfl, rfl⟩

/-- the node with the id zero is the association class in the flat shape only, so the two payloads load differently -/
theorem zero_class_lost :
    (loadDiagram (.obj [("edges", .arr [(purchase 0).flat])])).map (fun d => d.edges.map Edge.kind) =
        .ok [.association (some "0")] ∧
      (loadDiagram (.obj [("edges", .arr [(purchase 0).nested])])).map (fun d => d.edges.map Edge.kind) =
        .ok [.association none] ∧
      (purchase 0).LosesClass :=
  ⟨rfl, rfl, rfl, rfl, _, rfl, rfl⟩

end Classwright
