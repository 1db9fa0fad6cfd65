/-
Reading a diagram from a JSON payload.

A payload has one of two shapes, and every part may have its own: the flat shape, with all fields at the top of a node or
edge, and the editor's shape, with label, attributes, cardinalities and kind in a `data` object. `Node.flatten` and
`Edge.flatten` bring the second shape into the first; `Node.read` and `Edge.read` then check the fields.

- `Edge.kindTag`: the kind of an edge: its `kind`, else the type in its data, else its `type` when that names a kind (an
  editor also keeps the drawing style there), else an association;
- `Diagram.read`: a diagram, or every problem of its nodes followed by every problem of its edges; node ids that repeat
  are reported only when nothing else is wrong.
-/
import Classwright.Diagram.Basic
import Classwright.Problem

namespace Classwright

/-- a number given where a text is expected, as a text -/
def numberText : Json → Json
  | .int n => .str (Json.display (.int n))
  | .real x => .str (Json.display (.real x))
  | j => j

/-- the text of a value, an absent one being empty -/
def presentText (j : Json) : String := if j.truthy then j.display else ""

/-- the members of a `data` object; none when it is absent or no object -/
def innerData (ms : Members) : Members :=
  match ms.get? "data" with
  | some (.obj inner) => inner
  | _ => []

/-- the listed members of an object that are there, in the order of the list -/
def pick (ms : Members) (keys : List String) : Members :=
  keys.filterMap fun k => (ms.get? k).map fun v => (k, v)

def without (ms : Members) (keys : List String) : Members := ms.filter fun m => !keys.contains m.1

/-- null replaced by another value, also where the member is absent -/
def orElseMember (ms : Members) (key : String) (other : Json) : Members :=
  match ms.get? key with
  | some .null | none => ms.set key other
  | some _ => ms

/-! ## The fields of an object -/

/-- a field under its first spelling that is there, with that spelling -/
def findField (ms : Members) (spellings : List String) : Option (String × Json) :=
  spellings.findSome? fun k => (ms.get? k).map fun v => (k, v)

def requiredField {α : Type} (ms : Members) (key : String) (read : Json → Checked α) : Checked α :=
  match ms.get? key with
  | some v => (read v).under key
  | none => Checked.under key (.fail .missing)

/-- a field that may be absent; the path of a problem has the spelling that was found -/
def defaultField {α : Type} (ms : Members) (spellings : List String) (default : α) (read : Json → Checked α) :
    Checked α :=
  match findField ms spellings with
  | some (k, v) => (read v).under k
  | none => .ok default

/-! ## Attributes -/

namespace Attribute

/-- the written type kept beside its meaning, and an id that is a text -/
def flatten (ms : Members) : Members :=
  let raw := (Members.get? ms "type").getD .null
  let ms := if ms.has "rawType" then ms else ms.set "rawType" (.str (if raw.isNull then "" else raw.display))
  let ms := ms.set "type" (.str (AttributeType.ofText (presentText raw)).tag)
  ms.set "id" (match ms.get? "id" with
    | some .null | none => .str ""
    | some v => numberText v)

def readType (j : Json) : AttributeType :=
  match j with
  | .str s => (AttributeType.ofTag? s).getD .other
  | _ => .other

def readFields (ms : Members) : Checked Attribute :=
  let make := fun id name rawType visibility =>
    (⟨id, name, readType ((Members.get? ms "type").getD .null), rawType, visibility⟩ : Attribute)
  (((Checked.map make (defaultField ms ["id"] "" readText)).apply
    (requiredField ms "name" readNonempty)).apply
    (defaultField ms ["rawType", "raw_type"] "" readText)).apply
    (defaultField ms ["visibility"] none (readOptional readText))

def read : Json → Checked Attribute
  | .obj ms => readFields (flatten ms)
  | _ => .fail (.notObject "ClassAttribute")

end Attribute

/-! ## Nodes -/

namespace Node

/-- the fields of a node that an editor keeps in its data; a field at the top counts first -/
def flatten (ms : Members) : Members :=
  let flat := Members.update (pick (innerData ms) ["label", "attributes", "isAssociationClass"]) (without ms ["data"])
  let flat := flat.set "id" (numberText ((flat.get? "id").getD .null))
  let flat := orElseMember flat "label" (.str "")
  orElseMember flat "attributes" (.arr [])

def readFields (ms : Members) : Checked Node :=
  (((Checked.map (fun id label attributes flag => (⟨id, label, attributes, flag⟩ : Node))
    (requiredField ms "id" readNonempty)).apply
    (defaultField ms ["label"] "" readText)).apply
    (defaultField ms ["attributes"] [] (Checked.list Attribute.read))).apply
    (defaultField ms ["isAssociationClass", "is_association_class"] false readBool)

def read : Json → Checked Node
  | .obj ms => readFields (flatten ms)
  | _ => .fail (.notObject "ClassNode")

end Node

/-! ## Edges -/

namespace Edge

/-- the names that mark a `type` as a kind and not as a drawing style -/
def knownTags : List String := EdgeKind.all.map EdgeKind.tag ++ [EdgeKind.generalization]

def kindTag (ms : Members) : String :=
  let kind := (Members.get? ms "kind").getD .null
  let inner := (Members.get? (innerData ms) "type").getD .null
  let type := (Members.get? ms "type").getD .null
  if kind.truthy then EdgeKind.normalTag kind.display
  else if inner.truthy then EdgeKind.normalTag inner.display
  else if knownTags.contains (Text.lower (Text.strip (presentText type))) then
    EdgeKind.normalTag (presentText type)
  else (EdgeKind.association none).tag

/-- the fields of an edge with those an editor keeps in its data; a field at the top counts first -/
def flatten (ms : Members) : Members :=
  let inner := innerData ms
  let flat := Members.update (pick inner ["label", "sourceCardinality", "targetCardinality"])
    (without ms ["data", "type"])
  let flat := flat.set "kind" (.str (kindTag ms))
  let flat := orElseMember flat "id" (.str "")
  let classId := (Members.get? inner "associationClass").getD .null
  if !flat.has "associationClassId" && classId.truthy then flat.set "associationClassId" classId else flat

/-- an association class given as a number or a text; what counts as absent is none -/
def readClassId (j : Json) : Checked (Option String) :=
  let j := numberText j
  if j.truthy then Checked.map some (readText j) else .ok none

def readKind (ms : Members) (kind : EdgeKind) : Checked EdgeKind :=
  match kind with
  | .association _ =>
    Checked.map .association
      (defaultField ms ["associationClassId", "association_class_id"] none readClassId)
  | k => .ok k

def readFields (ms : Members) (kind : EdgeKind) : Checked Edge :=
  let make := fun id source target label sourceCardinality targetCardinality kind =>
    (⟨id, source, target, label, sourceCardinality, targetCardinality, kind⟩ : Edge)
  let cardinality := fun (j : Json) => readOptional readText (numberText j)
  ((((((Checked.map make (defaultField ms ["id"] "" fun j => readText (numberText j))).apply
    (requiredField ms "source" fun j => readNonempty (numberText j))).apply
    (requiredField ms "target" fun j => readNonempty (numberText j))).apply
    (defaultField ms ["label"] none (readOptional readText))).apply
    (defaultField ms ["sourceCardinality", "source_cardinality"] none cardinality)).apply
    (defaultField ms ["targetCardinality", "target_cardinality"] none cardinality)).apply
    (readKind ms kind)

def read : Json → Checked Edge
  | .obj ms =>
    match EdgeKind.ofTag? (kindTag ms) with
    | some kind => Checked.under kind.tag (readFields (flatten ms) kind)
    | none => .fail (.unknownTag (kindTag ms))
  | _ => .fail .notFields

end Edge

/-! ## Diagrams -/

namespace Diagram

/-- the first node whose id an earlier node has -/
def repeatedId? (seen : List String) : List Node → Option String
  | [] => none
  | n :: rest => if seen.contains n.id then some n.id else repeatedId? (n.id :: seen) rest

/-- the items under a name, an absent or null list being empty -/
def listField {α : Type} (ms : Members) (key : String) (read : Json → Checked α) : Checked (List α) :=
  match (Members.get? ms key).getD .null with
  | .null => .ok []
  | j => (Checked.list read j).under key

def readFields (ms : Members) : Checked Diagram :=
  ((Checked.map (fun nodes edges => (⟨nodes, edges, (Members.get? ms "metadata").getD .null⟩ : Diagram))
    (listField ms "nodes" Node.read)).apply
    (listField ms "edges" Edge.read))

/-- a diagram from a payload; null is the empty diagram -/
def read : Json → Checked Diagram
  | .null => .ok ⟨[], [], .null⟩
  | .obj ms =>
    match readFields ms with
    | .error ps => .error ps
    | .ok d =>
      match repeatedId? [] d.nodes with
      | none => .ok d
      | some id => .fail (.refused ("duplicate node id '" ++ id ++ "'"))
  | _ => .fail (.notObject "DiagramModel")

/-- the diagram itself when it is wrapped as the member `model` of an object -/
def unwrap (payload : Json) : Json :=
  match payload.get? "model" with
  | some (.obj ms) => .obj ms
  | _ => payload

end Diagram

end Classwright
