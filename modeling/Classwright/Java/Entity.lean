/-
The source of an entity class.

- `relationMember`: a relationship field with its annotations;
- `keyMember`: the key of a class: composite for a part, inherited for a child, else a number, generated unless the class
  has an `id` of its own;
- `entityImports`: the names to import, found from the entity and not from the text;
- `entitySource`: the whole class; `renderId`: the class of a composite key.
-/
import Classwright.Entity.Basic
import Classwright.Java.Syntax

namespace Classwright.Java

open RelationField (persistence)

/-! ## Relationship fields -/

def relationArguments (f : RelationField) : List Argument :=
  (match given? f.mappedBy with
    | some m => [⟨some "mappedBy", .text m⟩]
    | none => []) ++
  (if f.cascadeAll then [⟨some "cascade", .constant "CascadeType" "ALL"⟩] else []) ++
  (if f.orphanRemoval then [⟨some "orphanRemoval", .plain "true"⟩] else []) ++
  (if f.optional then [] else [⟨some "optional", .plain "false"⟩])

def joinTableMarking (t : JoinTable) : Marking :=
  ⟨"JoinTable", [⟨some "name", .text t.name⟩, ⟨some "joinColumns", .column t.joinColumn⟩,
    ⟨some "inverseJoinColumns", .column t.inverseJoinColumn⟩]⟩

def relationMarkings (f : RelationField) : List Marking :=
  [⟨f.kind.marking, relationArguments f⟩] ++
  (match given? f.mapsId with
    | some m => [Marking.only "MapsId" (.text m)]
    | none => []) ++
  (match given? f.joinColumn with
    | some c => [Marking.keyed "JoinColumn" "name" (.text c)]
    | none => []) ++
  (match f.joinTable with
    | some t => [joinTableMarking t]
    | none => []) ++
  (match given? f.jsonReference with
    | some r => [Marking.only f.referenceMarking (.text r)]
    | none => [])

def relationMember (f : RelationField) : Member := ⟨relationMarkings f, f.javaType, f.name⟩

/-! ## Keys and attributes -/

def hasOwnId (e : Entity) : Bool := e.attributes.any fun a => a.name == "id"

def keyMember (e : Entity) : Option Member :=
  match e.identity with
  | some i => some ⟨[⟨"EmbeddedId", []⟩], i.idClassName, "id"⟩
  | none =>
    if e.isChild then none
    else if hasOwnId e then some ⟨[⟨"Id", []⟩], "Long", "id"⟩
    else some ⟨[⟨"Id", []⟩, Marking.keyed "GeneratedValue" "strategy" (.constant "GenerationType" "IDENTITY")],
      "Long", "id"⟩

def keyImports (e : Entity) : List String :=
  match e.identity with
  | some _ => [persistence ++ ".EmbeddedId"]
  | none =>
    if e.isChild then []
    else if hasOwnId e then [persistence ++ ".Id"]
    else [persistence ++ ".Id", persistence ++ ".GeneratedValue", persistence ++ ".GenerationType"]

/-- the attributes that are written as fields: the key has its own place -/
def attributeMembers (e : Entity) : List Member :=
  (e.attributes.filter fun a => a.name != "id").map fun a => ⟨[], Naming.javaType a.type, a.name⟩

/-! ## The class -/

/-- an absent name as it is shown -/
def shown (s : Option String) : String := s.getD "None"

def discriminatorMarking (e : Entity) : Marking :=
  Marking.only "DiscriminatorValue" (.text (shown (e.inheritance.bind Inheritance.discriminatorValue)))

def hierarchyMarkings (e : Entity) : List Marking :=
  if e.isRoot then
    [Marking.keyed "Inheritance" "strategy" (.constant "InheritanceType" "JOINED"),
     ⟨"DiscriminatorColumn", [⟨some "name", .text "dtype"⟩,
       ⟨some "discriminatorType", .constant "DiscriminatorType" "STRING"⟩, ⟨some "length", .plain "1"⟩]⟩,
     discriminatorMarking e]
  else if e.isChild then
    [discriminatorMarking e, Marking.keyed "PrimaryKeyJoinColumn" "name" (.text "id")]
  else []

def classMarkings (e : Entity) : List Marking :=
  [⟨"Data", []⟩] ++
  (if e.isChild then [Marking.keyed "EqualsAndHashCode" "callSuper" (.plain "true")] else []) ++
  [⟨"NoArgsConstructor", []⟩, ⟨"AllArgsConstructor", []⟩, ⟨"Entity", []⟩] ++ hierarchyMarkings e

def baseImports : List String :=
  [persistence ++ ".Entity", "lombok.AllArgsConstructor", "lombok.Data", "lombok.NoArgsConstructor"]

def childImports (e : Entity) : List String :=
  if e.isChild then
    ["lombok.EqualsAndHashCode", persistence ++ ".DiscriminatorValue", persistence ++ ".PrimaryKeyJoinColumn"]
  else []

def rootImports (e : Entity) : List String :=
  if e.isRoot then
    [persistence ++ ".Inheritance", persistence ++ ".InheritanceType", persistence ++ ".DiscriminatorColumn",
     persistence ++ ".DiscriminatorType", persistence ++ ".DiscriminatorValue"]
  else []

def entityImports (e : Entity) : Symbols :=
  Symbols.ofList (baseImports ++ childImports e ++ rootImports e ++ keyImports e ++
    e.fields.flatMap RelationField.imports)

def entitySource (e : Entity) : ClassSource where
  package := basePackage ++ ".model"
  imports := (entityImports e).toList
  markings := classMarkings e
  name := e.name
  superclass := if e.isChild then some (shown (e.inheritance.bind Inheritance.parentName)) else none
  members := (keyMember e).toList ++ attributeMembers e ++ e.fields.map relationMember

def renderEntity (e : Entity) : String := (entitySource e).render

/-- the class of a composite key -/
def renderId (i : CompositeIdentity) : String := text [
  "package " ++ basePackage ++ ".model;",
  "",
  "import " ++ persistence ++ ".Embeddable;",
  "import java.io.Serializable;",
  "import lombok.AllArgsConstructor;",
  "import lombok.Data;",
  "import lombok.NoArgsConstructor;",
  "",
  "@Data",
  "@NoArgsConstructor",
  "@AllArgsConstructor",
  "@Embeddable",
  "public class " ++ i.idClassName ++ " implements Serializable \x7b",
  "    private " ++ i.wholeIdType ++ " " ++ i.wholeIdField ++ ";",
  "    private " ++ i.ownIdType ++ " id;",
  "\x7d"]

end Classwright.Java
