/-
Entities: the classes of a generated project with the relationship fields between them.

- `RelationField`: one end of a relationship. The owning end is the one the relationship is declared from; it is written
  out when objects are turned into text, while its partner is left out there;
- `Inheritance`, `CompositeIdentity`: the place of a class in a hierarchy, and the key of a part made of its whole's key
  and its own;
- `Entity`: a class ready to be written;
- `Symbols`: a set of names to import, listed in ascending order.
-/
import Classwright.Diagram.Basic
import Classwright.Naming

namespace Classwright

inductive RelationKind where
  | oneToMany
  | manyToOne
  | oneToOne
  | manyToMany
  deriving DecidableEq, Repr

namespace RelationKind

def all : List RelationKind := [.oneToMany, .manyToOne, .oneToOne, .manyToMany]

def tag : RelationKind → String
  | .oneToMany => "one_to_many"
  | .manyToOne => "many_to_one"
  | .oneToOne => "one_to_one"
  | .manyToMany => "many_to_many"

def ofTag? (s : String) : Option RelationKind := all.find? fun k => k.tag == s

/-- the annotation that declares a field of this kind -/
def marking : RelationKind → String
  | .oneToMany => "OneToMany"
  | .manyToOne => "ManyToOne"
  | .oneToOne => "OneToOne"
  | .manyToMany => "ManyToMany"

/-- the kind of the same relationship seen from the other end -/
def dual : RelationKind → RelationKind
  | .oneToMany => .manyToOne
  | .manyToOne => .oneToMany
  | .oneToOne => .oneToOne
  | .manyToMany => .manyToMany

@[simp] theorem dual_dual (k : RelationKind) : k.dual.dual = k := by cases k <;> rfl

end RelationKind

structure JoinTable where
  name : String
  joinColumn : String
  inverseJoinColumn : String
  deriving DecidableEq, Repr

/-- one end of a relationship -/
structure RelationField where
  name : String
  kind : RelationKind
  related : String
  owning : Bool
  collection : Bool := false
  mappedBy : Option String := none
  joinColumn : Option String := none
  joinTable : Option JoinTable := none
  cascadeAll : Bool := false
  orphanRemoval : Bool := false
  optional : Bool := true
  mapsId : Option String := none
  jsonReference : Option String := none
  deriving DecidableEq, Repr

/-- the place of a class in a hierarchy -/
structure Inheritance where
  isParent : Bool := false
  isChild : Bool := false
  parentName : Option String := none
  discriminatorValue : Option String := none
  deriving DecidableEq, Repr

/-- the top of a hierarchy declares how it is stored -/
def Inheritance.isRoot (i : Inheritance) : Bool := i.isParent && !i.isChild

/-- the key of a part: the key of its whole and its own -/
structure CompositeIdentity where
  idClassName : String
  wholeClass : String
  wholeField : String
  ownIdType : String
  wholeIdType : String := "Long"
  deriving DecidableEq, Repr

def CompositeIdentity.wholeIdField (i : CompositeIdentity) : String := i.wholeField ++ "Id"

structure Entity where
  name : String
  attributes : List Attribute := []
  fields : List RelationField := []
  inheritance : Option Inheritance := none
  identity : Option CompositeIdentity := none
  isAssociationClass : Bool := false
  deriving DecidableEq, Repr

/-- an optional text that is there and not empty -/
def given? (s : Option String) : Option String :=
  match s with
  | some t => if t.isEmpty then none else some t
  | none => none

namespace RelationField

def javaType (f : RelationField) : String := if f.collection then "List<" ++ f.related ++ ">" else f.related

def persistence : String := "jakarta.persistence"

def jackson : String := "com.fasterxml.jackson.annotation"

/-- the annotation that keeps a cycle of references out of the text of an object -/
def referenceMarking (f : RelationField) : String :=
  if f.owning then "JsonManagedReference" else "JsonBackReference"

/-- the names a field needs, in the order of its annotations; a name may occur twice -/
def imports (f : RelationField) : List String :=
  (if f.collection then ["java.util.List"] else []) ++
  [persistence ++ "." ++ f.kind.marking] ++
  (if f.cascadeAll then [persistence ++ ".CascadeType"] else []) ++
  (if (given? f.joinColumn).isSome then [persistence ++ ".JoinColumn"] else []) ++
  (if f.joinTable.isSome then [persistence ++ ".JoinTable", persistence ++ ".JoinColumn"] else []) ++
  (if (given? f.mapsId).isSome then [persistence ++ ".MapsId"] else []) ++
  (if (given? f.jsonReference).isSome then [jackson ++ "." ++ f.referenceMarking] else [])

end RelationField

/-- a set of names -/
structure Symbols where
  elements : List String := []
  deriving Repr

namespace Symbols

def contains (s : Symbols) (name : String) : Bool := s.elements.contains name

def insert (s : Symbols) (name : String) : Symbols :=
  if s.elements.contains name then s else ⟨s.elements ++ [name]⟩

def union (s : Symbols) (names : List String) : Symbols := names.foldl insert s

def ofList (names : List String) : Symbols := union ⟨[]⟩ names

def size (s : Symbols) : Nat := s.elements.length

/-- the names in ascending order of their code points -/
def toList (s : Symbols) : List String := Text.sort s.elements

@[simp] theorem mem_insert (s : Symbols) (name x : String) :
    x ∈ (s.insert name).elements ↔ x ∈ s.elements ∨ x = name := by
  unfold insert
  split
  · next h => exact ⟨Or.inl, fun hx => hx.elim id fun e => e ▸ List.elem_iff.1 h⟩
  · simp

end Symbols

namespace Entity

def lowerName (e : Entity) : String := Naming.lowerFirst e.name

def isChild (e : Entity) : Bool :=
  match e.inheritance with
  | some i => i.isChild
  | none => false

def isRoot (e : Entity) : Bool :=
  match e.inheritance with
  | some i => i.isRoot
  | none => false

def addField (f : RelationField) (e : Entity) : Entity := { e with fields := e.fields ++ [f] }

/-- the names that the relationship fields need -/
def imports (e : Entity) : Symbols := Symbols.ofList (e.fields.flatMap RelationField.imports)

/-- the fields about a class, of a kind; where none is given every one counts -/
def findFields (e : Entity) (related : Option String) (kind : Option RelationKind) : List RelationField :=
  e.fields.filter fun f =>
    (match related with
      | none => true
      | some r => f.related == r) &&
    (match kind with
      | none => true
      | some k => f.kind == k)

end Entity

end Classwright
