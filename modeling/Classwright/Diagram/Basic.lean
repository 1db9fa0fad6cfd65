/-
Class diagrams: nodes with attributes, edges of six kinds, and metadata that nobody looks into.

- `AttributeType`: the meaning of a free-text type; `AttributeType.ofText` recognises it;
- `EdgeKind`: what an edge says about the classes at its ends. Only an association can name an association class.
-/
import Classwright.Json.Basic
import Classwright.Text.Basic
import Classwright.Text.Case

namespace Classwright

/-- the meaning of an attribute's type -/
inductive AttributeType where
  | int
  | long
  | string
  | boolean
  | double
  | float
  | date
  | other
  deriving DecidableEq, Repr

namespace AttributeType

def all : List AttributeType := [.int, .long, .string, .boolean, .double, .float, .date, .other]

def tag : AttributeType → String
  | .int => "int"
  | .long => "long"
  | .string => "string"
  | .boolean => "boolean"
  | .double => "double"
  | .float => "float"
  | .date => "date"
  | .other => "other"

def ofTag? (s : String) : Option AttributeType := all.find? fun t => t.tag == s

/-- other spellings of a type -/
def aliases : List (String × AttributeType) :=
  [("integer", .int), ("bool", .boolean), ("str", .string), ("text", .string), ("datetime", .date),
   ("localdate", .date)]

/-- the meaning of a type written in any case and between blanks; what is not known is `other` -/
def ofText (s : String) : AttributeType :=
  let name := Text.lower (Text.strip s)
  match aliases.find? fun a => a.1 == name with
  | some a => a.2
  | none => (ofTag? name).getD .other

end AttributeType

structure Attribute where
  id : String
  name : String
  type : AttributeType
  /-- the type as it was written -/
  rawType : String
  visibility : Option String
  deriving DecidableEq, Repr

/-- a class box -/
structure Node where
  id : String
  label : String
  attributes : List Attribute
  isAssociationClass : Bool
  deriving DecidableEq, Repr

/-- what an edge says about its two ends; an association may name the node of an association class -/
inductive EdgeKind where
  | association (classId : Option String)
  | aggregation
  /-- from the whole to the part -/
  | composition
  /-- from the parent to the child -/
  | inheritance
  | realization
  | dependency
  deriving DecidableEq, Repr

namespace EdgeKind

def tag : EdgeKind → String
  | .association _ => "association"
  | .aggregation => "aggregation"
  | .composition => "composition"
  | .inheritance => "inheritance"
  | .realization => "realization"
  | .dependency => "dependency"

def all : List EdgeKind :=
  [.association none, .aggregation, .composition, .inheritance, .realization, .dependency]

def ofTag? (s : String) : Option EdgeKind := all.find? fun k => k.tag == s

/-- another name of inheritance -/
def generalization : String := "generalization"

/-- the tag that a written kind stands for: lower case, no blanks around it, and inheritance by either name -/
def normalTag (s : String) : String :=
  let name := Text.lower (Text.strip s)
  if name = generalization then EdgeKind.inheritance.tag else name

def associationClassId : EdgeKind → Option String
  | .association c => c
  | _ => none

end EdgeKind

structure Edge where
  id : String
  source : String
  target : String
  label : Option String
  sourceCardinality : Option String
  targetCardinality : Option String
  kind : EdgeKind
  deriving DecidableEq, Repr

structure Diagram where
  nodes : List Node
  edges : List Edge
  metadata : Json

end Classwright
