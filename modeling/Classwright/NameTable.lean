/-
The names of a diagram: which class each node stands for, and what is known of each class.

Nodes whose labels give the same identifier share a class. Its attributes are those of the last such node, its place in
the order is that of the first, and it is an association class as soon as one of them is.

- `NameTable.ofDiagram`: the table of a diagram with the warnings given on the way;
- `NameTable.resolve`: the class of a node id.
-/
import Classwright.Diagram.Basic
import Classwright.Log
import Classwright.Naming
import Classwright.Table
import Classwright.Text.Quoted

namespace Classwright

structure NameTable where
  /-- node ids with their classes, in node order -/
  classOf : List (String × String)
  /-- class names with their attributes, in the order of first appearance -/
  classes : List (String × List Attribute)
  associationClasses : List String
  deriving Repr

namespace NameTable

def empty : NameTable := ⟨[], [], []⟩

def names (t : NameTable) : List String := t.classes.map Prod.fst

def attributesOf (t : NameTable) (name : String) : List Attribute := (Table.get? t.classes name).getD []

def resolve (t : NameTable) (id : String) : Option String := Table.get? t.classOf id

/-- the class of a node id, when there is one with a name -/
def named? (t : NameTable) (id : String) : Option String :=
  match t.resolve id with
  | some name => if name.isEmpty then none else some name
  | none => none

/-- attributes by name: a later one takes the place of an earlier one -/
def attributeTable (attributes : List Attribute) : List (String × Attribute) :=
  attributes.foldl (fun t a => Table.set t a.name a) []

def distinctAttributes (attributes : List Attribute) : List Attribute := (attributeTable attributes).map Prod.snd

/-- one warning for every attribute whose name came before -/
def repeatWarnings (className : String) (seen : List String) : List Attribute → Log
  | [] => []
  | a :: rest =>
    (if seen.contains a.name then
      [LogEntry.warning ("[Loader] " ++ className ++ " declares attribute " ++ Text.quoted a.name ++
        " more than once; the last one wins")]
    else []) ++ repeatWarnings className (a.name :: seen) rest

/-- the table with one more node -/
def add (t : NameTable) (n : Node) : NameTable :=
  let name := Naming.identifier n.label
  { classOf := Table.set t.classOf n.id name
    classes := Table.set t.classes name (distinctAttributes n.attributes)
    associationClasses :=
      if n.isAssociationClass && !t.associationClasses.contains name then t.associationClasses ++ [name]
      else t.associationClasses }

/-- what is worth a warning about one more node -/
def warnings (t : NameTable) (n : Node) : Log :=
  let name := Naming.identifier n.label
  (if (Naming.className n.label).isEmpty then
    [LogEntry.warning ("[Loader] Node " ++ n.id ++ " label " ++ Text.quoted n.label ++
      " sanitizes to an empty identifier")]
  else []) ++
  (if Table.has t.classes name then
    [LogEntry.warning ("[Loader] Node " ++ n.id ++ " reuses identifier " ++ name ++
      "; its files replace the earlier class")]
  else []) ++ repeatWarnings name [] n.attributes

def step (s : NameTable × Log) (n : Node) : NameTable × Log := (s.1.add n, s.2 ++ s.1.warnings n)

def ofNodes (nodes : List Node) : NameTable × Log := nodes.foldl step (empty, [])

def ofDiagram (d : Diagram) : NameTable × Log := ofNodes d.nodes

end NameTable

end Classwright
