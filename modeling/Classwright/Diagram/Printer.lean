/-
Diagrams written as JSON: every key under its longer name, every edge flat, its kind among its members.

- `Attribute.toJson`, `Node.toJson`, `Edge.toJson`: the parts of a diagram;
- `Diagram.toJson`: the payload of a diagram, in a shape that the reader takes.
-/
import Classwright.Diagram.Basic

namespace Classwright

/-- an absent text as null -/
def optionalText (s : Option String) : Json := Json.ofOption Json.str s

def Attribute.toJson (a : Attribute) : Json :=
  .obj [("id", .str a.id), ("name", .str a.name), ("type", .str a.type.tag), ("rawType", .str a.rawType),
    ("visibility", optionalText a.visibility)]

def Node.toJson (n : Node) : Json :=
  .obj [("id", .str n.id), ("label", .str n.label), ("attributes", .arr (n.attributes.map Attribute.toJson)),
    ("isAssociationClass", .bool n.isAssociationClass)]

/-- the members that only an edge of this kind has -/
def EdgeKind.members : EdgeKind → Members
  | .association c => [("associationClassId", optionalText c)]
  | _ => []

def Edge.toJson (e : Edge) : Json :=
  .obj ([("kind", .str e.kind.tag), ("id", .str e.id), ("source", .str e.source), ("target", .str e.target),
    ("label", optionalText e.label), ("sourceCardinality", optionalText e.sourceCardinality),
    ("targetCardinality", optionalText e.targetCardinality)] ++ e.kind.members)

def Diagram.toJson (d : Diagram) : Json :=
  .obj [("nodes", .arr (d.nodes.map Node.toJson)), ("edges", .arr (d.edges.map Edge.toJson)), ("metadata", d.metadata)]

end Classwright
