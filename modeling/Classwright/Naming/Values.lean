/-
The naming rules applied to JSON values of any type. A value that counts as absent reads as an empty label or cardinality;
a value of the wrong type is refused.
-/
import Classwright.Fault

namespace Classwright.Naming

def classNameOf (j : Json) : Except Fault String :=
  if j.truthy then
    match j with
    | .str s => .ok (className s)
    | _ => .error .wrongType
  else .ok ""

/-- a rule for texts; a list lacks what the rule asks of its first element, other values cannot be cut -/
def onText (rule : String → String) : Json → Except Fault String
  | .str s => .ok (rule s)
  | .arr _ => .error .noMember
  | _ => .error .wrongType

def lowerFirstOf (j : Json) : Except Fault String := onText lowerFirst j

def discriminatorOf (j : Json) : Except Fault String := onText discriminator j

def pluralOf (j : Json) : String := plural j.display

/-- the type of a generated field from the tag of an attribute type -/
def javaTypeOf (j : Json) : Except Fault String :=
  match j.str?.bind AttributeType.ofTag? with
  | some t => .ok (javaType t)
  | none => .error (.badValue (j.literal ++ " is not a valid AttributeType"))

/-- a list is asked for an element, an object for a name -/
def isManyOf (j : Json) : Except Fault Bool :=
  if !j.truthy then .ok false
  else match j with
    | .str s => .ok (isMany (some s))
    | .arr items => .ok (items.any fun x => x.str? == some "*")
    | .obj ms => .ok (Members.has ms "*")
    | _ => .error .wrongType

def attributeTypeOf (j : Json) : AttributeType := AttributeType.ofText (presentText j)

def edgeKindOf (j : Json) : Except Fault String :=
  match j with
  | .obj ms => .ok (Edge.kindTag ms)
  | _ => .error .noMember

/-- an edge in the flat shape; what is no object stays as it is -/
def edgePayloadOf (j : Json) : Json :=
  match j with
  | .obj ms => .obj (Edge.flatten ms)
  | _ => j

end Classwright.Naming
