/-
The rules by which labels become identifiers and identifiers become other names.

- `className`: the letters and digits of a label, the first one in upper case;
- `identifier`: the class name, or the label itself when no letter or digit is left;
- `plural`, `discriminator`, `javaType`: derived names;
- `isMany`: whether a cardinality admits more than one.
-/
import Classwright.Diagram.Basic
import Classwright.Text.Case

namespace Classwright.Naming

def isAsciiAlphanumeric (c : Char) : Bool := c.isAlpha || c.isDigit

def capitalize : List Char → List Char
  | [] => []
  | c :: rest => c.toUpper :: rest

/-- the letters and digits of a label, the first one in upper case -/
def className (label : String) : String := String.ofList (capitalize (label.toList.filter isAsciiAlphanumeric))

/-- the name under which the class of a label is generated -/
def identifier (label : String) : String := if (className label).isEmpty then label else className label

def lowerFirst (name : String) : String := Text.lowerFirst name

def plural (name : String) : String := name ++ "s"

/-- the value that tells a class from the others of its hierarchy -/
def discriminator (className : String) : String := Text.initialUpper className

/-- the type of a generated field -/
def javaType : AttributeType → String
  | .int => "Integer"
  | .long => "Long"
  | _ => "String"

def isMany (cardinality : Option String) : Bool :=
  match cardinality with
  | some s => s.toList.contains '*'
  | none => false

end Classwright.Naming
