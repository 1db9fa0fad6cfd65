/-
The parts of a generated source file and their text.

- `Marking`: an annotation, a name with arguments; `Marking.symbols` are the simple names its text mentions;
- `Member`: a private field with its annotations;
- `ClassSource`: an entity class: imports, annotations, name, superclass and members.
-/
import Classwright.Text.Basic

namespace Classwright.Java

def basePackage : String := "com.example.demo"

def indent : String := "    "

/-- the value of an annotation's argument -/
inductive Value where
  | text (s : String)
  /-- a member of a type, such as `CascadeType.ALL` -/
  | constant (type member : String)
  /-- a number or a truth value -/
  | plain (s : String)
  /-- a join column by its name -/
  | column (name : String)
  deriving DecidableEq, Repr

def doubleQuoted (s : String) : String := "\"" ++ s ++ "\""

def Value.render : Value → String
  | .text s => doubleQuoted s
  | .constant type member => type ++ "." ++ member
  | .plain s => s
  | .column name => "@JoinColumn(name = " ++ doubleQuoted name ++ ")"

/-- an argument with the name it is given under, or the only argument without one -/
structure Argument where
  key : Option String
  value : Value
  deriving DecidableEq, Repr

def Argument.render (a : Argument) : String :=
  match a.key with
  | some k => k ++ " = " ++ a.value.render
  | none => a.value.render

/-- an annotation -/
structure Marking where
  name : String
  arguments : List Argument := []
  deriving DecidableEq, Repr

namespace Marking

def render (a : Marking) : String :=
  "@" ++ a.name ++
    (if a.arguments.isEmpty then "" else "(" ++ Text.joinWith ", " (a.arguments.map Argument.render) ++ ")")

/-- an annotation with one argument that needs no name -/
def only (name : String) (value : Value) : Marking := ⟨name, [⟨none, value⟩]⟩

/-- an annotation with one named argument -/
def keyed (name key : String) (value : Value) : Marking := ⟨name, [⟨some key, value⟩]⟩

end Marking

/-- a private field -/
structure Member where
  markings : List Marking := []
  type : String
  name : String
  deriving DecidableEq, Repr

def Member.lines (m : Member) : List String :=
  m.markings.map Marking.render ++ ["private " ++ m.type ++ " " ++ m.name ++ ";"]

def Member.render (m : Member) : String := Text.joinWith "\n" (m.lines.map fun l => indent ++ l)

structure ClassSource where
  package : String
  imports : List String
  markings : List Marking
  name : String
  superclass : Option String
  members : List Member
  deriving Repr

namespace ClassSource

def header (c : ClassSource) : String :=
  "public class " ++ c.name ++
    (match c.superclass with
      | some s => " extends " ++ s
      | none => "") ++ " \x7b"

def lines (c : ClassSource) : List String :=
  ["package " ++ c.package ++ ";", ""] ++ c.imports.map (fun s => "import " ++ s ++ ";") ++ [""] ++
    c.markings.map Marking.render ++ [c.header] ++
    (if c.members.isEmpty then [] else [Text.joinWith "\n\n" (c.members.map Member.render)]) ++ ["\x7d"]

def render (c : ClassSource) : String := Text.joinWith "\n" c.lines ++ "\n"

end ClassSource

/-- lines with a line end after each -/
def text (lines : List String) : String := String.join (lines.map fun l => l ++ "\n")

end Classwright.Java
