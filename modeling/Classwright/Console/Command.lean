/-
The commands of the program: a project from a diagram, and a request collection from a diagram.

`Command.read` takes the arguments of the program to a command.
-/
import Classwright.Console.Arguments
import Classwright.Path
import Classwright.Plan.Session

namespace Classwright.Console

/-- what is asked for by `spring` -/
structure ProjectOrder where
  model : Path
  output : Option Path
  /-- a directory that gets the files of the project, too -/
  unpacked : Option Path
  template : Option Path
  policy : Option Policy
  deriving DecidableEq, Repr

/-- what is asked for by `postman` -/
structure CollectionOrder where
  model : Path
  output : Option Path
  baseUrl : Option String
  name : Option String
  deriving DecidableEq, Repr

inductive Command where
  | spring (o : ProjectOrder)
  | postman (o : CollectionOrder)
  deriving DecidableEq, Repr

namespace Command

def program : String := "diagramforge"

def helpSwitch : Switch := ⟨["-h", "--help"], .nothing, "show this help message and exit"⟩

def modelOperand : Operand := .word "model" "Diagram model JSON file"

def springGrammar : Grammar where
  program := program ++ " spring"
  about := ""
  switches := [
    helpSwitch,
    ⟨["-o", "--output"], .text "OUTPUT", "Archive path (default: ARCHIVE_FILENAME setting)"⟩,
    ⟨["--unpacked"], .text "DIR", "Also copy the generated project tree into DIR"⟩,
    ⟨["--template-dir"], .text "TEMPLATE_DIR", "Maven scaffold directory (default: packaged template)"⟩,
    ⟨["--conflict-policy"], .oneOf ["last_wins", "fail"],
      "How to handle a class claimed by two parents or two wholes"⟩]
  operand := modelOperand
  closing := ""

def postmanGrammar : Grammar where
  program := program ++ " postman"
  about := ""
  switches := [
    helpSwitch,
    ⟨["-o", "--output"], .text "OUTPUT", "Collection path (default: print to stdout)"⟩,
    ⟨["--base-url"], .text "BASE_URL", "Value of the \x7b\x7bbaseUrl\x7d\x7d variable"⟩,
    ⟨["--name"], .text "NAME", "Collection name"⟩]
  operand := modelOperand
  closing := ""

def examples : String := Text.joinWith "\n" [
  "Examples:",
  "  diagramforge spring shop.json                       Generate demo_generated.zip",
  "  diagramforge spring shop.json -o shop.zip           Choose the archive name",
  "  diagramforge spring shop.json --unpacked ./shop     Also keep the project tree",
  "  diagramforge spring shop.json --conflict-policy fail",
  "  diagramforge postman shop.json --base-url http://localhost:9090"]

def grammar : Grammar where
  program := program
  about := "DiagramForge - generate a Spring Boot project or Postman collection from a class diagram"
  switches := [helpSwitch]
  operand := .command "COMMAND" [("spring", "Generate a Spring Boot project archive"),
    ("postman", "Generate a Postman collection")]
  closing := examples

def springOf (model : Path) (f : Grammar.Found) : Command :=
  let path := fun name => (f.value? name).map Path.ofString
  .spring ⟨model, path "--output", path "--unpacked", path "--template-dir",
    (f.value? "--conflict-policy").map Policy.ofText⟩

def postmanOf (model : Path) (f : Grammar.Found) : Command :=
  .postman ⟨model, (f.value? "--output").map Path.ofString, f.value? "--base-url", f.value? "--name"⟩

/-- the paths that a command reads or writes as single files -/
def filePaths : Command → List Path
  | .spring o => o.model :: o.output.toList
  | .postman o => o.model :: o.output.toList

/-- the paths that a command reads or writes with all beneath them -/
def treePaths : Command → List Path
  | .spring o => o.unpacked.toList ++ o.template.toList
  | .postman _ => []

/-- the commands by their names -/
def commands : List (String × Grammar × (Path → Grammar.Found → Command)) :=
  [("spring", springGrammar, springOf), ("postman", postmanGrammar, postmanOf)]

/-- the command that arguments ask for; what neither the program nor the command knows is refused -/
def read (arguments : List String) : Except Stop Command := do
  let (words, outer) ← grammar.read arguments
  let name := words.headD ""
  match Table.get? commands name with
  | none => .error (.refused grammar (.badChoice "COMMAND" name (commands.map Prod.fst)))
  | some (g, build) => do
    let (model, inner) ← g.read words.tail
    let unknown := outer.unknown ++ inner.unknown
    if unknown.isEmpty then pure (build (Path.ofString (model.headD "")) inner)
    else .error (.refused grammar (.unknown unknown))

end Command

end Classwright.Console
