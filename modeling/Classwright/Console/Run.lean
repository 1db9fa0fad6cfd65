/-
The program as it is called from a command line.

The commands work on the disk first and report afterwards. A refused command line ends the program before any work; a
model that does not hold, a file that is not there and a text that is no JSON end it with a notice and a code of their own.

- `Command.perform`: the work of a command, with the report of what came of it;
- `Report.ofFault`: the report on a fault, if there is one for it;
- `run`: from the arguments to what is printed and how the program ends.
-/
import Classwright.Collection
import Classwright.Console.Command
import Classwright.Console.Help
import Classwright.Console.Notice
import Classwright.Export
import Classwright.Settings.InUse

namespace Classwright.Console

/-- what a command leaves to be printed, and the code it ends with -/
structure Report where
  code : Nat
  notices : List Notice := []
  /-- the text for the standard output -/
  out : String := ""
  deriving DecidableEq, Repr

inductive Ending where
  | code (n : Nat)
  /-- ended by the command line itself: help was asked for, or it was refused -/
  | stopped (n : Nat)
  | fault (f : Fault)
  | unmatched (u : Unmatched)

structure Outcome where
  ending : Ending
  out : String
  err : String

/-- the codes that the program ends with -/
def successCode : Nat := 0

def failureCode : Nat := 1

def invalidModelCode : Nat := 2

def refusedCode : Nat := 2

namespace Report

/-- the problems listed in the details of an error -/
def problemsOf (details : Json) : List (String × String) :=
  ((details.field "errors").items?.getD []).map fun p =>
    ((p.field "loc").str?.getD "", (p.field "message").str?.getD "")

def failed (text : String) : Report := ⟨failureCode, [.failure text], ""⟩

def ofError (e : ServiceError) : Report :=
  match e.kind with
  | .diagramInvalid => ⟨invalidModelCode, [.problems (problemsOf e.details)], ""⟩
  | _ => failed (e.code.display ++ ": " ++ e.text)

/-- the report on a fault that the program is prepared for -/
def ofFault : Fault → Option Report
  | .service e => some (ofError e)
  | .disk ⟨.missing, path⟩ => some (failed ("File not found: " ++ path))
  | _ => none

end Report

/-! ## Work -/

/-- the text of a file, its line ends written as line feeds -/
def readText (p : Path) : Work String := do
  match String.fromUTF8? (← Work.read p) with
  | some s => pure (String.ofList (Text.plainLineEnds s.toList))
  | none => Work.fail (.badValue "not a text in UTF-8")

/-- the diagram in a file, or why its text is no JSON -/
def readModel (p : Path) : Work (Except String Json) := do
  let text ← readText p
  match Json.parse text with
  | .ok j => pure (.ok (Diagram.unwrap j))
  | .error e => pure (.error (e.message text))

def notJson (model : Path) (message : String) : Report :=
  .failed (model.toString ++ " is not valid JSON: " ++ message)

namespace ProjectOrder

/-- where the archive goes -/
def destination (s : Settings) (o : ProjectOrder) : Path := o.output.getD (Path.ofString s.archiveName)

/-- the project built and its archive copied, with its files if that was asked for -/
def build (s : Settings) (o : ProjectOrder) (payload : Json) : Work Project.Summary := do
  let w ← Workspace.allocate s.scratchRoot s.scratchPrefix ""
  Export.within w do
    let (summary, archive) ← Export.build (some (o.template.getD s.templateRoot)) (o.policy.getD s.policy)
      s.compressionLevel payload w
    Work.copyContent archive.path (o.destination s)
    match o.unpacked with
    | some dir => Work.copyTree w.projectDir dir
    | none => pure ()
    pure summary

def facts (p : Project.Summary) : Notice := .facts [
  ("Classes", Nat.repr p.classCount),
  ("Source files", Nat.repr p.artifacts.length),
  ("Composite ids", Nat.repr p.identityCount),
  ("Dropped edges", Nat.repr p.dropped),
  ("Files in project", Nat.repr p.manifest.files.length)]

def notices (s : Settings) (o : ProjectOrder) (p : Project.Summary) : List Notice :=
  facts p :: p.manifest.warnings.map Notice.warning ++
    .line ("\n[green]✓ Wrote " ++ (o.destination s).toString ++ "[/green]") ::
    match o.unpacked with
    | some dir => [.success ("Copied project tree to " ++ dir.toString)]
    | none => []

end ProjectOrder

namespace CollectionOrder

/-- a text that was given and is not empty, else another -/
def presentOr (other : String) (given : Option String) : String :=
  match given with
  | some s => if s.isEmpty then other else s
  | none => other

def build (s : Settings) (o : CollectionOrder) (payload : Json) : Work String := do
  let d ← Work.ofExcept (loadDiagram payload)
  let (c, log) := Collection.ofDiagram (presentOr s.collectionName o.name) (presentOr s.collectionUrl o.baseUrl) d
  Work.reportAll log
  pure (Json.indented c.toJson ++ "\n")

end CollectionOrder

/-- the work of a command -/
def Command.perform (s : Settings) : Command → Work Report
  | .spring o => do
    match ← readModel o.model with
    | .error message => pure (notJson o.model message)
    | .ok payload => do
      let p ← o.build s payload
      pure ⟨successCode, o.notices s p, ""⟩
  | .postman o => do
    match ← readModel o.model with
    | .error message => pure (notJson o.model message)
    | .ok payload => do
      let document ← o.build s payload
      match o.output with
      | none => pure ⟨successCode, [], document⟩
      | some p => do
        Work.save p document.toUTF8
        pure ⟨successCode, [.success ("Wrote " ++ p.toString)], ""⟩

/-! ## Ends -/

def Stop.outcome : Stop → Outcome
  | .help g => ⟨.stopped successCode, g.help, ""⟩
  | .refused g r => ⟨.stopped refusedCode, "", g.complaint r⟩

/-- a report printed on a terminal of so many columns -/
def Report.outcome (columns : Nat) (r : Report) : Outcome :=
  match Notice.printAll columns r.notices with
  | (err, none) => ⟨.code r.code, r.out, err⟩
  | (err, some u) => ⟨.unmatched u, r.out, err⟩

/-- the program: from its arguments to its end -/
def run (s : Settings) (columns : Nat) (arguments : List String) (w : World) : Outcome × World :=
  match Command.read arguments with
  | .error stop => (stop.outcome, w)
  | .ok c =>
    match c.perform s w with
    | (.ok r, w) => (r.outcome columns, w)
    | (.error f, w) =>
      match Report.ofFault f with
      | some r => (r.outcome columns, w)
      | none => (⟨.fault f, "", ""⟩, w)

end Classwright.Console
