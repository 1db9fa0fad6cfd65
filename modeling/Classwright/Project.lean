/-
A project on disk: the package directories, the scaffold, then the generated files.

- `Manifest`: what was put on disk, as paths seen from the project's root, with a warning for every part of the scaffold
  that was not there;
- `Project.assemble`: puts a project at a path. A scaffold that is not there is worth a warning; one that is no directory
  is an error;
- `Project.generate`: the project of a diagram.
-/
import Classwright.Disk.Work
import Classwright.Java.Artifact
import Classwright.Scaffold

namespace Classwright

structure Manifest where
  scaffold : List String := []
  artifacts : List String := []
  warnings : List String := []
  deriving DecidableEq, Repr

namespace Manifest

/-- every file once, in ascending order -/
def files (m : Manifest) : List String := Text.sort (Text.distinct (m.scaffold ++ m.artifacts))

def warn (m : Manifest) (warning : String) : Manifest := { m with warnings := m.warnings ++ [warning] }

def addScaffold (m : Manifest) (paths : List String) : Manifest := { m with scaffold := m.scaffold ++ paths }

def addArtifact (m : Manifest) (path : String) : Manifest := { m with artifacts := m.artifacts ++ [path] }

end Manifest

namespace Project

def warn (m : Manifest) (warning : String) : Work Manifest := do
  Work.report (LogEntry.warning ("[Assembler] " ++ warning))
  pure (m.warn warning)

/-- one file of a scaffold -/
def copyScaffoldFile (template root : Path) (m : Manifest) (item : Scaffold.Item) : Work Manifest := do
  let source := template.join item.path
  if ← Work.isFile source then do
    let target := root.join item.path
    Work.makeDirs ⟨target.root, target.parts.dropLast⟩
    Work.copyFile source target
    if item.executable then Work.setMode target Scaffold.executableMode else pure ()
    pure (m.addScaffold [item.path.toString])
  else warn m ("Scaffold file " ++ item.path.toString ++ " missing from template")

/-- one directory of a scaffold, with all it holds -/
def copyScaffoldDir (template root : Path) (m : Manifest) (dir : Path) : Work Manifest := do
  let source := template.join dir
  if ← Work.isDir source then do
    Work.copyTree source (root.join dir)
    let found ← Work.filesUnder source
    pure (m.addScaffold (found.map fun f => (dir.join ⟨"", f.1⟩).toString))
  else warn m ("Scaffold directory " ++ dir.toString ++ " missing from template")

def templateText (template : Option Path) : String :=
  match template with
  | some p => p.toString
  | none => "None"

/-- the scaffold copied from a directory, if it is there -/
def copyScaffold (template : Option Path) (root : Path) (m : Manifest) : Work Manifest := do
  let missing := warn m ("Template directory " ++ templateText template ++ " not found; generating sources only")
  match template with
  | none => missing
  | some dir =>
    if !(← Work.exists? dir) then missing
    else if !(← Work.isDir dir) then
      Work.fail (.service (ServiceError.templateUnavailable (.str dir.toString) (.str "not a directory")))
    else do
      let m ← Scaffold.files.foldlM (copyScaffoldFile dir root) m
      Scaffold.directories.foldlM (copyScaffoldDir dir root) m

/-- one generated file -/
def writeArtifact (root : Path) (m : Manifest) (a : Artifact) : Work Manifest := do
  let target := root.join a.path
  Work.makeDirs ⟨target.root, target.parts.dropLast⟩
  Work.save target a.content.toUTF8
  Work.report (LogEntry.debug ("[Assembler] Wrote " ++ a.path.toString))
  pure (m.addArtifact a.path.toString)

/-- a project put at a path -/
def assemble (template : Option Path) (artifacts : List Artifact) (root : Path) : Work Manifest := do
  Artifact.packageDirs.forM fun dir => Work.makeDirs (root.join dir)
  let m ← copyScaffold template root {}
  artifacts.foldlM (writeArtifact root) m

/-- what came of generating a project -/
structure Summary where
  classCount : Nat
  identityCount : Nat
  dropped : Nat
  artifacts : List Artifact
  manifest : Manifest

def generatedMessage (artifacts classes : Nat) : String :=
  "[SpringGenerator] Generated " ++ Nat.repr artifacts ++ " files for " ++ Nat.repr classes ++ " classes"

/-- the plan of a payload, its log reported -/
def plan (policy : Policy) (payload : Json) : Work Plan := do
  let d ← Work.ofExcept (loadDiagram payload)
  Work.reportAll (Plan.log policy d)
  match Plan.build policy d with
  | .error c => Work.fail (Fault.ofConflict c)
  | .ok p => pure p

/-- the project of a payload put at a path -/
def generate (template : Option Path) (policy : Policy) (payload : Json) (root : Path) : Work Summary := do
  let p ← plan policy payload
  let artifacts := Artifact.ofPlan p
  let m ← assemble template artifacts root
  Work.report (LogEntry.info (generatedMessage artifacts.length p.entities.length))
  pure ⟨p.entities.length, p.identityCount, p.dropped, artifacts, m⟩

end Project

end Classwright
