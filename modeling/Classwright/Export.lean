/-
A diagram's project as an archive: generated into a workspace and packed beside it.
-/
import Classwright.Archive.Basic
import Classwright.Project
import Classwright.Workspace

namespace Classwright.Export

/-- the project of a payload in a workspace that was entered, and its archive -/
def build (template : Option Path) (policy : Policy) (level : Int) (payload : Json) (w : Workspace) :
    Work (Project.Summary × Archive.Result) := do
  let s ← Project.generate template policy payload w.projectDir
  let a ← Archive.create level w.projectDir w.archivePath
  pure (s, a)

/-- work in a workspace that is entered before it and released after it, whichever way it ends -/
def within {α : Type} (w : Workspace) (body : Work α) : Work α := do
  w.enter
  Work.always body (do Work.ofExcept (← w.release).1)

/-- work in a workspace that stays when the work succeeds, and is released when it fails -/
def keeping {α : Type} (w : Workspace) (body : Work α) : Work α := do
  w.enter
  match ← Work.attempt body with
  | .ok a => pure a
  | .error f => do
    Work.ofExcept (← w.release).1
    Work.fail f

end Classwright.Export
