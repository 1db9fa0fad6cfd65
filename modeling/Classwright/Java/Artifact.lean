/-
The files of a project that are generated from its entities: four for each class, one more for a composite key. The same
entities give the same files, in the same order.
-/
import Classwright.Java.Entity
import Classwright.Java.Layers
import Classwright.Path
import Classwright.Plan.Basic

namespace Classwright

/-- a generated file, its path seen from the project's root -/
structure Artifact where
  path : Path
  className : String
  content : String
  deriving DecidableEq, Repr

namespace Artifact

/-- the directory of the base package -/
def sourceRoot : Path := ⟨"", ["src", "main", "java", "com", "example", "demo"]⟩

def modelDir : Path := sourceRoot.child "model"

def repositoryDir : Path := sourceRoot.child "repository"

def serviceDir : Path := sourceRoot.child "service"

def controllerDir : Path := sourceRoot.child "controller"

def packageDirs : List Path := [modelDir, repositoryDir, serviceDir, controllerDir]

/-- the files of one class -/
def ofEntity (e : Entity) : List Artifact :=
  [⟨modelDir.child (e.name ++ ".java"), e.name, Java.renderEntity e⟩,
   ⟨repositoryDir.child (e.name ++ "Repository.java"), e.name, Java.renderRepository e.name⟩,
   ⟨serviceDir.child (e.name ++ "Service.java"), e.name, Java.renderService e.name⟩,
   ⟨controllerDir.child (e.name ++ "Controller.java"), e.name, Java.renderController e⟩] ++
  match e.identity with
  | some i => [⟨modelDir.child (i.idClassName ++ ".java"), e.name, Java.renderId i⟩]
  | none => []

def ofEntities (es : List Entity) : List Artifact := es.flatMap ofEntity

def ofPlan (p : Plan) : List Artifact := ofEntities p.entities

end Artifact

/-- the files generated for a diagram -/
def render (policy : Policy) (d : Diagram) : Except Conflict (List Artifact) :=
  match Plan.build policy d with
  | .error c => .error c
  | .ok p => .ok (Artifact.ofPlan p)

theorem artifacts_of_render {policy : Policy} {d : Diagram} {as : List Artifact} (h : render policy d = .ok as) :
    ∃ p, Plan.build policy d = .ok p ∧ as = Artifact.ofPlan p := by
  unfold render at h
  cases hp : Plan.build policy d with
  | error c => rw [hp] at h; cases h
  | ok p => rw [hp] at h; cases h; exact ⟨p, rfl, rfl⟩

theorem render_of_build {policy : Policy} {d : Diagram} {p : Plan} (h : Plan.build policy d = .ok p) :
    render policy d = .ok (Artifact.ofPlan p) := by
  unfold render
  rw [h]

end Classwright
