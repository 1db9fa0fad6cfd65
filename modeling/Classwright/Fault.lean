/-
Failures.

- `ServiceError`: a failure of the service with its code, status and details, as it is reported to a client. The kinds
  form a small hierarchy; `ErrorKind.lineage` lists a kind and those above it;
- `ServiceError.make?`: an error of a kind from the values it is given, which may be of any type;
- `Fault`: everything that can end an operation: an error of the service, refused settings, a value of the wrong sort,
  or a file system that says no.
-/
import Classwright.Disk.Basic
import Classwright.Plan.Session
import Classwright.Diagram.Reader

namespace Classwright

inductive ErrorKind where
  | general
  | notFound
  | diagramNotFound
  | validation
  | diagramInvalid
  | generation
  | conflict
  | templateUnavailable
  | archive
  | emptyArchive
  deriving DecidableEq, Repr

namespace ErrorKind

def all : List ErrorKind :=
  [.general, .notFound, .diagramNotFound, .validation, .diagramInvalid, .generation, .conflict, .templateUnavailable,
   .archive, .emptyArchive]

/-- the name a kind is reported under -/
def name : ErrorKind → String
  | .general => "DiagramForgeError"
  | .notFound => "ResourceNotFoundError"
  | .diagramNotFound => "DiagramNotFoundError"
  | .validation => "ValidationError"
  | .diagramInvalid => "DiagramValidationError"
  | .generation => "CodeGenerationError"
  | .conflict => "ModelConflictError"
  | .templateUnavailable => "TemplateUnavailableError"
  | .archive => "ArchiveError"
  | .emptyArchive => "EmptyArchiveError"

def ofName? (s : String) : Option ErrorKind := all.find? fun k => k.name == s

/-- a kind and the kinds above it, up to the general one -/
def lineage : ErrorKind → List ErrorKind
  | .general => [.general]
  | .notFound => [.notFound, .general]
  | .diagramNotFound => [.diagramNotFound, .notFound, .general]
  | .validation => [.validation, .general]
  | .diagramInvalid => [.diagramInvalid, .validation, .general]
  | .generation => [.generation, .general]
  | .conflict => [.conflict, .generation, .general]
  | .templateUnavailable => [.templateUnavailable, .generation, .general]
  | .archive => [.archive, .general]
  | .emptyArchive => [.emptyArchive, .archive, .general]

/-- the status a client sees -/
def status : ErrorKind → Nat
  | .notFound | .diagramNotFound => 404
  | .validation | .diagramInvalid => 422
  | .conflict => 409
  | _ => 500

end ErrorKind

/-- a failure as it is reported; message, code and details are as given and need not be texts -/
structure ServiceError where
  kind : ErrorKind
  message : Json
  code : Json
  details : Json

/-- what ends an operation -/
inductive Fault where
  | service (e : ServiceError)
  /-- refused settings or fields -/
  | invalid (problems : List Problem)
  | badValue (message : String)
  /-- a value of a type that the operation does not take -/
  | wrongType
  /-- a value that lacks what the operation asks of it -/
  | noMember
  /-- a name that is not known -/
  | noKey (key : String)
  | tooLarge
  /-- a request that is not catered for -/
  | unsupported
  | disk (d : DiskFault)
  /-- work broken off from inside -/
  | halted (message : String)

namespace ServiceError

def status (e : ServiceError) : Nat := e.kind.status

def text (e : ServiceError) : String := e.message.display

/-- the error as it is sent to a client -/
def toJson (e : ServiceError) : Json :=
  .obj [("code", e.code), ("message", e.message), ("details", e.details)]

def response (e : ServiceError) : Json := .obj [("success", .bool false), ("error", e.toJson)]

/-- a value that counts as present, else an empty object -/
def orEmpty (j : Json) : Json := if j.truthy then j else .obj []

/-- a member that is left out when its value does not count as present -/
def presentMember (key : String) (j : Json) : Members := if j.truthy then [(key, j)] else []

def notFound (kind : ErrorKind) (type : String) (typeValue id : Json) : ServiceError :=
  ⟨kind, .str (type ++ " with id " ++ id.display ++ " not found"), .str (Text.upper type ++ "_NOT_FOUND"),
    .obj [("resource_type", typeValue), ("resource_id", id)]⟩

def diagramNotFound (id : Json) : ServiceError := notFound .diagramNotFound "Diagram" (.str "Diagram") id

/-- the sentence that counts the problems of a diagram -/
def invalidMessage (count : Nat) : String :=
  "Diagram model is invalid (" ++ Nat.repr count ++ " error" ++ (if count = 1 then "" else "s") ++ ")"

def invalid (count : Nat) (errors : Json) : ServiceError :=
  ⟨.diagramInvalid, .str (invalidMessage count), .str "INVALID_DIAGRAM_MODEL", .obj [("errors", errors)]⟩

/-- the problems of a diagram as an error -/
def ofProblems (ps : List Problem) : ServiceError := invalid ps.length (.arr (ps.map (Problem.toJson "model")))

def conflict (kind className previous current : Json) : ServiceError :=
  ⟨.conflict,
    .str (className.display ++ " is the target of more than one " ++ kind.display ++ " edge (" ++ previous.display ++
      " and " ++ current.display ++ ")"),
    .str "MODEL_CONFLICT",
    .obj (presentMember "class_name" className ++ [("kind", kind), ("previous", previous), ("current", current)])⟩

def ofConflict (c : Conflict) : ServiceError :=
  conflict (.str c.kind.tag) (.str c.className) (.str c.previous) (.str c.current)

def templateUnavailable (dir reason : Json) : ServiceError :=
  ⟨.templateUnavailable, .str ("Project template at " ++ dir.display ++ " is unusable: " ++ reason.display),
    .str "TEMPLATE_UNAVAILABLE", .obj [("template_dir", dir)]⟩

def archive (message path : Json) : ServiceError :=
  ⟨.archive, message, .str "ARCHIVE_ERROR", .obj (presentMember "archive_path" path)⟩

def emptyArchive (path : Json) : ServiceError :=
  ⟨.emptyArchive, .str "Generated zip is empty", .str "EMPTY_ARCHIVE", .obj (presentMember "archive_path" path)⟩

/-- the number of elements of a value that has elements -/
def size? : Json → Option Nat
  | .str s => some s.length
  | .arr items => some items.length
  | .obj members => some members.length
  | _ => none

/-- an error of a kind from the values it takes; a wrong number of values is refused -/
def make? (kind : ErrorKind) (args : List Json) : Except Fault ServiceError :=
  match kind, args with
  | .general, [m] => .ok ⟨.general, m, .str "INTERNAL_ERROR", .obj []⟩
  | .general, [m, code] => .ok ⟨.general, m, code, .obj []⟩
  | .general, [m, code, details] => .ok ⟨.general, m, code, orEmpty details⟩
  | .notFound, [type, id] =>
    match type with
    | .str s => .ok (notFound .notFound s type id)
    | _ => .error .noMember
  | .diagramNotFound, [id] => .ok (diagramNotFound id)
  | .validation, [m] => .ok ⟨.validation, m, .str "VALIDATION_ERROR", .obj []⟩
  | .validation, [m, field] => .ok ⟨.validation, m, .str "VALIDATION_ERROR", .obj (presentMember "field" field)⟩
  | .diagramInvalid, [errors] =>
    match size? errors with
    | some n => .ok (invalid n errors)
    | none => .error .wrongType
  | .generation, [m] => .ok ⟨.generation, m, .str "CODE_GENERATION_FAILED", .obj []⟩
  | .generation, [m, name] =>
    .ok ⟨.generation, m, .str "CODE_GENERATION_FAILED", .obj (presentMember "class_name" name)⟩
  | .conflict, [kind, name, previous, current] => .ok (conflict kind name previous current)
  | .templateUnavailable, [dir, reason] => .ok (templateUnavailable dir reason)
  | .archive, [m] => .ok (archive m .null)
  | .archive, [m, path] => .ok (archive m path)
  | .emptyArchive, [path] => .ok (emptyArchive path)
  | _, _ => .error .wrongType

end ServiceError

namespace Fault

/-- a fault in words -/
def text : Fault → String
  | .service e => e.text
  | .invalid ps => Nat.repr ps.length ++ " validation errors"
  | .badValue message => message
  | .wrongType => "unsupported type"
  | .noMember => "no such attribute"
  | .noKey key => Text.quoted key
  | .tooLarge => "number too large"
  | .unsupported => "Non-relative patterns are unsupported"
  | .disk d => d.message
  | .halted message => message

def ofProblems (ps : List Problem) : Fault := .service (ServiceError.ofProblems ps)

def ofConflict (c : Conflict) : Fault := .service (ServiceError.ofConflict c)

end Fault

/-- a diagram from a payload, or the error that lists its problems -/
def loadDiagram (payload : Json) : Except Fault Diagram :=
  match Diagram.read payload with
  | .ok d => .ok d
  | .error ps => .error (Fault.ofProblems ps)

end Classwright
