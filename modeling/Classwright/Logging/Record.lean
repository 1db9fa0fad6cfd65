/-
Log records and the two ways of writing them: a JSON object for machines, a line made from a template for people.

- `Raised`: a failure that a record reports, with its text;
- `Record.message`: the message with its values put in;
- `Record.toJson`: known members first, then every extra one whose name is neither reserved nor private;
- `Record.toLine`: a template filled with the attributes of a record, the failure on lines below.
-/
import Classwright.Log
import Classwright.Logging.Template

namespace Classwright

/-! ## Failures -/

inductive RaisedKind where
  | badValue
  | runtime
  | missingKey
  | emptyArchive
  deriving DecidableEq, Repr

namespace RaisedKind

def all : List RaisedKind := [.badValue, .runtime, .missingKey, .emptyArchive]

/-- the name a failure is reported under -/
def name : RaisedKind → String
  | .badValue => "ValueError"
  | .runtime => "RuntimeError"
  | .missingKey => "KeyError"
  | .emptyArchive => ErrorKind.emptyArchive.name

/-- the name with where it is at home -/
def fullName : RaisedKind → String
  | .emptyArchive => "app.core.exceptions." ++ ErrorKind.emptyArchive.name
  | k => k.name

def ofName? (s : String) : Option RaisedKind := all.find? fun k => k.name == s

end RaisedKind

/-- a failure with the values it was made from -/
structure Raised where
  kind : RaisedKind
  args : List Json

namespace Raised

/-- a failure from values; a wrong number of them is refused where it matters -/
def make? (kind : RaisedKind) (args : List Json) : Except Fault Raised :=
  match kind, args with
  | .emptyArchive, [_] => .ok ⟨kind, args⟩
  | .emptyArchive, _ => .error .wrongType
  | _, _ => .ok ⟨kind, args⟩

/-- values in parentheses, with a comma behind a single one -/
def tupleText : List Json → String
  | [] => "()"
  | [j] => "(" ++ j.literal ++ ",)"
  | js => "(" ++ Text.joinWith ", " (js.map Json.literal) ++ ")"

def text (r : Raised) : String :=
  match r.kind, r.args with
  | .emptyArchive, _ => "Generated zip is empty"
  | _, [] => ""
  | .missingKey, [j] => j.literal
  | _, [j] => j.display
  | _, js => tupleText js

/-- the last line of a report: the kind, and the text if there is one -/
def reportLine (r : Raised) : String :=
  let s := r.text
  if s.isEmpty then r.kind.fullName else r.kind.fullName ++ ": " ++ s

end Raised

/-! ## Records -/

/-- the ids that are known while a request is answered -/
structure Tracing where
  requestId : String := ""
  diagramId : String := ""
  deriving DecidableEq, Repr

/-- what a record says about a failure: nothing, that there was none, or which it was -/
inductive Outcome where
  | unmentioned
  | none
  | raised (r : Raised)

structure Record where
  level : Level
  message : Json
  args : List Json := []
  path : Json := .null
  line : Json := .null
  function : Json := .null
  outcome : Outcome := .unmentioned
  extra : Members := []

namespace Record

def loggerName : String := "diagramforge"

/-- the last name of a path -/
def fileName (s : String) : String := ((Text.splitOn '/' s).getLast?).getD s

/-- a file name without its extension; dots at its start belong to the name -/
def stem (s : String) : String :=
  let cs := s.toList
  let dots := cs.takeWhile (· == '.')
  let rest := cs.drop dots.length
  if rest.contains '.' then
    let extension := rest.reverse.takeWhile (· != '.')
    String.ofList (cs.take (cs.length - extension.length - 1))
  else s

def moduleOf (path : Json) : Json :=
  match path with
  | .str s => .str (stem (fileName s))
  | _ => .str "Unknown module"

def fileOf (path : Json) : Json :=
  match path with
  | .str s => .str (fileName s)
  | j => j

/-- the names every record has an attribute for -/
def ownNames : List String :=
  ["name", "msg", "args", "levelname", "levelno", "pathname", "filename", "module", "exc_info", "exc_text", "stack_info",
   "lineno", "funcName", "created", "msecs", "relativeCreated", "thread", "threadName", "processName", "process"]

/-- names that are not written with the extra members -/
def reservedNames : List String := ownNames ++ ["message", "taskName", "request_id", "diagram_id"]

/-- names no extra member may have when a record is made -/
def isTaken (name : String) : Bool := ownNames.contains name || name == "message" || name == "asctime"

/-- the attributes of a record, with extra members in the place of its own -/
def attributes (r : Record) : Members :=
  Members.update
    [("name", .str loggerName), ("msg", r.message), ("args", .str (Raised.tupleText r.args)),
     ("levelname", .str r.level.name), ("levelno", .int r.level.rank), ("pathname", r.path),
     ("filename", fileOf r.path), ("module", moduleOf r.path), ("exc_text", .null), ("stack_info", .null),
     ("lineno", r.line), ("funcName", r.function), ("threadName", .str "MainThread"),
     ("processName", .str "MainProcess")]
    r.extra

def valueOf (r : Record) (name : String) : Json := (r.attributes.get? name).getD .null

/-- the values for the message: one object alone gives them by name -/
def valuesOf : List Json → Option Template.Values
  | [] => none
  | [.obj (m :: ms)] => some (.byName (m :: ms))
  | js => some (.inOrder js)

/-- the message with its values; without values it is left as it is -/
def fullMessage (r : Record) : Except Fault String :=
  let s := (r.valueOf "msg").display
  match valuesOf r.args with
  | some values => Template.fill s values
  | none => .ok s

/-! ## As a JSON object -/

def outcomeJson : Outcome → Members
  | .unmentioned => []
  | .none => [("exception", .obj [("type", .null), ("message", .null), ("traceback", .null)])]
  | .raised r =>
    [("exception", .obj [("type", .str r.kind.name), ("message", .str r.text),
      ("traceback", .arr [.str (r.reportLine ++ "\n")])])]

def idMember (name id : String) : Members := if id.isEmpty then [] else [(name, .str id)]

def isExtra (name : String) : Bool := !reservedNames.contains name && name.toList.head? != some '_'

def toJson (time : String) (t : Tracing) (r : Record) : Except Fault Json :=
  match r.fullMessage with
  | .error f => .error f
  | .ok message =>
    .ok (.obj (Members.update
      ([("timestamp", .str time), ("level", r.valueOf "levelname"), ("logger", r.valueOf "name"),
        ("message", .str message), ("module", r.valueOf "module"), ("function", r.valueOf "funcName"),
        ("line", r.valueOf "lineno")] ++
        idMember "request_id" t.requestId ++ idMember "diagram_id" t.diagramId ++ outcomeJson r.outcome)
      (r.extra.filter fun m => isExtra m.1)))

/-! ## As a line -/

def orDash (id : String) : Json := .str (if id.isEmpty then "-" else id)

/-- what stands below a line -/
def outcomeText : Outcome → Option String
  | .unmentioned => none
  | .none => some "NoneType: None"
  | .raised r => some r.reportLine

/-- two texts on lines of their own -/
def below (s more : String) : String := if s.toList.getLast? = some '\n' then s ++ more else s ++ "\n" ++ more

def defaultTemplate : String := "%(message)s"

def malformed (template : String) : Fault := .badValue ("Invalid format '" ++ template ++ "' for '%' style")

/-- a template filled with a record; one without a named place is refused before anything else -/
def toLine (template : String) (t : Tracing) (r : Record) : Except Fault String :=
  let template := if template.isEmpty then defaultTemplate else template
  if !Template.hasNamedPlace template.toList then .error (malformed template)
  else
    match r.fullMessage with
    | .error f => .error f
    | .ok message =>
      let attributes := Members.update r.attributes
        [("request_id", orDash t.requestId), ("diagram_id", orDash t.diagramId), ("message", .str message)]
      match Template.fill template (.byName attributes) with
      | .error (.noKey key) => .error (.badValue ("Formatting field not found in record: " ++ Text.quoted key))
      | .error f => .error f
      | .ok line =>
        match outcomeText r.outcome with
        | some more => .ok (below line more)
        | none => .ok line

end Record

end Classwright
