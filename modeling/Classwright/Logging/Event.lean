/-
What the service logs about itself: answered requests, steps of a generation, failures, and how long things took.

An event is called with values in order and by name. Names that an event does not know become extra members of its record
and may take the place of the event's own, but not of an attribute that every record has.

- `Event.bind`: values matched with the parameters of an event;
- `Event.record`: the record of an event, or why it cannot be made.
-/
import Classwright.Logging.Record

namespace Classwright

inductive Event where
  | request
  | generation
  | failure
  | performance
  deriving DecidableEq, Repr

namespace Event

def all : List Event := [.request, .generation, .failure, .performance]

def name : Event → String
  | .request => "log_request"
  | .generation => "log_generation_event"
  | .failure => "log_error_with_context"
  | .performance => "log_performance"

def ofName? (s : String) : Option Event := all.find? fun e => e.name == s

/-- the parameters of an event, each with a default if it has one -/
def parameters : Event → List (String × Option Json)
  | .request => [("method", none), ("path", none), ("status_code", none), ("duration_ms", none)]
  | .generation => [("stage", none), ("event", none)]
  | .failure => [("error", none), ("context", some .null)]
  | .performance => [("operation", none), ("duration_ms", none), ("threshold_ms", some (.int 1000))]

/-- values for parameters: in order first, then by name, then by default. A value given twice or not at all is refused -/
def bind : List (String × Option Json) → List Json → Members → Except Fault (List Json)
  | [], [], _ => .ok []
  | [], _ :: _, _ => .error .wrongType
  | (name, _) :: ps, x :: xs, named =>
    if named.has name then .error .wrongType else (bind ps xs named).map (x :: ·)
  | (name, other) :: ps, [], named =>
    match (named.get? name).orElse fun _ => other with
    | some x => (bind ps [] named).map (x :: ·)
    | none => .error .wrongType

/-- the named values that are no parameters -/
def extras (e : Event) (named : Members) : Members :=
  named.filter fun m => !(e.parameters.map Prod.fst).contains m.1

/-! ## Numbers -/

/-- a number as a fraction that is exact; nothing for what is no number or not finite -/
def fraction? : Json → Option (Int × Nat)
  | .int n => some (n, 1)
  | .bool b => some (if b then 1 else 0, 1)
  | .real x =>
    match x.value with
    | .finite neg m q =>
      let r := Binary64.ratio m q
      some (Binary64.signed neg r.1, r.2)
    | _ => none
  | _ => none

/-- `a < b` for numbers; an infinity is compared by its sign -/
def lessNumber (a b : Json) : Option Bool :=
  match fraction? a, fraction? b with
  | some x, some y => some (decide (x.1 * y.2 < y.1 * x.2))
  | _, _ =>
    match Template.realOf a, Template.realOf b with
    | .ok x, .ok y => some (x.less y)
    | _, _ => none

/-- `a < b` for numbers and for texts -/
def less (a b : Json) : Except Fault Bool :=
  match a, b with
  | .str s, .str t => .ok (decide (s < t))
  | _, _ =>
    match lessNumber a b with
    | some r => .ok r
    | none => .error .wrongType

/-- a number with two places -/
def twoPlaces (j : Json) : Except Fault String :=
  match j with
  | .str _ => .error (.badValue "Unknown format code 'f' for object of type 'str'")
  | _ => (Template.realOf j).map (Binary64.fixedText 2)

/-! ## Records -/

def requestLevel (status : Json) : Except Fault Level := do
  if !(← less status (.int 500)) then pure .error
  else if !(← less status (.int 400)) then pure .warning
  else pure .info

/-- a record with the extra members of an event; a name that every record has is refused -/
def build (level : Level) (message : String) (outcome : Outcome) (own named : Members) : Except Fault Record :=
  let extra := Members.update own named
  match extra.find? fun m => Record.isTaken m.1 with
  | some m => .error (.noKey m.1)
  | none => .ok { level := level, message := .str message, outcome := outcome, extra := extra }

def requestRecord (method path status duration : Json) (named : Members) : Except Fault Record := do
  let level ← requestLevel status
  let time ← twoPlaces duration
  build level
    ("← " ++ method.display ++ " " ++ path.display ++ " - " ++ status.display ++ " (" ++ time ++ "ms)") .unmentioned
    [("event_type", .str "http_request"), ("http_method", method), ("http_path", path), ("http_status", status),
     ("duration_ms", duration)] named

def generationRecord (stage event : Json) (named : Members) : Except Fault Record :=
  build .info ("[" ++ stage.display ++ "] " ++ event.display) .unmentioned
    [("event_type", .str "generation"), ("generation_stage", stage), ("generation_event", event)] named

/-- the record of a failure, which is given beside the values -/
def failureRecord (raised : Raised) (context : Json) (named : Members) : Except Fault Record :=
  build .error ("Error in " ++ context.display ++ ": " ++ raised.kind.name ++ ": " ++ raised.text) .none
    [("event_type", .str "error"), ("error_type", .str raised.kind.name), ("error_message", .str raised.text),
     ("error_context", context)] named

def performanceRecord (operation duration threshold : Json) (named : Members) : Except Fault Record := do
  let exceeded ← less threshold duration
  let time ← twoPlaces duration
  build (if exceeded then .warning else .debug)
    ("Performance: " ++ operation.display ++ " took " ++ time ++ "ms" ++
      (if exceeded then " (threshold: " ++ threshold.display ++ "ms)" else "")) .unmentioned
    [("event_type", .str "performance"), ("operation", operation), ("duration_ms", duration),
     ("threshold_ms", threshold), ("exceeded_threshold", .bool exceeded)] named

/-- a failure given as a list: the name of its kind, then its values -/
def raisedOf : Json → Except Fault Raised
  | .arr (.str name :: args) =>
    match RaisedKind.ofName? name with
    | some kind => Raised.make? kind args
    | none => .error (.noKey name)
  | _ => .error .wrongType

/-- the record of an event -/
def record (e : Event) (args : List Json) (named : Members) : Except Fault Record := do
  let values ← bind e.parameters args named
  let more := e.extras named
  match e, values with
  | .request, [method, path, status, duration] => requestRecord method path status duration more
  | .generation, [stage, event] => generationRecord stage event more
  | .failure, [error, context] => failureRecord (← raisedOf error) context more
  | .performance, [operation, duration, threshold] => performanceRecord operation duration threshold more
  | _, _ => .error .wrongType

end Event

end Classwright
