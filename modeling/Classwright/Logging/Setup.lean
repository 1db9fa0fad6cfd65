/-
Where log records go. The console gets records from the info level up; a log file, when one is set, gets all of them and
starts anew when it is full. In production records are JSON objects, elsewhere lines for people.

- `Logger.ofSettings`: the level and handlers that settings ask for;
- `Logger.consoleText`: what a record looks like on the console, if it gets there.
-/
import Classwright.Disk.Work
import Classwright.Json.Printer
import Classwright.Logging.Record
import Classwright.Settings.Basic

namespace Classwright

/-- the two ways of writing records -/
inductive LineFormat where
  | json
  | template (text : String)
  deriving DecidableEq, Repr

def LineFormat.render (f : LineFormat) (time : String) (t : Tracing) (r : Record) : Except Fault String :=
  match f with
  | .json => (r.toJson time t).map Json.spaced
  | .template text => r.toLine text t

/-- where records go: a log file is given with its size limit and the number of older ones that are kept -/
inductive Target where
  | console
  | file (path : Path) (limit older : Nat)
  deriving DecidableEq, Repr

structure Handler where
  target : Target
  level : Level
  format : LineFormat
  deriving DecidableEq, Repr

structure Logger where
  /-- the rank a record needs -/
  rank : Nat
  handlers : List Handler
  deriving DecidableEq, Repr

namespace Logger

def simpleTemplate : String := "%(levelname)-8s | [%(request_id)s] %(message)s"

def detailedTemplate : String :=
  "%(asctime)s | %(levelname)-8s | [%(request_id)s] [%(diagram_id)s] | %(funcName)s:%(lineno)d | %(message)s"

def fileLimit : Nat := 10485760

/-- other names of levels -/
def otherRanks : List (String × Nat) :=
  [("WARN", Level.warning.rank), ("FATAL", Level.critical.rank), ("NOTSET", 0)]

/-- words that are no names of levels and are refused rather than passed over -/
def refusedNames : List (String × Fault) :=
  [("BASIC_FORMAT", .badValue "Unknown level: '%(levelname)s:%(name)s:%(message)s'"), ("_STYLES", .wrongType)]

/-- the rank that a name in any case stands for; names that are not known stand for the info level -/
def rankOf (name : String) : Except Fault Nat :=
  let s := Text.upper name
  match Table.get? refusedNames s with
  | some f => .error f
  | none =>
    .ok (match Level.ofName? s with
      | some l => l.rank
      | none => (Table.get? otherRanks s).getD Level.info.rank)

def isProduction (s : Settings) : Bool := s.environment == "production"

def handlersOf (s : Settings) : List Handler :=
  let production := isProduction s
  let format := fun template => if production then LineFormat.json else .template template
  ⟨.console, .info, format simpleTemplate⟩ ::
    if s.logFile.isEmpty then []
    else [⟨.file (Path.ofString s.logFile) fileLimit (if production then 10 else 5), .debug, format detailedTemplate⟩]

def ofSettings (s : Settings) : Except Fault Logger := (rankOf s.logLevel).map fun rank => ⟨rank, handlersOf s⟩

/-- the log file made ready, with the directories above it -/
def openFile (h : Handler) : Work Unit :=
  match h.target with
  | .console => pure ()
  | .file path _ _ => do
    Work.makeDirs ⟨path.root, path.parts.dropLast⟩
    if ← Work.isDir path then Work.refuse .isDirectory path
    else if ← Work.exists? path then pure ()
    else Work.save path ByteArray.empty

/-- a logger that is ready for use -/
def setUp (s : Settings) : Work Logger := do
  let l ← Work.ofExcept (ofSettings s)
  l.handlers.forM openFile
  pure l

/-- a logger without a rank of its own takes that of the loggers above it -/
def effectiveRank (l : Logger) : Nat := if l.rank = 0 then Level.warning.rank else l.rank

def accepts (l : Logger) (h : Handler) (level : Level) : Bool :=
  decide (l.effectiveRank ≤ level.rank) && decide (h.level.rank ≤ level.rank)

/-- a record as it stands on the console -/
def consoleText (l : Logger) (time : String) (t : Tracing) (r : Record) : Option String :=
  match l.handlers.find? fun h => h.target == .console with
  | some h => if l.accepts h r.level then (h.format.render time t r).toOption else none
  | none => none

/-- loggers of others, which only report from the warning level up -/
def quietNames : List String := ["httpx", "httpcore", "uvicorn.access", "sqlalchemy.engine", "aiosqlite"]

def quietLevel : Level := .warning

end Logger

end Classwright
