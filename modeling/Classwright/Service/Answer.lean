/-
Answers to requests.

A request passes three layers: the outermost turns what nobody caught into a plain answer, the next tells browsers which
origins may read the answer, and the innermost gives the request an id and writes the access log.

- `Host.respond`: what an endpoint answers;
- `Host.answer`: the answer with all layers around it;
- `Host.boot`: what is done before the first request.
-/
import Classwright.Collection
import Classwright.Export
import Classwright.Service.Paths
import Classwright.Service.Request
import Classwright.Service.Route
import Classwright.Service.Store
import Classwright.Settings.InUse

namespace Classwright.Service

inductive Body where
  | none
  | json (j : Json)
  | bytes (bs : List UInt8)

structure Response where
  status : Nat
  headers : List (String × String) := []
  body : Body := .none

namespace Response

def ofJson (status : Nat) (j : Json) (headers : List (String × String)) : Response :=
  ⟨status, headers ++ [("content-type", "application/json")], .json j⟩

def detail (status : Nat) (text : String) (headers : List (String × String)) : Response :=
  ofJson status (.obj [("detail", .str text)]) headers

end Response

/-- one line of the access log -/
structure Access where
  level : Level
  method : String
  path : String
  status : Nat
  streaming : Bool
  requestId : String
  deriving DecidableEq, Repr

/-- an answer; what nobody caught has neither an id nor a line in the access log -/
structure Reply where
  response : Response
  requestId : Option String
  access : List Access

/-- a service at work: its settings and what it has stored -/
structure Host where
  settings : Settings
  /-- the origins whose pages may read answers, as they were set when the service was put together -/
  origins : List String
  store : List StoredDiagram

namespace Host

/-! ## Health -/

def version : String := "1.0.0"

def healthBody (s : Settings) : Json :=
  .obj [("status", .str "healthy"), ("app_name", .str s.appName), ("version", .str version),
    ("environment", .str s.environment)]

def welcomeBody (s : Settings) : Json :=
  .obj [("message", .str ("Welcome to " ++ s.appName)), ("version", .str version), ("docs", .str "/docs"),
    ("health", .str "/health")]

def check (status : String) (path : Path) (message : Members) : Json :=
  .obj ([("status", .str status), ("path", .str path.toString)] ++ message)

/-- the scaffold may be missing; projects are then generated without it -/
def checkTemplate (s : Settings) : Work Json := do
  let p := s.templateRoot
  if ← Work.isDir p then pure (check "healthy" p [])
  else
    pure (check "degraded" p
      [("message", .str "Scaffold not found; generated projects will contain sources only")])

def checkScratch (s : Settings) : Work (Bool × Json) := do
  let p := s.scratchRoot
  if ← Work.isDir p then pure (true, check "healthy" p [])
  else pure (false, check "unhealthy" p [("message", .str "Scratch directory not writable")])

/-- the file of a database that is kept in a file -/
def databaseFile? (url : String) : Option Path :=
  (Text.dropPrefix? "sqlite+aiosqlite:///".toList (Settings.driverUrl url).toList).map fun cs =>
    Path.ofString (String.ofList (cs.takeWhile (· != '?')))

/-- whether a database can be reached: one in a file needs the directory of that file -/
def databaseWorks (s : Settings) : Work Bool := do
  match databaseFile? s.databaseUrl with
  | some p => do
    let above ← Work.isDir ⟨p.root, p.parts.dropLast⟩
    let blocked ← Work.isDir p
    pure (p.parts.isEmpty || (above && !blocked))
  | none => pure false

def readiness (s : Settings) : Work Response := do
  let database ← databaseWorks s
  let template ← checkTemplate s
  let (scratch, scratchCheck) ← checkScratch s
  let ready := database && scratch
  pure (Response.ofJson (if ready then 200 else 503)
    (.obj [("status", .str (if ready then "ready" else "not_ready")),
      ("checks", .obj [("database", .obj [("status", .str (if database then "healthy" else "unhealthy"))]),
        ("template", template), ("scratch", scratchCheck)])]) [])

/-! ## Exports -/

/-- the longest run at the start of a text outside the character set of headers -/
def foreignRun (cs : List Char) : List Char := cs.takeWhile fun c => 256 ≤ c.toNat

def escapedChar (c : Char) : String :=
  let n := c.toNat
  if n < 0x10000 then String.ofList ('\\' :: 'u' :: Text.hexDigits 4 n)
  else String.ofList ('\\' :: 'U' :: Text.hexDigits 8 n)

/-- why a header cannot have a value: the first characters that cannot be written -/
def headerFault? (value : String) : Option Fault :=
  let cs := value.toList
  let start := (cs.takeWhile fun c => c.toNat < 256).length
  match foreignRun (cs.drop start) with
  | [] => none
  | [c] =>
    some (.badValue ("'latin-1' codec can't encode character '" ++ escapedChar c ++ "' in position " ++
      Nat.repr start ++ ": ordinal not in range(256)"))
  | run =>
    some (.badValue ("'latin-1' codec can't encode characters in position " ++ Nat.repr start ++ "-" ++
      Nat.repr (start + run.length - 1) ++ ": ordinal not in range(256)"))

def attachment (name : String) : String := "attachment; filename=\"" ++ name ++ "\""

/-- the archive of a payload's project. From the moment it is complete the stream owns the workspace -/
def archiveResponse (s : Settings) (payload : Json) : Work Response := do
  let w ← Workspace.allocate s.scratchRoot s.scratchPrefix ""
  let (_, a) ← Export.keeping w
    (Export.build (some s.templateRoot) s.policy s.compressionLevel payload w)
  let disposition := attachment s.archiveName
  match headerFault? disposition with
  | some f => Work.fail f
  | none => do
    let (chunks, _) ← w.stream s.chunkSize none
    pure ⟨200,
      [("content-disposition", disposition), ("content-length", Nat.repr a.size),
       ("x-archive-entries", Nat.repr a.entries.length), ("content-type", "application/zip")],
      .bytes ((chunks.toOption.getD []).flatten)⟩

def collectionFile : String := "collection.postman_collection.json"

def collectionResponse (s : Settings) (payload : Json) : Work Response := do
  let d ← Work.ofExcept (loadDiagram payload)
  let (c, log) := Collection.ofDiagram s.collectionName s.collectionUrl d
  Work.reportAll log
  pure (Response.ofJson 200 c.toJson [("content-disposition", attachment collectionFile)])

/-- what a database that cannot be reached says -/
def unreachable : Fault := .halted "(sqlite3.OperationalError) unable to open database file"

/-- the payload of a stored diagram -/
def storedPayload (v : Host) (id : String) : Work Json := do
  if ← databaseWorks v.settings then
    match StoredDiagram.find? v.store id with
    | some d => pure d.payload
    | none => Work.fail (.service (ServiceError.diagramNotFound (.str id)))
  else Work.fail unreachable

/-- an answer from the payload in a body, or the one that refuses the body. A refusal shows the body, so one whose numbers
are not finite cannot be written -/
def fromBody (r : Request) (answer : Json → Work Response) : Work Response :=
  match r.payload with
  | .ok j => answer (Diagram.unwrap j)
  | .error refusal =>
    if refusal.isStandard then pure (Response.ofJson 422 refusal [])
    else Work.fail (.badValue "Out of range float values are not JSON compliant")

/-- what an endpoint answers -/
def respond (v : Host) (r : Request) : Endpoint → Work Response
  | .health => pure (Response.ofJson 200 (healthBody v.settings) [])
  | .welcome => pure (Response.ofJson 200 (welcomeBody v.settings) [])
  | .live => pure (Response.ofJson 200 (.obj [("status", .str "alive")]) [])
  | .ready => readiness v.settings
  | .archiveFromBody => fromBody r (archiveResponse v.settings)
  | .archiveFromStore id => do archiveResponse v.settings (← v.storedPayload id)
  | .collectionFromBody => fromBody r (collectionResponse v.settings)
  | .collectionFromStore id => do collectionResponse v.settings (← v.storedPayload id)

/-! ## Layers -/

/-- what a route answers; an error of the service is an answer of its own -/
def routed (v : Host) (r : Request) : Work Response := do
  match Route.of r.method r.path with
  | .nowhere => pure (Response.detail 404 "Not Found" [])
  | .wrongMethod allowed => pure (Response.detail 405 "Method Not Allowed" [("allow", allowed)])
  | .redirect path => pure ⟨307, [("location", path)], .none⟩
  | .to e =>
    match ← Work.attempt (v.respond r e) with
    | .ok response => pure response
    | .error (.service err) => pure (Response.ofJson err.status err.response [])
    | .error f => Work.fail f

/-- an id for a request that came without one: eight hexadecimal digits -/
def freshId : Work String := do pure (String.ofList (Text.hexDigits 8 (← Work.nextSerial)))

def requestIdOf (r : Request) : Work String :=
  match r.header? "x-request-id" with
  | some id => if id.isEmpty then freshId else pure id
  | none => freshId

def statusLevel (status : Nat) : Level := if 500 ≤ status then .error else if 400 ≤ status then .warning else .info

/-- the answer with its id and its line in the access log -/
def logged (v : Host) (r : Request) : Work Reply := do
  let id ← requestIdOf r
  let response ← v.routed r
  let path := r.shownPath
  let line : Access := ⟨statusLevel response.status, r.method, path, response.status, isStreaming path, id⟩
  pure ⟨response, some id, if isQuiet path then [] else [line]⟩

def exposedHeaders : String := "Content-Disposition, X-Request-ID, X-Response-Time, X-Archive-Entries"

/-- what a browser is told about an answer when it names the origin of a page -/
def originHeaders (v : Host) (r : Request) : List (String × String) :=
  match r.header? "origin" with
  | none => []
  | some origin =>
    [("access-control-allow-credentials", "true"), ("access-control-expose-headers", exposedHeaders)] ++
      if v.origins.contains origin then [("access-control-allow-origin", origin)] else []

/-- the answer to what nobody caught -/
def internalError (s : Settings) (f : Fault) : Response :=
  Response.ofJson 500
    (.obj [("detail", .str "Internal server error"),
      ("message", .str (if s.debug then f.text else "An error occurred"))]) []

/-- the answer to a request -/
def answer (v : Host) (r : Request) : Work Reply := do
  match ← Work.attempt (v.logged r) with
  | .ok reply =>
    pure { reply with response := { reply.response with headers := reply.response.headers ++ v.originHeaders r } }
  | .error f => pure ⟨internalError v.settings f, none, []⟩

/-! ## Start -/

/-- the age at which what an earlier process left behind is removed, in microseconds -/
def leftoverAge : Int := 3600 * 1000000

/-- what is done before the first request -/
def boot (s : Settings) : Work Nat := Workspace.purge s.scratchRoot s.scratchPrefix leftoverAge

/-- the origins in settings that are texts -/
def originsOfSettings (s : Settings) : List String := (s.origins.items?.getD []).filterMap Json.str?

end Host

end Classwright.Service
