/-
The settings of the service: their names, defaults and checks, and the sources they are taken from.

What is given directly counts before the environment, the environment before a file of variables, and that before the
default. Names are taken as they are written; names that are not known are passed over.

- `Settings.read`: settings from the three sources, or every problem in them, in the order of the fields;
- `Settings.templatePath`, `Settings.scratchPath`, `Settings.origins`, `Settings.connectionUrl`: what follows from them.
-/
import Classwright.Origins
import Classwright.Path
import Classwright.Problem
import Classwright.Settings.EnvFile

namespace Classwright

structure Settings where
  appName : String := "DiagramForge"
  environment : String := "development"
  debug : Bool := true
  apiVersion : String := "v1"
  serverHost : String := "0.0.0.0"
  serverPort : Int := 8000
  originList : String := "http://localhost:3000,http://localhost:5173"
  databaseUrl : String := "sqlite+aiosqlite:///./diagramforge.db"
  databaseEcho : Bool := false
  logLevel : String := "INFO"
  /-- no log file when empty -/
  logFile : String := ""
  /-- the packaged scaffold when absent -/
  templateDir : Option String := none
  /-- a directory of the system when absent -/
  scratchDir : Option String := none
  scratchPrefix : String := "generated-demo"
  archiveName : String := "demo_generated.zip"
  chunkSize : Int := 8192
  compressionLevel : Int := 9
  conflictPolicy : String := "last_wins"
  collectionName : String := "Generated API Collections"
  collectionUrl : String := "http://localhost:8080"
  deriving DecidableEq, Repr

namespace Settings

def standard : Settings := {}

/-- where values come from: each source gives a value for a name or none -/
structure Sources where
  given : Members := []
  environment : List (String × String) := []
  file : List EnvFile.Binding := []

/-- the value of a name from the first source that has one -/
def Sources.find? (s : Sources) (name : String) : Option Json :=
  match s.given.get? name with
  | some j => some j
  | none =>
    match Table.get? s.environment name with
    | some t => some (.str t)
    | none => (Table.get? s.file name).bind fun v => v.map Json.str

/-- sources with the text of a file of variables, if there is one -/
def Sources.ofTexts (given : Members) (environment : List (String × String)) (file : Option String) : Sources :=
  ⟨given, environment, (file.map (EnvFile.values environment)).getD []⟩

/-! ## Checks -/

def policies : List String := ["last_wins", "fail"]

/-- a policy in any case and between blanks -/
def readPolicy (j : Json) : Checked String :=
  match readText j with
  | .error ps => .error ps
  | .ok s =>
    let p := Text.lower (Text.strip s)
    if policies.contains p then .ok p
    else .fail (.refused "CODEGEN_CONFLICT_POLICY must be 'last_wins' or 'fail'")

def readLevel (j : Json) : Checked Int :=
  match readInt j with
  | .error ps => .error ps
  | .ok n =>
    if 0 ≤ n ∧ n ≤ 9 then .ok n else .fail (.refused "ARCHIVE_COMPRESSION_LEVEL must be between 0 and 9")

/-- one field: its default when no source has it -/
def take {α : Type} (s : Sources) (name : String) (check : Json → Checked α) (other : α) : Checked α :=
  match s.find? name with
  | some j => Checked.under name (check j)
  | none => .ok other

/-- settings from their sources -/
def read (s : Sources) : Checked Settings :=
  let d := standard
  let text := fun name other => take s name readText other
  let optional := fun name => take s name (readOptional readText) none
  let r := Checked.map Settings.mk (text "APP_NAME" d.appName)
  let r := Checked.apply r (text "ENVIRONMENT" d.environment)
  let r := Checked.apply r (take s "DEBUG" readBool d.debug)
  let r := Checked.apply r (text "API_VERSION" d.apiVersion)
  let r := Checked.apply r (text "SERVER_HOST" d.serverHost)
  let r := Checked.apply r (take s "SERVER_PORT" readInt d.serverPort)
  let r := Checked.apply r (text "CORS_ORIGINS_STR" d.originList)
  let r := Checked.apply r (text "DATABASE_URL" d.databaseUrl)
  let r := Checked.apply r (take s "DB_ECHO" readBool d.databaseEcho)
  let r := Checked.apply r (text "LOG_LEVEL" d.logLevel)
  let r := Checked.apply r (text "LOG_FILE" d.logFile)
  let r := Checked.apply r (optional "SPRING_TEMPLATE_DIR")
  let r := Checked.apply r (optional "SCRATCH_DIR")
  let r := Checked.apply r (text "SCRATCH_PREFIX" d.scratchPrefix)
  let r := Checked.apply r (text "ARCHIVE_FILENAME" d.archiveName)
  let r := Checked.apply r (take s "ARCHIVE_CHUNK_SIZE" readInt d.chunkSize)
  let r := Checked.apply r (take s "ARCHIVE_COMPRESSION_LEVEL" readLevel d.compressionLevel)
  let r := Checked.apply r (take s "CODEGEN_CONFLICT_POLICY" readPolicy d.conflictPolicy)
  let r := Checked.apply r (text "COLLECTION_NAME" d.collectionName)
  Checked.apply r (text "COLLECTION_BASE_URL" d.collectionUrl)

/-! ## What follows from settings -/

/-- a path that was given and is not empty -/
def presentPath (s : Option String) : Option Path :=
  match s with
  | some t => if t.isEmpty then none else some (Path.ofString t)
  | none => none

def templatePath (s : Settings) : Option Path := presentPath s.templateDir

def scratchPath (s : Settings) : Option Path := presentPath s.scratchDir

def origins (s : Settings) : Json := originsOf (.str s.originList)

/-- the address of a database with the driver that is used for it -/
def driverUrl (url : String) : String :=
  if Text.dropPrefix? "postgresql://".toList url.toList |>.isSome then
    Text.replaceAll "postgresql://" "postgresql+asyncpg://" url
  else if Text.dropPrefix? "sqlite:///".toList url.toList |>.isSome then
    Text.replaceAll "sqlite:///" "sqlite+aiosqlite:///" url
  else url

def connectionUrl (s : Settings) : String := driverUrl s.databaseUrl

/-- the names of the settings, as sources write them -/
def names : List String := [
  "APP_NAME", "ENVIRONMENT", "DEBUG", "API_VERSION", "SERVER_HOST", "SERVER_PORT", "CORS_ORIGINS_STR", "DATABASE_URL",
  "DB_ECHO", "LOG_LEVEL", "LOG_FILE", "SPRING_TEMPLATE_DIR", "SCRATCH_DIR", "SCRATCH_PREFIX", "ARCHIVE_FILENAME",
  "ARCHIVE_CHUNK_SIZE", "ARCHIVE_COMPRESSION_LEVEL", "CODEGEN_CONFLICT_POLICY", "COLLECTION_NAME",
  "COLLECTION_BASE_URL"]

/-- one setting given a value without a check; a value of another type changes nothing -/
def assign (s : Settings) (name : String) (value : Json) : Settings :=
  match name, value with
  | "APP_NAME", .str v => { s with appName := v }
  | "ENVIRONMENT", .str v => { s with environment := v }
  | "DEBUG", v => { s with debug := v.truthy }
  | "API_VERSION", .str v => { s with apiVersion := v }
  | "SERVER_HOST", .str v => { s with serverHost := v }
  | "SERVER_PORT", .int v => { s with serverPort := v }
  | "CORS_ORIGINS_STR", .str v => { s with originList := v }
  | "DATABASE_URL", .str v => { s with databaseUrl := v }
  | "DB_ECHO", v => { s with databaseEcho := v.truthy }
  | "LOG_LEVEL", .str v => { s with logLevel := v }
  | "LOG_FILE", .str v => { s with logFile := v }
  | "SPRING_TEMPLATE_DIR", v => { s with templateDir := v.str? }
  | "SCRATCH_DIR", v => { s with scratchDir := v.str? }
  | "SCRATCH_PREFIX", .str v => { s with scratchPrefix := v }
  | "ARCHIVE_FILENAME", .str v => { s with archiveName := v }
  | "ARCHIVE_CHUNK_SIZE", .int v => { s with chunkSize := v }
  | "ARCHIVE_COMPRESSION_LEVEL", .int v => { s with compressionLevel := v }
  | "CODEGEN_CONFLICT_POLICY", .str v => { s with conflictPolicy := v }
  | "COLLECTION_NAME", .str v => { s with collectionName := v }
  | "COLLECTION_BASE_URL", .str v => { s with collectionUrl := v }
  | _, _ => s

def assignAll (s : Settings) (values : Members) : Settings := values.foldl (fun s m => s.assign m.1 m.2) s

end Settings

end Classwright
