/-
The request collection: for every class a folder with the five requests that its controller answers, in the Postman
collection format 2.1.

- `exampleValue`: a value for an attribute in the body of a request;
- `exampleBody`: the JSON text of such a body, one member for each attribute;
- `Collection.ofDiagram`: the document, with the log of the name table and a last entry that counts the folders.
-/
import Classwright.Json.Printer
import Classwright.NameTable

namespace Classwright

/-- a value that fits an attribute: a number for keys and whole numbers, else a text that shows the written type -/
def exampleValue (a : Attribute) : Json :=
  if a.name = "id" then .int 1
  else match a.type with
    | .int => .int 123
    | .long => .int 123456789
    | _ => .str ("Example" ++ (if a.rawType.isEmpty then "String" else a.rawType))

/-- the members of a request body -/
def exampleMembers (attributes : List Attribute) : Members :=
  attributes.foldl (fun ms a => Members.set ms a.name (exampleValue a)) []

def exampleBody (attributes : List Attribute) : String := Json.indented (.obj (exampleMembers attributes))

/-- one request of a collection -/
structure Request where
  name : String
  method : String
  /-- the segments of the path behind the base URL -/
  path : List String
  description : String
  body : Option String
  deriving DecidableEq, Repr

/-- the requests for one class -/
structure Folder where
  name : String
  requests : List Request
  deriving DecidableEq, Repr

/-- a variable as it stands in a URL -/
def placeholder (name : String) : String := "\x7b\x7b" ++ name ++ "\x7d\x7d"

def basePlaceholder : String := placeholder "baseUrl"

namespace Request

def url (r : Request) : Json :=
  .obj [("raw", .str (basePlaceholder ++ "/" ++ Text.joinWith "/" r.path)),
    ("host", Json.ofStrings [basePlaceholder]), ("path", Json.ofStrings r.path)]

def header (key : String) : Json := .obj [("key", .str key), ("value", .str "application/json")]

def bodyJson (text : String) : Json :=
  .obj [("mode", .str "raw"), ("raw", .str text), ("options", .obj [("raw", .obj [("language", .str "json")])])]

def toJson (r : Request) : Json :=
  .obj [("name", .str r.name),
    ("request", .obj ([("method", .str r.method), ("header", .arr [header "Accept", header "Content-Type"]),
      ("url", r.url), ("description", .str r.description)] ++
      match r.body with
      | some text => [("body", bodyJson text)]
      | none => [])),
    ("response", .arr [])]

end Request

namespace Folder

/-- the five requests for a class -/
def ofClass (name : String) (attributes : List Attribute) : Folder :=
  let lower := Naming.lowerFirst name
  let all := ["api", lower]
  let one := ["api", lower, placeholder (lower ++ "Id")]
  let body := some (exampleBody attributes)
  ⟨name, [
    ⟨"Get All " ++ Naming.plural name, "GET", all, "Get all " ++ name ++ " records", none⟩,
    ⟨"Get " ++ name ++ " by ID", "GET", one, "Get one " ++ name ++ " by ID", none⟩,
    ⟨"Create " ++ name, "POST", all, "Create a new " ++ name, body⟩,
    ⟨"Update " ++ name, "PUT", one, "Update an existing " ++ name, body⟩,
    ⟨"Delete " ++ name, "DELETE", one, "Delete one " ++ name ++ " by ID", none⟩]⟩

def toJson (f : Folder) : Json := .obj [("name", .str f.name), ("item", .arr (f.requests.map Request.toJson))]

end Folder

structure Collection where
  name : String
  baseUrl : String
  folders : List Folder
  deriving DecidableEq, Repr

namespace Collection

def schema : String := "https://schema.getpostman.com/json/collection/v2.1.0/collection.json"

def description : String := "CRUD requests for every entity of the generated Spring Boot API"

def foldersOf (t : NameTable) : List Folder := t.classes.map fun c => Folder.ofClass c.1 c.2

def ofDiagram (name baseUrl : String) (d : Diagram) : Collection × Log :=
  let t := NameTable.ofDiagram d
  let folders := foldersOf t.1
  (⟨name, baseUrl, folders⟩,
    t.2 ++ [LogEntry.info ("[PostmanGenerator] Generated collection with " ++ Nat.repr folders.length ++ " resources")])

def toJson (c : Collection) : Json :=
  .obj [("info", .obj [("name", .str c.name), ("description", .str description), ("schema", .str schema)]),
    ("item", .arr (c.folders.map Folder.toJson)),
    ("variable", .arr [.obj [("key", .str "baseUrl"), ("value", .str c.baseUrl), ("type", .str "string")]])]

end Collection

end Classwright
