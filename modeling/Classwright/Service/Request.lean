/-
Requests: method, target, headers and body.

- `Request.path`: the path of a target, its escapes decoded; `Request.shownPath` is how it stands in the log, where a
  decoded question or number sign ends it;
- `Request.payload`: the body as an object, or the answer that says what is wrong with it. Only a body that is marked as
  JSON is read as JSON.
-/
import Classwright.Json.Reader
import Classwright.Text.Case

namespace Classwright.Service

structure Request where
  method : String
  /-- the path with its escapes, perhaps with a query behind it -/
  target : String
  headers : List (String × String) := []
  body : String := ""

namespace Request

/-! ## Targets -/

/-- bytes of a target with escapes decoded; a percent sign without two digits stands for itself -/
def decodeBytes : List UInt8 → List UInt8
  | [] => []
  | b :: c :: d :: rest =>
    match if b = 37 then some (Char.ofNat c.toNat, Char.ofNat d.toNat) else none with
    | some (x, y) =>
      match Json.hexValue? x, Json.hexValue? y with
      | some high, some low => UInt8.ofNat (16 * high + low) :: decodeBytes rest
      | _, _ => b :: decodeBytes (c :: d :: rest)
    | none => b :: decodeBytes (c :: d :: rest)
  | b :: rest => b :: decodeBytes rest

/-- the text in bytes; when they are no text, every one outside ASCII is replaced -/
def textOfBytes (bs : List UInt8) : String :=
  match String.fromUTF8? ⟨bs.toArray⟩ with
  | some s => s
  | none => String.ofList (bs.map fun b => if b < 128 then Char.ofNat b.toNat else '\uFFFD')

/-- a path without the parts that stand for here and for the part before -/
def dropDots (path : String) : String :=
  let parts := Text.splitOn '/' path
  if parts.contains "." || parts.contains ".." then
    Text.joinWith "/" (parts.foldl (fun out part =>
      if part = "." then out
      else if part = ".." then (if out.isEmpty || out == [""] then out else out.dropLast)
      else out ++ [part]) [])
  else path

def isTargetEnd (c : Char) : Bool := c == '?' || c == '#'

/-- the path of a target as it is routed -/
def path (r : Request) : String :=
  let cs := r.target.toList.takeWhile fun c => !isTargetEnd c
  let cs := '/' :: cs.dropWhile (· == '/')
  textOfBytes (decodeBytes (dropDots (String.ofList cs)).toUTF8.data.toList)

/-- the path as it is logged -/
def shownPath (r : Request) : String :=
  let cs := r.path.toList.filter fun c => c != '\t' && c != '\r' && c != '\n'
  String.ofList (cs.takeWhile fun c => !isTargetEnd c)

/-! ## Headers -/

/-- a header, whatever the case of its name -/
def header? (r : Request) (name : String) : Option String :=
  (r.headers.find? fun h => Text.lower h.1 == name).map Prod.snd

/-- whether a content type says that a body is JSON -/
def isJsonType (value : String) : Bool :=
  let kind := Text.lower (Text.strip (String.ofList (value.toList.takeWhile (· != ';'))))
  match Text.splitOn '/' kind with
  | ["application", sub] => sub == "json" || (Text.dropPrefix? "nosj+".toList sub.toList.reverse).isSome
  | _ => false

/-! ## Bodies -/

/-- one fault of a request as it is reported -/
def problem (type : String) (place : List Json) (message : String) (input : Json) (more : Members) : Json :=
  .obj ([("type", .str type), ("loc", .arr (.str "body" :: place)), ("msg", .str message), ("input", input)] ++ more)

/-- the answer to a body that is not taken -/
def refusal (problem : Json) : Json := .obj [("detail", .arr [problem])]

def notObject (input : Json) : Json := refusal (problem "dict_type" [] "Input should be a valid dictionary" input [])

def missing : Json := refusal (problem "missing" [] "Field required" .null [])

def malformed (e : Json.ReadError) : Json :=
  refusal (problem "json_invalid" [.int e.position] "JSON decode error" (.obj [])
    [("ctx", .obj [("error", .str e.cause.message)])])

/-- a text without the mark that may stand before it -/
def dropMark (s : String) : String :=
  match s.toList with
  | '\uFEFF' :: rest => String.ofList rest
  | _ => s

def asObject : Json → Except Json Json
  | .obj ms => .ok (.obj ms)
  | j => .error (notObject j)

/-- the object in a body, or the answer that says what is wrong -/
def payload (r : Request) : Except Json Json :=
  if r.body.isEmpty then .error missing
  else if ((r.header? "content-type").map isJsonType).getD false then
    match Json.parse (dropMark r.body) with
    | .ok j => asObject j
    | .error e => .error (malformed e)
  else .error (notObject (.str r.body))

end Request

end Classwright.Service
