/-
Which endpoint a path leads to, and with which method it is called.

- `Endpoint.ofPath?`: the endpoint of a path;
- `Route.of`: what becomes of a request: an endpoint, a refused method, a path that is right without the slashes at its end,
  or nothing.
-/
import Classwright.Text.Basic

namespace Classwright.Service

inductive Endpoint where
  | health
  | welcome
  | live
  | ready
  | archiveFromBody
  | archiveFromStore (id : String)
  | collectionFromBody
  | collectionFromStore (id : String)
  deriving DecidableEq, Repr

namespace Endpoint

def method : Endpoint → String
  | .archiveFromBody | .collectionFromBody => "POST"
  | _ => "GET"

/-- the endpoint of the parts of a path -/
def ofParts? : List String → Option Endpoint
  | [""] => some .welcome
  | ["health"] => some .health
  | ["api", "v1", "health", "live"] => some .live
  | ["api", "v1", "health", "ready"] => some .ready
  | ["api", "v1", "export", "generate-spring"] => some .archiveFromBody
  | ["api", "v1", "export", "generate-spring", id] => if id.isEmpty then none else some (.archiveFromStore id)
  | ["api", "v1", "export", "postman"] => some .collectionFromBody
  | ["api", "v1", "export", "postman", id] => if id.isEmpty then none else some (.collectionFromStore id)
  | _ => none

def ofPath? (path : String) : Option Endpoint :=
  match Text.splitOn '/' path with
  | "" :: parts => ofParts? parts
  | _ => none

end Endpoint

inductive Route where
  | to (e : Endpoint)
  | wrongMethod (allowed : String)
  | redirect (path : String)
  | nowhere
  deriving DecidableEq, Repr

namespace Route

/-- a path without the slashes at its end -/
def trimmed (path : String) : String := String.ofList (path.toList.reverse.dropWhile (· == '/')).reverse

def of (method path : String) : Route :=
  match Endpoint.ofPath? path with
  | some e => if method = e.method then .to e else .wrongMethod e.method
  | none =>
    let other := trimmed path
    if other ≠ path ∧ (Endpoint.ofPath? other).isSome then .redirect other else .nowhere

end Route

end Classwright.Service
