/-
What a request path says about a request: whether it is worth a log entry, whether the answer is streamed, and which
stored diagram it asks for. A path is given as a text; values of other types are refused.
-/
import Classwright.Fault

namespace Classwright.Service

/-- paths that are asked for all the time -/
def quietPaths : List String := ["/health", "/", "/favicon.ico", "/docs", "/redoc", "/openapi.json"]

def healthRoot : String := "/api/v1/health"

def streamRoot : String := "/api/v1/export/generate-spring"

def startsWith (path root : String) : Bool := (Text.dropPrefix? root.toList path.toList).isSome

def isQuiet (path : String) : Bool := quietPaths.contains path || startsWith path healthRoot

def isStreaming (path : String) : Bool := startsWith path streamRoot

/-- the last of the two segments behind the first `export`, when there are exactly two -/
def diagramId (path : String) : String :=
  let parts := (Text.splitOn '/' path).filter fun p => !p.isEmpty
  match (parts.dropWhile (· != "export")).drop 1 with
  | [_, id] => id
  | _ => ""

def onPath {α : Type} (f : String → α) : Json → Except Fault α
  | .str s => .ok (f s)
  | _ => .error .noMember

/-- lists and objects cannot be looked up among the quiet paths -/
def isQuietValue : Json → Except Fault Bool
  | .arr _ | .obj _ => .error .wrongType
  | j => onPath isQuiet j

end Classwright.Service
