/-
The origins that may call the service from a browser, written as a JSON list or with commas between them. A list is taken
as it is; a text that starts like a JSON list but is none is cut at its commas.
-/
import Classwright.Json.Reader

namespace Classwright

/-- the pieces of a text between commas, without blanks around them and without empty pieces -/
def commaList (s : String) : List String := ((Text.splitOn ',' s).map Text.strip).filter fun p => !p.isEmpty

def originsOfText (s : String) : Json :=
  match s.toList.head?, Json.parse s with
  | some '[', .ok j => j
  | _, _ => Json.ofStrings (commaList s)

def originsOf : Json → Json
  | .arr items => .arr items
  | .str s => originsOfText s
  | _ => .arr []

end Classwright
