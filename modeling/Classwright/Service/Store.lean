/-
Stored diagrams: records with an id, a name and the payload that the editor saved. Only active records are found.
-/
import Classwright.Json.Display

namespace Classwright

structure StoredDiagram where
  id : Json
  name : Json
  model : Json
  active : Bool

namespace StoredDiagram

/-- where the records are kept -/
def table : String := "diagrams"

/-- a record as it stands in messages -/
def text (d : StoredDiagram) : String := "<Diagram " ++ d.id.display ++ " " ++ d.name.literal ++ ">"

/-- the active record with an id -/
def find? (store : List StoredDiagram) (id : String) : Option StoredDiagram :=
  store.find? fun d => d.active && d.id.display == id

/-- the payload of a record; a blank one counts as empty -/
def payload (d : StoredDiagram) : Json := if d.model.truthy then d.model else .obj []

end StoredDiagram

end Classwright
