/-
JSON values. Whole numbers are exact and of any size; numbers with a fraction or an exponent are double-precision.
Objects keep the order of their members, and no name occurs twice in an object that the reader built.

- `Json.get?`, `Json.has`: the member of an object;
- `Members.set`: a member replaced in its place or added at the end, so the first position and the last value win;
- `Json.truthy`: the values that count as present.
-/
import Classwright.Number.Binary64

namespace Classwright

inductive Json where
  | null
  | bool (b : Bool)
  | int (n : Int)
  | real (x : Binary64)
  | str (s : String)
  | arr (items : List Json)
  | obj (members : List (String × Json))

/-- the members of an object, in order -/
abbrev Members := List (String × Json)

namespace Members

def get? (ms : Members) (key : String) : Option Json :=
  match ms with
  | [] => none
  | (k, v) :: rest => if k = key then some v else get? rest key

def has (ms : Members) (key : String) : Bool := (ms.get? key).isSome

/-- a member replaced where it stands, or added at the end -/
def set (ms : Members) (key : String) (value : Json) : Members :=
  match ms with
  | [] => [(key, value)]
  | (k, v) :: rest => if k = key then (k, value) :: rest else (k, v) :: set rest key value

/-- members set one after the other -/
def update (ms : Members) (more : Members) : Members :=
  more.foldl (fun acc m => acc.set m.1 m.2) ms

theorem get?_set_self (ms : Members) (key : String) (value : Json) : (ms.set key value).get? key = some value := by
  induction ms with
  | nil => simp [set, get?]
  | cons m rest ih =>
    obtain ⟨k, v⟩ := m
    by_cases h : k = key
    · simp [set, get?, h]
    · simp [set, get?, h, ih]

theorem get?_set_of_ne (ms : Members) {key other : String} (value : Json) (h : key ≠ other) :
    (ms.set key value).get? other = ms.get? other := by
  induction ms with
  | nil => simp [set, get?, h]
  | cons m rest ih =>
    obtain ⟨k, v⟩ := m
    by_cases hk : k = key
    · subst hk; simp [set, get?, h]
    · rw [set, if_neg hk, get?, get?, ih]

end Members

namespace Json

instance : Inhabited Json := ⟨.null⟩

/-- the member of an object; nothing for every other value -/
def get? (j : Json) (key : String) : Option Json :=
  match j with
  | .obj ms => Members.get? ms key
  | _ => none

/-- the member of an object, an absent one reading as null -/
def field (j : Json) (key : String) : Json := (j.get? key).getD .null

def isNull : Json → Bool
  | .null => true
  | _ => false

def isObject : Json → Bool
  | .obj _ => true
  | _ => false

/-- whether a value counts as present: neither null, false, zero, nor an empty text, list or object -/
def truthy : Json → Bool
  | .null => false
  | .bool b => b
  | .int n => n != 0
  | .real x => !x.isZero
  | .str s => !s.isEmpty
  | .arr items => !items.isEmpty
  | .obj members => !members.isEmpty

def str? : Json → Option String
  | .str s => some s
  | _ => none

def int? : Json → Option Int
  | .int n => some n
  | _ => none

def items? : Json → Option (List Json)
  | .arr items => some items
  | _ => none

def ofOption {α : Type} (f : α → Json) : Option α → Json
  | none => .null
  | some a => f a

def ofStrings (xs : List String) : Json := .arr (xs.map .str)

end Json

end Classwright
