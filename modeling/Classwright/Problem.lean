/-
Checking values from outside, with every problem reported and not only the first.

- `Cause`: what can be wrong with one value; `Problem`: a cause with the path to the value;
- `Checked`: a value, or the problems found; `Checked.pair` checks two parts and keeps the problems of both, first part
  first; `Checked.list` checks the items of a list in order;
- `readText`, `readBool`, `readInt` …: the values each kind of field accepts. A truth value may be given as 0 or 1 or by a
  word, a whole number as a text or as a number without a fractional part.
-/
import Classwright.Json.Display
import Classwright.Text.Case
import Classwright.Text.Basic

namespace Classwright

/-- what is wrong with a value -/
inductive Cause where
  | notObject (model : String)
  | notFields
  | notList
  | notText
  | emptyText
  | missing
  | notBool
  | unreadableBool
  | notInt
  | unreadableInt
  | fractional
  | notFinite
  | oversizedInt
  | unknownTag (tag : String)
  | refused (reason : String)
  deriving DecidableEq, Repr

namespace Cause

/-- the tags an edge may carry, as they are listed in a message -/
def expectedTags : String :=
  "'association', 'aggregation', 'composition', 'inheritance', 'realization', 'dependency'"

def message : Cause → String
  | .notObject model => "Input should be a valid dictionary or instance of " ++ model
  | .notFields => "Input should be a valid dictionary or object to extract fields from"
  | .notList => "Input should be a valid list"
  | .notText => "Input should be a valid string"
  | .emptyText => "String should have at least 1 character"
  | .missing => "Field required"
  | .notBool => "Input should be a valid boolean"
  | .unreadableBool => "Input should be a valid boolean, unable to interpret input"
  | .notInt => "Input should be a valid integer"
  | .unreadableInt => "Input should be a valid integer, unable to parse string as an integer"
  | .fractional => "Input should be a valid integer, got a number with a fractional part"
  | .notFinite => "Input should be a finite number"
  | .oversizedInt => "Unable to parse input string as an integer, exceeded maximum size"
  | .unknownTag tag =>
    "Input tag '" ++ tag ++ "' found using 'kind' does not match any of the expected tags: " ++ expectedTags
  | .refused reason => "Value error, " ++ reason

/-- the code under which a cause is reported -/
def code : Cause → String
  | .notObject _ => "model_type"
  | .notFields => "model_attributes_type"
  | .notList => "list_type"
  | .notText => "string_type"
  | .emptyText => "string_too_short"
  | .missing => "missing"
  | .notBool => "bool_type"
  | .unreadableBool => "bool_parsing"
  | .notInt => "int_type"
  | .unreadableInt => "int_parsing"
  | .fractional => "int_from_float"
  | .notFinite => "finite_number"
  | .oversizedInt => "int_parsing_size"
  | .unknownTag _ => "union_tag_invalid"
  | .refused _ => "value_error"

end Cause

/-- a cause with the path to the value, outermost step first -/
structure Problem where
  path : List String
  cause : Cause
  deriving DecidableEq, Repr

namespace Problem

def under (step : String) (p : Problem) : Problem := { p with path := step :: p.path }

/-- the dotted path; the path of the whole value is `whole` -/
def location (whole : String) (p : Problem) : String :=
  let s := Text.joinWith "." p.path
  if s.isEmpty then whole else s

def toJson (whole : String) (p : Problem) : Json :=
  .obj [("loc", .str (p.location whole)), ("message", .str p.cause.message), ("type", .str p.cause.code)]

end Problem

/-- a value, or the problems found in it -/
abbrev Checked (α : Type) := Except (List Problem) α

namespace Checked

def fail {α : Type} (c : Cause) : Checked α := .error [⟨[], c⟩]

/-- the problems of a part, located inside the whole -/
def under {α : Type} (step : String) : Checked α → Checked α
  | .ok a => .ok a
  | .error ps => .error (ps.map (Problem.under step))

/-- both parts, or the problems of the first followed by those of the second -/
def pair {α β : Type} (a : Checked α) (b : Checked β) : Checked (α × β) :=
  match a, b with
  | .ok x, .ok y => .ok (x, y)
  | .ok _, .error qs => .error qs
  | .error ps, .ok _ => .error ps
  | .error ps, .error qs => .error (ps ++ qs)

def map {α β : Type} (f : α → β) : Checked α → Checked β
  | .ok a => .ok (f a)
  | .error ps => .error ps

/-- one more part for a function that waits for it -/
def apply {α β : Type} (f : Checked (α → β)) (a : Checked α) : Checked β :=
  map (fun p => p.1 p.2) (pair f a)

/-- the items of a list, each located by its index; indices count from `start` -/
def listFrom {α : Type} (check : Json → Checked α) (start : Nat) : List Json → Checked (List α)
  | [] => .ok []
  | j :: rest =>
    map (fun p => p.1 :: p.2) (pair (under (Nat.repr start) (check j)) (listFrom check (start + 1) rest))

def list {α : Type} (check : Json → Checked α) : Json → Checked (List α)
  | .arr items => listFrom check 0 items
  | _ => fail .notList

/-- the problems that were found -/
def problems {α : Type} : Checked α → List Problem
  | .ok _ => []
  | .error ps => ps

@[simp] theorem problems_pair {α β : Type} (a : Checked α) (b : Checked β) :
    problems (pair a b) = problems a ++ problems b := by
  cases a <;> cases b <;> simp [pair, problems]

@[simp] theorem problems_map {α β : Type} (f : α → β) (a : Checked α) : problems (map f a) = problems a := by
  cases a <;> rfl

end Checked

/-! ## The values of a field -/

def readText : Json → Checked String
  | .str s => .ok s
  | _ => .fail .notText

def readNonempty (j : Json) : Checked String :=
  match j with
  | .str s => if s.isEmpty then .fail .emptyText else .ok s
  | _ => .fail .notText

def readOptional {α : Type} (read : Json → Checked α) : Json → Checked (Option α)
  | .null => .ok none
  | j => Checked.map some (read j)

def trueWords : List String := ["1", "t", "true", "y", "yes", "on"]

def falseWords : List String := ["0", "f", "false", "n", "no", "off"]

/-- whether a whole number fits into 64 bits with a sign -/
def fits64 (n : Int) : Bool := decide (-0x8000000000000000 ≤ n ∧ n < 0x8000000000000000)

def boolOfInt (n : Int) : Checked Bool :=
  if n = 0 then .ok false
  else if n = 1 then .ok true
  else if fits64 n then .fail .unreadableBool
  else .fail .notBool

def readBool : Json → Checked Bool
  | .bool b => .ok b
  | .str s =>
    let w := Text.lower s
    if trueWords.contains w then .ok true
    else if falseWords.contains w then .ok false
    else .fail .unreadableBool
  | .int n => boolOfInt n
  | .real x =>
    match x.toInt? with
    | some n => boolOfInt n
    | none => .fail .notBool
  | _ => .fail .notBool

/-- digits in groups that single underscores divide -/
def groupedDigits? (cs : List Char) : Option Nat :=
  let groups := Text.splitChars '_' cs
  if groups.all fun g => !g.isEmpty && g.all Char.isDigit then
    some (groups.flatten.foldl (fun n c => n * 10 + (c.toNat - 48)) 0)
  else none

/-- a decimal whole number: perhaps a sign, digits, perhaps a fraction of zeros -/
def intOfText? (s : String) : Option Int :=
  let cs := (Text.strip s).toList
  let (neg, cs) := match cs with
    | '-' :: r => (true, r)
    | '+' :: r => (false, r)
    | r => (false, r)
  let whole := cs.takeWhile (· != '.')
  let places := (cs.dropWhile (· != '.')).drop 1
  if places.all (· == '0') then (groupedDigits? whole).map (Binary64.signed neg) else none

def readInt : Json → Checked Int
  | .int n => .ok n
  | .bool b => .ok (if b then 1 else 0)
  | .real x =>
    if !x.isFinite then .fail .notFinite
    else match x.toInt? with
      | none => .fail .fractional
      | some n => if fits64 n then .ok n else .fail .oversizedInt
  | .str s =>
    match intOfText? s with
    | some n => .ok n
    | none => .fail .unreadableInt
  | _ => .fail .notInt

end Classwright
